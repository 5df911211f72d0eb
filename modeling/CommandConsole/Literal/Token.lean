import CommandConsole.Text.Scanner
import CommandConsole.Literal.Basic
import CommandConsole.Variable.Name

/-!
# Recognizing literals

A literal is recognized at the start of a text as a token. Whatever its shape,
the token ends at a boundary: `346x` is no integer, and `3.4` is never an
integer followed by something else. Most shapes are as long as they can be and
are then checked for the boundary; an object reference instead ends at the
first closing brace that has a boundary behind it, so its name may hold braces.

The main statement is `length_rest_lt_of_recognize`: a token is never empty,
which is why reading one literal after the other comes to an end.
-/

namespace CommandConsole

open Text

/-- Digits with an optional minus sign and an optional fraction. -/
def numberScanner : Scanner :=
  .seq [.optional (.text ['-']), .some1 Char.isDigit,
    .optional (.seq [.text ['.'], .some1 Char.isDigit])]

/-- A number between blanks. -/
def componentScanner : Scanner := .seq [.many isBlank, numberScanner, .many isBlank]

/-- Numbers in parentheses, with commas between them and a word in front. -/
def TupleShape.scanner (shape : TupleShape) : Scanner :=
  .seq ([.text shape.lead, .text ['('], componentScanner] ++
    List.replicate (shape.arity - 1) (.seq [.text [','], componentScanner]) ++ [.text [')']])

/-- What is left of a quoted text behind its opening quote, up to the closing
one. A backslash takes the next character with it, whatever that is. -/
def quotedScanner : Scanner
  | [] => none
  | ['\\'] => none
  | '\\' :: c :: r => (quotedScanner r).map fun (t, u) => ('\\' :: c :: t, u)
  | c :: r => if c = '"' then some (['"'], r) else (quotedScanner r).map fun (t, u) => (c :: t, u)

/-- What is left of an object reference, up to the first closing brace at a
boundary and within the line. -/
def braceScanner : Scanner
  | [] => none
  | c :: r =>
    if c = '\n' then none
    else if c = '}' && atBoundary r then some (['}'], r)
    else (braceScanner r).map fun (t, u) => (c :: t, u)

/-- A number sign with six or eight hexadecimal digits, or a color word. -/
def colorScanner : Scanner :=
  .either
    (.such (fun t => t.length = 7 || t.length = 9) (.seq [.text ['#'], .some1 isHexDigit]))
    (.such isColorName (.some1 (!isBlank ·)))

namespace Literal

/-- The shape of a literal, before the boundary behind it is looked at. The
first character of an object name is not examined, so it may be any. -/
def scanner : Literal → Scanner
  | null => .seq [.one (fun c => c = 'N' || c = 'n'), .text "ull".toList]
  | float => .seq [.optional (.text ['-']), .some1 Char.isDigit, .text ['.'], .some1 Char.isDigit]
  | string => .seq [.text ['"'], quotedScanner]
  | bool =>
    .either (.seq [.one (fun c => c = 'T' || c = 't'), .text "rue".toList])
      (.seq [.one (fun c => c = 'F' || c = 'f'), .text "alse".toList])
  | char => .seq [.text ['\''], .one (· ≠ '\n'), .text ['\'']]
  | int => .seq [.optional (.text ['-']), .some1 Char.isDigit]
  | tuple shape => shape.scanner
  | color => colorScanner
  | object => .seq [.text ['{'], .one (fun _ => true), braceScanner]
  | varName =>
    .such VariableName.isValid
      (.seq [.one VariableName.isLetter, .many VariableName.isLetterOrDigit])

/-- The token at the start of a text, and the text behind it. -/
def recognize (l : Literal) : Scanner := .bounded l.scanner

end Literal

namespace Text.Scanner

theorem splits_quotedScanner : Splits quotedScanner := by
  intro s
  fun_induction quotedScanner s with
  | case1 => simp
  | case2 => simp
  | case3 c r ih =>
    intro t u h
    obtain ⟨⟨t', u'⟩, h', e⟩ := Option.map_eq_some_iff.1 h
    obtain ⟨rfl, rfl⟩ := Prod.mk.inj e
    simp [ih h']
  | case4 r =>
    intro t u h
    obtain ⟨rfl, rfl⟩ := Prod.mk.inj (Option.some.inj h)
    rfl
  | case5 c r _ _ _ ih =>
    intro t u h
    obtain ⟨⟨t', u'⟩, h', e⟩ := Option.map_eq_some_iff.1 h
    obtain ⟨rfl, rfl⟩ := Prod.mk.inj e
    simp [ih h']

theorem splits_braceScanner : Splits braceScanner := by
  intro s
  fun_induction braceScanner s with
  | case1 => simp
  | case2 => simp
  | case3 c r _ h =>
    intro t u h'
    obtain ⟨rfl, rfl⟩ := Prod.mk.inj (Option.some.inj h')
    simp_all
  | case4 c r _ _ ih =>
    intro t u h
    obtain ⟨⟨t', u'⟩, h', e⟩ := Option.map_eq_some_iff.1 h
    obtain ⟨rfl, rfl⟩ := Prod.mk.inj e
    simp [ih h']

theorem splits_numberScanner : Splits numberScanner :=
  splits_seq <| by
    simp only [List.mem_cons, List.not_mem_nil, or_false, forall_eq_or_imp, forall_eq]
    exact ⟨(splits_text _).optional, splits_some1 _,
      .optional <| splits_seq <| by simp [splits_text, splits_some1]⟩

theorem splits_componentScanner : Splits componentScanner :=
  splits_seq <| by simp [splits_many, splits_numberScanner]

end Text.Scanner

open Text.Scanner

theorem TupleShape.splits_scanner (shape : TupleShape) : Splits shape.scanner := by
  refine splits_seq fun a ha => ?_
  simp only [List.cons_append, List.nil_append, List.mem_cons, List.mem_append,
    List.mem_replicate, List.not_mem_nil, or_false] at ha
  rcases ha with rfl | rfl | rfl | ⟨_, rfl⟩ | rfl
  · exact splits_text _
  · exact splits_text _
  · exact splits_componentScanner
  · exact splits_seq <| by simp [splits_text, splits_componentScanner]
  · exact splits_text _

theorem splits_colorScanner : Splits colorScanner :=
  .either (.such (splits_seq <| by simp [splits_text, splits_some1]) _)
    (.such (splits_some1 _) _)

namespace Literal

theorem splits_scanner (l : Literal) : Splits l.scanner := by
  cases l with
  | tuple shape => exact shape.splits_scanner
  | color => exact splits_colorScanner
  | varName => exact .such (splits_seq <| by simp [splits_one, splits_many]) _
  | bool =>
    exact .either (splits_seq <| by simp [splits_one, splits_text])
      (splits_seq <| by simp [splits_one, splits_text])
  | _ =>
    exact splits_seq <| by
      simp [splits_one, splits_text, splits_some1, Splits.optional, splits_quotedScanner,
        splits_braceScanner]

theorem advances_scanner (l : Literal) : Advances l.scanner := by
  cases l with
  | null => exact advances_seq (List.mem_cons_self ..) (advances_one _)
  | float => exact advances_seq (a := .some1 Char.isDigit) (by simp) (advances_some1 _)
  | string => exact advances_seq (List.mem_cons_self ..) (advances_text (by simp))
  | bool =>
    exact .either (advances_seq (List.mem_cons_self ..) (advances_one _))
      (advances_seq (List.mem_cons_self ..) (advances_one _))
  | char => exact advances_seq (List.mem_cons_self ..) (advances_text (by simp))
  | int => exact advances_seq (a := .some1 Char.isDigit) (by simp) (advances_some1 _)
  | tuple shape => exact advances_seq (a := .text ['(']) (by simp) (advances_text (by simp))
  | color =>
    exact .either (.such (advances_seq (List.mem_cons_self ..) (advances_text (by simp))) _)
      (.such (advances_some1 _) _)
  | object => exact advances_seq (List.mem_cons_self ..) (advances_text (by simp))
  | varName => exact .such (advances_seq (List.mem_cons_self ..) (advances_one _)) _

theorem recognize_eq_append {l : Literal} {s t r : List Char} (h : l.recognize s = some (t, r)) :
    s = t ++ r :=
  l.splits_scanner.bounded h

theorem atBoundary_of_recognize {l : Literal} {s t r : List Char}
    (h : l.recognize s = some (t, r)) : atBoundary r = true :=
  Scanner.atBoundary_of_bounded h

theorem token_ne_nil_of_recognize {l : Literal} {s t r : List Char}
    (h : l.recognize s = some (t, r)) : t ≠ [] :=
  l.advances_scanner.bounded h

theorem length_rest_lt_of_recognize {l : Literal} {s t r : List Char}
    (h : l.recognize s = some (t, r)) : r.length < s.length :=
  length_rest_lt l.splits_scanner.bounded l.advances_scanner.bounded h

end Literal

/-- The name of a variable, if the whole text is one. -/
def VariableName.ofText? (s : List Char) : Option String :=
  match Literal.varName.recognize s with
  | some (t, []) => some (String.ofList t)
  | _ => none

end CommandConsole
