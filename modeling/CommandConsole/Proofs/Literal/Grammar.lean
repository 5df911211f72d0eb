import CommandConsole.Literal.Token
import CommandConsole.Proofs.Text.Language

/-!
# The grammar of literals

Every literal has a language, and it is recognized exactly where a word of its
language is followed by a boundary. What stands behind the boundary does not
matter, and recognizing a token by itself gives the token back.
-/

namespace CommandConsole

open Text Text.Scanner
open scoped Computability

/-- Whole numbers in decimal digits, with an optional minus sign. -/
def wholeNumbers : Language Char := (1 + {['-']}) * runs1 Char.isDigit

/-- A decimal point and digits. -/
def fractions : Language Char := {['.']} * runs1 Char.isDigit

/-- Digits with an optional minus sign and an optional fraction. -/
def numbers : Language Char := (1 + {['-']}) * (runs1 Char.isDigit * (1 + fractions))

/-- Numbers between blanks. -/
def components : Language Char := runs isBlank * (numbers * runs isBlank)

/-- Numbers in parentheses, with commas between them and a word in front. -/
def TupleShape.language (shape : TupleShape) : Language Char :=
  {shape.lead} * ({['(']} * (components *
    (({[',']} * components) ^ (shape.arity - 1) * {[')']})))

/-- What stands for one character of a quoted text. -/
def quotedUnits : Language Char :=
  single (fun c => c ≠ '"' ∧ c ≠ '\\') + {['\\']} * single (fun _ => true)

/-- What may follow an opening brace and one more character: a rest of the line
up to a closing brace, the only one in it that a boundary follows. -/
def braceTails : Language Char :=
  {t | ∃ name, t = name ++ ['}'] ∧ '\n' ∉ name ∧
    ∀ front back, name = front ++ '}' :: back → atBoundary (back ++ ['}']) = false}

/-- A number sign and six or eight hexadecimal digits. -/
def hexColors : Language Char :=
  ({['#']} * runs1 isHexDigit) ⊓ satisfying fun t => t.length = 7 || t.length = 9

/-- The tokens of a literal. -/
def Literal.language : Literal → Language Char
  | null => single (fun c => c = 'N' || c = 'n') * {"ull".toList}
  | float => (1 + {['-']}) * (runs1 Char.isDigit * fractions)
  | string => {['"']} * (quotedUnits∗ * {['"']})
  | bool =>
    single (fun c => c = 'T' || c = 't') * {"rue".toList} +
      single (fun c => c = 'F' || c = 'f') * {"alse".toList}
  | char => {['\'']} * (single (· ≠ '\n') * {['\'']})
  | int => wholeNumbers
  | tuple shape => shape.language
  | color => hexColors + satisfying isColorName
  | object => {['{']} * (single (fun _ => true) * braceTails)
  | varName => satisfying VariableName.isValid

theorem exists_namedColor {t : List Char} (named : isColorName t = true) :
    ∃ x ∈ namedColors, t = x.1.toList := by
  obtain ⟨n, number⟩ := Option.isSome_iff_exists.mp named
  obtain ⟨x, found, _⟩ := Option.map_eq_some_iff.mp number
  have spelled := (List.find?_eq_some_iff_append.mp found).1
  exact ⟨x, List.mem_of_find?_eq_some found, (eq_of_beq spelled).symm⟩

theorem letters_of_isColorName {t : List Char} (named : isColorName t = true) :
    t ≠ [] ∧ ∀ c ∈ t, c.isAlpha = true := by
  have words : ∀ x ∈ namedColors, x.1.toList ≠ [] ∧ x.1.toList.all Char.isAlpha = true := by
    decide
  obtain ⟨x, member, rfl⟩ := exists_namedColor named
  obtain ⟨nonempty, letters⟩ := words x member
  exact ⟨nonempty, List.all_eq_true.mp letters⟩

theorem isBlank_eq_false_of_isHexDigit {c : Char} (digit : isHexDigit c = true) :
    isBlank c = false := by
  have bounds : 48 ≤ c.toNat ∧ c.toNat ≤ 102 := by
    simp only [isHexDigit, hexDigit?, Char.isDigit, Bool.and_eq_true, decide_eq_true_eq,
      Char.le_def, UInt32.le_iff_toNat_le, ge_iff_le] at digit
    change (if 48 ≤ c.toNat ∧ c.toNat ≤ 57 then _ else if 97 ≤ c.toNat ∧ c.toNat ≤ 102 then _
      else if 65 ≤ c.toNat ∧ c.toNat ≤ 70 then _ else none).isSome = true at digit
    split at digit
    · omega
    · split at digit
      · omega
      · split at digit
        · omega
        · cases digit
  exact isBlank_eq_false_of_toNat (by omega) (by omega)

theorem exists_cons_of_isValid {t : List Char} (valid : VariableName.isValid t = true) :
    ∃ c u, t = c :: u ∧ VariableName.isLetter c = true ∧
      ∀ d ∈ u, VariableName.isLetterOrDigit d = true := by
  have shape : VariableName.isWellFormed t = true := by
    by_contra malformed
    simp [VariableName.isValid, VariableName.error?, malformed] at valid
  cases t with
  | nil => cases shape
  | cons c u =>
      obtain ⟨letter, rest⟩ := (Bool.and_eq_true _ _).mp shape
      exact ⟨c, u, rfl, letter, List.all_eq_true.mp rest⟩

/-- A digit is no minus sign. -/
theorem leadsOutside_digits : LeadsOutside (runs1 Char.isDigit) (· == '-') := by
  apply LeadsOutside.runs1
  intro c digit
  rw [beq_eq_false_iff_ne]
  rintro rfl
  cases digit

theorem leadsOutside_numbers : LeadsOutside numbers isBlank := by
  apply LeadsOutside.one_add_mul
  · exact .word rfl
  · apply LeadsOutside.mul
    apply LeadsOutside.runs1
    intro c digit
    exact isBlank_eq_false_of_isDigit digit

theorem not_number_of_isBlank {c : Char} (blank : isBlank c = true) :
    (c.isDigit || c == '.') = false := by
  rw [Bool.or_eq_false_iff, beq_eq_false_iff_ne]
  constructor
  · cases digit : c.isDigit with
    | false => rfl
    | true =>
        rw [isBlank_eq_false_of_isDigit digit] at blank
        cases blank
  · rintro rfl
    cases blank

theorem leadsOutside_furtherComponents (n : Nat) :
    LeadsOutside (({[',']} * components) ^ n * {[')']})
      (fun c => isBlank c || c.isDigit || c == '.') := by
  cases n with
  | zero =>
      rw [pow_zero, one_mul]
      exact .word rfl
  | succ n =>
      rw [pow_succ', mul_assoc, mul_assoc]
      exact .mul (.word rfl)

theorem plain_mem_quotedUnits {c : Char} (plain : c ≠ '"' ∧ c ≠ '\\') : [c] ∈ quotedUnits :=
  Or.inl ⟨c, decide_eq_true plain, rfl⟩

theorem escaped_mem_quotedUnits (c : Char) : ['\\', c] ∈ quotedUnits :=
  Or.inr (Language.mem_mul.mpr ⟨['\\'], rfl, [c], ⟨c, rfl, rfl⟩, rfl⟩)

theorem quote_mem_quotedBodies : ['"'] ∈ quotedUnits∗ * {['"']} :=
  Language.mem_mul.mpr ⟨[], Language.nil_mem_kstar _, ['"'], rfl, rfl⟩

theorem append_mem_quotedBodies {unit t : List Char} (first : unit ∈ quotedUnits)
    (rest : t ∈ quotedUnits∗ * {['"']}) : unit ++ t ∈ quotedUnits∗ * {['"']} := by
  obtain ⟨body, ⟨units, rfl, inside⟩, close, closes, rfl⟩ := Language.mem_mul.mp rest
  refine Language.mem_mul.mpr ⟨(unit :: units).flatten,
    ⟨unit :: units, rfl, List.forall_mem_cons.mpr ⟨first, inside⟩⟩, close, closes, ?_⟩
  rw [List.flatten_cons, List.append_assoc]

theorem quotedScanner_cons {c : Char} (plain : c ≠ '"' ∧ c ≠ '\\') (s : List Char) :
    quotedScanner (c :: s) = (quotedScanner s).map fun (t, u) => (c :: t, u) := by
  rw [quotedScanner, if_neg plain.1]
  · rintro rfl
    exact absurd rfl plain.2
  · rintro c s rfl
    exact absurd rfl plain.2

namespace Text.Scanner.Reads

theorem minus : Reads (.optional (.text ['-'])) (1 + {['-']}) (· == '-') :=
  (text ['-'] _).optional fun _ => text_eq_none

theorem digits : Reads (.some1 Char.isDigit) (runs1 Char.isDigit) Char.isDigit :=
  some1 Char.isDigit

theorem fraction :
    Reads (.seq [.text ['.'], .some1 Char.isDigit]) fractions Char.isDigit :=
  (text ['.'] _).seq_cons_closed digits.seq_singleton

/-- Neither digits nor a point may follow a number. -/
theorem number :
    Reads numberScanner numbers (fun c => c.isDigit || c == '.') := by
  have rest : Reads (.optional (.seq [.text ['.'], .some1 Char.isDigit])) (1 + fractions)
      (fun c => c.isDigit || c == '.') := by
    apply (fraction.mono fun c digit => by simp [digit]).optional
    intro r stops
    exact andThen_eq_none (text_eq_none (stops.mono fun c point => by simp_all))
  have unsigned := digits.andThen rest.seq_singleton fun t member r stops =>
    LeadsOutside.stops_one_add (LeadsOutside.mul (.word rfl))
      (fun c digit => by simp [digit]) member stops
  exact minus.seq_cons unsigned leadsOutside_digits.mul

/-- What neither a number nor the blanks around it can go on with. -/
theorem component :
    Reads componentScanner components (fun c => isBlank c || c.isDigit || c == '.') := by
  have blanks : Reads (.seq [.many isBlank]) (runs isBlank)
      (fun c => isBlank c || c.isDigit || c == '.') :=
    (many isBlank).seq_singleton.mono fun c blank => by simp [blank]
  have rest := number.andThen blanks fun t member r stops =>
    stops_runs (fun c blank => not_number_of_isBlank blank) (fun c part => by
      rw [Bool.or_assoc, part, Bool.or_true]) member stops
  exact (many isBlank).seq_cons rest leadsOutside_numbers.mul

/-- The components behind the first one, and the closing parenthesis. -/
theorem furtherComponents (n : Nat) (p : Char → Bool) :
    Reads (.seq (List.replicate n (.seq [.text [','], componentScanner]) ++ [.text [')']]))
      (({[',']} * components) ^ n * {[')']}) p := by
  have next : Reads (.seq [.text [','], componentScanner]) ({[',']} * components)
      (fun c => isBlank c || c.isDigit || c == '.') :=
    (text [','] _).seq_cons_closed component.seq_singleton
  induction n with
  | zero =>
      rw [pow_zero, one_mul]
      exact (text [')'] p).seq_singleton
  | succ n ih =>
      rw [pow_succ', mul_assoc]
      exact next.seq_cons ih (leadsOutside_furtherComponents n)

theorem tuple (shape : TupleShape) (p : Char → Bool) :
    Reads shape.scanner shape.language p := by
  refine (text shape.lead _).seq_cons_closed ((text ['('] _).seq_cons_closed ?_)
  exact component.seq_cons (furtherComponents _ p) (leadsOutside_furtherComponents _)

/-- A quoted text ends at the first quote that is no part of a unit. -/
theorem quoted (p : Char → Bool) :
    Reads quotedScanner (quotedUnits∗ * {['"']}) p := by
  apply of_splits splits_quotedScanner
  · intro s
    fun_induction quotedScanner s with
    | case1 => simp
    | case2 => simp
    | case3 c r ih =>
        intro t u stops found
        obtain ⟨⟨t', u'⟩, found', e⟩ := Option.map_eq_some_iff.mp found
        obtain ⟨rfl, rfl⟩ := Prod.mk.inj e
        exact append_mem_quotedBodies (escaped_mem_quotedUnits c) (ih stops found')
    | case4 r =>
        intro t u _ found
        obtain ⟨rfl, rfl⟩ := Prod.mk.inj (Option.some.inj found)
        exact quote_mem_quotedBodies
    | case5 c r alone pair other ih =>
        intro t u stops found
        obtain ⟨⟨t', u'⟩, found', e⟩ := Option.map_eq_some_iff.mp found
        obtain ⟨rfl, rfl⟩ := Prod.mk.inj e
        have plain : c ≠ '"' ∧ c ≠ '\\' := by
          refine ⟨other, ?_⟩
          rintro rfl
          cases r with
          | nil => exact alone rfl rfl
          | cons c r => exact pair c r rfl rfl
        exact append_mem_quotedBodies (plain_mem_quotedUnits plain) (ih stops found')
  · intro t r member _
    obtain ⟨body, ⟨units, rfl, inside⟩, _, rfl, rfl⟩ := Language.mem_mul.mp member
    clear member
    induction units with
    | nil => rfl
    | cons unit units ih =>
        obtain ⟨first, rest⟩ := List.forall_mem_cons.mp inside
        have found := ih rest
        rw [List.append_assoc] at found
        rw [List.flatten_cons, List.append_assoc, List.append_assoc]
        rcases (Language.mem_add _ _ _).mp first with ⟨c, plain, rfl⟩ | escaped
        · rw [List.singleton_append, quotedScanner_cons (of_decide_eq_true plain), found]
          rfl
        · obtain ⟨_, rfl, _, ⟨c, _, rfl⟩, rfl⟩ := Language.mem_mul.mp escaped
          change quotedScanner ('\\' :: c :: (units.flatten ++ (['"'] ++ r))) = _
          rw [quotedScanner, found]
          rfl

theorem brace : Reads braceScanner braceTails (!isBlank ·) := by
  apply of_splits splits_braceScanner
  · intro s
    fun_induction braceScanner s with
    | case1 => simp
    | case2 => simp
    | case3 c r _ closes =>
        intro t u _ found
        obtain ⟨rfl, rfl⟩ := Prod.mk.inj (Option.some.inj found)
        exact ⟨[], rfl, by simp, by simp⟩
    | case4 c r inLine goesOn ih =>
        intro t u stops found
        obtain ⟨⟨t', u'⟩, found', e⟩ := Option.map_eq_some_iff.mp found
        obtain ⟨rfl, rfl⟩ := Prod.mk.inj e
        obtain ⟨name, rfl, line, inner⟩ := ih stops found'
        refine ⟨c :: name, rfl, ?_, ?_⟩
        · exact List.not_mem_cons_of_ne_of_not_mem (Ne.symm inLine) line
        · intro front back split
          cases front with
          | nil =>
              obtain ⟨rfl, rfl⟩ := List.cons.inj split
              rw [splits_braceScanner found', atBoundary_append (by simp)] at goesOn
              simpa using goesOn
          | cons c front => exact inner front back (List.cons.inj split).2
  · rintro t r ⟨name, rfl, line, inner⟩ stops
    induction name with
    | nil =>
        change braceScanner ('}' :: r) = _
        simp [braceScanner, atBoundary_iff_stops.mpr stops]
    | cons c name ih =>
        obtain ⟨inLine, line'⟩ := List.ne_and_not_mem_of_not_mem_cons line
        have found := ih line' fun front back split => inner (c :: front) back (congrArg _ split)
        have goesOn : ¬ (c = '}' ∧ atBoundary (name ++ ['}'] ++ r) = true) := by
          rintro ⟨rfl, boundary⟩
          rw [atBoundary_append (by simp), inner [] name rfl] at boundary
          cases boundary
        simp only [List.cons_append, braceScanner, if_neg (Ne.symm inLine), found]
        rw [if_neg (by simpa using goesOn)]
        rfl

theorem wholeNumber :
    Reads (.seq [.optional (.text ['-']), .some1 Char.isDigit]) wholeNumbers Char.isDigit :=
  minus.seq_cons digits.seq_singleton leadsOutside_digits

theorem decimal :
    Reads Literal.float.scanner Literal.float.language Char.isDigit := by
  refine minus.seq_cons (digits.seq_cons fraction ?_) leadsOutside_digits.mul
  exact .mul (.word rfl)

theorem truthValue (p : Char → Bool) :
    Reads Literal.bool.scanner Literal.bool.language p := by
  apply either
  · exact (one _ _).seq_cons_closed (text _ p).seq_singleton
  · exact (one _ _).seq_cons_closed (text _ p).seq_singleton
  · rintro _ ⟨_, ⟨c, initial, rfl⟩, _, rfl, rfl⟩ r _
    apply andThen_eq_none
    simp only [Bool.or_eq_true, decide_eq_true_eq] at initial
    rcases initial with rfl | rfl <;> rfl

theorem hexColor :
    Reads (.such (fun t => t.length = 7 || t.length = 9)
      (.seq [.text ['#'], .some1 isHexDigit])) hexColors isHexDigit :=
  ((text ['#'] _).seq_cons_closed (some1 isHexDigit).seq_singleton).such _

theorem colorWord :
    Reads (.such isColorName (.some1 (!isBlank ·))) (satisfying isColorName) (!isBlank ·) := by
  have h := (some1 (!isBlank ·)).such isColorName
  rwa [inf_eq_right.mpr] at h
  intro t named
  obtain ⟨nonempty, letters⟩ := letters_of_isColorName named
  refine ⟨nonempty, fun c member => ?_⟩
  simp [isBlank_eq_false_of_isAlpha (letters c member)]

theorem color : Reads Literal.color.scanner Literal.color.language (!isBlank ·) := by
  apply either
  · exact hexColor.mono fun c digit => by simp [isBlank_eq_false_of_isHexDigit digit]
  · exact colorWord
  · intro t named r _
    obtain ⟨nonempty, letters⟩ := letters_of_isColorName named
    obtain ⟨c, u, rfl⟩ := List.exists_cons_of_ne_nil nonempty
    have letter := letters c (List.mem_cons_self ..)
    apply such_eq_none
    apply andThen_eq_none
    apply text_eq_none
    rw [List.cons_append, Stops.cons_iff, beq_eq_false_iff_ne]
    rintro rfl
    cases letter

theorem variableName :
    Reads Literal.varName.scanner Literal.varName.language VariableName.isLetterOrDigit := by
  have h := ((one VariableName.isLetter _).seq_cons_closed
    (many VariableName.isLetterOrDigit).seq_singleton).such VariableName.isValid
  rwa [inf_eq_right.mpr] at h
  intro t valid
  obtain ⟨c, u, rfl, letter, rest⟩ := exists_cons_of_isValid valid
  exact ⟨[c], ⟨c, letter, rfl⟩, u, rest, rfl⟩

end Text.Scanner.Reads

namespace Literal

theorem reads_scanner (l : Literal) : Reads l.scanner l.language (!isBlank ·) := by
  have digits : ∀ c : Char, c.isDigit = true → (!isBlank c) = true := by
    intro c digit
    simp [isBlank_eq_false_of_isDigit digit]
  cases l with
  | null => exact (Reads.one _ _).seq_cons_closed (Reads.text _ _).seq_singleton
  | float => exact Reads.decimal.mono digits
  | string => exact (Reads.text _ _).seq_cons_closed (Reads.quoted _).seq_singleton
  | bool => exact Reads.truthValue _
  | char =>
      exact (Reads.text _ _).seq_cons_closed
        ((Reads.one _ _).seq_cons_closed (Reads.text _ _).seq_singleton)
  | int => exact Reads.wholeNumber.mono digits
  | tuple shape => exact Reads.tuple shape _
  | color => exact Reads.color
  | object =>
      exact (Reads.text _ _).seq_cons_closed
        ((Reads.one _ _).seq_cons_closed Reads.brace.seq_singleton)
  | varName =>
      apply Reads.variableName.mono
      intro c part
      simp [isBlank_eq_false_of_isAlphanum part]

/-- A token is a word of the language with a boundary behind it. -/
theorem recognize_eq_some_iff {l : Literal} {s t r : List Char} :
    l.recognize s = some (t, r) ↔ s = t ++ r ∧ t ∈ l.language ∧ atBoundary r = true :=
  l.reads_scanner.bounded

/-- What stands behind a boundary has no part in what is recognized in front of
it. A token is what is recognized as a whole when nothing follows, and the
tokens are the words of the language. -/
theorem recognize_iff_alone (l : Literal) (s t r : List Char) :
    (l.recognize s = some (t, r) ↔
      s = t ++ r ∧ (r = [] ∨ ∃ c u, r = c :: u ∧ isBlank c = true) ∧
        l.recognize t = some (t, [])) ∧
    (l.recognize s = some (t, r) → t ≠ []) ∧
    (l.recognize t = some (t, []) ↔ t ∈ l.language) := by
  have alone : l.recognize t = some (t, []) ↔ t ∈ l.language := by
    rw [recognize_eq_some_iff]
    simp
  refine ⟨?_, token_ne_nil_of_recognize, alone⟩
  rw [recognize_eq_some_iff, alone, atBoundary_iff]
  constructor
  · rintro ⟨whole, member, boundary⟩
    exact ⟨whole, boundary, member⟩
  · rintro ⟨whole, boundary, member⟩
    exact ⟨whole, member, boundary⟩

/-- The first closing brace of this reference is followed by a letter. -/
theorem recognize_iff_alone_inner_brace :
    object.recognize ['{', 'a', '}', 'b', '}', ' ', 'x'] =
      some (['{', 'a', '}', 'b', '}'], [' ', 'x']) ∧ ['{', 'a', '}', 'b', '}'] ≠ [] := by
  obtain ⟨boundary, nonempty, _⟩ :=
    recognize_iff_alone object ['{', 'a', '}', 'b', '}', ' ', 'x'] ['{', 'a', '}', 'b', '}']
      [' ', 'x']
  have alone : object.recognize ['{', 'a', '}', 'b', '}'] =
      some (['{', 'a', '}', 'b', '}'], []) := by
    decide
  have found := boundary.mpr ⟨rfl, .inr ⟨' ', ['x'], rfl, rfl⟩, alone⟩
  exact ⟨found, nonempty found⟩

end Literal

end CommandConsole
