import Mathlib.Data.List.DropRight
import CommandConsole.Proofs.Line.Composition

/-!
# Blanks at the end of a text

A line is trimmed before it is run. Nothing is lost by that: no token ends in a
blank, so blanks behind a text are no part of its last token, and a text with
them is read exactly if it is read without them.
-/

namespace CommandConsole

open Text

namespace Text

/-- Every word of a language ends in a character outside a class. -/
def EndsOutside (L : Language Char) (p : Char → Bool) : Prop :=
  ∀ t ∈ L, ∃ u c, t = u ++ [c] ∧ p c = false

namespace EndsOutside

variable {L M : Language Char} {p q : Char → Bool}

theorem word {w : List Char} {c : Char} (outside : p c = false) :
    EndsOutside {w ++ [c]} p := by
  rintro t rfl
  exact ⟨w, c, rfl, outside⟩

theorem runs1 (outside : ∀ c, q c = true → p c = false) : EndsOutside (runs1 q) p := by
  rintro t ⟨nonempty, inside⟩
  refine ⟨t.dropLast, t.getLast nonempty, (List.dropLast_append_getLast nonempty).symm, ?_⟩
  exact outside _ (inside _ (List.getLast_mem nonempty))

/-- What stands in front does not matter. -/
theorem mul (h : EndsOutside M p) : EndsOutside (L * M) p := by
  intro t member
  obtain ⟨u, _, v, second, rfl⟩ := Language.mem_mul.mp member
  obtain ⟨w, c, rfl, outside⟩ := h v second
  exact ⟨u ++ w, c, (List.append_assoc ..).symm, outside⟩

theorem add (h : EndsOutside L p) (h' : EndsOutside M p) : EndsOutside (L + M) p := by
  intro t member
  rcases (Language.mem_add _ _ _).mp member with first | second
  · exact h t first
  · exact h' t second

theorem mono (h : EndsOutside M p) (smaller : L ≤ M) : EndsOutside L p :=
  fun t member => h t (smaller member)

end EndsOutside

end Text

theorem VariableName.alphanum_of_isValid {t : List Char} (valid : isValid t = true) :
    t ≠ [] ∧ ∀ c ∈ t, c.isAlphanum = true := by
  obtain ⟨c, u, rfl, letter, rest⟩ := exists_cons_of_isValid valid
  refine ⟨by simp, List.forall_mem_cons.mpr ⟨?_, rest⟩⟩
  rw [Char.isAlphanum, show c.isAlpha = true from letter, Bool.true_or]

/-- No token ends in a blank. -/
theorem Literal.endsOutside_language (l : Literal) : EndsOutside l.language isBlank := by
  have digits : EndsOutside (runs1 Char.isDigit) isBlank :=
    .runs1 fun _ digit => isBlank_eq_false_of_isDigit digit
  cases l with
  | null => exact .mul (.word (w := ['u', 'l']) (c := 'l') rfl)
  | float => exact .mul (.mul (.mul digits))
  | string => exact .mul (.mul (.word (w := []) rfl))
  | bool =>
      exact .add (.mul (.word (w := ['r', 'u']) (c := 'e') rfl))
        (.mul (.word (w := ['a', 'l', 's']) (c := 'e') rfl))
  | char => exact .mul (.mul (.word (w := []) rfl))
  | int => exact .mul digits
  | tuple shape => exact .mul (.mul (.mul (.mul (.word (w := []) rfl))))
  | color =>
      have hex : EndsOutside ({['#']} * runs1 isHexDigit) isBlank :=
        .mul (.runs1 fun _ digit => isBlank_eq_false_of_isHexDigit digit)
      have words : EndsOutside (runs1 Char.isAlpha) isBlank :=
        .runs1 fun _ letter => isBlank_eq_false_of_isAlpha letter
      exact .add (hex.mono inf_le_left) (words.mono fun _ named => letters_of_isColorName named)
  | object =>
      refine .mul (.mul ?_)
      rintro t ⟨name, rfl, -⟩
      exact ⟨name, '}', rfl, rfl⟩
  | varName =>
      have words : EndsOutside (runs1 Char.isAlphanum) isBlank :=
        .runs1 fun _ part => isBlank_eq_false_of_isAlphanum part
      exact words.mono fun _ valid => VariableName.alphanum_of_isValid valid

section Reading

variable {find : ObjectLookup} {literals : List Literal} {p s t r u : List Char} {l : Literal}

/-- A token that is found in a text with blanks behind it is found in the text. -/
theorem Literal.recognize_of_append (blank : ∀ c ∈ s, isBlank c = true)
    (recognized : l.recognize (p ++ s) = some (t, r)) : ∃ u, l.recognize p = some (t, u) := by
  obtain ⟨whole, member, boundary⟩ := recognize_eq_some_iff.mp recognized
  rcases List.append_eq_append_iff.mp whole with ⟨b, rfl, rest⟩ | ⟨u, rfl, rest⟩
  · rcases List.eq_nil_or_concat b with rfl | ⟨b, d, rfl⟩
    · exact ⟨[], recognize_eq_some_iff.mpr ⟨by simp, member, rfl⟩⟩
    · -- The token would end in a blank.
      obtain ⟨w, c, ends, visible⟩ := l.endsOutside_language _ member
      have last : d = c := by
        rw [List.concat_eq_append, ← List.append_assoc] at ends
        exact List.append_singleton_inj.mp ends |>.2
      rw [← last, blank d (by simp [rest])] at visible
      cases visible
  · refine ⟨u, recognize_eq_some_iff.mpr ⟨rfl, member, ?_⟩⟩
    cases u with
    | nil => rfl
    | cons c u =>
        rw [rest] at boundary
        exact boundary

theorem firstToken_append_of_none (blank : ∀ c ∈ s, isBlank c = true)
    (absent : firstToken literals p = none) : firstToken literals (p ++ s) = none := by
  cases found : firstToken literals (p ++ s) with
  | none => rfl
  | some x =>
      obtain ⟨l, t, r⟩ := x
      obtain ⟨member, recognized⟩ := firstToken_eq_some_iff.mp found
      obtain ⟨u, recognized'⟩ := Literal.recognize_of_append blank recognized
      cases absent.symm.trans (firstToken_eq_some_iff.mpr ⟨member, recognized'⟩)

/-- What cannot be read on cannot be read on with blanks behind it. -/
theorem readAll_append_of_unrecognized (blank : ∀ c ∈ s, isBlank c = true) {rest : String}
    (unread : readAll find literals p = .error (.unrecognized rest)) :
    ∃ rest', readAll find literals (p ++ s) = .error (.unrecognized rest') := by
  induction p using readAllM.induct literals with
  | case1 p start =>
      rw [readAll_of_blank start] at unread
      cases unread
  | case2 p c cs start none =>
      have start' := trimStart_append_of_cons start s
      exact ⟨_, readAll_of_unrecognized start' (firstToken_append_of_none blank none)⟩
  | case3 p c cs start l t r found ih =>
      have start' := trimStart_append_of_cons start s
      have found' : firstToken literals (c :: (cs ++ s)) = some (l, t, r ++ s) :=
        firstToken_append found (atBoundary_of_forall_isBlank blank)
      rw [readAll_of_token start found] at unread
      rw [readAll_of_token start' found']
      cases value : l.read find t with
      | error e =>
          rw [value] at unread
          cases unread
      | ok d =>
          rw [value] at unread
          cases later : readAll find literals r with
          | ok ds =>
              rw [later] at unread
              cases unread
          | error e =>
              rw [later] at unread
              obtain rfl := Except.error.inj unread
              obtain ⟨rest', unread'⟩ := ih later
              exact ⟨rest', by rw [unread']⟩

theorem readAll_append_eq_ok_iff (blank : ∀ c ∈ s, isBlank c = true) {ds : List Meaning} :
    readAll find literals (p ++ s) = .ok ds ↔ readAll find literals p = .ok ds := by
  by_cases known : ∃ rest, readAll find literals p = .error (.unrecognized rest)
  · obtain ⟨rest, unread⟩ := known
    obtain ⟨rest', unread'⟩ := readAll_append_of_unrecognized blank unread
    simp [unread, unread']
  · rw [readAll_append (atBoundary_of_forall_isBlank blank) (not_exists.mp known),
      readAll_of_blank (trimStart_eq_nil_iff.mpr blank)]
    cases readAll find literals p with
    | error e => exact Iff.rfl
    | ok es => simp [Except.bind, Except.map]

/-- A text with blanks behind it can be read exactly if it can be read without them, and as the
same. -/
theorem parseParameters_append_eq_ok_iff (blank : ∀ c ∈ s, isBlank c = true) {a : Parameters} :
    parseParameters find literals (p ++ s) = .ok a ↔
      parseParameters find literals p = .ok a := by
  have parsed : ∀ q, parseParameters find literals q = .ok a ↔
      ∃ ds, readAll find literals q = .ok ds ∧ Parameters.ofMeanings ds = a := by
    intro q
    rw [parseParameters_eq]
    cases readAll find literals q <;> simp [Except.map]
  simp only [parsed, readAll_append_eq_ok_iff blank]

end Reading

section Words

variable {find : ObjectLookup} {literals : List Literal} {n : List Char}

theorem VariableName.isBlank_eq_false_of_isValid (valid : isValid n = true) :
    ∀ c ∈ n, isBlank c = false :=
  fun c member => isBlank_eq_false_of_isAlphanum ((alphanum_of_isValid valid).2 c member)

/-- A valid name is read as the variable it names. -/
theorem parseParameters_varName (listed : Literal.varName ∈ literals)
    (valid : VariableName.isValid n = true) :
    parseParameters find literals n = .ok ⟨[.varName (String.ofList n)], []⟩ := by
  obtain ⟨c, u, rfl, letter, -⟩ := exists_cons_of_isValid valid
  have visible := VariableName.isBlank_eq_false_of_isValid valid c (List.mem_cons_self ..)
  have start : trimStart (c :: u) = c :: u := List.dropWhile_cons_of_neg (by simp [visible])
  have found : firstToken literals (c :: u) = some (.varName, c :: u, []) :=
    firstToken_eq_some_iff.mpr
      ⟨listed, Literal.recognize_eq_some_iff.mpr ⟨by simp, valid, rfl⟩⟩
  rw [parseParameters_eq, readAll_of_token start found, readAll_of_blank rfl]
  rfl

end Words

namespace Text

theorem trim_eq (s : List Char) : trim s = (trimStart s).rdropWhile isBlank := rfl

/-- Behind a text that begins with no blank only the end of what follows is trimmed, as long as
something visible follows. -/
theorem trim_append {w t : List Char} {c : Char} (first : isBlank c = false)
    (visible : ∃ d ∈ t, isBlank d = false) :
    trim (c :: w ++ t) = c :: w ++ t.rdropWhile isBlank := by
  have start : trimStart (c :: w ++ t) = c :: w ++ t :=
    List.dropWhile_cons_of_neg (by simp [first])
  have left : (t.reverse.dropWhile isBlank).isEmpty = false := by
    rw [List.isEmpty_eq_false_iff, ne_eq, List.dropWhile_eq_nil_iff]
    intro blank
    obtain ⟨d, member, outside⟩ := visible
    rw [blank d (List.mem_reverse.mpr member)] at outside
    cases outside
  rw [trim_eq, start, List.rdropWhile, List.reverse_append, List.dropWhile_append, left]
  simp [List.rdropWhile]

/-- A text is what is left of it, with blanks behind. -/
theorem exists_rdropWhile_append (t : List Char) :
    ∃ s, (∀ c ∈ s, isBlank c = true) ∧ t = t.rdropWhile isBlank ++ s :=
  ⟨t.rtakeWhile isBlank, fun _ => List.mem_rtakeWhile_imp,
    (List.rdropWhile_append_rtakeWhile ..).symm⟩

theorem atBoundary_rdropWhile {t : List Char} (boundary : atBoundary t = true) :
    atBoundary (t.rdropWhile isBlank) = true := by
  obtain ⟨s, -, whole⟩ := exists_rdropWhile_append t
  cases left : t.rdropWhile isBlank with
  | nil => rfl
  | cons c u =>
      rw [whole, left] at boundary
      exact boundary

end Text

section Line

variable {find : ObjectLookup} {literals : List Literal} {front name rest t : List Char}
  {a : Parameters}

/-- A word is split off the line in front of a boundary. -/
theorem splitLine_append (blank : ∀ c ∈ front, isBlank c = true)
    (word : ∀ c ∈ name, isBlank c = false) (nonempty : name ≠ [])
    (boundary : atBoundary rest = true) :
    splitLine (front ++ name ++ rest) = (name, rest) := by
  have visible : ∀ c ∈ name, (!isBlank c) = true := by simpa using word
  have start : trimStart (front ++ name ++ rest) = name ++ rest := by
    rw [List.append_assoc, trimStart_append_of_blank blank]
    cases name with
    | nil => exact absurd rfl nonempty
    | cons c cs => exact List.dropWhile_cons_of_neg (by simp [word c])
  rw [splitLine, start, splitWord, List.takeWhile_append_of_pos visible,
    List.dropWhile_append_of_pos visible]
  cases rest with
  | nil => simp
  | cons c cs =>
    rw [atBoundary_cons] at boundary
    simp [boundary]

theorem trim_word_append (word : ∀ c ∈ name, isBlank c = false) (nonempty : name ≠ [])
    (visible : ∃ c ∈ t, isBlank c = false) :
    trim (name ++ t) = name ++ t.rdropWhile isBlank := by
  obtain ⟨c, w, rfl⟩ := List.exists_cons_of_ne_nil nonempty
  exact trim_append (word c (List.mem_cons_self ..)) visible

/-- A trimmed line is split behind its first word as the line itself is. -/
theorem splitLine_trim (word : ∀ c ∈ name, isBlank c = false) (nonempty : name ≠ [])
    (boundary : atBoundary t = true) (visible : ∃ c ∈ t, isBlank c = false) :
    splitLine (trim (name ++ t)) = (name, t.rdropWhile isBlank) := by
  rw [trim_word_append word nonempty visible]
  exact splitLine_append (List.forall_mem_nil _) word nonempty (atBoundary_rdropWhile boundary)

theorem parseParameters_rdropWhile :
    parseParameters find literals (t.rdropWhile isBlank) = .ok a ↔
      parseParameters find literals t = .ok a := by
  obtain ⟨s, blank, whole⟩ := exists_rdropWhile_append t
  rw [← parseParameters_append_eq_ok_iff blank, ← whole]

end Line

end CommandConsole
