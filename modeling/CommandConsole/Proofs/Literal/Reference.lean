import CommandConsole.Proofs.Literal.Grammar

/-!
# Where object references close

A reference is meant to end at the first closing brace with a boundary behind
it, and to stay on its line, so that no reference takes in what follows it. The
scanner takes the character behind the opening brace without looking at it,
because a name has at least one character. From there on it does what is meant.

So a reference closes too late exactly if its name begins with a line break, or
with a closing brace that a blank follows: empty braces do not end a reference.
-/

namespace CommandConsole

open Text

/-- No closing brace of a name is followed by a blank. -/
def NeverCloses (name : List Char) : Prop :=
  ∀ front c back, name = front ++ '}' :: c :: back → isBlank c = false

/-- A reference to `name` with `r` behind it ends where the first reference of its text can. -/
structure ClosesFirst (name r : List Char) : Prop where
  nonempty : name ≠ []
  line : '\n' ∉ name
  inner : NeverCloses name
  /-- No closing brace in front of the last one of the reference has a boundary behind it. -/
  first : ∀ front back, '{' :: (name ++ '}' :: r) = front ++ '}' :: back →
    atBoundary back = true → name.length + 1 ≤ front.length

section

variable {name r t : List Char} {c : Char}

theorem neverCloses_nil : NeverCloses [] := by
  intro front c back split
  simp at split

theorem neverCloses_cons_iff : NeverCloses (c :: name) ↔
    ¬ (c = '}' ∧ ∃ d u, name = d :: u ∧ isBlank d = true) ∧ NeverCloses name := by
  constructor
  · intro closes
    refine ⟨?_, fun front d back split => closes (c :: front) d back (congrArg _ split)⟩
    rintro ⟨rfl, d, u, rfl, blank⟩
    rw [closes [] d u rfl] at blank
    cases blank
  · rintro ⟨first, closes⟩ front d back split
    cases front with
    | nil =>
        obtain ⟨rfl, rfl⟩ := List.cons.inj split
        exact Bool.eq_false_iff.mpr fun blank => first ⟨rfl, d, back, rfl, blank⟩
    | cons _ front => exact closes front d back (List.cons.inj split).2

/-- The last closing brace of a reference is no boundary for one in front of it. -/
theorem neverCloses_iff : NeverCloses name ↔
    ∀ front back, name = front ++ '}' :: back → atBoundary (back ++ '}' :: r) = false := by
  constructor
  · intro closes front back split
    cases back with
    | nil => rfl
    | cons d back => exact closes front d back split
  · intro closes front d back split
    exact closes front (d :: back) split

theorem mem_braceTails_iff : t ∈ braceTails ↔
    ∃ name, t = name ++ ['}'] ∧ '\n' ∉ name ∧ NeverCloses name := by
  simp only [neverCloses_iff (r := [])]
  exact Iff.rfl

theorem mem_object_language_iff : t ∈ Literal.object.language ↔
    ∃ c name, t = '{' :: (c :: name ++ ['}']) ∧ '\n' ∉ name ∧ NeverCloses name := by
  simp only [Literal.language, Language.mem_mul, mem_braceTails_iff]
  constructor
  · rintro ⟨_, rfl, _, ⟨_, ⟨c, -, rfl⟩, _, ⟨name, rfl, line, closes⟩, rfl⟩, rfl⟩
    exact ⟨c, name, rfl, line, closes⟩
  · rintro ⟨c, name, rfl, line, closes⟩
    exact ⟨['{'], rfl, _, ⟨[c], ⟨c, rfl, rfl⟩, _, ⟨name, rfl, line, closes⟩, rfl⟩, rfl⟩

theorem recognize_object_eq_some_iff {s : List Char} :
    Literal.object.recognize s = some (t, r) ↔
      s = t ++ r ∧
        (∃ c name, t = '{' :: (c :: name ++ ['}']) ∧ '\n' ∉ name ∧ NeverCloses name) ∧
        (r = [] ∨ ∃ c u, r = c :: u ∧ isBlank c = true) := by
  rw [Literal.recognize_eq_some_iff, mem_object_language_iff, atBoundary_iff]

/-- A name in which no brace closes the reference leaves that to the brace behind it. -/
theorem NeverCloses.first (closes : NeverCloses name) {front back : List Char}
    (split : '{' :: (name ++ '}' :: r) = front ++ '}' :: back)
    (boundary : atBoundary back = true) : name.length + 1 ≤ front.length := by
  cases front with
  | nil => cases (List.cons.inj split).1
  | cons d front =>
      by_contra short
      obtain ⟨middle, rfl, behind⟩ | ⟨middle, rfl, behind⟩ :=
        List.append_eq_append_iff.mp (List.cons.inj split).2
      · simp only [List.length_cons, List.length_append] at short
        omega
      · cases middle with
        | nil => simp at short
        | cons d middle =>
            obtain ⟨rfl, rfl⟩ : '}' = d ∧ back = middle ++ '}' :: r := List.cons.inj behind
            rw [neverCloses_iff.mp closes front middle rfl] at boundary
            cases boundary

/-- Without a line break and with nothing that closes it in its name a reference ends where it
should. -/
theorem closesFirst_iff : ClosesFirst name r ↔
    name ≠ [] ∧ '\n' ∉ name ∧ NeverCloses name := by
  constructor
  · rintro ⟨nonempty, line, inner, -⟩
    exact ⟨nonempty, line, inner⟩
  · rintro ⟨nonempty, line, inner⟩
    exact ⟨nonempty, line, inner, fun front back => inner.first⟩

end

/-- A reference is recognized where a name of at least one character stands between braces with a
boundary behind them, and what is behind the first character of the name has no line break in it
and no closing brace with a blank behind it. Such a reference stays on its line and ends at the
first closing brace that can end it, unless its name begins with a line break, or with a closing
brace that a blank follows. -/
theorem references_close_first_iff (s : List Char) :
    (∀ t r : List Char, Literal.object.recognize s = some (t, r) ↔
      s = t ++ r ∧
        (∃ c name, t = '{' :: (c :: name ++ ['}']) ∧ '\n' ∉ name ∧ NeverCloses name) ∧
        (r = [] ∨ ∃ c u, r = c :: u ∧ isBlank c = true)) ∧
    ∀ (c : Char) (name r : List Char),
      Literal.object.recognize s = some ('{' :: (c :: name ++ ['}']), r) →
        (ClosesFirst (c :: name) r ↔
          ¬ (c = '\n' ∨ c = '}' ∧ ∃ d u, name = d :: u ∧ isBlank d = true)) := by
  refine ⟨fun t r => recognize_object_eq_some_iff, fun c name r found => ?_⟩
  obtain ⟨-, ⟨c', name', same, line, closes⟩, -⟩ := recognize_object_eq_some_iff.mp found
  obtain ⟨rfl, rfl⟩ : c = c' ∧ name = name' := by simpa using same
  rw [closesFirst_iff, neverCloses_cons_iff, List.mem_cons, not_or, not_or]
  constructor
  · rintro ⟨-, ⟨inLine, -⟩, first, -⟩
    exact ⟨Ne.symm inLine, first⟩
  · rintro ⟨inLine, first⟩
    exact ⟨List.cons_ne_nil _ _, ⟨Ne.symm inLine, line⟩, first, closes⟩

/-- Braces inside a name close nothing, also as its first character. -/
theorem references_close_first_iff_inner_brace :
    Literal.object.recognize ['{', '}', 'a', '}', 'b', '}', ' ', '{', 'c', '}'] =
        some (['{', '}', 'a', '}', 'b', '}'], [' ', '{', 'c', '}']) ∧
      ClosesFirst ['}', 'a', '}', 'b'] [' ', '{', 'c', '}'] := by
  have found : Literal.object.recognize ['{', '}', 'a', '}', 'b', '}', ' ', '{', 'c', '}'] =
      some (['{', '}', 'a', '}', 'b', '}'], [' ', '{', 'c', '}']) := by
    decide +kernel
  refine ⟨found, ((references_close_first_iff _).2 '}' ['a', '}', 'b'] _ found).mpr ?_⟩
  rintro (lineBreak | ⟨-, d, u, split, blank⟩)
  · exact absurd lineBreak (by decide)
  · obtain ⟨rfl, -⟩ := List.cons.inj split
    exact absurd blank (by decide)

/-- Empty braces take in the reference behind them, and a name may begin with a line break. -/
theorem not_closesFirst_empty_braces :
    (Literal.object.recognize ['{', '}', ' ', '{', 'a', '}'] =
        some (['{', '}', ' ', '{', 'a', '}'], []) ∧
      atBoundary [' ', '{', 'a', '}'] = true ∧ ¬ ClosesFirst ['}', ' ', '{', 'a'] []) ∧
    Literal.object.recognize ['{', '\n', 'a', '}', ' ', 'b'] =
        some (['{', '\n', 'a', '}'], [' ', 'b']) ∧
      ¬ ClosesFirst ['\n', 'a'] [' ', 'b'] := by
  refine ⟨⟨by decide +kernel, by decide, fun closes => ?_⟩, by decide +kernel, fun closes => ?_⟩
  · exact absurd (closes.inner [] ' ' ['{', 'a'] rfl) (by decide)
  · exact closes.line List.mem_cons_self

end CommandConsole
