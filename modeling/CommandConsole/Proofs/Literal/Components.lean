import CommandConsole.Literal.Meaning
import CommandConsole.Proofs.Literal.Unambiguous

/-!
# The numbers of a tuple

A tuple is recognized as a whole, and its numbers are then looked for anew in
the token, by a scanner that knows nothing of parentheses and commas. Both find
the same numbers: nothing between two numbers can begin one, and no number can
go on where blanks, commas or the parenthesis stand.
-/

namespace CommandConsole

open Text Text.Scanner
open scoped Computability

/-- A number with blanks around it. -/
def spaced (number : List Char) : Language Char := runs isBlank * ({number} * runs isBlank)

/-- Numbers with blanks around them, each behind a comma. -/
def furtherNumbers : List (List Char) → Language Char
  | [] => 1
  | n :: ns => {[',']} * spaced n * furtherNumbers ns

/-- Numbers with blanks around them and commas between them. -/
def listedNumbers : List (List Char) → Language Char
  | [] => 1
  | n :: ns => spaced n * furtherNumbers ns

/-- The tuples with the given numbers. -/
def TupleShape.written (shape : TupleShape) (ns : List (List Char)) : Language Char :=
  {shape.lead} * ({['(']} * (listedNumbers ns * {[')']}))

section Grammar

variable {t : List Char}

theorem mem_components_iff : t ∈ components ↔ ∃ n ∈ numbers, t ∈ spaced n := by
  simp only [components, spaced, Language.mem_mul]
  constructor
  · rintro ⟨front, blank, _, ⟨n, member, back, blank', rfl⟩, rfl⟩
    exact ⟨n, member, front, blank, _, ⟨n, rfl, back, blank', rfl⟩, rfl⟩
  · rintro ⟨n, member, front, blank, _, ⟨_, rfl, back, blank', rfl⟩, rfl⟩
    exact ⟨front, blank, _, ⟨_, member, back, blank', rfl⟩, rfl⟩

theorem mem_furtherComponents_iff {k : Nat} : t ∈ ({[',']} * components : Language Char) ^ k ↔
    ∃ ns : List (List Char), ns.length = k ∧ (∀ n ∈ ns, n ∈ numbers) ∧ t ∈ furtherNumbers ns := by
  induction k generalizing t with
  | zero =>
      rw [pow_zero]
      constructor
      · intro empty
        exact ⟨[], rfl, List.forall_mem_nil _, empty⟩
      · rintro ⟨ns, none, -, member⟩
        obtain rfl := List.length_eq_zero_iff.mp none
        exact member
  | succ k ih =>
      simp only [pow_succ', Language.mem_mul, ih, mem_components_iff]
      constructor
      · rintro ⟨_, ⟨comma, separates, v, ⟨n, number, first⟩, rfl⟩, w, ⟨ns, rfl, others, rest⟩, rfl⟩
        refine ⟨n :: ns, rfl, List.forall_mem_cons.mpr ⟨number, others⟩, ?_⟩
        exact Language.append_mem_mul (Language.append_mem_mul separates first) rest
      · rintro ⟨ns, counted, all, member⟩
        obtain ⟨n, ns, rfl⟩ := List.exists_cons_of_length_eq_add_one counted
        obtain ⟨number, others⟩ := List.forall_mem_cons.mp all
        obtain ⟨_, ⟨comma, separates, v, first, rfl⟩, w, rest, rfl⟩ := member
        exact ⟨_, ⟨comma, separates, v, ⟨n, number, first⟩, rfl⟩, w,
          ⟨ns, Nat.succ_inj.mp counted, others, rest⟩, rfl⟩

/-- A tuple is written with as many numbers as it needs. -/
theorem TupleShape.mem_language_iff {shape : TupleShape} : t ∈ shape.language ↔
    ∃ ns : List (List Char), ns.length = shape.arity ∧ (∀ n ∈ ns, n ∈ numbers) ∧
      t ∈ shape.written ns := by
  have present : shape.arity = shape.arity - 1 + 1 := by cases shape <;> rfl
  simp only [language, written, Language.mem_mul, mem_components_iff, mem_furtherComponents_iff]
  constructor
  · rintro ⟨_, lead, _, ⟨_, opens, _, ⟨v, ⟨n, number, first⟩, _,
      ⟨w, ⟨ns, counted, others, rest⟩, _, closes, rfl⟩, rfl⟩, rfl⟩, rfl⟩
    refine ⟨n :: ns, ?_, List.forall_mem_cons.mpr ⟨number, others⟩, _, lead, _, ⟨_, opens, _,
      ⟨v ++ w, Language.append_mem_mul first rest, _, closes, rfl⟩, rfl⟩, ?_⟩
    · rw [List.length_cons, counted, ← present]
    · simp
  · rintro ⟨ns, counted, all, _, lead, _, ⟨_, opens, _, ⟨_, listed, _, closes, rfl⟩, rfl⟩, rfl⟩
    obtain ⟨n, ns, rfl⟩ := List.exists_cons_of_length_eq_add_one (counted.trans present)
    obtain ⟨number, others⟩ := List.forall_mem_cons.mp all
    obtain ⟨v, first, w, rest, rfl⟩ := Language.mem_mul.mp listed
    refine ⟨_, lead, _, ⟨_, opens, _, ⟨v, ⟨n, number, first⟩, _,
      ⟨w, ⟨ns, ?_, others, rest⟩, _, closes, rfl⟩, rfl⟩, rfl⟩, ?_⟩
    · rw [List.length_cons] at counted
      omega
    · simp

end Grammar

section Search

variable {n r t u : List Char} {ns : List (List Char)}

/-- The characters that a number can begin with. -/
def startsNumber (c : Char) : Bool := c.isDigit || c == '-'

theorem numberScanner_eq_none {c : Char} (other : startsNumber c = false) (r : List Char) :
    numberScanner (c :: r) = none := by
  obtain ⟨digit, minus⟩ := (Bool.or_eq_false_iff).mp other
  have unsigned : '-' ≠ c := (beq_eq_false_iff_ne.mp minus).symm
  simp [numberScanner, Scanner.seq, Scanner.andThen, Scanner.optional, Scanner.text,
    Scanner.some1, Scanner.one, unsigned, digit]

theorem findNumbers_append_of_other (other : ∀ c ∈ u, startsNumber c = false) (r : List Char) :
    findNumbers (u ++ r) = findNumbers r := by
  induction u with
  | nil => rfl
  | cons c u ih =>
      obtain ⟨first, rest⟩ := List.forall_mem_cons.mp other
      rw [List.cons_append, findNumbers, numberScanner_eq_none first]
      exact ih rest

theorem findNumbers_append_of_number (number : n ∈ numbers)
    (stops : Stops (fun c => c.isDigit || c == '.') r) :
    findNumbers (n ++ r) = n :: findNumbers r := by
  have found := Reads.number.found number stops
  obtain ⟨c, u, rfl, -⟩ := leadsOutside_numbers n number
  rw [List.cons_append] at found ⊢
  rw [findNumbers, found]

theorem startsNumber_of_isBlank {c : Char} (blank : isBlank c = true) : startsNumber c = false := by
  cases starts : startsNumber c with
  | false => rfl
  | true =>
      have part : isNumberChar c = true := by
        simp only [startsNumber, Bool.or_eq_true] at starts
        simp only [isNumberChar, Bool.or_eq_true]
        exact .inl starts
      rw [isBlank_eq_false_of_isNumberChar part] at blank
      cases blank

theorem findNumbers_append_of_spaced (number : n ∈ numbers) (member : t ∈ spaced n)
    (stops : Stops (fun c => isBlank c || c.isDigit || c == '.') r) :
    findNumbers (t ++ r) = n :: findNumbers r := by
  obtain ⟨front, blank, _, ⟨_, rfl, back, blank', rfl⟩, rfl⟩ := member
  have ends : Stops (fun c => c.isDigit || c == '.') (back ++ r) :=
    stops_runs (fun c blank => not_number_of_isBlank blank)
      (fun c part => by rw [Bool.or_assoc, part, Bool.or_true]) blank' stops
  rw [List.append_assoc, List.append_assoc,
    findNumbers_append_of_other fun c inside => startsNumber_of_isBlank (blank c inside),
    findNumbers_append_of_number number ends,
    findNumbers_append_of_other fun c inside => startsNumber_of_isBlank (blank' c inside)]

/-- The numbers behind the first one, up to the closing parenthesis. -/
theorem findNumbers_append_of_further (all : ∀ n ∈ ns, n ∈ numbers)
    (member : t ∈ furtherNumbers ns) :
    findNumbers (t ++ [')']) = ns ∧
      Stops (fun c => isBlank c || c.isDigit || c == '.') (t ++ [')']) := by
  induction ns generalizing t with
  | nil =>
      obtain rfl : t = [] := member
      refine ⟨?_, Stops.cons_iff.mpr rfl⟩
      have closing : ∀ c ∈ [')'], startsNumber c = false := List.forall_mem_singleton.mpr rfl
      exact (findNumbers_append_of_other closing []).trans (by rw [findNumbers])
  | cons n ns ih =>
      obtain ⟨number, others⟩ := List.forall_mem_cons.mp all
      obtain ⟨_, ⟨_, rfl, v, first, rfl⟩, w, rest, rfl⟩ := member
      obtain ⟨found, stops⟩ := ih others rest
      have comma : ∀ c ∈ [','], startsNumber c = false := List.forall_mem_singleton.mpr rfl
      refine ⟨?_, Stops.cons_iff.mpr rfl⟩
      rw [List.append_assoc, List.append_assoc, findNumbers_append_of_other comma,
        findNumbers_append_of_spaced number first stops, found]

/-- The numbers that are found in a tuple are those it is written with. -/
theorem TupleShape.findNumbers_of_mem_written {shape : TupleShape} (all : ∀ n ∈ ns, n ∈ numbers)
    (member : t ∈ shape.written ns) : findNumbers t = ns := by
  obtain ⟨_, rfl, _, ⟨_, rfl, _, ⟨v, listed, _, rfl, rfl⟩, rfl⟩, rfl⟩ := member
  have lead : ∀ c ∈ shape.lead ++ ['('], startsNumber c = false := by
    cases shape <;> simp [lead, startsNumber]
  show findNumbers (shape.lead ++ (['('] ++ (v ++ [')']))) = ns
  rw [← List.append_assoc, findNumbers_append_of_other lead]
  cases ns with
  | nil => exact (findNumbers_append_of_further all listed).1
  | cons n ns =>
      obtain ⟨number, others⟩ := List.forall_mem_cons.mp all
      obtain ⟨v, first, w, rest, rfl⟩ := Language.mem_mul.mp listed
      obtain ⟨found, stops⟩ := findNumbers_append_of_further others rest
      rw [List.append_assoc, findNumbers_append_of_spaced number first stops, found]

end Search

end CommandConsole
