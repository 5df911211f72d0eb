import Mathlib.Computability.Language
import Mathlib.Order.CompletePartialOrder
import Mathlib.Order.ConditionallyCompleteLattice.Basic
import CommandConsole.Text.Scanner

/-!
# The languages that scanners read

A run is always taken as long as possible, so what a scanner finds depends on
what stands behind it. It does so only through the next character: in front of
a text that does not begin with certain characters a scanner finds exactly the
words of a language, whatever else follows. The scanner combinators then are
the operations on languages, as long as no piece can go on where the next one
begins.
-/

namespace CommandConsole.Text

/-- A text does not begin with a character of a class. -/
def Stops (p : Char → Bool) (r : List Char) : Prop := ∀ c ∈ r.head?, p c = false

namespace Stops

variable {p q : Char → Bool} {c : Char} {r : List Char}

@[simp] theorem nil : Stops p [] := by simp [Stops]

@[simp] theorem cons_iff : Stops p (c :: r) ↔ p c = false := by simp [Stops]

theorem mono (h : Stops q r) (wider : ∀ c, p c = true → q c = true) : Stops p r := by
  intro c first
  have outside := h c first
  cases inside : p c with
  | false => rfl
  | true => rw [wider c inside] at outside; cases outside

theorem takeWhile_append (h : Stops p r) {t : List Char} (inside : ∀ c ∈ t, p c = true) :
    (t ++ r).takeWhile p = t := by
  rw [List.takeWhile_append_of_pos inside]
  cases r with
  | nil => simp
  | cons c r => simp [cons_iff.mp h]

theorem dropWhile_append (h : Stops p r) {t : List Char} (inside : ∀ c ∈ t, p c = true) :
    (t ++ r).dropWhile p = r := by
  rw [List.dropWhile_append_of_pos inside]
  cases r with
  | nil => rfl
  | cons c r => simp [cons_iff.mp h]

end Stops

theorem atBoundary_iff_stops {r : List Char} : atBoundary r = true ↔ Stops (!isBlank ·) r := by
  cases r <;> simp

/-- Nothing follows, or a blank does. -/
theorem atBoundary_iff {r : List Char} :
    atBoundary r = true ↔ r = [] ∨ ∃ c u, r = c :: u ∧ isBlank c = true := by
  cases r <;> simp

/-- The words of one character of a class. -/
def single (p : Char → Bool) : Language Char := {t | ∃ c, p c = true ∧ t = [c]}

/-- The words over a class of characters. -/
def runs (p : Char → Bool) : Language Char := {t | ∀ c ∈ t, p c = true}

/-- The words over a class of characters, the empty one excepted. -/
def runs1 (p : Char → Bool) : Language Char := {t | t ≠ [] ∧ ∀ c ∈ t, p c = true}

/-- The words with a property. -/
def satisfying (chosen : List Char → Bool) : Language Char := {t | chosen t = true}

section Membership

variable {p : Char → Bool} {t w : List Char}

theorem mem_runs1 : t ∈ runs1 p ↔ t ≠ [] ∧ ∀ c ∈ t, p c = true := Iff.rfl

theorem mem_satisfying {chosen : List Char → Bool} :
    t ∈ satisfying chosen ↔ chosen t = true := Iff.rfl

theorem mem_word : t ∈ ({w} : Language Char) ↔ t = w := Iff.rfl

theorem runs1_eq : runs1 p = single p * runs p := by
  apply Language.ext
  intro t
  rw [Language.mem_mul, mem_runs1]
  constructor
  · rintro ⟨nonempty, inside⟩
    obtain ⟨c, u, rfl⟩ := List.exists_cons_of_ne_nil nonempty
    obtain ⟨first, rest⟩ := List.forall_mem_cons.mp inside
    exact ⟨[c], ⟨c, first, rfl⟩, u, rest, rfl⟩
  · rintro ⟨_, ⟨c, first, rfl⟩, u, rest, rfl⟩
    exact ⟨by simp, List.forall_mem_cons.mpr ⟨first, rest⟩⟩

end Membership

section Characters

variable {L M : Language Char} {p q : Char → Bool} {w : List Char}

theorem word_le_runs (inside : w.all p = true) : ({w} : Language Char) ≤ runs p := by
  rintro t rfl
  exact List.all_eq_true.mp inside

theorem runs_le_runs (wider : ∀ c, q c = true → p c = true) : runs q ≤ runs p :=
  fun _ inside c member => wider c (inside c member)

theorem runs1_le_runs (wider : ∀ c, q c = true → p c = true) : runs1 q ≤ runs p :=
  fun _ member => runs_le_runs wider member.2

theorem one_add_le_runs (h : L ≤ runs p) : 1 + L ≤ runs p := by
  intro t member
  rcases (Language.mem_add _ _ _).mp member with rfl | present
  · exact List.forall_mem_nil _
  · exact h present

theorem mul_le_runs (h : L ≤ runs p) (h' : M ≤ runs p) : L * M ≤ runs p := by
  intro t member
  obtain ⟨u, first, v, second, rfl⟩ := Language.mem_mul.mp member
  exact List.forall_mem_append.mpr ⟨h first, h' second⟩

end Characters

/-- Every word of a language begins with a character outside a class. -/
def LeadsOutside (L : Language Char) (p : Char → Bool) : Prop :=
  ∀ t ∈ L, ∃ c u, t = c :: u ∧ p c = false

namespace LeadsOutside

variable {L M : Language Char} {p q : Char → Bool}

theorem word {c : Char} {w : List Char} (outside : p c = false) :
    LeadsOutside {c :: w} p := by
  rintro t rfl
  exact ⟨c, w, rfl, outside⟩

theorem single (outside : ∀ c, q c = true → p c = false) : LeadsOutside (single q) p := by
  rintro t ⟨c, inside, rfl⟩
  exact ⟨c, [], rfl, outside c inside⟩

theorem runs1 (outside : ∀ c, q c = true → p c = false) : LeadsOutside (runs1 q) p := by
  rintro t ⟨nonempty, inside⟩
  obtain ⟨c, u, rfl⟩ := List.exists_cons_of_ne_nil nonempty
  exact ⟨c, u, rfl, outside c (inside c (List.mem_cons_self ..))⟩

theorem mul (h : LeadsOutside L p) : LeadsOutside (L * M) p := by
  intro t member
  obtain ⟨u, first, v, _, rfl⟩ := Language.mem_mul.mp member
  obtain ⟨c, u, rfl, outside⟩ := h u first
  exact ⟨c, u ++ v, rfl, outside⟩

theorem add (h : LeadsOutside L p) (h' : LeadsOutside M p) : LeadsOutside (L + M) p := by
  intro t member
  cases (Language.mem_add _ _ _).mp member with
  | inl first => exact h t first
  | inr second => exact h' t second

theorem mono (h : LeadsOutside M p) (smaller : L ≤ M) : LeadsOutside L p :=
  fun t member => h t (smaller member)

/-- What may be missing in front leaves the beginning to what comes next. -/
theorem one_add_mul (h : LeadsOutside L p) (h' : LeadsOutside M p) :
    LeadsOutside ((1 + L) * M) p := by
  rw [add_mul, one_mul]
  intro t member
  cases (Language.mem_add _ _ _).mp member with
  | inl missing => exact h' t missing
  | inr present => exact h.mul t present

theorem stops_append (h : LeadsOutside L p) {t : List Char} (member : t ∈ L) (r : List Char) :
    Stops p (t ++ r) := by
  obtain ⟨c, u, rfl, outside⟩ := h t member
  exact Stops.cons_iff.mpr outside

/-- Behind a piece that may be missing the text stops as it does behind the
piece and without it. -/
theorem stops_one_add (h : LeadsOutside L p) (wider : ∀ c, p c = true → q c = true)
    {t : List Char} (member : t ∈ 1 + L) {r : List Char} (stops : Stops q r) :
    Stops p (t ++ r) := by
  rcases (Language.mem_add _ _ _).mp member with rfl | present
  · exact stops.mono wider
  · exact h.stops_append present r

end LeadsOutside

/-- A word over a class that cannot go on a piece stops it even if it is empty. -/
theorem stops_runs {p q r : Char → Bool} (outside : ∀ c, p c = true → q c = false)
    (wider : ∀ c, q c = true → r c = true) {t : List Char} (member : t ∈ runs p) {u : List Char}
    (stops : Stops r u) : Stops q (t ++ u) := by
  cases t with
  | nil => exact stops.mono wider
  | cons c t => exact Stops.cons_iff.mpr (outside c (member c (List.mem_cons_self ..)))

namespace Scanner

theorem andThen_eq_none {a b : Scanner} {s : List Char} (absent : a s = none) :
    a.andThen b s = none := by
  simp [andThen, absent]

theorem such_eq_none {chosen : List Char → Bool} {a : Scanner} {s : List Char}
    (absent : a s = none) : such chosen a s = none := by
  simp [such, absent]

theorem text_eq_none {c : Char} {w s : List Char} (stops : Stops (· == c) s) :
    text (c :: w) s = none := by
  cases s with
  | nil => rfl
  | cons c' s =>
      rw [Stops.cons_iff, beq_eq_false_iff_ne] at stops
      simp [text, stops.symm]

/-- In front of a text that does not begin with a character of the class, a
scanner finds exactly the words of the language. -/
def Reads (a : Scanner) (L : Language Char) (p : Char → Bool) : Prop :=
  ∀ ⦃s t r⦄, Stops p r → (a s = some (t, r) ↔ s = t ++ r ∧ t ∈ L)

namespace Reads

variable {a b : Scanner} {as : List Scanner} {L M : Language Char} {p q : Char → Bool}

/-- A scanner that loses nothing has to be looked at only on words of the
language and on what it finds. -/
theorem of_splits (splits : Splits a)
    (sound : ∀ ⦃s t r⦄, Stops p r → a s = some (t, r) → t ∈ L)
    (complete : ∀ ⦃t r⦄, t ∈ L → Stops p r → a (t ++ r) = some (t, r)) : Reads a L p := by
  intro s t r stops
  constructor
  · intro found
    exact ⟨splits found, sound stops found⟩
  · rintro ⟨rfl, member⟩
    exact complete member stops

theorem found (h : Reads a L p) {t r : List Char} (member : t ∈ L) (stops : Stops p r) :
    a (t ++ r) = some (t, r) :=
  (h stops).mpr ⟨rfl, member⟩

theorem mono (h : Reads a L p) (wider : ∀ c, p c = true → q c = true) : Reads a L q :=
  fun _ _ _ stops => h (stops.mono wider)

theorem one (q p : Char → Bool) : Reads (Scanner.one q) (single q) p := by
  apply of_splits (splits_one q)
  · intro s t r _ found
    cases s with
    | nil => cases found
    | cons c s =>
        by_cases inside : q c = true
        · simp only [Scanner.one, inside, if_true, Option.some.injEq, Prod.mk.injEq] at found
          exact ⟨c, inside, found.1.symm⟩
        · simp [Scanner.one, inside] at found
  · rintro _ r ⟨c, inside, rfl⟩ _
    simp [Scanner.one, inside]

theorem text (w : List Char) (p : Char → Bool) : Reads (Scanner.text w) {w} p := by
  apply of_splits (splits_text w)
  · intro s t r _ found
    induction w generalizing s t with
    | nil =>
        simp only [Scanner.text, Option.some.injEq, Prod.mk.injEq] at found
        exact found.1.symm
    | cons c w ih =>
        cases s with
        | nil => cases found
        | cons c' s =>
            simp only [Scanner.text] at found
            split at found
            next same =>
              obtain ⟨⟨t', r'⟩, rest, e⟩ := Option.map_eq_some_iff.mp found
              obtain ⟨rfl, rfl⟩ := Prod.mk.inj e
              exact congrArg₂ List.cons same.symm (ih rest)
            next => cases found
  · rintro t r rfl _
    induction t with
    | nil => rfl
    | cons c w ih => simp [Scanner.text, ih]

theorem many (p : Char → Bool) : Reads (Scanner.many p) (runs p) p := by
  apply of_splits (splits_many p)
  · intro s t r _ found
    simp only [Scanner.many, Option.some.injEq, Prod.mk.injEq] at found
    rw [← found.1]
    exact List.all_eq_true.mp List.all_takeWhile
  · intro t r inside stops
    simp only [Scanner.many, stops.takeWhile_append inside, stops.dropWhile_append inside]

/-- Pieces follow each other without a gap. What follows the first one is the
second one, and if that is empty what follows both. -/
theorem andThen (ha : Reads a L p) (hb : Reads b M q)
    (follow : ∀ t ∈ M, ∀ r, Stops q r → Stops p (t ++ r)) :
    Reads (a.andThen b) (L * M) q := by
  intro s t r stops
  rw [Language.mem_mul]
  constructor
  · intro found
    obtain ⟨⟨t₁, r₁⟩, first, found⟩ := Option.bind_eq_some_iff.mp found
    obtain ⟨⟨t₂, r₂⟩, second, e⟩ := Option.map_eq_some_iff.mp found
    obtain ⟨rfl, rfl⟩ := Prod.mk.inj e
    obtain ⟨rfl, inM⟩ := (hb stops).mp second
    obtain ⟨rfl, inL⟩ := (ha (follow t₂ inM r₂ stops)).mp first
    exact ⟨(List.append_assoc t₁ t₂ r₂).symm, t₁, inL, t₂, inM, rfl⟩
  · rintro ⟨rfl, t₁, inL, t₂, inM, rfl⟩
    have first := ha.found inL (follow t₂ inM r stops)
    have second := hb.found inM stops
    simp [Scanner.andThen, first, second]

/-- Where the second piece always begins with a character that cannot go on the
first one, nothing has to be known about what follows. -/
theorem andThen_of_leads (ha : Reads a L p) (hb : Reads b M q) (leads : LeadsOutside M p) :
    Reads (a.andThen b) (L * M) q :=
  ha.andThen hb fun _ member r _ => leads.stops_append member r

theorem seq_nil (p : Char → Bool) : Reads (Scanner.seq []) 1 p := by
  intro s t r _
  simp only [Scanner.seq, Option.some.injEq, Prod.mk.injEq, Language.mem_one]
  constructor
  · rintro ⟨rfl, rfl⟩
    exact ⟨rfl, rfl⟩
  · rintro ⟨rfl, rfl⟩
    exact ⟨rfl, rfl⟩

theorem seq_singleton (ha : Reads a L p) : Reads (Scanner.seq [a]) L p := by
  have h := ha.andThen (seq_nil p) (by simp)
  rwa [mul_one] at h

theorem seq_cons (ha : Reads a L p) (has : Reads (Scanner.seq as) M q)
    (leads : LeadsOutside M p) : Reads (Scanner.seq (a :: as)) (L * M) q :=
  ha.andThen_of_leads has leads

/-- A piece that nothing can go on needs nothing known about the next one. -/
theorem seq_cons_closed (ha : Reads a L fun _ => false) (has : Reads (Scanner.seq as) M q) :
    Reads (Scanner.seq (a :: as)) (L * M) q :=
  ha.andThen has (by simp [Stops])

theorem some1 (p : Char → Bool) : Reads (Scanner.some1 p) (runs1 p) p := by
  rw [runs1_eq]
  exact (one p fun _ => false).andThen (many p) (by simp [Stops])

/-- A piece that may be missing is not missed where what follows cannot begin it. -/
theorem optional (ha : Reads a L p) (absent : ∀ r, Stops p r → a r = none) :
    Reads (Scanner.optional a) (1 + L) p := by
  intro s t r stops
  rw [Language.mem_add, Language.mem_one, Scanner.optional]
  cases found : a s with
  | none =>
      simp only [Option.orElse_none, Option.some.injEq, Prod.mk.injEq]
      constructor
      · rintro ⟨rfl, rfl⟩
        exact ⟨rfl, .inl rfl⟩
      · rintro ⟨rfl, rfl | member⟩
        · exact ⟨rfl, rfl⟩
        · rw [ha.found member stops] at found
          cases found
  | some x =>
      rw [Option.orElse_some, ← found, ha stops]
      constructor
      · rintro ⟨rfl, member⟩
        exact ⟨rfl, .inr member⟩
      · rintro ⟨rfl, rfl | member⟩
        · rw [List.nil_append, absent r stops] at found
          cases found
        · exact ⟨rfl, member⟩

/-- The second shape is tried where the first one is not there. -/
theorem either (ha : Reads a L p) (hb : Reads b M p)
    (apart : ∀ t ∈ M, ∀ r, Stops p r → a (t ++ r) = none) :
    Reads (Scanner.either a b) (L + M) p := by
  intro s t r stops
  rw [Language.mem_add, Scanner.either]
  cases found : a s with
  | none =>
      rw [Option.orElse_none, hb stops]
      constructor
      · rintro ⟨rfl, member⟩
        exact ⟨rfl, .inr member⟩
      · rintro ⟨rfl, member | member⟩
        · rw [ha.found member stops] at found
          cases found
        · exact ⟨rfl, member⟩
  | some x =>
      rw [Option.orElse_some, ← found, ha stops]
      constructor
      · rintro ⟨rfl, member⟩
        exact ⟨rfl, .inl member⟩
      · rintro ⟨rfl, member | member⟩
        · exact ⟨rfl, member⟩
        · rw [apart t member r stops] at found
          cases found

theorem such (ha : Reads a L p) (chosen : List Char → Bool) :
    Reads (Scanner.such chosen a) (L ⊓ satisfying chosen) p := by
  intro s t r stops
  rw [Scanner.such, Option.filter_eq_some_iff, ha stops, and_assoc]
  rfl

/-- A boundary stops whatever no blank goes on. -/
theorem bounded (ha : Reads a L (!isBlank ·)) {s t r : List Char} :
    Scanner.bounded a s = some (t, r) ↔ s = t ++ r ∧ t ∈ L ∧ atBoundary r = true := by
  rw [Scanner.bounded, Option.filter_eq_some_iff]
  constructor
  · rintro ⟨found, boundary⟩
    obtain ⟨rfl, member⟩ := (ha (atBoundary_iff_stops.mp boundary)).mp found
    exact ⟨rfl, member, boundary⟩
  · rintro ⟨rfl, member, boundary⟩
    exact ⟨ha.found member (atBoundary_iff_stops.mp boundary), boundary⟩

end Reads

end Scanner

end CommandConsole.Text
