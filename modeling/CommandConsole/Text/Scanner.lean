import CommandConsole.Text.Blank

/-!
# Scanners

A scanner looks for one shape at the start of a text and splits what it found
from the rest. Shapes are put together from single characters, fixed words and
runs; a run is always as long as possible and is never given back, which is
enough for the literals of the console because no part of a literal can start
with a character that the run before it accepts.
-/

namespace CommandConsole.Text

/-- Split a found piece off the start of a text, or find nothing. -/
abbrev Scanner := List Char → Option (List Char × List Char)

namespace Scanner

/-- One character of a class. -/
def one (p : Char → Bool) : Scanner
  | [] => none
  | c :: r => if p c then some ([c], r) else none

/-- A fixed text. -/
def text : List Char → Scanner
  | [], s => some ([], s)
  | _ :: _, [] => none
  | w :: ws, c :: r => if w = c then (text ws r).map fun (t, u) => (c :: t, u) else none

/-- The longest run of a class, possibly empty. -/
def many (p : Char → Bool) : Scanner := fun s => some (s.takeWhile p, s.dropWhile p)

/-- The first piece, then the second behind it. -/
def andThen (a b : Scanner) : Scanner := fun s =>
  (a s).bind fun (t, r) => (b r).map fun (u, r') => (t ++ u, r')

/-- All pieces, one behind the other. -/
def seq : List Scanner → Scanner
  | [] => fun s => some ([], s)
  | a :: as => a.andThen (seq as)

/-- The longest run of a class with at least one member. -/
def some1 (p : Char → Bool) : Scanner := (one p).andThen (many p)

/-- A piece that may be missing. -/
def optional (a : Scanner) : Scanner := fun s => (a s).orElse fun _ => some ([], s)

/-- The first shape, or else the second. -/
def either (a b : Scanner) : Scanner := fun s => (a s).orElse fun _ => b s

/-- Only pieces with a property. -/
def such (p : List Char → Bool) (a : Scanner) : Scanner := fun s => (a s).filter fun x => p x.1

/-- Only pieces that end at a boundary. -/
def bounded (a : Scanner) : Scanner := fun s => (a s).filter fun x => atBoundary x.2

/-- A scanner loses nothing: what it found and what is left make up the text. -/
def Splits (a : Scanner) : Prop := ∀ ⦃s t r⦄, a s = some (t, r) → s = t ++ r

theorem splits_one (p : Char → Bool) : Splits (one p) := by
  intro s t r h
  cases s with
  | nil => simp [one] at h
  | cons c s =>
    simp only [one] at h
    split at h
    · obtain ⟨rfl, rfl⟩ := Prod.mk.inj (Option.some.inj h)
      rfl
    · simp at h

theorem splits_text (w : List Char) : Splits (text w) := by
  induction w with
  | nil => intro s t r h; simp_all [text]
  | cons w ws ih =>
    intro s t r h
    cases s with
    | nil => simp [text] at h
    | cons c s =>
      simp only [text] at h
      split at h
      · obtain ⟨⟨t', r'⟩, h', e⟩ := Option.map_eq_some_iff.1 h
        obtain ⟨rfl, rfl⟩ := Prod.mk.inj e
        rw [ih h', List.cons_append]
      · simp at h

theorem splits_many (p : Char → Bool) : Splits (many p) := by
  intro s t r h
  simp only [many, Option.some.injEq, Prod.mk.injEq] at h
  rw [← h.1, ← h.2, List.takeWhile_append_dropWhile]

theorem Splits.andThen {a b : Scanner} (ha : Splits a) (hb : Splits b) : Splits (a.andThen b) := by
  intro s t r h
  obtain ⟨⟨t', r'⟩, h₁, h₂⟩ := Option.bind_eq_some_iff.1 h
  obtain ⟨⟨u, r''⟩, h₃, e⟩ := Option.map_eq_some_iff.1 h₂
  obtain ⟨rfl, rfl⟩ := Prod.mk.inj e
  rw [ha h₁, hb h₃, List.append_assoc]

theorem splits_some1 (p : Char → Bool) : Splits (some1 p) :=
  (splits_one p).andThen (splits_many p)

theorem splits_seq : ∀ {as : List Scanner}, (∀ a ∈ as, Splits a) → Splits (seq as)
  | [], _ => by intro s t r h; simp_all [seq]
  | a :: as, h =>
    (h a (by simp)).andThen (splits_seq fun b hb => h b (by simp [hb]))

theorem Splits.optional {a : Scanner} (ha : Splits a) : Splits (optional a) := by
  intro s t r h
  simp only [Scanner.optional] at h
  cases e : a s with
  | none => simp_all
  | some x => simp only [e, Option.orElse_some, Option.some.injEq] at h; exact ha (h ▸ e)

theorem Splits.either {a b : Scanner} (ha : Splits a) (hb : Splits b) : Splits (either a b) := by
  intro s t r h
  simp only [Scanner.either] at h
  cases e : a s with
  | none => rw [e] at h; exact hb h
  | some x => simp only [e, Option.orElse_some, Option.some.injEq] at h; exact ha (h ▸ e)

theorem Splits.such {a : Scanner} (ha : Splits a) (p : List Char → Bool) : Splits (such p a) :=
  fun _ _ _ h => ha (Option.filter_eq_some_iff.1 h).1

theorem Splits.bounded {a : Scanner} (ha : Splits a) : Splits (bounded a) :=
  fun _ _ _ h => ha (Option.filter_eq_some_iff.1 h).1

theorem atBoundary_of_bounded {a : Scanner} {s t r : List Char} (h : bounded a s = some (t, r)) :
    atBoundary r = true :=
  (Option.filter_eq_some_iff.1 h).2

/-- A scanner never finds the empty piece. -/
def Advances (a : Scanner) : Prop := ∀ ⦃s t r⦄, a s = some (t, r) → t ≠ []

theorem advances_one (p : Char → Bool) : Advances (one p) := by
  intro s t r h
  cases s with
  | nil => simp [one] at h
  | cons c s =>
    simp only [one] at h
    split at h
    · obtain ⟨rfl, rfl⟩ := Prod.mk.inj (Option.some.inj h)
      simp
    · simp at h

theorem advances_text {w : List Char} (hw : w ≠ []) : Advances (text w) := by
  intro s t r h
  match w, s with
  | [], _ => exact absurd rfl hw
  | _ :: _, [] => simp [text] at h
  | w :: ws, c :: s =>
    simp only [text] at h
    split at h
    · obtain ⟨x, _, e⟩ := Option.map_eq_some_iff.1 h
      obtain ⟨rfl, rfl⟩ := Prod.mk.inj e
      simp
    · simp at h

theorem Advances.andThen {a b : Scanner} (h : Advances a ∨ Advances b) :
    Advances (a.andThen b) := by
  intro s t r hs
  obtain ⟨⟨t', r'⟩, h₁, h₂⟩ := Option.bind_eq_some_iff.1 hs
  obtain ⟨⟨u, r''⟩, h₃, e⟩ := Option.map_eq_some_iff.1 h₂
  obtain ⟨rfl, rfl⟩ := Prod.mk.inj e
  rcases h with h | h
  · exact fun e => h h₁ (List.append_eq_nil_iff.1 e).1
  · exact fun e => h h₃ (List.append_eq_nil_iff.1 e).2

theorem advances_some1 (p : Char → Bool) : Advances (some1 p) :=
  Advances.andThen (.inl (advances_one p))

theorem advances_seq {as : List Scanner} {a : Scanner} (ha : a ∈ as) (h : Advances a) :
    Advances (seq as) := by
  induction as with
  | nil => simp at ha
  | cons b as ih =>
    rcases List.mem_cons.1 ha with rfl | ha
    · exact Advances.andThen (.inl h)
    · exact Advances.andThen (.inr (ih ha))

theorem Advances.either {a b : Scanner} (ha : Advances a) (hb : Advances b) :
    Advances (either a b) := by
  intro s t r h
  simp only [Scanner.either] at h
  cases e : a s with
  | none => rw [e] at h; exact hb h
  | some x => simp only [e, Option.orElse_some, Option.some.injEq] at h; exact ha (h ▸ e)

theorem Advances.such {a : Scanner} (ha : Advances a) (p : List Char → Bool) :
    Advances (such p a) :=
  fun _ _ _ h => ha (Option.filter_eq_some_iff.1 h).1

theorem Advances.bounded {a : Scanner} (ha : Advances a) : Advances (bounded a) :=
  fun _ _ _ h => ha (Option.filter_eq_some_iff.1 h).1

/-- Behind a piece that is not empty less is left than there was. -/
theorem length_rest_lt {a : Scanner} (hs : Splits a) (ha : Advances a) {s t r : List Char}
    (h : a s = some (t, r)) : r.length < s.length := by
  have := List.length_pos_iff.2 (ha h)
  rw [hs h, List.length_append]
  omega

end Scanner

end CommandConsole.Text
