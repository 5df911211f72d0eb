import CommandConsole.Proofs.History.Operation

/-!
# Walks over a history

A walk begins in front of the most recent line, or where the cursor is, and every
step goes one place further in its direction, but never beyond the first and the
last line. This is all that a step does: it answers with the line it has come to
and moves the cursor there. So every step of every walk over a history that has
a line answers with a line, in whatever directions the walk goes.

The cursor is always at a line that is there. Lines that are dropped under the
cursor end the walk, and so does a new line.
-/

namespace CommandConsole.History

/-- If there is a cursor, it is at a line. -/
def WellPlaced (h : History) : Prop := ∀ place, h.cursor = some place → place < h.lines.length

/-- A walk over a history has come to a place: the line there is the answer, and nothing but the
cursor is different. -/
structure LedTo (h : History) (place : Nat) (result : Option String × History) : Prop where
  within : place < h.lines.length
  line : result.1 = some h.lines[place]
  history : result.2 = { h with cursor := some place }

/-- Steps in some directions, one after the other, with the answer to the last one. -/
def walk (h : History) (directions : List Bool) : Option String × History :=
  directions.foldl (fun reached older => reached.2.navigate older) (none, h)

/-- Where a walk begins, counted from the most recent line. -/
def origin : Option Nat → Int
  | none => -1
  | some place => place

/-- One place further, but not beyond the first and the last one. -/
def clampedStep (last place : Int) (older : Bool) : Int :=
  max 0 (min (if older then place + 1 else place - 1) last)

@[simp] theorem clampedStep_older (last place : Int) :
    clampedStep last place true = max 0 (min (place + 1) last) := rfl

@[simp] theorem clampedStep_newer (last place : Int) :
    clampedStep last place false = max 0 (min (place - 1) last) := rfl

/-- Where steps in some directions lead. -/
def position (h : History) (directions : List Bool) : Int :=
  directions.foldl (clampedStep (h.lines.length - 1)) (origin h.cursor)

section

variable {h : History} {place : Nat} {directions : List Bool} {older : Bool}

theorem step_eq {length : Nat} (nonempty : 0 < length) (cursor : Option Nat) (older : Bool) :
    (step length cursor older : Int) = clampedStep (length - 1) (origin cursor) older := by
  cases cursor with
  | none =>
      cases older <;> simp only [step, origin, clampedStep_older, clampedStep_newer] <;> omega
  | some place =>
      cases older <;> simp only [step, origin, clampedStep_older, clampedStep_newer] <;> omega

/-- A step over a history with lines leads to a line. -/
theorem ledTo_navigate (nonempty : h.lines ≠ []) (older : Bool) :
    LedTo h (step h.lines.length h.cursor older) (h.navigate older) := by
  have length : 0 < h.lines.length := List.length_pos_iff.mpr nonempty
  have within : step h.lines.length h.cursor older < h.lines.length := by
    unfold step
    split <;> omega
  have lines : h.lines.isEmpty = false := List.isEmpty_eq_false_iff.mpr nonempty
  simp only [navigate, lines]
  exact ⟨within, List.getElem?_eq_getElem within, rfl⟩

theorem LedTo.of_cursor {cursor : Option Nat} {result : Option String × History}
    (led : LedTo { h with cursor := cursor } place result) : LedTo h place result :=
  ⟨led.within, led.line, led.history⟩

@[simp] theorem walk_concat :
    h.walk (directions ++ [older]) = (h.walk directions).2.navigate older := by
  simp [walk]

@[simp] theorem position_concat :
    h.position (directions ++ [older]) =
      clampedStep (h.lines.length - 1) (h.position directions) older := by
  simp [position]

/-- A walk changes nothing but the cursor. -/
theorem exists_cursor_walk (nonempty : h.lines ≠ []) (directions : List Bool) :
    ∃ cursor, (h.walk directions).2 = { h with cursor := cursor } ∧
      origin cursor = h.position directions := by
  -- The last step is one over the same lines, from the cursor that the steps before it have left.
  induction directions using List.reverseRecOn with
  | nil => exact ⟨h.cursor, rfl, rfl⟩
  | append_singleton directions older ih =>
      obtain ⟨cursor, reached, place⟩ := ih
      have led := ledTo_navigate (h := { h with cursor := cursor }) nonempty older
      refine ⟨some (step h.lines.length cursor older), ?_, ?_⟩
      · rw [walk_concat, reached, led.history]
      · rw [position_concat, ← place]
        exact step_eq (List.length_pos_iff.mpr nonempty) cursor older

/-- Every step of a walk leads to a line. -/
theorem ledTo_walk (nonempty : h.lines ≠ []) (begun : directions ≠ []) :
    LedTo h (h.position directions).toNat (h.walk directions) := by
  obtain ⟨front, older, rfl⟩ : ∃ front older, directions = front ++ [older] :=
    ⟨_, _, (List.dropLast_concat_getLast begun).symm⟩
  obtain ⟨cursor, reached, place⟩ := exists_cursor_walk nonempty front
  have led := ledTo_navigate (h := { h with cursor := cursor }) nonempty older
  have same := step_eq (List.length_pos_iff.mpr nonempty) cursor older
  rw [place] at same
  rw [walk_concat, reached, position_concat, ← same]
  exact led.of_cursor

/-- From the front, steps towards older lines come to one line after the other. -/
theorem position_replicate_older (nonempty : h.lines ≠ []) (fresh : h.cursor = none) (n : Nat) :
    h.position (List.replicate n true) = min n h.lines.length - 1 := by
  have length : 0 < h.lines.length := List.length_pos_iff.mpr nonempty
  induction n with
  | zero => simp [position, fresh, origin]
  | succ n ih =>
      rw [List.replicate_succ', position_concat, ih]
      simp only [clampedStep_older]
      omega

theorem position_replicate_newer (within : place < h.lines.length) (begun : h.cursor = some place)
    (n : Nat) : h.position (List.replicate n false) = max (place - n) 0 := by
  induction n with
  | zero => simp [position, begun, origin]
  | succ n ih =>
      rw [List.replicate_succ', position_concat, ih]
      simp only [clampedStep_newer]
      omega

/-! ## Walks in one direction -/

theorem ledTo_navigate_fresh (nonempty : h.lines ≠ []) (fresh : h.cursor = none) (older : Bool) :
    LedTo h 0 (h.navigate older) := by
  have led := ledTo_navigate nonempty older
  rw [fresh] at led
  exact led

theorem ledTo_walk_older (nonempty : h.lines ≠ []) (fresh : h.cursor = none) {n : Nat}
    (some : 1 ≤ n) : LedTo h (min n h.lines.length - 1) (h.walk (List.replicate n true)) := by
  have begun : List.replicate n true ≠ [] := by
    rw [ne_eq, List.replicate_eq_nil_iff]
    omega
  have led := ledTo_walk nonempty begun
  rw [position_replicate_older nonempty fresh] at led
  convert led using 1
  omega

theorem ledTo_walk_newer (within : place < h.lines.length) (there : h.cursor = some place) {n : Nat}
    (some : 1 ≤ n) : LedTo h (place - n) (h.walk (List.replicate n false)) := by
  have begun : List.replicate n false ≠ [] := by
    rw [ne_eq, List.replicate_eq_nil_iff]
    omega
  have led := ledTo_walk (List.ne_nil_of_length_pos (Nat.zero_lt_of_lt within)) begun
  rw [position_replicate_newer within there] at led
  convert led using 1
  omega

/-- A step towards older lines is taken back by one towards newer lines, if it had somewhere to
go. -/
theorem ledTo_walk_older_newer (more : place + 1 < h.lines.length) (there : h.cursor = some place) :
    LedTo h place (h.walk [true, false]) := by
  have back : h.position [true, false] = place := by
    simp only [position, there, origin, List.foldl_cons, List.foldl_nil, clampedStep_older,
      clampedStep_newer]
    omega
  have led := ledTo_walk (List.ne_nil_of_length_pos (Nat.zero_lt_of_lt more))
    (List.cons_ne_nil true [false])
  rw [back, Int.toNat_natCast] at led
  exact led

theorem navigate_of_no_lines (none : h.lines = []) (fresh : h.cursor = Option.none)
    (older : Bool) : h.navigate older = (Option.none, h) := by
  cases h
  simp_all [navigate]

/-! ## The cursor -/

theorem WellPlaced.cursor_eq_none (placed : h.WellPlaced) (none : h.lines = []) :
    h.cursor = Option.none := by
  rw [Option.eq_none_iff_forall_ne_some]
  intro place there
  have within := placed place there
  rw [none] at within
  exact Nat.not_lt_zero place within

theorem wellPlaced_navigate (h : History) (older : Bool) : (h.navigate older).2.WellPlaced := by
  by_cases nonempty : h.lines = []
  · simp [WellPlaced, navigate, nonempty]
  · have led := ledTo_navigate nonempty older
    rw [led.history]
    rintro place ⟨⟩
    exact led.within

theorem wellPlaced_setCapacity (h : History) (capacity : Nat) :
    (h.setCapacity capacity).WellPlaced := by
  intro place kept
  rw [length_lines_setCapacity]
  exact (cursor_setCapacity_eq_some_iff.mp kept).2

theorem wellPlaced_apply (op : Operation) (h : History) : (op.apply h).WellPlaced := by
  cases op with
  | record line => exact fun _ kept => nomatch kept
  | setCapacity capacity => exact wellPlaced_setCapacity h capacity
  | navigate older => exact wellPlaced_navigate h older
  | clear => exact fun _ kept => nomatch kept

theorem wellPlaced_after (capacity : Nat) (ops : List Operation) :
    (after capacity ops).WellPlaced := by
  cases ops using List.reverseRecOn with
  | nil => exact fun _ kept => nomatch kept
  | append_singleton ops op =>
      rw [after_concat]
      exact wellPlaced_apply op _

end

/-- In whatever state a history has come to be, its cursor is at a line, if there is one. A walk
over a history with lines goes from place to place by steps that are clamped between the first and
the last line, and answers with the line of the place. So the first step of a fresh walk answers
with the most recent line in either direction, `n` steps towards older lines lead to the `n`-th
line or the last one, `n` steps towards newer lines lead `n` places back or to the first one, and
a step towards older lines is undone by one towards newer lines unless it was clamped. Without
lines no step answers anything or changes anything. Recording and forgetting end a walk. A change
of the capacity ends it unless the line at the cursor is kept, and it is the same line then. -/
theorem history_walks_are_clamped (capacity : Nat) (ops : List Operation) :
    let h := after capacity ops
    (∀ place, h.cursor = some place → place < h.lines.length) ∧
    (h.lines ≠ [] →
      (∀ directions, directions ≠ [] →
        LedTo h (h.position directions).toNat (h.walk directions)) ∧
      (h.cursor = none → (∀ older, LedTo h 0 (h.navigate older)) ∧
        ∀ n, 1 ≤ n → LedTo h (min n h.lines.length - 1) (h.walk (List.replicate n true))) ∧
      ∀ place, h.cursor = some place →
        (∀ n, 1 ≤ n → LedTo h (place - n) (h.walk (List.replicate n false))) ∧
        (place + 1 < h.lines.length → LedTo h place (h.walk [true, false]))) ∧
    (h.lines = [] → h.cursor = none ∧ ∀ older, h.navigate older = (none, h)) ∧
    (∀ line, (h.record line).cursor = none) ∧ h.clear.cursor = none ∧
    ∀ n, (h.setCapacity n).lines = h.lines.take n ∧
      ∀ place, (h.setCapacity n).cursor = some place ↔
        h.cursor = some place ∧ place < (h.setCapacity n).lines.length := by
  intro h
  have placed : h.WellPlaced := wellPlaced_after capacity ops
  refine ⟨placed, fun nonempty => ⟨?_, ?_, ?_⟩, ?_, fun _ => rfl, rfl, fun n => ⟨rfl, ?_⟩⟩
  · intro directions begun
    exact ledTo_walk nonempty begun
  · intro fresh
    exact ⟨ledTo_navigate_fresh nonempty fresh, fun n some => ledTo_walk_older nonempty fresh some⟩
  · intro place there
    exact ⟨fun n some => ledTo_walk_newer (placed place there) there some,
      fun more => ledTo_walk_older_newer more there⟩
  · intro none
    have fresh := placed.cursor_eq_none none
    exact ⟨fresh, navigate_of_no_lines none fresh⟩
  · intro place
    rw [cursor_setCapacity_eq_some_iff, length_lines_setCapacity]

/-- Seven steps over three lines end at the last one. From the second of two lines that are left
four steps lead back to the first, and when only one line is left the walk is over. -/
theorem history_walks_are_clamped_past_the_end :
    let recording : List Operation := [.record "a", .record "b", .record "c"]
    let walking := recording ++ [.navigate true, .navigate true, .setCapacity 2]
    let h := after 5 recording
    let g := after 5 walking
    h.lines = ["c", "b", "a"] ∧ h.cursor = none ∧ LedTo h 2 (h.walk (List.replicate 7 true)) ∧
      LedTo h 0 (h.navigate false) ∧
      g.lines = ["c", "b"] ∧ g.cursor = some 1 ∧ LedTo g 0 (g.walk (List.replicate 4 false)) ∧
      LedTo g 1 (g.walk [true, true, false, true]) ∧ (g.setCapacity 1).cursor = none ∧
      (after 5 (walking ++ [.navigate false])).walk [true, false] =
        (some "c", after 5 (walking ++ [.navigate false])) ∧
      (after 0 recording).navigate true = (none, after 0 recording) := by
  intro recording walking h g
  obtain ⟨-, first, -⟩ := history_walks_are_clamped 5 recording
  obtain ⟨-, second, -, -, -, narrowed⟩ := history_walks_are_clamped 5 walking
  obtain ⟨-, third, -⟩ := history_walks_are_clamped 5 (walking ++ [.navigate false])
  obtain ⟨-, -, nothing, -⟩ := history_walks_are_clamped 0 recording
  have lines : h.lines = ["c", "b", "a"] := by decide
  have fresh : h.cursor = none := by decide
  have left : g.lines = ["c", "b"] := by decide
  have begun : g.cursor = some 1 := by decide
  obtain ⟨once, often⟩ := (first (by decide)).2.1 fresh
  obtain ⟨anywhere, -, further⟩ := second (by decide)
  have back := (further 1 begun).1 4 (by decide)
  have undone := ((third (by decide)).2.2 0 (by decide)).2 (by decide)
  refine ⟨lines, fresh, often 7 (by decide), once false, left, begun, back,
    anywhere [true, true, false, true] (by decide), ?_, Prod.ext undone.line undone.history,
    (nothing (by decide)).2 true⟩
  rw [Option.eq_none_iff_forall_ne_some]
  intro place kept
  obtain ⟨there, within⟩ := ((narrowed 1).2 place).mp kept
  obtain rfl : place = 1 := Option.some.inj (there.symm.trans begun)
  exact absurd within (by decide)

end CommandConsole.History
