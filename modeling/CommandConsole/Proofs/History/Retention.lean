import CommandConsole.Proofs.History.Operation
import CommandConsole.Proofs.Traversal

/-!
# Which lines a history keeps

A line is kept as long as, at every moment since it was recorded, fewer lines
were recorded after it than the capacity of that moment allows, and nothing was
forgotten. The capacity of today alone does not decide: a line that had to go
once does not return when there is room again. The lines that are kept stand in
the places that the number of lines recorded after them says.
-/

namespace CommandConsole.History

/-- A line that was recorded after `front`, with `back` done since, was kept all the time: nothing
was forgotten, and at no moment, that of the recording included, had as many lines been recorded
after it as the capacity then in force. -/
structure Kept (capacity : Nat) (front : List Operation) (line : String)
    (back : List Operation) : Prop where
  uncleared : .clear ∉ back
  within : ∀ since, since <+: back →
    (recorded since).length < capacityAfter capacity (front ++ .record line :: since)

/-- A line was recorded and kept, and as many lines as the place says were recorded after it. -/
def KeptAt (capacity : Nat) (ops : List Operation) (place : Nat) (line : String) : Prop :=
  ∃ front back, ops = front ++ .record line :: back ∧
    (recorded back).length = place ∧ Kept capacity front line back

section

variable {capacity place : Nat} {line : String} {ops front back : List Operation}
  {op : Operation}

theorem kept_nil_iff :
    Kept capacity front line [] ↔ 0 < capacityAfter capacity front := by
  have same : capacityAfter capacity (front ++ [.record line]) = capacityAfter capacity front :=
    capacityAfter_concat _
  constructor
  · intro kept
    have room := kept.within [] List.prefix_rfl
    rwa [same] at room
  · intro room
    refine ⟨List.not_mem_nil, fun since before => ?_⟩
    obtain rfl := List.prefix_nil.mp before
    rw [same]
    exact room

theorem kept_concat_iff : Kept capacity front line (back ++ [op]) ↔
    Kept capacity front line back ∧ op ≠ .clear ∧
      (recorded (back ++ [op])).length <
        capacityAfter capacity (front ++ .record line :: back ++ [op]) := by
  rw [List.append_assoc, List.cons_append]
  constructor
  · rintro ⟨uncleared, within⟩
    rw [List.mem_append, List.mem_singleton, not_or] at uncleared
    refine ⟨⟨uncleared.1, fun since before => ?_⟩, Ne.symm uncleared.2, ?_⟩
    · exact within since (before.trans (List.prefix_append ..))
    · exact within _ List.prefix_rfl
  · rintro ⟨⟨uncleared, within⟩, other, now⟩
    refine ⟨?_, fun since before => ?_⟩
    · rw [List.mem_append, List.mem_singleton, not_or]
      exact ⟨uncleared, Ne.symm other⟩
    · rcases List.prefix_concat_iff.mp before with rfl | earlier
      · exact now
      · exact within since earlier

theorem KeptAt.lt (kept : KeptAt capacity ops place line) :
    place < capacityAfter capacity ops := by
  obtain ⟨front, back, rfl, rfl, kept⟩ := kept
  exact kept.within back List.prefix_rfl

theorem not_keptAt_nil : ¬ KeptAt capacity [] place line := by
  rintro ⟨front, back, split, -⟩
  simp at split

/-- One more operation records the line, or leaves it kept with what was done since. -/
theorem keptAt_concat_iff : KeptAt capacity (ops ++ [op]) place line ↔
    (op = .record line ∧ place = 0 ∧ 0 < capacityAfter capacity ops) ∨
    (op ≠ .clear ∧ place < capacityAfter capacity (ops ++ [op]) ∧
      ∃ earlier, earlier + (recorded [op]).length = place ∧
        KeptAt capacity ops earlier line) := by
  constructor
  · rintro ⟨front, back, split, rfl, kept⟩
    rcases Traversal.concat_eq_append_cons_iff.mp split with
      ⟨rfl, rfl, rfl⟩ | ⟨back, rfl, rfl⟩
    · exact .inl ⟨rfl, rfl, kept_nil_iff.mp kept⟩
    · obtain ⟨kept, other, now⟩ := kept_concat_iff.mp kept
      exact .inr ⟨other, now, _, by simp, front, back, rfl, rfl, kept⟩
  · rintro (⟨rfl, rfl, room⟩ | ⟨other, now, earlier, rfl, front, back, rfl, rfl, kept⟩)
    · exact ⟨ops, [], rfl, rfl, kept_nil_iff.mpr room⟩
    · refine ⟨front, back ++ [op], by simp, by simp, kept_concat_iff.mpr ⟨kept, other, ?_⟩⟩
      simpa using now

/-- The lines of a history are those that were kept, each in its place. -/
theorem getElem?_lines_after_iff :
    (after capacity ops).lines[place]? = some line ↔ KeptAt capacity ops place line := by
  induction ops using List.reverseRecOn generalizing place with
  | nil => simp [after, empty, not_keptAt_nil]
  | append_singleton ops op ih =>
      -- A place counts what was recorded after the line: a recording moves all lines by one place,
      -- and what is cut off are the places that the capacity in force does not reach.
      rw [after_concat, keptAt_concat_iff, capacityAfter_concat]
      cases op with
      | record newest =>
          rw [Operation.lines_apply_record, List.getElem?_take, capacity_after]
          cases place with
          | zero => simp [and_comm]
          | succ place => simp [ih]
      | setCapacity smaller =>
          rw [Operation.lines_apply_setCapacity, List.getElem?_take]
          simp [ih]
      | navigate older =>
          rw [Operation.lines_apply_navigate]
          simpa [ih] using KeptAt.lt
      | clear => simp

/-- Behind the lines that were recorded since there is nothing but what was there before. -/
theorem drop_lines_after_append (capacity : Nat) (ops more : List Operation) :
    (after capacity (ops ++ more)).lines.drop (recorded more).length <+:
      (after capacity ops).lines := by
  induction more using List.reverseRecOn with
  | nil => simp [recorded]
  | append_singleton more op ih =>
      rw [← List.append_assoc, after_concat, recorded_append, recorded_singleton]
      cases op with
      | record line =>
          refine List.IsPrefix.trans ?_ ih
          simpa [List.drop_take] using List.take_prefix ..
      | setCapacity capacity =>
          refine List.IsPrefix.trans ?_ ih
          simpa [List.drop_take] using List.take_prefix ..
      | navigate older => simpa using ih
      | clear => simp

end

/-- Whatever happens to a history, its lines are those of all recorded lines that were kept, each
in the place that the number of lines recorded after it says. There are at most as many as the
capacity that was asked for last allows. A greater capacity changes no line, and behind the lines
that are recorded from now on there will never be another one than there is already. A step of a
walk changes no line. -/
theorem history_keeps_recent_lines (capacity : Nat) (ops : List Operation) :
    (∀ (place : Nat) (line : String),
      (after capacity ops).lines[place]? = some line ↔ KeptAt capacity ops place line) ∧
    (after capacity ops).capacity = capacityAfter capacity ops ∧
    (after capacity ops).lines.length ≤ capacityAfter capacity ops ∧
    (∀ greater, capacityAfter capacity ops ≤ greater →
      (after capacity (ops ++ [.setCapacity greater])).lines = (after capacity ops).lines) ∧
    (∀ more, (after capacity (ops ++ more)).lines.drop (recorded more).length <+:
      (after capacity ops).lines) ∧
    ∀ older, (after capacity (ops ++ [.navigate older])).lines = (after capacity ops).lines := by
  have short := length_lines_after capacity ops
  refine ⟨fun place line => getElem?_lines_after_iff, capacity_after capacity ops, short, ?_,
    drop_lines_after_append capacity ops, ?_⟩
  · intro greater more
    rw [after_concat]
    exact List.take_of_length_le (Nat.le_trans short more)
  · intro older
    rw [after_concat]
    exact lines_navigate ..

/-- There is room for a single line for a moment. The line that has to go then is not there again
when there is more room. -/
theorem history_keeps_recent_lines_narrowed :
    let ops : List Operation := [.record "a", .record "b", .setCapacity 1, .setCapacity 3,
      .navigate true, .record "c"]
    (after 2 ops).lines = ["c", "b"] ∧ KeptAt 2 ops 1 "b" ∧ (∀ place, ¬ KeptAt 2 ops place "a") ∧
      (after 2 (ops ++ [.setCapacity 5])).lines = ["c", "b"] := by
  intro ops
  have lines : (after 2 ops).lines = ["c", "b"] := by decide
  obtain ⟨kept, -, -, raised, -⟩ := history_keeps_recent_lines 2 ops
  refine ⟨lines, (kept 1 "b").mp (by rw [lines]; rfl), ?_, (raised 5 (by decide)).trans lines⟩
  intro place returned
  have there := List.mem_of_getElem? ((kept place "a").mpr returned)
  rw [lines] at there
  exact absurd there (by decide)

end CommandConsole.History
