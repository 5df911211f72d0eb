import Mathlib.Data.List.Induction
import CommandConsole.History

/-!
# What happens to a history

A history begins without lines. Lines are recorded, the capacity is changed, a
walk takes a step, and everything is forgotten, any number of times and in any
order. The capacity in force is the one that was asked for last, and there are
never more lines than that.
-/

namespace CommandConsole.History

section

variable {h : History}

theorem length_lines_record (h : History) (line : String) :
    (h.record line).lines.length ≤ h.capacity := List.length_take_le ..

theorem lines_setCapacity (h : History) (capacity : Nat) :
    (h.setCapacity capacity).lines = h.lines.take (min h.lines.length capacity) := by
  rw [setCapacity, Nat.min_comm, ← List.take_eq_take_min]

theorem length_lines_setCapacity (h : History) (capacity : Nat) :
    (h.setCapacity capacity).lines.length = min h.lines.length capacity := by
  rw [lines_setCapacity, List.length_take, Nat.min_eq_left (Nat.min_le_left ..)]

/-- A walk goes on where it was, if the line there is kept. -/
theorem cursor_setCapacity_eq_some_iff {capacity place : Nat} :
    (h.setCapacity capacity).cursor = some place ↔
      h.cursor = some place ∧ place < min h.lines.length capacity := by
  rw [← length_lines_setCapacity, setCapacity, Option.filter_eq_some_iff, decide_eq_true_iff]

end

inductive Operation where
  | record (line : String)
  | setCapacity (capacity : Nat)
  | navigate (older : Bool)
  | clear
  deriving DecidableEq, Repr

namespace Operation

def apply : Operation → History → History
  | record line, h => h.record line
  | setCapacity capacity, h => h.setCapacity capacity
  | navigate older, h => (h.navigate older).2
  | clear, h => h.clear

@[simp] theorem lines_apply_record (line : String) (h : History) :
    ((record line).apply h).lines = (line :: h.lines).take h.capacity := rfl

@[simp] theorem lines_apply_setCapacity (capacity : Nat) (h : History) :
    ((setCapacity capacity).apply h).lines = h.lines.take capacity := rfl

@[simp] theorem lines_apply_navigate (older : Bool) (h : History) :
    ((navigate older).apply h).lines = h.lines := lines_navigate h older

@[simp] theorem lines_apply_clear (h : History) : (clear.apply h).lines = [] := rfl

/-- The line that is recorded, if one is. -/
@[simp] def line? : Operation → Option String
  | record line => some line
  | setCapacity _ | navigate _ | clear => none

/-- The capacity that is asked for, if one is. -/
@[simp] def capacity? : Operation → Option Nat
  | setCapacity capacity => some capacity
  | record _ | navigate _ | clear => none

end Operation

/-- What has become of an empty history with some capacity. -/
def after (capacity : Nat) (ops : List Operation) : History :=
  ops.foldl (fun h op => op.apply h) (empty capacity)

/-- The capacity that was asked for last. -/
def capacityAfter (capacity : Nat) (ops : List Operation) : Nat :=
  (ops.filterMap Operation.capacity?).getLastD capacity

/-- The lines that were recorded, the first one first, whether they are kept or not. -/
def recorded (ops : List Operation) : List String := ops.filterMap Operation.line?

section

variable {capacity : Nat} {ops : List Operation}

@[simp] theorem after_concat (op : Operation) :
    after capacity (ops ++ [op]) = op.apply (after capacity ops) := by
  simp [after]

theorem capacityAfter_concat (op : Operation) :
    capacityAfter capacity (ops ++ [op]) = op.capacity?.getD (capacityAfter capacity ops) := by
  cases op <;> simp [capacityAfter]

@[simp] theorem recorded_singleton (op : Operation) : recorded [op] = op.line?.toList := by
  cases op <;> rfl

@[simp] theorem recorded_append (ops more : List Operation) :
    recorded (ops ++ more) = recorded ops ++ recorded more := List.filterMap_append ..

theorem capacity_apply (op : Operation) (h : History) :
    (op.apply h).capacity = op.capacity?.getD h.capacity := by
  cases op with
  | navigate older => exact capacity_navigate h older
  | record line => rfl
  | setCapacity capacity => rfl
  | clear => rfl

theorem length_lines_apply (op : Operation) {h : History} (short : h.lines.length ≤ h.capacity) :
    (op.apply h).lines.length ≤ (op.apply h).capacity := by
  cases op with
  | record line => exact length_lines_record h line
  | setCapacity capacity =>
      change (h.setCapacity capacity).lines.length ≤ capacity
      rw [length_lines_setCapacity]
      exact Nat.min_le_right ..
  | navigate older =>
      rw [Operation.apply, lines_navigate, capacity_navigate]
      exact short
  | clear => exact Nat.zero_le _

theorem capacity_after (capacity : Nat) (ops : List Operation) :
    (after capacity ops).capacity = capacityAfter capacity ops := by
  induction ops using List.reverseRecOn with
  | nil => rfl
  | append_singleton ops op ih => rw [after_concat, capacity_apply, capacityAfter_concat, ih]

theorem length_lines_after (capacity : Nat) (ops : List Operation) :
    (after capacity ops).lines.length ≤ capacityAfter capacity ops := by
  rw [← capacity_after]
  induction ops using List.reverseRecOn with
  | nil => exact Nat.zero_le _
  | append_singleton ops op ih =>
      rw [after_concat]
      exact length_lines_apply op ih

end

end CommandConsole.History
