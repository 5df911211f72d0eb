/-!
# The history of lines

The last lines that were run, the most recent first, and no more of them than
the capacity allows. A cursor walks over them, towards older or newer lines,
and stops at both ends. The first step of a walk, in either direction, reaches
the most recent line.
-/

namespace CommandConsole

/-- Recorded lines with a cursor. -/
structure History where
  /-- The lines, the most recent first. -/
  lines : List String
  capacity : Nat
  /-- The place of the line that was walked to, if a walk has begun. -/
  cursor : Option Nat
  deriving DecidableEq, Repr

namespace History

/-- The capacity where nothing else is asked for. -/
def defaultCapacity : Nat := 100

def empty (capacity : Nat) : History := ⟨[], capacity, none⟩

instance : Inhabited History := ⟨empty defaultCapacity⟩

/-- Put a line in front, drop what no longer fits, and end the walk. -/
def record (h : History) (line : String) : History :=
  ⟨(line :: h.lines).take h.capacity, h.capacity, none⟩

/-- The place one step further, within a history of the given length. -/
def step (length : Nat) (cursor : Option Nat) (older : Bool) : Nat :=
  match cursor, older with
  | none, _ => 0
  | some c, true => min (c + 1) (length - 1)
  | some c, false => min (c - 1) (length - 1)

/-- Take one step towards older or newer lines. -/
def navigate (h : History) (older : Bool) : Option String × History :=
  if h.lines.isEmpty then (none, { h with cursor := none })
  else
    let next := step h.lines.length h.cursor older
    (h.lines[next]?, { h with cursor := some next })

/-- Change the capacity. A walk goes on if its line is kept. -/
def setCapacity (h : History) (capacity : Nat) : History :=
  let lines := h.lines.take capacity
  ⟨lines, capacity, h.cursor.filter (· < lines.length)⟩

/-- Forget all lines. -/
def clear (h : History) : History := ⟨[], h.capacity, none⟩

def get? (h : History) (place : Nat) : Option String := h.lines[place]?

@[simp] theorem lines_navigate (h : History) (older : Bool) :
    (h.navigate older).2.lines = h.lines := by
  simp only [navigate]
  split <;> rfl

@[simp] theorem capacity_navigate (h : History) (older : Bool) :
    (h.navigate older).2.capacity = h.capacity := by
  simp only [navigate]
  split <;> rfl

end History

end CommandConsole
