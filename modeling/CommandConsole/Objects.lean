import CommandConsole.Value.Basic

/-!
# The objects of the host

Objects are named when they are made, and names need not differ. They stand in
a roster without gaps: a new object is added at the end, and the place of one
that is removed is taken by the last. A name finds the first object of the
roster that has it, which is the earliest made as long as none was removed.

The index of a removed object is used again, most recently removed first, with
a greater generation.
-/

namespace CommandConsole

structure Objects where
  /-- The objects with their names, in roster order. -/
  roster : List (Entity × String) := []
  /-- What the next objects will be whose indexes were used before. -/
  reusable : List Entity := []
  /-- The least index that was never used. -/
  unused : Nat := 0
  deriving DecidableEq, Repr, Inhabited

namespace Objects

/-- What the next object will be. -/
def next (os : Objects) : Entity := os.reusable.head?.getD ⟨os.unused, 0⟩

/-- Make an object. -/
def spawn (os : Objects) (name : String) : Entity × Objects :=
  (os.next,
   { roster := os.roster ++ [(os.next, name)]
     reusable := os.reusable.tail
     unused := if os.reusable.isEmpty then os.unused + 1 else os.unused })

/-- Remove the member of a list at a place and put the last one there. -/
def removeAt {α : Type} (xs : List α) (place : Nat) : List α :=
  match xs.getLast? with
  | none => []
  | some last => (xs.set place last).dropLast

/-- Remove an object, if it is there. -/
def despawn (os : Objects) (e : Entity) : Bool × Objects :=
  match os.roster.findIdx? (·.1 == e) with
  | none => (false, os)
  | some place =>
    (true,
     { os with
       roster := removeAt os.roster place
       reusable := ⟨e.index, e.generation + 1⟩ :: os.reusable })

/-- The first object with a name. -/
def find? (os : Objects) (name : String) : Option Entity :=
  (os.roster.find? (·.2 == name)).map (·.1)

/-- Make objects with the given names. -/
def spawnAll (os : Objects) (names : List String) : Objects :=
  names.foldl (fun os name => (os.spawn name).2) os

end Objects

end CommandConsole
