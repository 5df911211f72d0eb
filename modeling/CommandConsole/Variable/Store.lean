import Std.Data.TreeMap
import CommandConsole.Value.Basic
import CommandConsole.Variable.Name

/-!
# Stored variables

A finite map from names to values, listed in ascending order of the names.
Only valid names can be set, so no stored variable can be mistaken for a
literal; asking for a name that is not set, valid or not, is an error.
-/

namespace CommandConsole

/-- The variables that are set. -/
structure Variables where
  values : Std.TreeMap String Value := ∅

namespace Variables

def get? (vs : Variables) (name : String) : Option Value := vs.values[name]?

/-- The value of a variable that is set. -/
def get (vs : Variables) (name : String) : Except VariableError Value :=
  match vs.get? name with
  | some v => .ok v
  | none => .error (.unbound name)

/-- Set a variable, whether it was set before or not. -/
def set (vs : Variables) (name : String) (v : Value) : Except VariableError Variables :=
  match VariableName.error? name.toList with
  | some e => .error e
  | none => .ok ⟨vs.values.insert name v⟩

/-- Set a variable, or leave everything as it is if the name is refused. -/
def setIfValid (vs : Variables) (name : String) (v : Value) : Variables :=
  match vs.set name v with
  | .ok vs' => vs'
  | .error _ => vs

/-- Forget a variable and return the value it had. -/
def unset (vs : Variables) (name : String) : Except VariableError (Value × Variables) :=
  match vs.get? name with
  | some v => .ok (v, ⟨vs.values.erase name⟩)
  | none => .error (.unbound name)

def contains (vs : Variables) (name : String) : Bool := vs.values.contains name

def size (vs : Variables) : Nat := vs.values.size

def isEmpty (vs : Variables) : Bool := vs.values.isEmpty

/-- All variables, in ascending order of their names. -/
def toList (vs : Variables) : List (String × Value) := vs.values.toList

@[simp] theorem get?_empty (name : String) : (⟨∅⟩ : Variables).get? name = none := by
  simp [get?]

theorem get?_set {vs vs' : Variables} {name : String} {v : Value} (h : vs.set name v = .ok vs')
    (other : String) : vs'.get? other = if name = other then some v else vs.get? other := by
  simp only [set] at h
  split at h
  · simp at h
  · obtain rfl := Except.ok.inj h
    simp [get?, Std.TreeMap.getElem?_insert]

theorem get?_unset {vs vs' : Variables} {name : String} {v : Value}
    (h : vs.unset name = .ok (v, vs')) (other : String) :
    vs'.get? other = if name = other then none else vs.get? other := by
  simp only [unset] at h
  split at h
  · obtain ⟨rfl, rfl⟩ := Prod.mk.inj (Except.ok.inj h)
    simp [get?, Std.TreeMap.getElem?_erase]
  · simp at h

end Variables

end CommandConsole
