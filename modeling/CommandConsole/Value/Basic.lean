import CommandConsole.Number.Binary32
import CommandConsole.Value.Kind

/-!
# Values

A value is what a literal denotes. Two of them stand for something else: an
object reference that found nothing denotes `null`, and a variable is replaced
by what it stores before a command runs, unless the command asks for the
variable itself.
-/

namespace CommandConsole

/-- An object of the host. Reusing an index raises its generation, so a kept
reference never reaches a later object. -/
structure Entity where
  index : Nat
  generation : Nat
  deriving DecidableEq, Repr, Inhabited

/-- Stands for no object in particular. It has the greatest index there is. -/
def Entity.placeholder : Entity := ⟨4294967294, 0⟩

structure Vec2 where
  x : Binary32
  y : Binary32
  deriving DecidableEq, Repr, Inhabited

structure Vec3 where
  x : Binary32
  y : Binary32
  z : Binary32
  deriving DecidableEq, Repr, Inhabited

structure Vec4 where
  x : Binary32
  y : Binary32
  z : Binary32
  w : Binary32
  deriving DecidableEq, Repr, Inhabited

structure Color where
  red : Binary32
  green : Binary32
  blue : Binary32
  alpha : Binary32
  deriving DecidableEq, Repr, Inhabited

def Vec2.components (v : Vec2) : List Binary32 := [v.x, v.y]

def Vec3.components (v : Vec3) : List Binary32 := [v.x, v.y, v.z]

def Vec4.components (v : Vec4) : List Binary32 := [v.x, v.y, v.z, v.w]

def Color.components (c : Color) : List Binary32 := [c.red, c.green, c.blue, c.alpha]

/-- What a literal denotes and a command receives. -/
inductive Value where
  /-- The literal `null`, or an object reference that found nothing. -/
  | null
  | bool (b : Bool)
  | int (i : Int32)
  | float (x : Binary32)
  | char (c : Char)
  | string (s : String)
  | vec2 (v : Vec2)
  | vec3 (v : Vec3)
  | vec4 (v : Vec4)
  | color (c : Color)
  | object (e : Entity)
  /-- A variable by name, standing for the value it stores. -/
  | varName (name : String)
  deriving DecidableEq, Repr, Inhabited

namespace Value

/-- The kind of a value. That of `null` is unknown. -/
def kind? : Value → Option Kind
  | null => none
  | bool _ => some .bool
  | int _ => some .int
  | float _ => some .float
  | char _ => some .char
  | string _ => some .string
  | vec2 _ => some .vec2
  | vec3 _ => some .vec3
  | vec4 _ => some .vec4
  | color _ => some .color
  | object _ => some .object
  | varName _ => some .varName

theorem kind?_ne_any (v : Value) : v.kind? ≠ some .any := by cases v <;> simp [kind?]

theorem kind?_eq_none_iff {v : Value} : v.kind? = none ↔ v = null := by cases v <;> simp [kind?]

/-- The kind of a value in messages. -/
def kindName (v : Value) : String := (v.kind?.map Kind.name).getD "null"

def isNull : Value → Bool
  | null => true
  | _ => false

/-- The numbers a value is made of. -/
def components : Value → List Binary32
  | float x => [x]
  | vec2 v => v.components
  | vec3 v => v.components
  | vec4 v => v.components
  | color c => c.components
  | _ => []

end Value

end CommandConsole
