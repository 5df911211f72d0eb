/-!
# Kinds of values

A parameter is declared with a kind. Kinds decide which values a parameter
takes: exactly its own, by widening, or, for the nullable kinds, also values
whose kind is unknown.
-/

namespace CommandConsole

/-- The declared kind of a parameter. -/
inductive Kind where
  | bool
  | int
  | float
  | char
  | string
  | vec2
  | vec3
  | vec4
  | color
  | object
  /-- Receives the name of a variable instead of its stored value. -/
  | varName
  /-- Takes every value, `null` included. -/
  | any
  deriving DecidableEq, Repr, Inhabited

namespace Kind

/-- All kinds, in the order in which they are listed. -/
def all : List Kind :=
  [bool, int, float, char, string, vec2, vec3, vec4, color, object, varName, any]

theorem mem_all (k : Kind) : k ∈ all := by cases k <;> decide

/-- The name used in signatures and messages. -/
def name : Kind → String
  | bool => "bool"
  | int => "int"
  | float => "float"
  | char => "char"
  | string => "string"
  | vec2 => "Vec2"
  | vec3 => "Vec3"
  | vec4 => "Vec4"
  | color => "Color"
  | object => "Entity"
  | varName => "Variable"
  | any => "any"

theorem name_injective {a b : Kind} (h : a.name = b.name) : a = b := by
  cases a <;> cases b <;> first | rfl | exact absurd h (by decide)

/-- The kind with a given name. -/
def ofName? (s : String) : Option Kind := all.find? (·.name == s)

/-- Parameters of these kinds take `null` and variables that are not set
without being ruled out. -/
def isNullable : Kind → Bool
  | string | object | any => true
  | _ => false

/-- Widening: `any` takes every kind, and `float` takes `int`. Apart from `any`
no kind widens from itself; an exact match is asked for separately. -/
def accepts : Kind → Kind → Bool
  | any, _ => true
  | float, k => k == int
  | _, _ => false

end Kind

end CommandConsole
