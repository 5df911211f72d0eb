import CommandConsole.Value.Basic

/-!
# Literals

The shapes in which a value can be written on a command line. The standard
list of literals is tried in order and the first that fits wins.

| literal  | written as                                 |
|----------|--------------------------------------------|
| null     | `null`, `Null`                             |
| float    | `-1.5`                                     |
| string   | `"with \" inside"`                         |
| bool     | `true`, `False`                            |
| char     | `'c'`                                      |
| int      | `-42`                                      |
| tuples   | `(1, 2)` to `(1, 2, 3, 4)`, `rgb(1, 0.5, 0)`, `rgba(1, 0.5, 0, 1)` |
| color    | `#FF8800`, `#FF880080`, `red`              |
| object   | `{Player One}`                             |
| variable | `speed`                                    |
-/

namespace CommandConsole

/-- Numbers in parentheses. -/
inductive TupleShape where
  | vec2
  | vec3
  | vec4
  | rgb
  | rgba
  deriving DecidableEq, Repr

namespace TupleShape

/-- The word in front of the parenthesis. -/
def lead : TupleShape → List Char
  | rgb => "rgb".toList
  | rgba => "rgba".toList
  | _ => []

def arity : TupleShape → Nat
  | vec2 => 2
  | vec3 | rgb => 3
  | vec4 | rgba => 4

def kind : TupleShape → Kind
  | vec2 => .vec2
  | vec3 => .vec3
  | vec4 => .vec4
  | rgb | rgba => .color

/-- The value with the given components, if there are as many as it needs. A
color without alpha is opaque. -/
def value? : TupleShape → List Binary32 → Option Value
  | vec2, [x, y] => some (.vec2 ⟨x, y⟩)
  | vec3, [x, y, z] => some (.vec3 ⟨x, y, z⟩)
  | vec4, [x, y, z, w] => some (.vec4 ⟨x, y, z, w⟩)
  | rgb, [r, g, b] => some (.color ⟨r, g, b, .one⟩)
  | rgba, [r, g, b, a] => some (.color ⟨r, g, b, a⟩)
  | _, _ => none

theorem value?_isSome_iff {shape : TupleShape} {xs : List Binary32} :
    (shape.value? xs).isSome ↔ xs.length = shape.arity := by
  match shape, xs with
  | vec2, [] | vec2, [_] | vec2, [_, _] | vec2, _ :: _ :: _ :: _ => simp [value?, arity]
  | vec3, [] | vec3, [_] | vec3, [_, _] | vec3, [_, _, _] | vec3, _ :: _ :: _ :: _ :: _ =>
    simp [value?, arity]
  | rgb, [] | rgb, [_] | rgb, [_, _] | rgb, [_, _, _] | rgb, _ :: _ :: _ :: _ :: _ =>
    simp [value?, arity]
  | vec4, [] | vec4, [_] | vec4, [_, _] | vec4, [_, _, _] | vec4, [_, _, _, _]
  | vec4, _ :: _ :: _ :: _ :: _ :: _ => simp [value?, arity]
  | rgba, [] | rgba, [_] | rgba, [_, _] | rgba, [_, _, _] | rgba, [_, _, _, _]
  | rgba, _ :: _ :: _ :: _ :: _ :: _ => simp [value?, arity]

end TupleShape

/-- A shape in which a value can be written. -/
inductive Literal where
  | null
  | float
  | string
  | bool
  | char
  | int
  | tuple (shape : TupleShape)
  | color
  | object
  | varName
  deriving DecidableEq, Repr

namespace Literal

/-- All literals, in the order in which they are tried. -/
def standard : List Literal :=
  [null, float, string, bool, char, int, tuple .vec2, tuple .vec3, tuple .vec4, tuple .rgb,
   tuple .rgba, color, object, varName]

theorem mem_standard (l : Literal) : l ∈ standard := by
  match l with
  | null | float | string | bool | char | int | color | object | varName => decide
  | tuple .vec2 | tuple .vec3 | tuple .vec4 | tuple .rgb | tuple .rgba => decide

def name : Literal → String
  | null => "null"
  | float => "float"
  | string => "string"
  | bool => "bool"
  | char => "char"
  | int => "int"
  | tuple .vec2 => "vec2"
  | tuple .vec3 => "vec3"
  | tuple .vec4 => "vec4"
  | tuple .rgb => "rgb"
  | tuple .rgba => "rgba"
  | color => "html"
  | object => "object"
  | varName => "variable"

/-- The literal with a given name. -/
def ofName? (s : String) : Option Literal := standard.find? (·.name == s)

end Literal

end CommandConsole
