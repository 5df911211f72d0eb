import CommandConsole.Number.Shortest
import CommandConsole.Value.Basic

/-!
# The text of a value

Values are shown without quotes; vectors and colors as their components in
parentheses, colors always with `rgba` in front; objects as their index and
generation in braces, except for the placeholder, which has a word of its own.
-/

namespace CommandConsole

/-- Index and generation, as `4v0`. -/
def Entity.display (e : Entity) : List Char :=
  if e = .placeholder then "PLACEHOLDER".toList
  else decimalDigits e.index ++ 'v' :: decimalDigits e.generation

/-- Components in parentheses, with a comma and a space between them. -/
def tupleText (xs : List Binary32) : List Char :=
  '(' :: (", ".toList.intercalate (xs.map Binary32.display) ++ [')'])

namespace Value

/-- The text of a value. -/
def display : Value → List Char
  | null => "null".toList
  | bool b => if b then "true".toList else "false".toList
  | int i => intText i.toInt
  | float x => x.display
  | char c => [c]
  | string s => s.toList
  | vec2 v => tupleText v.components
  | vec3 v => tupleText v.components
  | vec4 v => tupleText v.components
  | color c => "rgba".toList ++ tupleText c.components
  | object e => '{' :: (e.display ++ ['}'])
  | varName name => name.toList

/-- The text of a value, as shown in the log. -/
def text (v : Value) : String := String.ofList v.display

end Value

end CommandConsole
