import CommandConsole.Value.Basic

/-!
# Reading a value as a kind

A command reads an argument at a kind and receives data of that kind's
carrier. Reading follows widening: an integer can be read as a float, and at
`any` every value is read as it is. Whatever can be read can also be read as
optional, and then `null` is read as nothing.
-/

namespace CommandConsole

namespace Kind

/-- What a command receives when it reads an argument at this kind. -/
def Carrier : Kind → Type
  | bool => Bool
  | int => Int32
  | float => Binary32
  | char => Char
  | string => String
  | vec2 => Vec2
  | vec3 => Vec3
  | vec4 => Vec4
  | color => Color
  | object => Entity
  | varName => String
  | any => Value

/-- Read a value at a kind, if it has that kind or widens to it. -/
def read? : (k : Kind) → Value → Option k.Carrier
  | bool, .bool b => some b
  | int, .int i => some i
  | float, .float x => some x
  | float, .int i => some (Binary32.ofInt i.toInt)
  | char, .char c => some c
  | string, .string s => some s
  | vec2, .vec2 v => some v
  | vec3, .vec3 v => some v
  | vec4, .vec4 v => some v
  | color, .color c => some c
  | object, .object e => some e
  | varName, .varName name => some name
  | any, v => some v
  | _, _ => none

/-- The value that some data of a kind stands for. -/
def embed : (k : Kind) → k.Carrier → Value
  | bool, b => .bool b
  | int, i => .int i
  | float, x => .float x
  | char, c => .char c
  | string, s => .string s
  | vec2, v => .vec2 v
  | vec3, v => .vec3 v
  | vec4, v => .vec4 v
  | color, c => .color c
  | object, e => .object e
  | varName, name => .varName name
  | any, v => v

theorem read?_embed (k : Kind) (x : k.Carrier) : k.read? (k.embed x) = some x := by
  cases k <;> rfl

/-- A value of the kind itself, or of one that widens to it, can be read. -/
theorem isSome_read? {k found : Kind} {v : Value} (has : v.kind? = some found)
    (fits : found = k ∨ k.accepts found = true) : (k.read? v).isSome := by
  rcases fits with rfl | wide
  · cases v <;> cases has <;> rfl
  · cases k with
    | any => rfl
    | float =>
        obtain rfl := eq_of_beq wide
        cases v <;> cases has
        rfl
    | _ => cases wide

end Kind

/-- What a command can read an argument as: data of a kind, or something that
may be missing. -/
inductive ReadType where
  | plain (k : Kind)
  | optional (t : ReadType)
  deriving DecidableEq, Repr

namespace ReadType

/-- The kind with which a parameter is declared that is to be read so. -/
def kind : ReadType → Kind
  | plain k => k
  | optional t => t.kind

def Carrier : ReadType → Type
  | plain k => k.Carrier
  | optional t => Option t.Carrier

/-- Read a value, if it fits. Where it may be missing `null` is nothing, and
anything else has to fit. -/
def read? : (t : ReadType) → Value → Option t.Carrier
  | plain k, v => k.read? v
  | optional _, .null => some none
  | optional t, v => (t.read? v).map some

theorem read?_optional_of_ne_null {t : ReadType} {v : Value} (present : v ≠ .null) :
    t.optional.read? v = (t.read? v).map some := by
  cases v <;> first | rfl | exact absurd rfl present

/-- Only `null` is read as nothing. -/
theorem read?_optional_eq_nothing_iff {t : ReadType} {v : Value} :
    t.optional.read? v = some none ↔ v = .null := by
  constructor
  · intro nothing
    refine Decidable.byContradiction fun present => ?_
    rw [read?_optional_of_ne_null present] at nothing
    obtain ⟨_, _, wrapped⟩ := Option.map_eq_some_iff.mp nothing
    cases wrapped
  · rintro rfl
    rfl

/-- However often a type is made optional, it reads what its kind reads. -/
theorem isSome_read? {t : ReadType} {v : Value} (fits : (t.kind.read? v).isSome) :
    (t.read? v).isSome := by
  induction t with
  | plain k => exact fits
  | optional t ih =>
      by_cases missing : v = .null
      · rw [read?_optional_eq_nothing_iff.mpr missing]
        rfl
      · rw [read?_optional_of_ne_null missing]
        exact Option.isSome_map.trans (ih fits)

end ReadType

end CommandConsole
