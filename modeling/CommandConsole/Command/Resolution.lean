import CommandConsole.Command.Declaration
import CommandConsole.Variable.Store

/-!
# Picking an overload

Every overload with as many parameters as there are values is scored: two
points for a value of exactly the declared kind, one for a value that is
widened, none for a value of unknown kind at a nullable parameter. Any other
value rules the overload out.

The overload with the highest score is picked, provided it is the only one
with that score; otherwise the call is ambiguous and all of them are named, in
an order that does not depend on the order of their declaration.
-/

namespace CommandConsole

/-- Why no overload was picked. -/
inductive ResolutionError where
  | noMatch (command : String)
  | ambiguous (command : String) (candidates : List String)
  deriving DecidableEq, Repr

def ResolutionError.message : ResolutionError → String
  | noMatch command =>
    "Unable to run '" ++ command ++ "': the parameters may be formatted incorrectly, " ++
      "or their number does not match any overload"
  | ambiguous command candidates =>
    "Unable to run '" ++ command ++ "': ambiguous between overloads (" ++
      "; ".intercalate candidates ++ ")"

/-- The kind a value counts as. A variable counts as what it stores, unless the
parameter takes the variable itself. -/
def effectiveKind? (vs : Variables) (declared : Kind) : Value → Option Kind
  | .varName name =>
    if declared = .varName then some .varName else (vs.get? name).bind Value.kind?
  | v => v.kind?

/-- A value that is no variable counts as what it is. -/
theorem effectiveKind?_of_ne_varName {vs : Variables} {declared : Kind} {v : Value}
    (plain : ∀ name, v ≠ .varName name) : effectiveKind? vs declared v = v.kind? := by
  cases v with
  | varName name => exact absurd rfl (plain name)
  | _ => rfl

/-- The points of a value at a parameter, if it does not rule the overload out. -/
def parameterScore? (vs : Variables) (v : Value) (declared : Kind) : Option Nat :=
  match effectiveKind? vs declared v with
  | some k =>
    if k = declared then some 2
    else if declared.accepts k then some 1
    else none
  | none => if declared.isNullable then some 0 else none

/-- The points of all parameters together. -/
def totalPoints (points : List Nat) : Nat := points.foldr (· + ·) 0

namespace Overload

/-- The points of an overload, if it can take the values. -/
def score? (o : Overload) (vs : Variables) (values : List Value) : Option Nat :=
  if o.kinds.length = values.length then
    ((values.zip o.kinds).mapM fun (v, k) => parameterScore? vs v k).map totalPoints
  else none

/-- Candidates are listed by their parameter kinds, then by their signature. -/
def listedBefore (a b : Overload) : Bool :=
  a.kindKey < b.kindKey || (a.kindKey == b.kindKey && a.signature ≤ b.signature)

end Overload

/-- The overloads that fit best among those looked at so far, in the order in
which they were found, and their score. While there are none the score means
nothing. -/
structure Leaders where
  score : Nat := 0
  overloads : List Overload := []
  deriving DecidableEq, Repr

/-- Look at one more overload. The first one that can take the values and every
one that scores more than the leaders take their place; one that scores the
same joins them. -/
def Leaders.add (vs : Variables) (values : List Value) (l : Leaders) (o : Overload) : Leaders :=
  match o.score? vs values with
  | none => l
  | some score =>
    if l.overloads.isEmpty || l.score < score then ⟨score, [o]⟩
    else if score = l.score then { l with overloads := l.overloads ++ [o] }
    else l

/-- Look at all overloads in the order of their declaration. -/
def leaders (overloads : List Overload) (vs : Variables) (values : List Value) : Leaders :=
  overloads.foldl (Leaders.add vs values) {}

/-- Pick the one overload that fits best. -/
def resolve (command : String) (overloads : List Overload) (vs : Variables)
    (values : List Value) : Except ResolutionError Overload :=
  match (leaders overloads vs values).overloads with
  | [] => .error (.noMatch command)
  | [o] => .ok o
  | tied =>
    .error (.ambiguous command ((tied.mergeSort Overload.listedBefore).map Overload.signature))

end CommandConsole
