import CommandConsole.Text.Distance

/-!
# Suggesting command names

A typed text is compared with the names of commands. So that a text which is
still being typed is close to the names it may become, a name is also cut one
character behind the length of the text; that distance decides whether the name
is suggested and comes first in the order, the distance to the whole name
second. Names that are equal in both keep the order in which they were given.
-/

namespace CommandConsole

open Text

/-- A command name compared with a typed text. -/
structure Match where
  name : String
  help : String
  /-- The distance to the name cut one character behind the typed length. -/
  partialDistance : Nat
  /-- The distance to the whole name. -/
  fullDistance : Nat
  deriving DecidableEq, Repr

namespace Match

/-- Compare a typed text with a command. -/
def compute (typed : List Char) (name help : String) : Match where
  name := name
  help := help
  partialDistance := editDistance typed (name.toList.take (typed.length + 1))
  fullDistance := editDistance typed name.toList

/-- Ordered by both distances. -/
def notAfter (a b : Match) : Bool :=
  a.partialDistance < b.partialDistance ||
    (a.partialDistance == b.partialDistance && a.fullDistance ≤ b.fullDistance)

/-- The candidates closer than the threshold, the closest first. -/
def rank (typed : List Char) (candidates : List (String × String)) (threshold : Nat) :
    List Match :=
  ((candidates.map fun c => compute typed c.1 c.2).filter
    (·.partialDistance < threshold)).mergeSort notAfter

end Match

end CommandConsole
