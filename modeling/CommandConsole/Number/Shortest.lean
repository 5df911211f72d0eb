import CommandConsole.Number.Binary32

/-!
# Number texts

A whole number is written with all its digits and no point. Any other finite
number is written with the fewest places behind the point for which one of its
two neighbours on that decimal grid reads back as the number; of two such
neighbours the nearer is taken, and of two equally near ones the greater.
Exponents are never written.

With 149 places the grid contains the number itself, so the search ends there
at the latest and the text always reads back.
-/

namespace CommandConsole

/-- The digits of a natural number. -/
def decimalDigits (n : Nat) : List Char := Nat.toDigits 10 n

/-- A whole number with a sign if it is negative. -/
def intText (i : Int) : List Char :=
  if i < 0 then '-' :: decimalDigits i.natAbs else decimalDigits i.natAbs

/-- The decimal `scaled / 10 ^ places`, with exactly that many places. -/
def fixedText (scaled places : Nat) : List Char :=
  let fraction := decimalDigits (scaled % Nat.pow 10 places)
  decimalDigits (scaled / Nat.pow 10 places) ++
    '.' :: (List.replicate (places - fraction.length) '0' ++ fraction)

namespace Binary32

/-- The neighbour of a magnitude on the grid of `places` decimal places that
reads back as its pattern, if there is one. -/
def neighbour? (pattern places : Nat) : Option Nat :=
  let exact := units pattern * Nat.pow 10 places
  let lower := exact / unitsPerOne
  let reads (n : Nat) : Bool := patternOfRatio n (Nat.pow 10 places) == pattern
  let lowerIsNearer := 2 * (exact % unitsPerOne) < unitsPerOne
  if reads lower && (lowerIsNearer || !reads (lower + 1)) then some lower
  else if reads (lower + 1) then some (lower + 1)
  else none

/-- The first neighbour that is found on one of some grids. -/
def firstText? (pattern : Nat) (grids : List Nat) : Option (List Char) :=
  grids.findSome? fun places => (neighbour? pattern places).map (fixedText · places)

/-- The text with the fewest places. -/
def shortestText (pattern : Nat) : List Char :=
  (firstText? pattern (List.range' 1 148)).getD (fixedText (units pattern * Nat.pow 5 149) 149)

/-- The text of a finite magnitude. -/
def magnitudeText (pattern : Nat) : List Char :=
  if units pattern % unitsPerOne = 0 then decimalDigits (units pattern / unitsPerOne)
  else shortestText pattern

/-- The text of a number. "Not a number" is written without its sign. -/
def display (x : Binary32) : List Char :=
  if x.isNaN then "NaN".toList
  else
    let magnitude := if x.isFinite then magnitudeText x.pattern else "inf".toList
    if x.isNegative then '-' :: magnitude else magnitude

end Binary32

end CommandConsole
