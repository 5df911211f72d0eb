/-!
# Edit distance

The number of single-character insertions, deletions and substitutions between
two texts. The distances to all beginnings of the second text are kept as one
row. The first text is read character by character, and each character turns
the row into the next one from left to right: a cell depends on its left
neighbour, which is new already, and on the old cells above both of them.
-/

namespace CommandConsole.Text

/-- The new cells of a row for one more character `x` in the first text. The last
new cell so far is `left`, and `diagonal` is what stood in its place. -/
def nextCells (x : Char) (diagonal left : Nat) : List Char → List Nat → List Nat
  | y :: b, above :: row =>
    let substituted := diagonal + if x = y then 0 else 1
    let cell := min (min substituted (left + 1)) (above + 1)
    cell :: nextCells x above cell b row
  | _, _ => []

/-- From the distances of a text to all beginnings of `b`, the shortest first, to
those of the text with `x` behind it. -/
def nextRow (b : List Char) (row : List Nat) (x : Char) : List Nat :=
  match row with
  | [] => []
  | first :: row => (first + 1) :: nextCells x first (first + 1) b row

/-- The distances of `a` to all beginnings of `b`, the shortest first. -/
def distances (a b : List Char) : List Nat := a.foldl (nextRow b) (List.range (b.length + 1))

/-- Fewest insertions, deletions and substitutions that turn `a` into `b`. -/
def editDistance (a b : List Char) : Nat := (distances a b).getLastD 0

end CommandConsole.Text
