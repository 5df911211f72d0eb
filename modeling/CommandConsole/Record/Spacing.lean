/-!
# Space and comments between the parts of a record

Between any two parts of a record there may be space and comments: the ones
that run to the end of a line, and the ones in block form, which nest. A slash
that begins neither, and a block that is not closed, make the text unreadable.
-/

namespace CommandConsole.Record

/-- Space is what the property `Pattern_White_Space` says. -/
def isSpace (c : Char) : Bool :=
  let n := c.toNat
  (0x9 ≤ n && n ≤ 0xD) || n == 0x20 || n == 0x85 || n == 0x200E || n == 0x200F ||
    n == 0x2028 || n == 0x2029

/-- Where a text between two parts is being read. -/
inductive Spacing where
  | space
  | line
  /-- Inside as many further blocks as the number says. -/
  | block (outer : Nat)

/-- What is left behind the space and the comments. -/
def Spacing.skip : Spacing → List Char → Option (List Char)
  | space, [] => some []
  | space, '/' :: '/' :: r => skip line r
  | space, '/' :: '*' :: r => skip (block 0) r
  | space, c :: r => if c = '/' then none else if isSpace c then skip space r else some (c :: r)
  | line, [] => some []
  | line, c :: r => if c = '\n' then skip space r else skip line r
  | block _, [] => none
  | block n, '/' :: '*' :: r => skip (block (n + 1)) r
  | block 0, '*' :: '/' :: r => skip space r
  | block (n + 1), '*' :: '/' :: r => skip (block n) r
  | block n, _ :: r => skip (block n) r

/-- Skip space and comments. -/
def skipSpace (s : List Char) : Option (List Char) := Spacing.space.skip s

/-- A separating comma with the space around it: whether it is there, and what
is left. -/
def skipComma (s : List Char) : Option (Bool × List Char) := do
  match ← skipSpace s with
  | ',' :: r => return (true, ← skipSpace r)
  | r => return (false, r)

end CommandConsole.Record
