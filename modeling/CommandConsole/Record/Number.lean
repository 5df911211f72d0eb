import CommandConsole.Record.Quoted
import CommandConsole.Record.Word
import CommandConsole.Number.Decimal

/-!
# Numbers of a record

A whole number has an optional sign, digits to the base 10 or, with `0b`, `0o`
or `0x` in front, to the base 2, 8 or 16, with underscores between them, and
possibly the name of a machine type behind them, whose range it must keep. A
quoted byte is a number of eight bits. Where a number of one machine type is
asked for, no other type may be named.

Where any value will do there are also decimals, and ranges with numbers as
bounds. Two points always belong to a range, so a decimal ends in front of them.
-/

namespace CommandConsole.Record

/-- The base of a number, and the text behind the mark of the base. -/
def splitBase : List Char → Nat × List Char
  | '0' :: 'b' :: r => (2, r)
  | '0' :: 'o' :: r => (8, r)
  | '0' :: 'x' :: r => (16, r)
  | r => (10, r)

def isIntegerCharacter (c : Char) : Bool := isHexDigit c || c = '_'

def isDecimalCharacter (c : Char) : Bool :=
  c.isDigit || c = 'e' || c = 'E' || c = '.' || c = '+' || c = '-' || c = '_'

/-- The number that digits to a base denote; underscores do not count. -/
def natOfBase? (base : Nat) (digits : List Char) : Option Nat :=
  (digits.filter (· ≠ '_')).foldlM (fun n c => do
    let d ← hexDigit? c
    if d < base then some (base * n + d) else none) 0

/-- Digits to a base, none of them missing and the first no underscore. -/
def natural? (s : List Char) : Option (Nat × List Char) := do
  let (base, r) := splitBase s
  let run := r.takeWhile isIntegerCharacter
  if run.isEmpty || run.head? = some '_' then none
  else some (← natOfBase? base run, r.dropWhile isIntegerCharacter)

/-- A machine type of whole numbers: its width in bits, and whether there are
negative ones. -/
structure MachineType where
  width : Nat
  signed : Bool
  deriving DecidableEq

namespace MachineType

def u8 : MachineType := ⟨8, false⟩

def i64 : MachineType := ⟨64, true⟩

def u64 : MachineType := ⟨64, false⟩

/-- The machine types that may be named behind a number. -/
def named : List (String × MachineType) :=
  [("i8", ⟨8, true⟩), ("u8", u8), ("i16", ⟨16, true⟩), ("u16", ⟨16, false⟩),
   ("i32", ⟨32, true⟩), ("u32", ⟨32, false⟩), ("i64", i64), ("u64", u64)]

/-- Whether a number is in the range of a type. -/
def holds (t : MachineType) (negative : Bool) (magnitude : Nat) : Bool :=
  if t.signed then
    if negative then magnitude ≤ Nat.pow 2 (t.width - 1) else magnitude < Nat.pow 2 (t.width - 1)
  else if negative then magnitude = 0 else magnitude < Nat.pow 2 t.width

/-- The type that is named here, if one is. -/
def read? (s : List Char) : Option (MachineType × List Char) :=
  named.findSome? fun (name, t) => (skipWord name s).map fun r => (t, r)

end MachineType

/-- A whole number with the machine type that was named behind it. -/
structure WholeNumber where
  negative : Bool
  magnitude : Nat
  type? : Option MachineType
  deriving DecidableEq

/-- Read a whole number, which keeps the range of the type it names. -/
def wholeNumber? (s : List Char) : Option (WholeNumber × List Char) :=
  match quotedByte? s with
  | some (byte, r) => some (⟨false, byte, some .u8⟩, r)
  | none => do
    let (negative, body) := splitSign s
    let (n, r) ← natural? body
    match MachineType.read? r with
    | some (t, rest) => if t.holds negative n then some (⟨negative, n, some t⟩, rest) else none
    | none => some (⟨negative, n, none⟩, r)

/-- A whole number from 0 to 2^64 - 1 that names no other machine type. -/
def word64? (s : List Char) : Option (UInt64 × List Char) := do
  let (n, r) ← wholeNumber? s
  if n.type?.all (· = .u64) && MachineType.u64.holds n.negative n.magnitude then
    some (UInt64.ofNat n.magnitude, r)
  else none

/-- The longest run of characters of a decimal in front of two points. -/
def splitDecimal : List Char → List Char × List Char
  | [] => ([], [])
  | c :: r =>
    if !isDecimalCharacter c || (c = '.' && r.head? = some '.') then ([], c :: r)
    else (c :: (splitDecimal r).1, (splitDecimal r).2)

/-- An underscore may follow a digit or an exponent letter and another
underscore, but neither a point nor the beginning. -/
def underscoresAllowed : Bool → List Char → Bool
  | _, [] => true
  | allowed, c :: r =>
    if c = '_' then allowed && underscoresAllowed allowed r
    else underscoresAllowed
      (if c.isDigit || c = 'e' || c = 'E' then true else if c = '.' then false else allowed) r

/-- Skip a decimal number or one of the words for what is not finite. -/
def skipDecimal (s : List Char) : Option (List Char) :=
  let words := ["inf", "+inf", "-inf", "NaN", "+NaN", "-NaN"]
  match words.findSome? fun w =>
      [w, w ++ "f32", w ++ "f64"].findSome? fun word => skipWord word s with
  | some r => some r
  | none =>
    let (run, rest) := splitDecimal s
    if underscoresAllowed false run && (Decimal.ofText? (run.filter (· ≠ '_'))).isSome then
      some (["f32", "f64"].findSome? (skipWord · rest) |>.getD rest)
    else none

/-- More characters can belong to a decimal than to a whole number. -/
def looksDecimal (s : List Char) : Bool :=
  let body := (splitSign s).2
  (body.takeWhile isIntegerCharacter).length < (splitDecimal body).1.length

/-- Skip any number. A whole number that names no machine type and is out of
range for the widest ones counts as a decimal. -/
def skipNumber (s : List Char) : Option (List Char) :=
  if looksDecimal s then skipDecimal s
  else match wholeNumber? s with
    | some (n, r) =>
      let widest := if n.negative then MachineType.i64 else .u64
      if n.type?.isSome || widest.holds n.negative n.magnitude then some r else skipDecimal s
    | none => skipDecimal s

/-- Whether a number or a quoted byte may begin with these characters. -/
def beginsNumber : List Char → Bool
  | [] => false
  | c :: r =>
    c.isDigit || c = '+' || c = '-' || c = '.' || (c = 'b' && r.head? = some '\'') ||
      c = 'i' || c = 'N'

/-- Skip a number that may bound a range. -/
def skipBound (s : List Char) : Option (List Char) :=
  if beginsNumber s then skipNumber s else none

/-- Skip what stands behind the two points of a range: nothing, a bound, or an
equals sign and a bound. -/
def skipUpperBound : List Char → Option (List Char)
  | '=' :: r => skipBound r
  | r => some ((skipBound r).getD r)

/-- Skip a range, or a number by itself. There are no spaces around the points. -/
def skipNumberOrRange (s : List Char) : Option (List Char) :=
  if startsWith ".." s then skipUpperBound (s.drop 2)
  else (skipBound s).bind fun r =>
    if startsWith ".." r then skipUpperBound (r.drop 2) else some r

end CommandConsole.Record
