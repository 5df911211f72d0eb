import CommandConsole.Number.Binary32

/-!
# Written numbers

Whole numbers are a sign and digits. A decimal may also have a point with
digits on at least one side of it and an exponent; the words `inf`, `infinity`
and `nan` are read in any case. A decimal denotes an exact ratio, which is
rounded once, straight to single precision.
-/

namespace CommandConsole

/-- The number that a run of decimal digits denotes. -/
def natOfDigits (digits : List Char) : Nat := Nat.ofDigitChars 10 digits 0

/-- An optional sign, and what follows it. -/
def splitSign : List Char → Bool × List Char
  | '-' :: r => (true, r)
  | '+' :: r => (false, r)
  | r => (false, r)

/-- A whole number: an optional sign and at least one digit. -/
def intOfText? (s : List Char) : Option Int :=
  let (negative, digits) := splitSign s
  if digits.isEmpty || !digits.all Char.isDigit then none
  else some (if negative then -(natOfDigits digits : Int) else natOfDigits digits)

/-- An exact decimal, `± mantissa * 10 ^ exponent`. -/
structure Decimal where
  negative : Bool
  mantissa : Nat
  exponent : Int
  deriving DecidableEq, Repr

namespace Decimal

/-- What may follow the digits: nothing, or the letter `e` and a whole number. -/
def exponentOfText? : List Char → Option Int
  | [] => some 0
  | c :: r => if c = 'e' || c = 'E' then intOfText? r else none

/-- Read digits with an optional point on either side and an optional exponent. -/
def ofText? (s : List Char) : Option Decimal :=
  let (negative, body) := splitSign s
  let whole := body.takeWhile Char.isDigit
  let tail := body.dropWhile Char.isDigit
  let (fraction, tail) := match tail with
    | '.' :: r => (r.takeWhile Char.isDigit, r.dropWhile Char.isDigit)
    | r => ([], r)
  if whole.isEmpty && fraction.isEmpty then none
  else (exponentOfText? tail).map fun e =>
    ⟨negative, natOfDigits (whole ++ fraction), e - fraction.length⟩

/-- The nearest single-precision number. Exponents that lead beyond the range
of the format whatever the mantissa are cut off first, because their power of
ten could not be written down. -/
def toBinary32 (d : Decimal) : Binary32 :=
  match d.exponent with
  | .ofNat e =>
    if d.mantissa = 0 then .ofPattern d.negative 0
    else if 39 ≤ e then .infinity d.negative
    else .ofRatio d.negative (d.mantissa * Nat.pow 10 e) 1
  | .negSucc e =>
    if d.mantissa.log2 + 152 < 3 * (e + 1) then .ofPattern d.negative 0
    else .ofRatio d.negative d.mantissa (Nat.pow 10 (e + 1))

end Decimal

namespace Binary32

/-- Read a number: one of the words for what is not finite, or a decimal. -/
def ofText? (s : List Char) : Option Binary32 :=
  let (negative, body) := splitSign s
  let word := body.map Char.toLower
  if word = "inf".toList || word = "infinity".toList then some (infinity negative)
  else if word = "nan".toList then some (nan negative)
  else (Decimal.ofText? s).map Decimal.toBinary32

end Binary32

end CommandConsole
