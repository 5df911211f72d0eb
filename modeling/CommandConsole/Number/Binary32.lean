/-!
# Single-precision numbers

A number is its 32-bit pattern: a sign bit over a magnitude pattern. Every
finite magnitude is a whole multiple of the smallest positive one, 2^-149, so
exact values are natural numbers of such units and rounding is a division of
natural numbers. No floating-point operation of the machine is involved.
-/

namespace CommandConsole

/-- A single-precision number, given by its bit pattern. Different patterns of
"not a number" and of zero are different numbers here. -/
structure Binary32 where
  bits : UInt32
  deriving DecidableEq, Repr, Inhabited

/-- The whole number nearest to `num / den`; a half goes to the even neighbour. -/
def roundHalfEven (num den : Nat) : Nat :=
  let q := num / den
  let r := num % den
  if 2 * r < den then q
  else if den < 2 * r then q + 1
  else q + q % 2

namespace Binary32

/-- The smallest positive number is the fraction `1 / unitsPerOne`. -/
def unitsPerOne : Nat := Nat.pow 2 149

/-- The lowest bit of the exponent, and the leading one of a significand. -/
def exponentStep : Nat := 0x800000

/-- The sign bit. -/
def signBit : Nat := 0x80000000

/-- The magnitude pattern of infinity; greater patterns are no numbers. -/
def infinityPattern : Nat := 0x7F800000

/-- A magnitude pattern with its sign bit. -/
def ofPattern (negative : Bool) (pattern : Nat) : Binary32 :=
  ⟨UInt32.ofNat (if negative then signBit + pattern else pattern)⟩

/-- The sign bit is set. Zero and "not a number" have a sign, too. -/
def isNegative (x : Binary32) : Bool := signBit ≤ x.bits.toNat

/-- The pattern without its sign bit. -/
def pattern (x : Binary32) : Nat := x.bits.toNat % signBit

def isFinite (x : Binary32) : Bool := x.pattern < infinityPattern

def isNaN (x : Binary32) : Bool := infinityPattern < x.pattern

def infinity (negative : Bool) : Binary32 := ofPattern negative infinityPattern

def nan (negative : Bool) : Binary32 := ofPattern negative (infinityPattern + 0x400000)

/-- The significand of a finite magnitude: small patterns have no leading one. -/
def significand (pattern : Nat) : Nat :=
  if pattern < exponentStep then pattern else exponentStep + pattern % exponentStep

/-- The exact magnitude of a finite pattern, in units of 2^-149. -/
def units (pattern : Nat) : Nat :=
  significand pattern * Nat.pow 2 (pattern / exponentStep - 1)

/-- The magnitude pattern nearest to `num / den`, with halves to the even
significand. A significand that rounds up to 2^24 carries into the exponent by
the addition alone, and what is too large becomes infinity. -/
def patternOfRatio (num den : Nat) : Nat :=
  let scaled := num * unitsPerOne
  let shift := (scaled / den).log2 - 23
  min infinityPattern (shift * exponentStep + roundHalfEven scaled (den * Nat.pow 2 shift))

/-- The number nearest to `± num / den`. -/
def ofRatio (negative : Bool) (num den : Nat) : Binary32 :=
  ofPattern negative (patternOfRatio num den)

/-- The number nearest to a whole number. -/
def ofInt (i : Int) : Binary32 := ofRatio (i < 0) i.natAbs 1

/-- One, the alpha of an opaque color. -/
def one : Binary32 := ofInt 1

end Binary32

end CommandConsole
