import CommandConsole.Value.Basic

/-!
# Colors by name and by hexadecimal digits

Some words are colors and can therefore not name variables. A hexadecimal
color has three, four, six or eight digits: short forms write each component
with one digit, which stands for that digit twice, and an alpha component may
follow the other three.
-/

namespace CommandConsole

/-- The words that are colors, with red, green and blue in one number. -/
def namedColors : List (String × Nat) :=
  [("red", 0xFF0000), ("cyan", 0x00FFFF), ("blue", 0x0000FF), ("darkblue", 0x0000A0),
   ("lightblue", 0xADD8E6), ("purple", 0x800080), ("yellow", 0xFFFF00), ("lime", 0x00FF00),
   ("fuchsia", 0xFF00FF), ("white", 0xFFFFFF), ("silver", 0xC0C0C0), ("grey", 0x808080),
   ("black", 0x000000), ("orange", 0xFFA500), ("brown", 0xA52A2A), ("maroon", 0x800000),
   ("green", 0x008000), ("olive", 0x808000), ("navy", 0x000080), ("teal", 0x008080),
   ("aqua", 0x00FFFF), ("magenta", 0xFF00FF)]

/-- The number of a color word, in exactly this spelling. -/
def colorNumber? (word : List Char) : Option Nat :=
  (namedColors.find? (·.1.toList == word)).map (·.2)

def isColorName (word : List Char) : Bool := (colorNumber? word).isSome

/-- The value of a hexadecimal digit. -/
def hexDigit? (c : Char) : Option Nat :=
  if c.isDigit then some (c.toNat - '0'.toNat)
  else if 'a' ≤ c && c ≤ 'f' then some (c.toNat - 'a'.toNat + 10)
  else if 'A' ≤ c && c ≤ 'F' then some (c.toNat - 'A'.toNat + 10)
  else none

def isHexDigit (c : Char) : Bool := (hexDigit? c).isSome

/-- The number that hexadecimal digits read. -/
def natOfHex? (digits : List Char) : Option Nat :=
  digits.foldlM (fun n c => (hexDigit? c).map (16 * n + ·)) 0

/-- Like `natOfHex?`, with at least one digit and an optional plus sign. -/
def natOfSignedHex? : List Char → Option Nat
  | '+' :: c :: r => natOfHex? (c :: r)
  | ['+'] => none
  | [] => none
  | c :: r => natOfHex? (c :: r)

namespace Color

/-- A color whose components count 255ths. -/
def ofBytes (red green blue alpha : Nat) : Color :=
  ⟨.ofRatio false red 255, .ofRatio false green 255, .ofRatio false blue 255,
    .ofRatio false alpha 255⟩

/-- An opaque color with one byte per component, red first. -/
def ofRgb (n : Nat) : Color :=
  ofBytes (n / 65536 % 256) (n / 256 % 256) (n % 256) 255

/-- A color with one byte per component, alpha last. -/
def ofRgba (n : Nat) : Color :=
  ofBytes (n / 16777216 % 256) (n / 65536 % 256) (n / 256 % 256) (n % 256)

/-- An opaque color with one hexadecimal digit per component. -/
def ofShortRgb (n : Nat) : Color :=
  ofBytes (17 * (n / 256 % 16)) (17 * (n / 16 % 16)) (17 * (n % 16)) 255

/-- A color with one hexadecimal digit per component, alpha last. -/
def ofShortRgba (n : Nat) : Color :=
  ofBytes (17 * (n / 4096 % 16)) (17 * (n / 256 % 16)) (17 * (n / 16 % 16)) (17 * (n % 16))

/-- A hexadecimal color; one number sign in front is skipped. -/
def ofHex? (s : List Char) : Option Color :=
  let digits := if s.head? = some '#' then s.tail else s
  match digits.length with
  | 3 => (natOfSignedHex? digits).map ofShortRgb
  | 4 => (natOfSignedHex? digits).map ofShortRgba
  | 6 => (natOfSignedHex? digits).map ofRgb
  | 8 => (natOfSignedHex? digits).map ofRgba
  | _ => none

/-- A color by its word or by its digits. -/
def ofText? (s : List Char) : Option Color :=
  match colorNumber? s with
  | some n => some (ofRgb n)
  | none => ofHex? s

end Color

end CommandConsole
