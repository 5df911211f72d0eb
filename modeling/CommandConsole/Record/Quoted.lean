import CommandConsole.Literal.NamedColor

/-!
# Quoted characters and texts of a record

A character stands between single quotes and a text between double ones. A
backslash introduces a quote, a backslash, one of a few letters for control
characters, two hexadecimal digits for a byte, or up to six of them in braces
for any character. Bytes must form a character: a single quoted character needs
one below 128, a text may spell a greater one by its encoding. In a text a
backslash may also stand at the end of a line.
-/

namespace CommandConsole.Record

open CommandConsole

/-- Two hexadecimal digits. -/
def hexByte? : List Char → Option (Nat × List Char)
  | a :: b :: r => do return (16 * (← hexDigit? a) + (← hexDigit? b), r)
  | _ => none

/-- One to six hexadecimal digits in braces that number a character. -/
def bracedCharacter? : List Char → Option (Char × List Char)
  | '\x7b' :: r => do
    let digits := (r.takeWhile (· ≠ '\x7d')).take 6
    let n ← natOfHex? digits
    match r.drop digits.length with
    | '\x7d' :: rest =>
      if digits.isEmpty then none
      else if h : n.isValidChar then some (Char.ofNatAux n h, rest)
      else none
    | _ => none
  | _ => none

/-- The number of further bytes in the encoding of a character that begins with
the given byte, and the bits that this byte contributes. -/
def encodedLead? (byte : Nat) : Option (Nat × Nat) :=
  if byte < 0x80 then some (0, byte)
  else if 0xC2 ≤ byte && byte < 0xE0 then some (1, byte - 0xC0)
  else if 0xE0 ≤ byte && byte < 0xF0 then some (2, byte - 0xE0)
  else if 0xF0 ≤ byte && byte < 0xF5 then some (3, byte - 0xF0)
  else none

/-- Further bytes of an encoded character, each written as an escape. -/
def encodedTail? : Nat → Nat → List Char → Option (Nat × List Char)
  | 0, n, s => some (n, s)
  | k + 1, n, '\\' :: 'x' :: s => do
    let (byte, r) ← hexByte? s
    if 0x80 ≤ byte && byte < 0xC0 then encodedTail? k (64 * n + (byte - 0x80)) r else none
  | _ + 1, _, _ => none

/-- Whether a character needs as many further bytes as it was written with. -/
def needsBytes (n further : Nat) : Bool :=
  match further with
  | 0 => n < 0x80
  | 1 => 0x80 ≤ n && n < 0x800
  | 2 => 0x800 ≤ n && n < 0x10000
  | _ => 0x10000 ≤ n

/-- A character written by its bytes; `single` allows one byte only. -/
def encodedCharacter? (single : Bool) (s : List Char) : Option (Char × List Char) := do
  let (byte, r) ← hexByte? s
  let (further, bits) ← encodedLead? byte
  if single && 0 < further then none
  let (n, rest) ← encodedTail? further bits r
  if h : n.isValidChar ∧ needsBytes n further then some (Char.ofNatAux n h.1, rest) else none

/-- What stands behind a backslash. -/
def escaped? (single : Bool) : List Char → Option (Char × List Char)
  | 'x' :: r => encodedCharacter? single r
  | 'u' :: r => bracedCharacter? r
  | c :: r =>
    if c = '\'' || c = '"' || c = '\\' then some (c, r)
    else if c = 'n' then some ('\n', r)
    else if c = 'r' then some ('\r', r)
    else if c = 't' then some ('\t', r)
    else if c = '0' then some ('\x00', r)
    else none
  | [] => none

/-- A character in single quotes. -/
def quotedCharacter? : List Char → Option (Char × List Char)
  | '\'' :: '\\' :: r => do
    match ← escaped? true r with
    | (c, '\'' :: rest) => some (c, rest)
    | _ => none
  | '\'' :: c :: '\'' :: rest => some (c, rest)
  | _ => none

/-- A byte in single quotes behind the letter `b`. -/
def quotedByte? : List Char → Option (Nat × List Char)
  | 'b' :: '\'' :: '\\' :: 'x' :: r => do
    match ← hexByte? r with
    | (byte, '\'' :: rest) => some (byte, rest)
    | _ => none
  | 'b' :: '\'' :: '\\' :: r => do
    if r.head? = some 'u' then none
    match ← escaped? true r with
    | (c, '\'' :: rest) => some (c.toNat, rest)
    | _ => none
  | 'b' :: '\'' :: c :: '\'' :: rest => if c.toNat < 128 then some (c.toNat, rest) else none
  | _ => none

/-- What is left behind the closing quote of a text whose backslashes are read
by `step`. A backslash at the end of a line joins the next line to it. The
first number bounds the length of the text. -/
def skipEscapedText (step : List Char → Option (List Char)) : Nat → List Char → Option (List Char)
  | 0, _ => none
  | _ + 1, [] => none
  | fuel + 1, c :: r =>
    if c = '"' then some r
    else if c = '\\' then
      match r with
      | '\n' :: r => skipEscapedText step fuel r
      | r => (step r).bind (skipEscapedText step fuel)
    else skipEscapedText step fuel r

/-- What is left behind the closing quote that has as many number signs behind
it as the opening one has in front. -/
def skipMarkedText (signs : List Char) : List Char → Option (List Char)
  | [] => none
  | c :: r =>
    if c = '"' && signs.isPrefixOf r then some (r.drop signs.length) else skipMarkedText signs r

/-- Skip number signs, a quote, and a text without escapes. -/
def skipRawText (s : List Char) : Option (List Char) :=
  match s.dropWhile (· = '#') with
  | '"' :: r => skipMarkedText (s.takeWhile (· = '#')) r
  | _ => none

/-- Skip a quoted text of characters. -/
def skipText (s : List Char) : Option (List Char) :=
  match s with
  | '"' :: r => skipEscapedText (fun t => (escaped? false t).map (·.2)) s.length r
  | 'r' :: r => skipRawText r
  | _ => none

/-- Skip what stands behind a backslash in a text of bytes, where every byte may
be written in hexadecimal digits. -/
def skipByteEscape : List Char → Option (List Char)
  | 'x' :: r => (hexByte? r).map (·.2)
  | r => (escaped? true r).map (·.2)

/-- Skip a quoted text of bytes. -/
def skipBytes (s : List Char) : Option (List Char) :=
  match s with
  | 'b' :: '"' :: r => skipEscapedText skipByteEscape s.length r
  | 'b' :: 'r' :: r => skipRawText r
  | _ => none

end CommandConsole.Record
