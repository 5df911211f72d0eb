import CommandConsole.Number.Shortest
import CommandConsole.Record.Skip
import CommandConsole.Settings.Basic

/-!
# Settings as text

Settings are kept as a record in parentheses, one field to a line. Reading is
more generous than writing: fields may be missing, which leaves their values as
they are by default, come in any order, and stand among fields that settings do
not have, which are skipped. A field that is given twice, or with something
that is not its value, makes the text unreadable.

```text
(
    max_history: 100,
    execution_symbol: '>',
    match_threshold: 3,
)
```
-/

namespace CommandConsole

open Record

namespace Settings

/-- A character in single quotes; a quote and a backslash get a backslash in
front, and every other character stands for itself. -/
def quote (c : Char) : List Char :=
  if c = '\'' || c = '\\' then ['\'', '\\', c, '\''] else ['\'', c, '\'']

/-- The fields as they are written, in order. -/
def fields (s : Settings) : List (List Char × List Char) :=
  [("max_history".toList, decimalDigits s.maxHistory.toNat),
   ("execution_symbol".toList, quote s.executionSymbol),
   ("match_threshold".toList, decimalDigits s.matchThreshold.toNat)]

/-- A record, one indented field to a line and a comma behind each. -/
def recordText (fields : List (List Char × List Char)) : List Char :=
  "(\n".toList ++
    fields.flatMap (fun (name, value) =>
      "    ".toList ++ name ++ ": ".toList ++ value ++ ",\n".toList) ++ [')']

/-- The text under which settings are saved. -/
def text (s : Settings) : String := String.ofList (recordText s.fields)

/-- What a text gives, so far as it has been read. -/
structure Given where
  maxHistory : Option UInt64 := none
  executionSymbol : Option Char := none
  matchThreshold : Option UInt64 := none
  deriving DecidableEq, Repr

/-- Take what was not read from the default. -/
def ofGiven (g : Given) : Settings where
  maxHistory := g.maxHistory.getD (default : Settings).maxHistory
  executionSymbol := g.executionSymbol.getD (default : Settings).executionSymbol
  matchThreshold := g.matchThreshold.getD (default : Settings).matchThreshold

/-- Read the value of a field by its name. -/
def readField (sw : Switches) (given : Given) (name s : List Char) :
    Option (Given × List Char) :=
  if name = "max_history".toList then
    if given.maxHistory.isSome then none
    else (word64? s).map fun (n, r) => ({ given with maxHistory := some n }, r)
  else if name = "execution_symbol".toList then
    if given.executionSymbol.isSome then none
    else (quotedCharacter? s).map fun (c, r) => ({ given with executionSymbol := some c }, r)
  else if name = "match_threshold".toList then
    if given.matchThreshold.isSome then none
    else (word64? s).map fun (n, r) => ({ given with matchThreshold := some n }, r)
  else (skipFieldValue sw s).map fun r => (given, r)

/-- Read fields up to the closing parenthesis; the flag says that a field may
come here. The number bounds how many fields there are. -/
def readFields (sw : Switches) : Nat → Given → Bool → List Char → Option (Given × List Char)
  | 0, _, _, _ => none
  | fuel + 1, given, mayFollow, s => do
    match ← skipSpace s with
    | ')' :: r => some (given, r)
    | r =>
      if mayFollow then
        let (name, r) ← word? r
        let (given, r) ← readField sw given name (← skipColon r)
        let (comma, r) ← skipComma r
        readFields sw fuel given comma r
      else none

/-- Skip the name that a record may have. -/
def skipName (required : Bool) (s : List Char) : Option (List Char) :=
  if s.head?.any isWordCharacter then do
    let (word, r) ← word? s
    if word = "ConsoleConfig".toList then some r else none
  else if required then none
  else some s

/-- Read settings from a text. -/
def ofText? (s : List Char) : Option Settings := do
  let (sw, r) ← readAttributes (s.length + 1) {} (← skipSpace s)
  match ← skipSpace (← skipName sw.namedRecord r) with
  | '(' :: r =>
    let (given, r) ← readFields sw (s.length + 1) {} true r
    match ← skipSpace r with
    | [] => some (ofGiven given)
    | _ => none
  | _ => none

end Settings

end CommandConsole
