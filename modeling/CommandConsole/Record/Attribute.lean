import CommandConsole.Record.Quoted
import CommandConsole.Record.Spacing
import CommandConsole.Record.Word

/-!
# Attributes in front of a record

A record may have attributes in front of it, each in square brackets behind a
number sign and an exclamation mark. Some label the record with a type or a
schema for others to see, by a quoted text that changes nothing. Others enable
switches, and these change how the record is read.
-/

namespace CommandConsole.Record

/-- How a record is to be read. -/
structure Switches where
  /-- A value that is there although it is optional needs no parentheses. -/
  bareOptional : Bool := false
  /-- The parentheses of an optional value may be those of a tuple or a record. -/
  openOptional : Bool := false
  /-- The record must be named. -/
  namedRecord : Bool := false
  deriving DecidableEq

namespace Switches

/-- Turn on the switch of a given name, if there is one. -/
def enable? (sw : Switches) (name : String) : Option Switches :=
  if name = "implicit_some" then some { sw with bareOptional := true }
  else if name = "unwrap_variant_newtypes" then some { sw with openOptional := true }
  else if name = "explicit_struct_names" then some { sw with namedRecord := true }
  else if name = "unwrap_newtypes" then some sw
  else none

/-- Read names of switches up to the closing parenthesis. The number bounds how
many there are. -/
def readNames : Nat → Switches → List Char → Option (Switches × List Char)
  | 0, _, _ => none
  | fuel + 1, sw, s => do
    let (name, r) ← word? s
    let sw ← sw.enable? (String.ofList name)
    let (comma, r) ← skipComma r
    match r with
    | ')' :: _ => some (sw, r)
    | _ => if comma then readNames fuel sw r else none

end Switches

/-- Skip parts, each with the space behind it. -/
def skipParts : List String → List Char → Option (List Char)
  | [], s => some s
  | part :: parts, s =>
    if startsWith part s then (skipSpace (s.drop part.length)).bind (skipParts parts) else none

/-- Skip a label and the space behind it. -/
def skipLabel (s : List Char) : Option (List Char) := do
  let text ← ["type", "schema"].findSome? fun name => skipParts [name, "="] s
  skipSpace (← skipText text)

/-- Read what stands between the brackets of an attribute. -/
def readAttribute (sw : Switches) (s : List Char) : Option (Switches × List Char) :=
  match skipParts ["enable", "("] s with
  | some r => do
    let (sw, r) ← sw.readNames (r.length + 1) r
    return (sw, ← skipParts [")"] r)
  | none => (skipLabel s).map fun r => (sw, r)

/-- Read all attributes. The number bounds how many there are. -/
def readAttributes : Nat → Switches → List Char → Option (Switches × List Char)
  | 0, _, _ => none
  | fuel + 1, sw, s =>
    if s.head? = some '#' then do
      let (sw, r) ← readAttribute sw (← skipParts ["#", "!", "["] s)
      readAttributes fuel sw (← skipParts ["]"] r)
    else some (sw, s)

end CommandConsole.Record
