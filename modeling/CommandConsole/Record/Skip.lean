import CommandConsole.Record.Attribute
import CommandConsole.Record.Number

/-!
# Values that nobody asked for

A record may have fields that its reader does not know. Their values are read
all the same, to find where they end, and are dropped: numbers, ranges,
characters, texts, words, optional values, lists, maps, tuples and records in
records. Values nest up to a limit.

How an optional value is written depends on the switches of the record. Where
its parentheses may be those of a tuple or a record, the text has to be looked
at up to the first comma to tell these from the parentheses of a single value.
-/

namespace CommandConsole.Record

/-- How deep a record may nest, counting a structure and each of its members
as one step each. -/
def nestingLimit : Nat := 128

/-- The words that are values by themselves. -/
def valueWords : List String :=
  ["true", "false", "None"]

/-- What a structure in brackets consists of. -/
inductive Members where
  /-- Values, up to the closing character. -/
  | values (close : Char)
  /-- Keys and values, up to a closing brace. -/
  | entries
  /-- Named values, up to a closing parenthesis. -/
  | fields
  deriving DecidableEq

def Members.close : Members → Char
  | values c => c
  | entries => '\x7d'
  | fields => ')'

/-- Whether the text behind an opening parenthesis begins with a named value. -/
def startsWithField (s : List Char) : Bool :=
  match (skipSpace s).bind anyWord? with
  | some (_, r) =>
    match skipSpace r with
    | some (':' :: _) => true
    | _ => false
  | none => false

/-- Skip the colon behind a key or the name of a field. -/
def skipColon (s : List Char) : Option (List Char) := do
  match ← skipSpace s with
  | ':' :: r => skipSpace r
  | _ => none

/-- Whether there is more than one value in front of the parenthesis that closes
what was opened `nesting` times, looking no deeper than at brackets, quotes and
commas. The first number bounds the work. -/
def holdsSeveral : Nat → Nat → List Char → Option Bool
  | 0, _, _ => none
  | fuel + 1, nesting, s => do
    let s ← skipSpace s
    let s := ((quotedCharacter? s).map (·.2)).getD s
    let s := (skipText s).getD s
    let s := (skipBytes s).getD s
    match s with
    | [] => none
    | c :: r =>
      if c = '(' || c = '[' || c = '\x7b' then holdsSeveral fuel (nesting + 1) r
      else if c = ')' || c = ']' || c = '\x7d' then
        if nesting = 1 then some false else holdsSeveral fuel (nesting - 1) r
      else if c = ',' && nesting = 1 then
        (skipSpace r).map fun r => !startsWith ")" r
      else holdsSeveral fuel nesting r

/-- What an optional value consists of whose parentheses may be those of a tuple
or a record: their members, or else one value. -/
def optionalMembers (s : List Char) : Option (Option Members) :=
  let several (s : List Char) : Option (Option Members) :=
    (holdsSeveral (s.length + 1) 1 s).map fun more => if more then some (.values ')') else none
  match anyWord? s with
  | none => several s
  | some (_, r) =>
    match skipSpace r with
    | none => none
    | some (':' :: _) => some (some .fields)
    | some r => several r

mutual

/-- Skip one value. The first number bounds the work, the second is how much
deeper the value may nest. -/
def skipValue (sw : Switches) : Nat → Nat → List Char → Option (List Char)
  | 0, _, _ => none
  | fuel + 1, depth, s =>
    match valueWords.findSome? (skipWord · s) with
    | some r => some r
    | none =>
      match skipWord "Some" s with
      | some r => skipOptional sw fuel depth r
      | none =>
        match skipNumberOrRange s with
        | some r => some r
        | none =>
          match anyWord? s with
          | some (_, r) =>
            match skipSpace r with
            | some ('(' :: r) => skipParenthesized sw fuel depth r
            | other => other
          | none =>
            match s with
            | '(' :: ')' :: r => some r
            | '(' :: r => skipParenthesized sw fuel depth r
            | '[' :: r => skipMembers sw fuel depth (.values ']') true r
            | '\x7b' :: r => skipMembers sw fuel depth .entries true r
            | '\'' :: _ => (quotedCharacter? s).map (·.2)
            | 'b' :: _ => skipBytes s
            | s => skipText s

/-- Skip the value of the word `Some`. -/
def skipOptional (sw : Switches) : Nat → Nat → List Char → Option (List Char)
  | 0, _, _ => none
  | fuel + 1, depth, s =>
    match skipSpace s, depth with
    | none, _ | _, 0 => none
    | some ('(' :: r), depth + 1 => do
      let r ← skipSpace r
      match r, sw.openOptional with
      | ')' :: rest, true => some rest
      | _, _ =>
        match ← if sw.openOptional then optionalMembers r else some none with
        | some members => skipMembers sw fuel depth members true r
        | none =>
          match ← skipComma (← skipValue sw fuel depth r) with
          | (_, ')' :: rest) => some rest
          | _ => none
    | some r, depth + 1 => if sw.bareOptional then skipValue sw fuel depth r else none

/-- Skip the members of a tuple or a record behind the opening parenthesis. -/
def skipParenthesized (sw : Switches) : Nat → Nat → List Char → Option (List Char)
  | 0, _, _ => none
  | fuel + 1, depth, s =>
    skipMembers sw fuel depth (if startsWithField s then .fields else .values ')') true s

/-- Skip members and the closing character; the flag says that a member may
come here because it is the first or because a comma stands in front. -/
def skipMembers (sw : Switches) : Nat → Nat → Members → Bool → List Char → Option (List Char)
  | 0, _, _, _, _ => none
  | fuel + 1, depth, members, mayFollow, s =>
    match skipSpace s with
    | none | some [] => none
    | some (c :: r) =>
      if depth = 0 then none
      else if c = members.close then some r
      else if !mayFollow || depth = 1 then none
      else do
        let value ← match members with
          | .values _ => some (c :: r)
          | .entries => skipColon (← skipValue sw fuel (depth - 2) (c :: r))
          | .fields => skipColon (← word? (c :: r)).2
        let (comma, rest) ← skipComma (← skipValue sw fuel (depth - 2) value)
        skipMembers sw fuel depth members comma rest

end

/-- Skip the value of a field of the outermost record. -/
def skipFieldValue (sw : Switches) (s : List Char) : Option (List Char) :=
  skipValue sw (3 * s.length + 3) (nestingLimit - 2) s

end CommandConsole.Record
