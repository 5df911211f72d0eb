import CommandConsole.Text.Identifier

/-!
# Words of a record

Fields and structures are named by words, which are identifiers that may also
begin with an underscore. Written with `r#` in front a word may begin with any
of its characters and also hold points and signs; without it a word that goes
on with one of those is no word. What begins like a quoted text is no word
either.
-/

namespace CommandConsole.Record

def isWordStart (c : Char) : Bool := Text.isIdentifierStart c || c = '_'

def isWordCharacter (c : Char) : Bool := Text.isIdentifierPart c

/-- Allowed in words that are marked as such. -/
def isMarkedCharacter (c : Char) : Bool :=
  isWordCharacter c || c = '.' || c = '+' || c = '-'

/-- The text begins with the given characters. -/
def startsWith (lead : String) (s : List Char) : Bool := lead.toList.isPrefixOf s

/-- The text begins like a quoted text or a quoted character. -/
def startsQuoted (s : List Char) : Bool :=
  ["b\"", "b'", "br#", "br\"", "r\"", "r#\"", "r##"].any fun lead => startsWith lead s

/-- The next word, leniently: a word ends where its characters end. -/
def anyWord? (s : List Char) : Option (List Char × List Char) :=
  if startsQuoted s then none
  else match s with
    | 'r' :: '#' :: r =>
      match r.takeWhile isMarkedCharacter with
      | [] => none
      | word => some (word, r.dropWhile isMarkedCharacter)
    | c :: r =>
      if isWordStart c then some (c :: r.takeWhile isWordCharacter, r.dropWhile isWordCharacter)
      else none
    | [] => none

/-- The next word, strictly: one that would go on if it were marked is refused. -/
def word? (s : List Char) : Option (List Char × List Char) := do
  let (word, rest) ← anyWord? s
  let marked := startsWith "r#" s
  if !marked && (rest.head?.any isMarkedCharacter) then none else some (word, rest)

/-- What is left behind one particular word. -/
def skipWord (word : String) (s : List Char) : Option (List Char) :=
  let rest := s.drop word.length
  if startsWith word s && !(rest.head?.any isWordCharacter) then some rest else none

end CommandConsole.Record
