import CommandConsole.Literal.NamedColor

/-!
# Names of variables

A variable is named by a letter followed by letters and digits. Words that are
read as literals cannot name variables: `null`, `true` and `false` in any case,
and the color words in the one spelling that makes them colors.
-/

namespace CommandConsole

/-- What a word is if it cannot name a variable. -/
inductive ReservedWord where
  | null
  | truthValue
  | color
  deriving DecidableEq, Repr

def ReservedWord.description : ReservedWord → String
  | null => "the null keyword"
  | truthValue => "a boolean constant"
  | color => "a color literal"

/-- Why a variable cannot be set or read. -/
inductive VariableError where
  | invalidName (name : String)
  | reserved (name : String) (word : ReservedWord)
  | unbound (name : String)
  deriving DecidableEq, Repr

def VariableError.message : VariableError → String
  | invalidName name => "'" ++ name ++ "' is not a valid variable name"
  | reserved name word =>
    "'" ++ name ++ "' cannot be used as a variable name, it is " ++ word.description
  | unbound name => "'" ++ name ++ "' has not been set"

namespace VariableName

def isLetter (c : Char) : Bool := c.isAlpha

def isLetterOrDigit (c : Char) : Bool := c.isAlphanum

/-- A letter, then letters and digits. -/
def isWellFormed : List Char → Bool
  | [] => false
  | c :: r => isLetter c && r.all isLetterOrDigit

/-- The literal that a word spells, if any. -/
def reservedWord? (name : List Char) : Option ReservedWord :=
  let lower := name.map Char.toLower
  if lower = "null".toList then some .null
  else if lower = "true".toList || lower = "false".toList then some .truthValue
  else if isColorName name then some .color
  else none

/-- Why a word cannot name a variable, if it cannot. Its shape is looked at
before its spelling. -/
def error? (name : List Char) : Option VariableError :=
  if isWellFormed name then
    (reservedWord? name).map (.reserved (String.ofList name))
  else some (.invalidName (String.ofList name))

/-- The word can name a variable. -/
def isValid (name : List Char) : Bool := (error? name).isNone

end VariableName

end CommandConsole
