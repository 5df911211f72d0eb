import CommandConsole.Value.Kind

/-!
# Declared commands

A command is declared by name, possibly in a group, with a help text and its
parameters in order. Several declarations may share a name; each accepted one
is an overload with a number of its own.
-/

namespace CommandConsole

/-- A declared parameter. -/
structure Parameter where
  name : String
  kind : Kind
  deriving DecidableEq, Repr

/-- What a host declares. Without a help text the text is empty. -/
structure Declaration where
  name : String
  group : Option String := none
  help : String := ""
  parameters : List Parameter := []
  deriving DecidableEq, Repr

namespace CommandName

def isSegmentCharacter (c : Char) : Bool := c.isAlphanum || c = '_' || c = '-'

/-- Segments separated by points; the flag says that a segment begins here. -/
def hasValidSegments : Bool → List Char → Bool
  | atStart, [] => !atStart
  | true, c :: r => c.isAlpha && hasValidSegments false r
  | false, c :: r =>
    if c = '.' then hasValidSegments true r
    else isSegmentCharacter c && hasValidSegments false r

/-- A command name consists of segments separated by points, each a letter
followed by letters, digits, underscores and hyphens. -/
def isValid (name : List Char) : Bool := hasValidSegments true name

end CommandName

/-- The name under which a command is called, its group in front. -/
def Declaration.fullName (d : Declaration) : String :=
  match d.group with
  | some group => group ++ "." ++ d.name
  | none => d.name

/-- A command that can be called, one of possibly several of its name. -/
structure Overload where
  id : Nat
  name : String
  help : String
  parameters : List Parameter
  deriving DecidableEq, Repr

namespace Overload

/-- The kinds of the parameters, in order. -/
def kinds (o : Overload) : List Kind := o.parameters.map (·.kind)

/-- The name, and each parameter with its kind in brackets. -/
def signature (o : Overload) : String :=
  o.parameters.foldl (fun s p => s ++ " [" ++ p.name ++ ": " ++ p.kind.name ++ "]") o.name

/-- The kinds of the parameters as a text, by which candidates are ordered. -/
def kindKey (o : Overload) : String := ",".intercalate (o.kinds.map Kind.name)

end Overload

/-- How a command is listed with its help text. -/
def helpLine (name help : String) : String :=
  name ++ " - " ++ if help.isEmpty then "No help text provided" else help

end CommandConsole
