import CommandConsole.Value.Read

/-!
# Arguments

A handler receives the line as it was typed and the values of the parameters,
and reads each of them as it chooses.
-/

namespace CommandConsole

/-- What a handler is called with. -/
structure Arguments where
  line : String
  values : List Value
  deriving DecidableEq, Repr

/-- Why an argument could not be read. -/
inductive ArgumentError where
  | missing (index : Nat)
  | kindMismatch (index : Nat) (expected : Kind) (found : String)
  deriving DecidableEq, Repr

def ArgumentError.message : ArgumentError → String
  | missing index => "missing argument " ++ toString index
  | kindMismatch index expected found =>
    "argument " ++ toString index ++ " is " ++ found ++ ", expected " ++ expected.name

namespace Arguments

/-- Read an argument. -/
def read (args : Arguments) (t : ReadType) (index : Nat) : Except ArgumentError t.Carrier :=
  match args.values[index]? with
  | none => .error (.missing index)
  | some v =>
    match t.read? v with
    | none => .error (.kindMismatch index t.kind v.kindName)
    | some x => .ok x

/-- Read an argument at a kind. -/
def get (args : Arguments) (k : Kind) (index : Nat) : Except ArgumentError k.Carrier :=
  args.read (.plain k) index

/-- Read an argument that may be `null` at a kind. -/
def getOptional (args : Arguments) (k : Kind) (index : Nat) :
    Except ArgumentError (Option k.Carrier) :=
  args.read (.optional (.plain k)) index

/-- Read an argument at a kind, or as optional, as the value it stands for. -/
def getValue (args : Arguments) (k : Kind) (isOptional : Bool) (index : Nat) :
    Except ArgumentError Value :=
  if isOptional then (args.getOptional k index).map fun x => (x.map k.embed).getD .null
  else (args.get k index).map k.embed

end Arguments

end CommandConsole
