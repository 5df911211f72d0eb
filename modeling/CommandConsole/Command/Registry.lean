import CommandConsole.Text.Blank
import CommandConsole.Command.Resolution
import CommandConsole.Command.Suggestion

/-!
# The registry of commands

Overloads are kept by name, in the order of their declaration, and names in
ascending order. Each accepted declaration is numbered; refused ones take no
number and leave nothing behind. The first line that is run freezes the
registry, and from then on every declaration is refused.
-/

namespace CommandConsole

/-- Why a declaration was refused. -/
inductive RegistrationError where
  | invalidName (name : String)
  | frozen (name : String)
  deriving DecidableEq, Repr

def RegistrationError.message : RegistrationError → String
  | invalidName name => "'" ++ name ++ "' is not a valid command name"
  | frozen name => "cannot register '" ++ name ++ "' after commands have started running"

/-- What to show for a line that is being typed. -/
inductive Suggestions where
  /-- The signatures of the command whose parameters are being typed. -/
  | overloads (signatures : List String)
  /-- The commands close to the name that is being typed. -/
  | commands (found : List Match)
  deriving DecidableEq, Repr

/-- One line per suggestion. -/
def Suggestions.lines : Suggestions → List String
  | overloads signatures => signatures
  | commands found => found.map fun m => helpLine m.name m.help

/-- The declared commands. -/
structure Registry where
  byName : Std.TreeMap String (List Overload) := ∅
  nextId : Nat := 0
  isFrozen : Bool := false

namespace Registry

/-- The overloads of a name, in the order of their declaration. -/
def overloads (r : Registry) (name : String) : List Overload := (r.byName[name]?).getD []

def contains (r : Registry) (name : String) : Bool := r.byName.contains name

/-- The number of names. -/
def size (r : Registry) : Nat := r.byName.size

def isEmpty (r : Registry) : Bool := r.byName.isEmpty

/-- Refuse every later declaration. -/
def freeze (r : Registry) : Registry := { r with isFrozen := true }

@[simp] theorem overloads_freeze (r : Registry) (name : String) :
    r.freeze.overloads name = r.overloads name := rfl

@[simp] theorem contains_freeze (r : Registry) (name : String) :
    r.freeze.contains name = r.contains name := rfl

@[simp] theorem isFrozen_freeze (r : Registry) : r.freeze.isFrozen = true := rfl

/-- Accept a declaration as a new overload. That the registry is frozen is
reported before a name that is not valid. -/
def register (r : Registry) (d : Declaration) :
    Except RegistrationError (Overload × Registry) :=
  if r.isFrozen then .error (.frozen d.fullName)
  else if CommandName.isValid d.fullName.toList then
    let o : Overload := ⟨r.nextId, d.fullName, d.help, d.parameters⟩
    .ok (o, { r with
      byName := r.byName.insert d.fullName (r.overloads d.fullName ++ [o])
      nextId := r.nextId + 1 })
  else .error (.invalidName d.fullName)

/-- The first declared overload of every name, in ascending order of the names. -/
def commands (r : Registry) : List Overload := r.byName.toList.filterMap fun x => x.2.head?

/-- Pick the overload of a name that fits best. -/
def resolve (r : Registry) (name : String) (vs : Variables) (values : List Value) :
    Except ResolutionError Overload :=
  CommandConsole.resolve name (r.overloads name) vs values

/-- The commands whose names are close to a typed text, the closest first. -/
def suggestCommands (r : Registry) (typed : String) (threshold : Nat) : List Match :=
  Match.rank typed.toList (r.commands.map fun o => (o.name, o.help)) threshold

/-- The signatures of the overloads of a name. -/
def signatures (r : Registry) (name : String) : List String :=
  (r.overloads name).map Overload.signature

/-- Overloads once a name and a blank are typed, and names before that. The
typed text is taken as it is: with a blank in front nothing counts as a name. -/
def suggest (r : Registry) (typed : String) (threshold : Nat) : Suggestions :=
  match Text.splitWord typed.toList with
  | (_ :: _, _ :: _) =>
    .overloads (r.signatures (String.ofList (Text.splitWord typed.toList).1))
  | _ => .commands (r.suggestCommands typed threshold)

/-- The best completion of a typed name, unless nothing is typed. -/
def complete (r : Registry) (typed : String) (threshold : Nat) : Option String :=
  if typed.isEmpty then none
  else ((r.suggestCommands typed threshold).head?).map (·.name)

end Registry

end CommandConsole
