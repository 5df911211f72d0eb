import CommandConsole.Handler.Builtin
import CommandConsole.History
import CommandConsole.Objects

/-!
# The console

All that a line can depend on and change: commands with their handlers,
variables, the history and the log, settings and the files they are kept in,
the literals that are read, and the objects of the host. A host may leave the
settings out; then the default ones hold, except where they would be saved.
-/

namespace CommandConsole

structure Console where
  registry : Registry := {}
  handlers : HandlerTable := ∅
  vars : Variables := {}
  history : History := default
  log : Log := {}
  settings : Option Settings := some {}
  literals : List Literal := Literal.standard
  objects : Objects := {}
  files : Files := {}
  /-- Where the settings are saved. -/
  settingsPath : String := "console.ron"

namespace Console

/-- The settings that hold. -/
def effectiveSettings (c : Console) : Settings := c.settings.getD {}

/-- How close a name must be to what is typed to be suggested. -/
def threshold (c : Console) : Nat := c.effectiveSettings.matchThreshold.toNat

/-- Add an entry to the log. -/
def say (c : Console) (level : Level) (message : String) : Console :=
  { c with log := c.log.push level message }

@[simp] theorem entries_say (c : Console) (level : Level) (message : String) :
    (c.say level message).log.entries = c.log.entries ++ [⟨level, message⟩] := rfl

/-- Add the warnings of a line to the log. -/
def warn (c : Console) (warnings : List Warning) : Console :=
  warnings.foldl (fun c w => c.say .warning w.message) c

/-- Declare a command with its handler, if the registry accepts it. -/
def declare (c : Console) (d : Declaration) (h : Handler) :
    Console × Except RegistrationError Nat :=
  match c.registry.register d with
  | .error e => (c, .error e)
  | .ok (o, registry) =>
    ({ c with registry, handlers := c.handlers.insert o.id ⟨h, 0⟩ }, .ok o.id)

/-- Take a handler out of the table for good; the answer says whether it was there. -/
def removeHandler (c : Console) (id : Nat) : Bool × Console :=
  (c.handlers.contains id, { c with handlers := c.handlers.erase id })

/-- Declare commands in order, skipping those that are refused. -/
def declareAll (c : Console) (commands : List (Declaration × Handler)) : Console :=
  commands.foldl (fun c x => (c.declare x.1 x.2).1) c

/-- Declare the built-in commands. -/
def declareBuiltins (c : Console) : Console := c.declareAll Builtin.all

/-- What to show for a line that is being typed. -/
def suggest (c : Console) (typed : String) : Suggestions := c.registry.suggest typed c.threshold

/-- The commands close to a name that is being typed. -/
def suggestCommands (c : Console) (typed : String) : List Match :=
  c.registry.suggestCommands typed c.threshold

/-- The best completion of a name that is being typed. -/
def complete (c : Console) (typed : String) : Option String :=
  c.registry.complete typed c.threshold

/-- Walk through the history; without any line the text is empty. -/
def previousLine (c : Console) (older : Bool) : String × Console :=
  let (line, history) := c.history.navigate older
  (line.getD "", { c with history })

/-- Replace the settings, and let the history follow them. -/
def applySettings (c : Console) (s : Settings) : Console :=
  { c with history := s.resize c.history, settings := some s }

/-- Load the settings, and keep those that hold if that fails. -/
def loadSettings (c : Console) : Console :=
  match Settings.load c.files c.settingsPath with
  | .ok s => c.applySettings s
  | .error _ => c

end Console

end CommandConsole
