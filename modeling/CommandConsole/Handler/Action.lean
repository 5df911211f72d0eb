import CommandConsole.Command.Arguments
import CommandConsole.Command.Invocation
import CommandConsole.Command.Line
import CommandConsole.Command.Registry
import CommandConsole.Log
import CommandConsole.Settings.Storage

/-!
# What handlers do

A handler is called with its arguments and answers with an action: a tree of
requests to the console, each followed by what to do with the answer, ending in
success, in a fault, or in a crash. Because handlers are data, what a console
does with any of them can be stated and proved.

A handler also knows how often it has been called, which is all it can remember.
-/

namespace CommandConsole

/-- Why a line failed. -/
inductive LineError where
  | unknownCommand (name : String)
  | parse (error : ParseError)
  | resolution (error : ResolutionError)
  | invocation (error : InvocationError)
  deriving DecidableEq, Repr

def LineError.message : LineError → String
  | unknownCommand name => "Unable to run command '" ++ name ++ "': no such command exists"
  | parse error => error.message
  | resolution error => error.message
  | invocation error => error.message

/-- Requests of a handler to the console it runs in. -/
inductive Action where
  | succeed
  | fail (fault : Fault)
  /-- Stop for a reason that may have a text. -/
  | crash (reason : Option String)
  | log (level : Level) (message : String) (next : Action)
  /-- Look at the entries that have not been taken out of the log yet. -/
  | readLog (next : List LogEntry → Action)
  /-- Take all entries out of the log. -/
  | drainLog (next : List LogEntry → Action)
  | clearLog (next : Action)
  | listCommands (next : List Overload → Action)
  | getVariable (name : String) (next : Except VariableError Value → Action)
  | setVariable (name : String) (value : Value) (next : Except VariableError Unit → Action)
  | unsetVariable (name : String) (next : Except VariableError Value → Action)
  | spawn (name : String) (next : Entity → Action)
  /-- Remove an object; the answer says whether it was there. -/
  | despawn (object : Entity) (next : Bool → Action)
  /-- Save the settings; the answer is the path under which they are saved. -/
  | saveSettings (next : Except StorageError String → Action)
  | register (declaration : Declaration) (next : Except RegistrationError Nat → Action)
  /-- Run a line as if it were typed. -/
  | run (line : String) (next : Action)
  /-- Run a line and receive the error it fails with. -/
  | execute (line : String) (next : Except LineError Unit → Action)

namespace Action

/-- Fail with a message that has no cause. -/
def failWith (message : String) : Action := fail ⟨message, []⟩

/-- Go on with a result, or fail with the message of its error. -/
def orFail {ε α : Type} (message : ε → String) (next : α → Action) : Except ε α → Action
  | .error e => failWith (message e)
  | .ok x => next x

/-- Log messages in order. -/
def logAll (entries : List LogEntry) (next : Action) : Action :=
  entries.foldr (fun e rest => log e.level e.message rest) next

end Action

/-- Given how often the handler has been called, this call included, and the
arguments, what it does. -/
abbrev Handler := Nat → Arguments → Action

/-- A handler in the table, with the number of its calls. -/
structure HandlerEntry where
  handler : Handler
  calls : Nat := 0

/-- Handlers by the numbers of their overloads. -/
abbrev HandlerTable := Std.TreeMap Nat HandlerEntry

end CommandConsole
