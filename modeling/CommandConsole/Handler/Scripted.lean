import CommandConsole.Handler.Action
import CommandConsole.Value.Display

/-!
# Scripted handlers

Small ready-made behaviours from which a host can put commands together that
show their arguments, fail or crash on purpose, log, work on objects and
variables, and call the console from inside.
-/

namespace CommandConsole

/-- How a crash is described: in words, or not at all. -/
inductive CrashReason where
  | text (words : String)
  | other
  deriving DecidableEq, Repr

/-- A ready-made behaviour. -/
inductive Script where
  | nothing
  /-- Log the arguments behind the name of the command and a tag. -/
  | echo (name tag : String)
  /-- Read the arguments at kinds, some of them as optional, and log them. -/
  | read (kinds : List (Kind × Bool))
  /-- Log the line, the number of arguments and their kinds. -/
  | describe
  /-- Log how often the handler has been called. -/
  | count
  | fail (fault : Fault)
  /-- Crash on the first calls, or on all; later count. -/
  | crash (reason : CrashReason) (times : Option Nat)
  | log (entries : List LogEntry)
  /-- Remove the object of the first argument. -/
  | destroy
  /-- Make an object named by the first argument. -/
  | spawn
  | setVariable (name : String) (value : Value)
  | run (line : String)
  | execute (line : String)
  | register (declaration : Declaration)

namespace Script

/-- The texts of values with bars between them. -/
def barred (values : List Value) : String := " | ".intercalate (values.map Value.text)

/-- Log the number of a call. -/
def logCall (n : Nat) : Action := .log .info ("call " ++ toString n) .succeed

/-- The behaviour as a handler. -/
def handler : Script → Handler
  | nothing => fun _ _ => .succeed
  | echo name tag => fun _ args =>
    .log .info (name ++ "/" ++ tag ++ ": " ++ barred args.values) .succeed
  | read kinds => fun _ args =>
    Action.orFail ArgumentError.message
      (fun values => .log .success ("read " ++ barred values) .succeed)
      (kinds.zipIdx.mapM fun ((k, isOptional), i) => args.getValue k isOptional i)
  | describe => fun _ args =>
    .log .info ("[" ++ args.line ++ "] " ++ toString args.values.length ++ " " ++
      toString args.values.isEmpty ++ " " ++
      ",".intercalate (args.values.map Value.kindName)) .succeed
  | count => fun n _ => logCall n
  | fail fault => fun _ _ => .fail fault
  | crash reason times => fun n _ =>
    if times.all (n ≤ ·) then
      .crash (match reason with | .text words => some words | .other => none)
    else logCall n
  | log entries => fun _ _ => .logAll entries .succeed
  | destroy => fun _ args =>
    Action.orFail ArgumentError.message
      (fun
        | some object => .despawn object fun there =>
          .log .info ("despawned " ++ toString there) .succeed
        | none => .log .warning "Nothing to destroy" .succeed)
      (args.getOptional .object 0)
  | spawn => fun _ args =>
    Action.orFail ArgumentError.message
      (fun name => .spawn name fun object =>
        .log .success ("spawned " ++ String.ofList object.display) .succeed)
      (args.get .string 0)
  | setVariable name value => fun _ _ =>
    .setVariable name value <| Action.orFail VariableError.message fun _ => .succeed
  | run line => fun _ _ => .run line .succeed
  | execute line => fun _ _ =>
    .execute line <| Action.orFail LineError.message fun _ => .succeed
  | register declaration => fun _ _ =>
    .register declaration <| Action.orFail RegistrationError.message fun _ => .succeed

end Script

end CommandConsole
