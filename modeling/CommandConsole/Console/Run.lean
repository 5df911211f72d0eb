import CommandConsole.Console.Basic
import CommandConsole.Text.Blank

/-!
# Running lines

A line is prepared first: the registry is frozen, the command is looked up, its
parameters are read, an overload is picked and variables are replaced. All of
this may fail, and none of it changes anything but the log and the freezing.
What comes out is a call, and only then a handler is entered.

While a handler runs the table of handlers is in use. A line that it runs from
inside is prepared like any other, but if a call comes out of it, the handler
crashes instead of entering a second one. Whatever happens to a handler, it
stays in the table, and its fault or crash becomes the error of the line.

`Console.run` is what a host calls: it keeps the line in the history, echoes it
to the log, and turns an error into a log entry.
-/

namespace CommandConsole

/-- A handler that is about to be entered, and what it receives. -/
structure Call where
  name : String
  line : String
  id : Nat
  values : List Value
  deriving DecidableEq, Repr

/-- How a handler ended. -/
inductive Outcome where
  | succeeded
  | failed (fault : Fault)
  | crashed (reason : Option String)
  deriving DecidableEq, Repr

namespace Outcome

/-- What the line gets to know about the end of the handler of a command. -/
def result (command : String) : Outcome → Except InvocationError Unit
  | succeeded => .ok ()
  | failed fault => .error (.ofFault command fault)
  | crashed reason =>
    .error (.handlerFault command
      ("Command '" ++ command ++ "' panicked: " ++ reason.getD "Unknown panic") none)

end Outcome

/-- Why a handler crashes that calls another one. -/
def tableInUse : String :=
  "resource does not exist: <Enable the debug feature to see the name>"

/-- Why a handler crashes that saves settings where there are none. -/
def settingsMissing : String :=
  "Requested resource <Enable the debug feature to see the name> does not exist in the `World`.
                Did you forget to add it using `app.insert_resource` / `app.init_resource`?
                Resources are also implicitly added via `app.add_message`,
                and can be added by plugins."

namespace Console

/-- Read, resolve and bind a line, up to the point where a handler would be
entered. -/
def prepare (c : Console) (line : String) : Console × Except LineError Call :=
  let c := { c with registry := c.registry.freeze }
  let (word, parameters) := splitLine line.toList
  let name := String.ofList word
  if c.registry.contains name then
    match parseParameters c.objects.find? c.literals parameters with
    | .error e => (c, .error (.parse e))
    | .ok p =>
      let c := c.warn p.warnings
      match c.registry.resolve name c.vars p.values with
      | .error e => (c, .error (.resolution e))
      | .ok o =>
        match bindValues c.vars p.values o.kinds with
        | .error e => (c, .error (.invocation e))
        | .ok values => (c, .ok ⟨name, line, o.id, values⟩)
  else (c, .error (.unknownCommand name))

/-- Keep a line in the history and echo it to the log. -/
def echo (c : Console) (line : String) : Console :=
  { c with history := c.history.record line }.say .command
    (String.singleton c.effectiveSettings.executionSymbol ++ " " ++ line)

/-- A line without the blanks around it. -/
def trimLine (line : String) : String := String.ofList (Text.trim line.toList)

/-- Do what a handler asks for. -/
def perform : Action → Console → Console × Outcome
  | .succeed, c => (c, .succeeded)
  | .fail fault, c => (c, .failed fault)
  | .crash reason, c => (c, .crashed reason)
  | .log level message next, c => perform next (c.say level message)
  | .readLog next, c => perform (next c.log.entries) c
  | .drainLog next, c => perform (next c.log.drain.1) { c with log := c.log.drain.2 }
  | .clearLog next, c => perform next { c with log := c.log.clear }
  | .listCommands next, c => perform (next c.registry.commands) c
  | .getVariable name next, c => perform (next (c.vars.get name)) c
  | .setVariable name value next, c =>
    match c.vars.set name value with
    | .ok vars => perform (next (.ok ())) { c with vars }
    | .error e => perform (next (.error e)) c
  | .unsetVariable name next, c =>
    match c.vars.unset name with
    | .ok (value, vars) => perform (next (.ok value)) { c with vars }
    | .error e => perform (next (.error e)) c
  | .spawn name next, c =>
    perform (next (c.objects.spawn name).1) { c with objects := (c.objects.spawn name).2 }
  | .despawn object next, c =>
    perform (next (c.objects.despawn object).1) { c with objects := (c.objects.despawn object).2 }
  | .saveSettings next, c =>
    match c.settings with
    | none => (c, .crashed (some settingsMissing))
    | some s =>
      let (files, saved) := s.save c.files c.settingsPath
      perform (next (saved.map fun _ => c.settingsPath)) { c with files }
  | .register d next, c =>
    match c.registry.register d with
    | .ok (o, registry) => perform (next (.ok o.id)) { c with registry }
    | .error e => perform (next (.error e)) c
  | .run line next, c =>
    if (trimLine line).isEmpty then perform next c
    else
      match (c.echo (trimLine line)).prepare (trimLine line) with
      | (c, .error e) => perform next (c.say .error e.message)
      | (c, .ok _) => (c, .crashed (some tableInUse))
  | .execute line next, c =>
    match c.prepare line with
    | (c, .error e) => perform (next (.error e)) c
    | (c, .ok _) => (c, .crashed (some tableInUse))

/-- Enter the handler of a call. -/
def enter (c : Console) (call : Call) : Console × Except InvocationError Unit :=
  match c.handlers[call.id]? with
  | none => (c, .error (.missingHandler call.name))
  | some entry =>
    let calls := entry.calls + 1
    let (c, outcome) := perform (entry.handler calls ⟨call.line, call.values⟩) c
    ({ c with handlers := c.handlers.insert call.id { entry with calls } },
      outcome.result call.name)

/-- Run a line and report its error to the caller. -/
def execute (c : Console) (line : String) : Console × Except LineError Unit :=
  match c.prepare line with
  | (c, .error e) => (c, .error e)
  | (c, .ok call) =>
    match c.enter call with
    | (c, .ok ()) => (c, .ok ())
    | (c, .error e) => (c, .error (.invocation e))

/-- Run a line and report its error to the log. Blank lines are ignored. -/
def run (c : Console) (line : String) : Console :=
  if (trimLine line).isEmpty then c
  else
    match (c.echo (trimLine line)).execute (trimLine line) with
    | (c, .ok ()) => c
    | (c, .error e) => c.say .error e.message

/-- Run lines one after the other. -/
def runAll (c : Console) (lines : List String) : Console := lines.foldl run c

@[simp] theorem runAll_nil (c : Console) : c.runAll [] = c := rfl

@[simp] theorem runAll_cons (c : Console) (line : String) (lines : List String) :
    c.runAll (line :: lines) = (c.run line).runAll lines := by
  rw [runAll, List.foldl_cons, runAll]

end Console

end CommandConsole
