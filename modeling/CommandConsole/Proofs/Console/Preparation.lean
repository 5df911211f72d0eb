import CommandConsole.Console.Run

/-!
# What a line comes to

Preparing a line freezes the registry, logs warnings, and computes a call or an
error. Here the three are taken apart: what is computed depends on neither the
history nor the log, and it is the only way in which preparing can differ
between two lines that raise the same warnings.

A line enters a handler exactly if a call comes out of it and the handler of the
call is in the table. Running a line is described by these two cases.
-/

namespace CommandConsole

/-- How a warning is shown. -/
def Warning.entry (w : Warning) : LogEntry := ⟨.warning, w.message⟩

/-- The command that a line names. -/
def commandOf (line : String) : String := String.ofList (splitLine line.toList).1

/-- What the handler of a call does when it is entered. -/
def HandlerEntry.action (entry : HandlerEntry) (call : Call) : Action :=
  entry.handler (entry.calls + 1) ⟨call.line, call.values⟩

/-- The handler after one more call. -/
def HandlerEntry.called (entry : HandlerEntry) : HandlerEntry :=
  { entry with calls := entry.calls + 1 }

namespace Console

/-- Refuse every later declaration. -/
def freeze (c : Console) : Console := { c with registry := c.registry.freeze }

/-- The console with another history and log. -/
def withTrace (c : Console) (history : History) (entries : List LogEntry) : Console :=
  { c with history, log := ⟨entries⟩ }

/-- The console with a handler in the table. -/
def withHandler (c : Console) (id : Nat) (entry : HandlerEntry) : Console :=
  { c with handlers := c.handlers.insert id entry }

@[simp] theorem withTrace_self (c : Console) : c.withTrace c.history c.log.entries = c := rfl

/-- The entry in the log that shows a line that is run. -/
def echoEntry (c : Console) (line : String) : LogEntry :=
  ⟨.command, String.singleton c.effectiveSettings.executionSymbol ++ " " ++ line⟩

theorem warn_eq (c : Console) (warnings : List Warning) :
    c.warn warnings = c.withTrace c.history (c.log.entries ++ warnings.map Warning.entry) := by
  rw [warn]
  induction warnings generalizing c with
  | nil => simp
  | cons w warnings ih =>
      rw [List.foldl_cons, ih, List.map_cons]
      simp [withTrace, say, Log.push, Warning.entry]

/-- The parameters of a line, as they are read. -/
def parametersOf (c : Console) (line : String) : Except ParseError Parameters :=
  parseParameters c.objects.find? c.literals (splitLine line.toList).2

/-- The warnings that a line leaves in the log. -/
def warningsOf (c : Console) (line : String) : List Warning :=
  if c.registry.contains (commandOf line) then
    match c.parametersOf line with
    | .ok p => p.warnings
    | .error _ => []
  else []

/-- The call that comes out of a line, or why none does. -/
def callOf (c : Console) (line : String) : Except LineError Call :=
  if c.registry.contains (commandOf line) then
    match c.parametersOf line with
    | .error e => .error (.parse e)
    | .ok p =>
      match c.registry.resolve (commandOf line) c.vars p.values with
      | .error e => .error (.resolution e)
      | .ok o =>
        match bindValues c.vars p.values o.kinds with
        | .error e => .error (.invocation e)
        | .ok values => .ok ⟨commandOf line, line, o.id, values⟩
  else .error (.unknownCommand (commandOf line))

/-- A call comes from an overload of the command that takes what is read, and from what is
bound for it. -/
theorem exists_of_callOf {c : Console} {line : String} {call : Call}
    (computed : c.callOf line = .ok call) :
    ∃ p o, c.parametersOf line = .ok p ∧
      c.registry.resolve (commandOf line) c.vars p.values = .ok o ∧
      bindValues c.vars p.values o.kinds = .ok call.values ∧
      call.name = commandOf line ∧ call.line = line ∧ call.id = o.id := by
  rw [callOf] at computed
  split at computed
  · split at computed
    · cases computed
    next p read =>
      split at computed
      · cases computed
      next o picked =>
        split at computed
        · cases computed
        next values bound =>
          obtain rfl := Except.ok.inj computed
          exact ⟨p, o, read, picked, bound, rfl, rfl, rfl⟩
  · cases computed

/-- No call comes out of a line: its command is not known, its parameters cannot be read, no
overload can be picked for them, or a variable is not set. -/
inductive Rejects (c : Console) (line : String) : LineError → Prop
  | unknown : c.registry.contains (commandOf line) = false →
    Rejects c line (.unknownCommand (commandOf line))
  | unread {e : ParseError} : c.registry.contains (commandOf line) = true →
    c.parametersOf line = .error e → Rejects c line (.parse e)
  | unresolved {p : Parameters} {e : ResolutionError} :
    c.registry.contains (commandOf line) = true → c.parametersOf line = .ok p →
    c.registry.resolve (commandOf line) c.vars p.values = .error e →
    Rejects c line (.resolution e)
  | unbound {p : Parameters} {o : Overload} {e : InvocationError} :
    c.registry.contains (commandOf line) = true → c.parametersOf line = .ok p →
    c.registry.resolve (commandOf line) c.vars p.values = .ok o →
    bindValues c.vars p.values o.kinds = .error e → Rejects c line (.invocation e)

theorem callOf_eq_error_iff {c : Console} {line : String} {e : LineError} :
    c.callOf line = .error e ↔ c.Rejects line e := by
  constructor
  · intro computed
    rw [callOf] at computed
    split at computed
    next known =>
      split at computed
      next read =>
        cases computed
        exact .unread known read
      next p read =>
        split at computed
        next refused =>
          cases computed
          exact .unresolved known read refused
        next o picked =>
          split at computed
          next failed =>
            cases computed
            exact .unbound known read picked failed
          next => cases computed
    next unknown =>
      cases computed
      exact .unknown (Bool.eq_false_iff.mpr unknown)
  · intro rejects
    cases rejects with
    | unknown unknown => rw [callOf, if_neg (Bool.eq_false_iff.mp unknown)]
    | unread known read => rw [callOf, if_pos known, read]
    | unresolved known read refused => simp only [callOf, known, ↓reduceIte, read, refused]
    | unbound known read picked failed =>
        simp only [callOf, known, ↓reduceIte, read, picked, failed]

/-- The console in which the handler of a line would be entered. -/
def prepared (c : Console) (line : String) : Console :=
  c.freeze.withTrace c.history (c.log.entries ++ (c.warningsOf line).map Warning.entry)

theorem prepare_eq (c : Console) (line : String) :
    c.prepare line = (c.prepared line, c.callOf line) := by
  simp only [prepare, prepared, warningsOf, callOf, parametersOf, commandOf, Registry.resolve,
    Registry.contains_freeze, warn_eq, withTrace, Registry.overloads_freeze]
  by_cases known : c.registry.contains (String.ofList (splitLine line.toList).1) = true
  · simp only [known, ↓reduceIte]
    cases parseParameters c.objects.find? c.literals (splitLine line.toList).2 with
    | error e => simp [freeze]
    | ok p =>
        simp only
        cases resolve (String.ofList (splitLine line.toList).1)
            (c.registry.overloads (String.ofList (splitLine line.toList).1)) c.vars p.values with
        | error e => rfl
        | ok o =>
            simp only
            cases bindValues c.vars p.values o.kinds <;> rfl
  · simp [known, freeze]

/-- The call that comes out of a line and the handler that is entered for it. -/
def entered? (c : Console) (line : String) : Option (Call × HandlerEntry) :=
  match c.callOf line with
  | .error _ => none
  | .ok call => (c.handlers[call.id]?).map (call, ·)

/-- The error of a line that enters no handler. -/
def errorOf (c : Console) (line : String) : LineError :=
  match c.callOf line with
  | .error e => e
  | .ok call => .invocation (.missingHandler call.name)

section Execution

variable {c : Console} {line : String} {call : Call} {entry : HandlerEntry}

theorem entered?_eq_some_iff :
    c.entered? line = some (call, entry) ↔
      c.callOf line = .ok call ∧ c.handlers[call.id]? = some entry := by
  rw [entered?]
  cases c.callOf line <;> simp
  grind

theorem enter_eq (present : c.handlers[call.id]? = some entry) :
    c.enter call =
      ((perform (entry.action call) c).1.withHandler call.id entry.called,
        (perform (entry.action call) c).2.result call.name) := by
  rw [enter, present]
  rfl

theorem execute_of_entered (entered : c.entered? line = some (call, entry)) :
    c.execute line =
      ((perform (entry.action call) (c.prepared line)).1.withHandler call.id entry.called,
        ((perform (entry.action call) (c.prepared line)).2.result call.name).mapError
          LineError.invocation) := by
  obtain ⟨computed, present⟩ := entered?_eq_some_iff.mp entered
  have present' : (c.prepared line).handlers[call.id]? = some entry := present
  rw [execute, prepare_eq, computed]
  simp only [enter_eq present']
  cases (perform (entry.action call) (c.prepared line)).2.result call.name <;> rfl

/-- A line that enters no handler fails, and has done nothing but log warnings. -/
theorem execute_of_not_entered (out : c.entered? line = none) :
    c.execute line = (c.prepared line, .error (c.errorOf line)) := by
  rw [execute, prepare_eq, errorOf]
  cases computed : c.callOf line with
  | error e => rfl
  | ok call =>
      have absent : (c.prepared line).handlers[call.id]? = none := by
        rw [entered?, computed] at out
        exact Option.map_eq_none_iff.mp out
      simp [enter, absent]

/-- What a line fails with before a handler can be entered is computed without entering one. -/
theorem execute_eq_error_iff {e : LineError} (before : ∀ i, e ≠ .invocation i) :
    (c.execute line).2 = .error e ↔ c.Rejects line e := by
  rw [← callOf_eq_error_iff]
  cases found : c.entered? line with
  | none =>
      rw [execute_of_not_entered found, errorOf]
      cases c.callOf line with
      | error e' => simp
      | ok call => simpa using (before _).symm
  | some x =>
      obtain ⟨call, entry⟩ := x
      rw [execute_of_entered found, (entered?_eq_some_iff.mp found).1]
      cases (perform (entry.action call) (c.prepared line)).2.result call.name with
      | ok _ => exact iff_of_false nofun nofun
      | error i => exact iff_of_false (fun failed => before i (Except.error.inj failed).symm) nofun

end Execution

/-- How the log tells about the end of a line. -/
def endEntries : Except LineError Unit → List LogEntry
  | .ok () => []
  | .error e => [⟨.error, e.message⟩]

theorem run_of_blank {c : Console} {line : String} (blank : (trimLine line).isEmpty = true) :
    c.run line = c := by
  rw [run, if_pos blank]

theorem run_of_not_blank {c : Console} {line : String}
    (present : ¬ (trimLine line).isEmpty = true) :
    c.run line =
      let ended := (c.echo (trimLine line)).execute (trimLine line)
      ended.1.withTrace ended.1.history (ended.1.log.entries ++ endEntries ended.2) := by
  rw [run, if_neg present]
  rcases (c.echo (trimLine line)).execute (trimLine line) with ⟨after, _ | _⟩
  · rfl
  · simp [endEntries]

end Console

end CommandConsole
