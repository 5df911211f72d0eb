import CommandConsole.Handler.Scripted
import CommandConsole.Proofs.Console.Frame
import CommandConsole.Proofs.Line.Misses

/-!
# A failing line is contained

A line that is run is shown in the log, followed by the warnings of its
parameters, by what its handler logs if one is entered, and by its error if it
has one. If no handler is entered, nothing else happens, and no later line can
tell that the line was ever run.

The warnings are those that come with the parameters. Where the parameters
cannot be read to their end there are none of these, although warnings may have
been raised before the place where reading stopped. Exactly then warnings are
missing in the log.
-/

namespace CommandConsole

namespace Handler

/-- Whatever the handler is called with, it does nothing but add to the log, and neither what it
adds nor how it ends depends on what the history and the log hold. -/
def OnlyLogs (h : Handler) : Prop :=
  ∀ (calls : Nat) (args : Arguments) (c : Console), ∃ (said : List LogEntry) (outcome : Outcome),
    ∀ history entries, Console.perform (h calls args) (c.withTrace history entries) =
      (c.withTrace history (entries ++ said), outcome)

theorem OnlyLogs.blind {h : Handler} (quiet : h.OnlyLogs) : h.Blind := by
  intro calls args c
  obtain ⟨said, outcome, goes⟩ := quiet calls args c
  have here : Console.perform (h calls args) c =
      (c.withTrace c.history (c.log.entries ++ said), outcome) := goes c.history c.log.entries
  refine ⟨{ said }, ?_⟩
  intro history entries
  rw [goes, here]
  rfl

theorem OnlyLogs.adds {h : Handler} (quiet : h.OnlyLogs) : h.Adds := by
  intro calls args c
  obtain ⟨said, outcome, goes⟩ := quiet calls args c
  have here : Console.perform (h calls args) c =
      (c.withTrace c.history (c.log.entries ++ said), outcome) := goes c.history c.log.entries
  rw [here]
  exact List.prefix_append _ _

end Handler

theorem Script.onlyLogs_count : Script.count.handler.OnlyLogs :=
  fun calls _ _ => ⟨[⟨.info, "call " ++ toString calls⟩], .succeeded, fun _ _ => rfl⟩

namespace Console

/-- All handlers do nothing but add to the log. -/
def Quiet (c : Console) : Prop := c.EveryHandler Handler.OnlyLogs

/-- The warnings that are raised while the parameters of a line are read, whether
or not they can be read to their end. -/
def raisedWarningsOf (c : Console) (line : String) : List Warning :=
  if c.registry.contains (commandOf line) then
    raisedWarnings c.objects.find? c.literals (splitLine line.toList).2
  else []

/-- A warning was raised before the place at which the parameters of a line
cannot be read on. -/
def LosesWarnings (c : Console) (line : String) : Prop :=
  (∃ e, c.parametersOf line = .error e) ∧ c.raisedWarningsOf line ≠ []

/-- The console in which the handler of a line is entered while the line is run. -/
def entering (c : Console) (line : String) : Console := (c.echo line).prepared line

/-- A line that is not blank was run and left the given warnings in the log. -/
structure Contained (c after : Console) (line : String) (warnings : List Warning) : Prop where
  recorded : after.history = c.history.record line
  /-- What is said behind the warnings comes from the handler that is entered. -/
  logged : ∃ said : List LogEntry,
    after.log.entries =
      c.log.entries ++ c.echoEntry line :: warnings.map Warning.entry ++ said ++
        endEntries (c.execute line).2 ∧
    (c.entered? line = none → said = []) ∧
    ∀ call entry, c.entered? line = some (call, entry) →
      (perform (entry.action call) (c.entering line)).1.log.entries =
        (c.entering line).log.entries ++ said
  /-- Without a handler only the history, the log and the freezing are left of it. -/
  unchanged : c.entered? line = none →
    after = c.freeze.withTrace after.history after.log.entries
  /-- Without a handler no later line can tell that it was run. -/
  forgotten : c.entered? line = none → ∀ (between : List String) (later : String),
    GoesAlike later (c.runAll between) (after.runAll between)

section Warnings

variable {c : Console} {line : String}

theorem warningsOf_eq_raisedWarningsOf (kept : ¬ c.LosesWarnings line) :
    c.warningsOf line = c.raisedWarningsOf line := by
  cases read : c.parametersOf line with
  | error e =>
      have none_raised : c.raisedWarningsOf line = [] :=
        Classical.byContradiction fun raised => kept ⟨⟨e, read⟩, raised⟩
      simp [none_raised, warningsOf, read]
  | ok p => simp only [warningsOf, raisedWarningsOf, read, raisedWarnings_of_ok read]

theorem LosesWarnings.warningsOf (loses : c.LosesWarnings line) : c.warningsOf line = [] := by
  obtain ⟨⟨e, unread⟩, -⟩ := loses
  simp [Console.warningsOf, unread]

theorem LosesWarnings.not_entered (loses : c.LosesWarnings line) : c.entered? line = none := by
  obtain ⟨⟨e, unread⟩, -⟩ := loses
  rw [entered?, callOf, unread]
  cases c.registry.contains (commandOf line) <;> rfl

end Warnings

section Run

variable {c after : Console} {line : String} {warnings : List Warning}

theorem entries_entering (c : Console) (line : String) :
    (c.entering line).log.entries =
      c.log.entries ++ c.echoEntry line :: (c.warningsOf line).map Warning.entry := by
  rw [List.append_cons]
  rfl

/-- Echoing a line does not change why it enters no handler. -/
theorem execute_echo_of_not_entered (out : c.entered? line = none) (shown : String) :
    (c.echo shown).execute line = ((c.echo shown).prepared line, (c.execute line).2) := by
  have out' : (c.echo shown).entered? line = none := out
  rw [execute_of_not_entered out, execute_of_not_entered out']
  rfl

/-- What is left of a line that enters no handler. -/
theorem run_of_not_entered (present : ¬ (trimLine line).isEmpty = true)
    (out : c.entered? (trimLine line) = none) :
    c.run line =
      c.freeze.withTrace (c.history.record (trimLine line))
        (c.log.entries ++ c.echoEntry (trimLine line) ::
          (c.warningsOf (trimLine line)).map Warning.entry ++
          endEntries (c.execute (trimLine line)).2) := by
  rw [run_of_not_blank present, execute_echo_of_not_entered out, ← entries_entering]
  rfl

/-- What a line leaves in the log if the handler that it enters only logs. -/
theorem run_of_entered (present : ¬ (trimLine line).isEmpty = true) {call : Call}
    {entry : HandlerEntry} (found : c.entered? (trimLine line) = some (call, entry))
    (quiet : entry.handler.OnlyLogs) :
    (c.run line).history = c.history.record (trimLine line) ∧ ∃ said : List LogEntry,
      (c.run line).log.entries =
        c.log.entries ++ c.echoEntry (trimLine line) ::
          (c.warningsOf (trimLine line)).map Warning.entry ++ said ++
          endEntries (c.execute (trimLine line)).2 ∧
      (perform (entry.action call) (c.entering (trimLine line))).1.log.entries =
        (c.entering (trimLine line)).log.entries ++ said := by
  have found' : (c.echo (trimLine line)).entered? (trimLine line) = some (call, entry) := found
  -- The line may be echoed or not, and the log may hold anything: the handler does the same.
  obtain ⟨said, outcome, goes⟩ :=
    quiet (entry.calls + 1) ⟨call.line, call.values⟩ c.freeze
  have plain : perform (entry.action call) (c.prepared (trimLine line)) = _ := goes _ _
  have echoed : perform (entry.action call) ((c.echo (trimLine line)).prepared (trimLine line)) =
    _ := goes _ _
  have ended : (c.execute (trimLine line)).2 =
      (outcome.result call.name).mapError LineError.invocation := by
    rw [execute_of_entered found, plain]
  rw [entering, run_of_not_blank present, execute_of_entered found', echoed, ended]
  refine ⟨rfl, said, ?_, rfl⟩
  rw [← entries_entering]
  rfl

theorem goesAlike_of_unchanged (quiet : c.Quiet)
    (unchanged : after = c.freeze.withTrace after.history after.log.entries)
    (between : List String) (later : String) :
    GoesAlike later (c.runAll between) (after.runAll between) := by
  have blind : c.EveryHandler Handler.Blind := quiet.imp fun _ => Handler.OnlyLogs.blind
  have adds : c.EveryHandler Handler.Adds := quiet.imp fun _ => Handler.OnlyLogs.adds
  have steps := steps_runAll c between
  apply goesAlike_of_standing_eq (blind.of_steps steps) (adds.of_steps steps)
  apply standing_runAll_congr blind adds
  rw [unchanged]
  rfl

/-- Every line that is not blank is contained with the warnings it left. -/
theorem contained_run (quiet : c.Quiet) (present : ¬ (trimLine line).isEmpty = true) :
    Contained c (c.run line) (trimLine line) (c.warningsOf (trimLine line)) := by
  cases found : c.entered? (trimLine line) with
  | none =>
      have ran := run_of_not_entered present found
      have unchanged : c.run line =
          c.freeze.withTrace (c.run line).history (c.run line).log.entries := by
        rw [ran]
        rfl
      refine ⟨?_, ⟨[], ?_, fun _ => rfl, ?_⟩, fun _ => unchanged, fun _ => ?_⟩
      · rw [ran]
        rfl
      · rw [ran, List.append_nil]
        rfl
      · intro call entry entered
        rw [found] at entered
        cases entered
      · exact goesAlike_of_unchanged quiet unchanged
  | some x =>
      obtain ⟨call, entry⟩ := x
      obtain ⟨recorded, said, logged, adds⟩ :=
        run_of_entered present found (quiet call.id entry (entered?_eq_some_iff.mp found).2)
      refine ⟨recorded, ⟨said, logged, ?_, ?_⟩, ?_, ?_⟩
      · simp [found]
      · intro call' entry' entered
        obtain ⟨rfl, rfl⟩ := Prod.mk.inj (Option.some.inj (found.symm.trans entered))
        exact adds
      · simp [found]
      · simp [found]

/-- Without a handler the log tells which warnings a line left. -/
theorem Contained.warnings_length (contained : Contained c after line warnings)
    {others : List Warning} (contained' : Contained c after line others)
    (out : c.entered? line = none) : warnings.length = others.length := by
  obtain ⟨said, logged, nothing, -⟩ := contained.logged
  obtain ⟨said', logged', nothing', -⟩ := contained'.logged
  have same := congrArg List.length (logged.symm.trans logged')
  rw [nothing out, nothing' out] at same
  simpa using same

/-- Warnings that were lost are not in the log. -/
theorem not_contained_of_losesWarnings (loses : c.LosesWarnings line)
    (contained : Contained c after line (c.warningsOf line)) :
    ¬ Contained c after line (c.raisedWarningsOf line) := by
  intro all
  have same := contained.warnings_length all loses.not_entered
  rw [loses.warningsOf] at same
  exact loses.2 (List.eq_nil_of_length_eq_zero same.symm)

end Run

/-- A blank line does nothing, and any other line is contained with the warnings
that come with its parameters. These are the warnings that were raised, except
for a line that raised a warning before the place at which its parameters cannot
be read on. -/
theorem run_contained {c : Console} (quiet : c.Quiet) (line : String) :
    ((trimLine line).isEmpty = true → c.run line = c) ∧
    (¬ (trimLine line).isEmpty = true →
      Contained c (c.run line) (trimLine line) (c.warningsOf (trimLine line)) ∧
      (Contained c (c.run line) (trimLine line) (c.raisedWarningsOf (trimLine line)) ↔
        ¬ c.LosesWarnings (trimLine line))) := by
  refine ⟨run_of_blank, ?_⟩
  intro present
  have contained := contained_run quiet present
  refine ⟨contained, ?_, ?_⟩
  · intro all loses
    exact not_contained_of_losesWarnings loses contained all
  · intro kept
    rw [← warningsOf_eq_raisedWarningsOf kept]
    exact contained

/-- An object that is not found is told of before the handler logs. -/
theorem run_contained_missing_object :
    let c := (({} : Console).declare ⟨"look", none, "", [⟨"target", .object⟩]⟩
      Script.count.handler).1
    c.Quiet ∧ Contained c (c.run " look {Ghost} ") "look {Ghost}" [.unknownObject "Ghost"] := by
  intro c
  have quiet : c.Quiet :=
    (everyHandler_of_handlers_eq_empty rfl).declare _ Script.onlyLogs_count
  have trimmed : trimLine " look {Ghost} " = "look {Ghost}" := by decide
  have known : c.registry.contains (commandOf "look {Ghost}") = true := by decide
  have text : (splitLine "look {Ghost}".toList).2 =
      [' ', '{', 'G', 'h', 'o', 's', 't', '}'] := by decide
  have read : c.parametersOf "look {Ghost}" = .ok ⟨[.null], [.unknownObject "Ghost"]⟩ := by
    rw [parametersOf, text, parseParameters_eq,
      readAll_of_token (l := .object) (t := ['{', 'G', 'h', 'o', 's', 't', '}']) (r := []) rfl
        (by decide),
      readAll_of_blank rfl]
    rfl
  have kept : ¬ c.LosesWarnings "look {Ghost}" := by
    rintro ⟨⟨e, unread⟩, -⟩
    cases unread.symm.trans read
  have raised : c.raisedWarningsOf "look {Ghost}" = [.unknownObject "Ghost"] := by
    rw [← warningsOf_eq_raisedWarningsOf kept, warningsOf, if_pos known, read]
  have law := ((run_contained quiet " look {Ghost} ").2 (by decide)).2
  rw [trimmed, raised] at law
  exact ⟨quiet, law.mpr kept⟩

/-- With a text behind the object that cannot be read, nothing is told of it. -/
theorem not_contained_unread_text :
    let c := (({} : Console).declare ⟨"look", none, "", [⟨"target", .object⟩]⟩
      Script.count.handler).1
    let line := "look {Ghost} 3x"
    c.raisedWarningsOf line = [.unknownObject "Ghost"] ∧
      (c.run line).log.entries =
        [⟨.command, "> look {Ghost} 3x"⟩,
          ⟨.error, (LineError.parse (.unrecognized "3x")).message⟩] ∧
      ¬ Contained c (c.run line) line (c.raisedWarningsOf line) := by
  intro c line
  have trimmed : trimLine line = line := by decide
  have known : c.registry.contains (commandOf line) = true := by decide
  have text : (splitLine line.toList).2 =
      [' ', '{', 'G', 'h', 'o', 's', 't', '}', ' ', '3', 'x'] := by decide
  have first : firstToken c.literals ['{', 'G', 'h', 'o', 's', 't', '}', ' ', '3', 'x'] =
      some (.object, ['{', 'G', 'h', 'o', 's', 't', '}'], [' ', '3', 'x']) := by decide
  have second : firstToken c.literals ['3', 'x'] = none := by decide
  have unread : c.parametersOf line = .error (.unrecognized "3x") := by
    rw [parametersOf, text, parseParameters_eq, readAll_of_token rfl first,
      readAll_of_unrecognized rfl second]
    rfl
  have raised : c.raisedWarningsOf line = [.unknownObject "Ghost"] := by
    rw [raisedWarningsOf, if_pos known, text, raisedWarnings, parseParametersM,
      readAllM_of_token rfl first, readAllM_of_unrecognized rfl second]
    rfl
  have out : c.entered? line = none := by rw [entered?, callOf, if_pos known, unread]
  have failed : (c.execute line).2 = .error (.parse (.unrecognized "3x")) := by
    rw [execute_of_not_entered out, errorOf, callOf, if_pos known, unread]
  have logged : (c.run line).log.entries =
      [⟨.command, "> look {Ghost} 3x"⟩,
        ⟨.error, (LineError.parse (.unrecognized "3x")).message⟩] := by
    rw [run_of_not_entered (by decide) (trimmed.symm ▸ out), trimmed, failed, warningsOf,
      if_pos known, unread]
    rfl
  refine ⟨raised, logged, ?_⟩
  -- Without a handler nothing else can be said, so two entries would have to be three.
  intro all
  obtain ⟨said, shown, nothing, -⟩ := all.logged
  have lengths := congrArg List.length (logged.symm.trans shown)
  rw [nothing out, raised, failed] at lengths
  cases lengths

end Console

end CommandConsole
