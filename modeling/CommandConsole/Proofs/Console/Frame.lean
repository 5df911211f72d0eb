import CommandConsole.Proofs.Console.Steps

/-!
# What the history and the log do not change

The history and the log are written while lines are run, but nothing that runs
reads them, unless a handler asks for what is in the log. Where no handler does,
a line goes the same way whatever they hold, and leaves a trace in them that does
not depend on what they hold. Nor does it matter whether the registry was frozen
before, because the line freezes it first.

A trace begins with an empty log if a handler has emptied it, and else with what
is there. Where no handler empties the log, every line only adds to it.

Consoles that differ in nothing else stay alike over any number of lines.
-/

namespace CommandConsole

/-- What is left in a history and in a log: lines are recorded, and entries are added, before
which the log may have been emptied. -/
structure Trace where
  recorded : List String := []
  emptied : Bool := false
  said : List LogEntry := []

namespace Trace

/-- The console with the trace left in a history and in some entries. -/
def on (t : Trace) (history : History) (entries : List LogEntry) (c : Console) : Console :=
  c.withTrace (t.recorded.foldl History.record history)
    ((if t.emptied then [] else entries) ++ t.said)

/-- One trace behind another one. -/
def append (t u : Trace) : Trace where
  recorded := t.recorded ++ u.recorded
  emptied := t.emptied || u.emptied
  said := (if u.emptied then [] else t.said) ++ u.said

variable {t u : Trace} {history : History} {entries : List LogEntry}

@[simp] theorem history_on (c : Console) :
    (t.on history entries c).history = t.recorded.foldl History.record history := rfl

@[simp] theorem entries_on (c : Console) :
    (t.on history entries c).log.entries = (if t.emptied then [] else entries) ++ t.said := rfl

@[simp] theorem on_empty (c : Console) :
    ({} : Trace).on history entries c = c.withTrace history entries := by
  simp [on]

theorem on_append (c : Console) :
    (t.append u).on history entries c =
      u.on (t.recorded.foldl History.record history)
        ((if t.emptied then [] else entries) ++ t.said) c := by
  cases emptied : u.emptied <;> simp [on, append, emptied]

/-- A trace that keeps all entries, however many there are, does not empty the log. -/
theorem emptied_eq_false
    (keeps : ∀ entries, entries <+: (if t.emptied then [] else entries) ++ t.said) :
    t.emptied = false := by
  rw [Bool.eq_false_iff]
  intro emptied
  have short := (keeps (List.replicate (t.said.length + 1) ⟨.info, ""⟩)).length_le
  simp only [emptied, ↓reduceIte, List.nil_append, List.length_replicate] at short
  exact Nat.not_succ_le_self _ short

end Trace

namespace Console

/-- A computation goes the same way for every history and log, and leaves the same trace. -/
def Traced {α : Type} (f : Console → Console × α) (c : Console) : Prop :=
  ∃ t : Trace, ∀ history entries,
    f (c.withTrace history entries) = (t.on history entries (f c).1, (f c).2)

namespace Traced

variable {α β : Type} {c d : Console} {f : Console → Console × α} {g : Console → Console × β}

theorem done (result : α) : Traced (fun c => (c, result)) c :=
  ⟨{}, fun _ _ => by simp⟩

/-- A computation is traced if what is left of it is, after it has left a trace. -/
theorem step {f g : Console → Console × α} (t : Trace) (later : Traced g d)
    (first : ∀ history entries, f (c.withTrace history entries) = g (t.on history entries d)) :
    Traced f c := by
  obtain ⟨u, goes⟩ := later
  have whole (history : History) (entries : List LogEntry) :
      f (c.withTrace history entries) = ((t.append u).on history entries (g d).1, (g d).2) := by
    rw [first, Trace.on_append]
    exact goes _ _
  refine ⟨t.append u, ?_⟩
  intro history entries
  rw [whole, ← withTrace_self c, whole]
  rfl

/-- Nothing is left behind by changing something else. -/
theorem map (traced : Traced f c) (change : Console → Console) (report : α → β)
    (apart : ∀ after history entries,
      change (after.withTrace history entries) = (change after).withTrace history entries) :
    Traced (fun c => (change (f c).1, report (f c).2)) c := by
  obtain ⟨t, goes⟩ := traced
  refine ⟨t, ?_⟩
  intro history entries
  simp only [goes, Trace.on, apart]

end Traced

/-- The trace of the warnings of a line. -/
def warningTrace (c : Console) (line : String) : Trace where
  said := (c.warningsOf line).map Warning.entry

/-- The trace of the end of a line, if the log is told of it. -/
def endTrace (told : Bool) (result : Except LineError Unit) : Trace where
  said := if told then endEntries result else []

section Preparation

variable {c : Console} {history : History} {entries : List LogEntry} {line : String}

theorem prepared_withTrace :
    (c.withTrace history entries).prepared line =
      (c.warningTrace line).on history entries c.freeze := rfl

theorem behind_withTrace {told : Bool} {result : Except LineError Unit} :
    (c.withTrace history entries).behind told result =
      (endTrace told result).on history entries c := by
  cases told with
  | true => rfl
  | false =>
      simp only [Trace.on, endTrace, Bool.false_eq_true, ↓reduceIte, List.append_nil]
      rfl

theorem entered?_withTrace : (c.withTrace history entries).entered? line = c.entered? line := rfl

end Preparation

section Handlers

variable {a : Action} {c d : Console}

/-- A request that does not ask for the log is met in the same way for every history and log. -/
theorem turn_withTrace (blind : ¬ a.ReadsLog) (c : Console) :
    ∃ t : Trace, ∀ history entries,
      a.turn (c.withTrace history entries) = (a.turn c).map (t.on history entries) := by
  cases a with
  | log level message => exact ⟨{ said := [⟨level, message⟩] }, fun _ _ => rfl⟩
  | clearLog => exact ⟨{ emptied := true }, fun _ _ => rfl⟩
  | readLog | drainLog => exact absurd trivial blind
  | setVariable name value =>
      refine ⟨{}, fun _ _ => ?_⟩
      simp only [Action.turn, withTrace]
      cases c.vars.set name value <;> simp [Turn.map, withTrace]
  | unsetVariable name =>
      refine ⟨{}, fun _ _ => ?_⟩
      simp only [Action.turn, withTrace]
      cases c.vars.unset name <;> simp [Turn.map, withTrace]
  | register declaration =>
      refine ⟨{}, fun _ _ => ?_⟩
      simp only [Action.turn, withTrace]
      cases c.registry.register declaration <;> simp [Turn.map, withTrace]
  | saveSettings =>
      refine ⟨{}, fun _ _ => ?_⟩
      simp only [Action.turn, withTrace]
      cases c.settings <;> simp [Turn.map, withTrace]
  | run text =>
      by_cases blank : (trimLine text).isEmpty = true
      · exact ⟨{}, fun _ _ => by simp [Action.turn, blank, Turn.map]⟩
      · refine ⟨{ recorded := [trimLine text], said := [c.echoEntry (trimLine text)] }, ?_⟩
        intro history entries
        rw [Action.turn, Action.turn, if_neg blank, if_neg blank]
        rfl
  | succeed | fail | crash | listCommands | getVariable | spawn | despawn | execute =>
      exact ⟨{}, fun _ _ => by simp [Action.turn, Turn.map, withTrace]⟩

/-- A handler that never asks for the log goes the same way for every history and log. -/
theorem perform_traced (blind : a.Never Action.ReadsLog) (c : Console) :
    Traced (perform a) c := by
  induction a using Action.induction_leaves generalizing c with
  | step a ih =>
    obtain ⟨t, same⟩ := turn_withTrace blind.not c
    cases turn : a.turn c with
    | halted outcome =>
        refine (Traced.done (c := c) outcome).step {} fun history entries => ?_
        rw [perform_eq, same, turn, Trace.on_empty]
        rfl
    | next b d =>
        have left := Action.leaves_of_turn_next turn
        refine (ih b left (blind.of_leaves left) d).step t fun history entries => ?_
        rw [perform_eq, same, turn]
        rfl
    | line text d told later =>
        -- The line is prepared like any other; with a call it ends the handler.
        have computed (history : History) (entries : List LogEntry) :
            (t.on history entries d).callOf text = d.callOf text := rfl
        cases out : d.callOf text with
        | error e =>
            have left := Action.leaves_of_turn_line turn (.error e)
            have told' : Traced (fun c => perform (later (.error e)) (c.behind told (.error e)))
                d.freeze :=
              (ih _ left (blind.of_leaves left) d.freeze).step (endTrace told (.error e))
                fun history entries => by rw [behind_withTrace]
            have goesOn : Traced (fun c => perform (later (.error e))
                ((c.prepared text).behind told (.error e))) d :=
              told'.step (d.warningTrace text) fun _ _ => rfl
            refine goesOn.step t fun history entries => ?_
            rw [perform_eq, same, turn]
            simp only [Turn.map, computed, out]
        | ok call =>
            have ends : Traced (fun c => (c.prepared text, Outcome.crashed (some tableInUse))) d :=
              (Traced.done (c := d.freeze) _).step (d.warningTrace text) fun _ _ => rfl
            refine ends.step t fun history entries => ?_
            rw [perform_eq, same, turn]
            simp only [Turn.map, computed, out]

/-- A request that does not empty the log at most adds to it. -/
theorem entries_prefix_of_turn_next (keeps : ¬ a.EmptiesLog) {b : Action}
    (turn : a.turn c = .next b d) : c.log.entries <+: d.log.entries := by
  cases a with
  | log level message =>
      cases turn
      exact List.prefix_append _ _
  | drainLog | clearLog => exact absurd trivial keeps
  | setVariable | unsetVariable | saveSettings | register | run =>
      simp only [Action.turn] at turn
      split at turn <;> cases turn
      all_goals exact List.prefix_rfl
  | readLog | listCommands | getVariable | spawn | despawn =>
      cases turn
      exact List.prefix_rfl
  | succeed | fail | crash | execute => cases turn

theorem admits_entries_prefix : Admits fun c d => c.log.entries <+: d.log.entries where
  refl _ := List.prefix_rfl
  trans := .trans
  echo _ _ := List.prefix_append _ _
  prepared _ _ := List.prefix_append _ _
  behind _ told _ := by
    cases told with
    | false => exact List.prefix_rfl
    | true => exact List.prefix_append _ _

/-- A handler that never empties the log only adds to it. -/
theorem entries_prefix_perform (keeps : a.Never Action.EmptiesLog) (c : Console) :
    c.log.entries <+: (perform a c).1.log.entries :=
  admits_entries_prefix.perform Action.Never.of_leaves
    (fun keeps => entries_prefix_of_turn_next keeps.not) keeps c

end Handlers

end Console

namespace Handler

/-- Whatever the handler is called with, it does not depend on the history and the log. -/
def Blind (h : Handler) : Prop :=
  ∀ calls args (c : Console), Console.Traced (Console.perform (h calls args)) c

/-- Whatever the handler is called with, what is in the log stays there. -/
def Adds (h : Handler) : Prop :=
  ∀ calls args (c : Console), c.log.entries <+: (Console.perform (h calls args) c).1.log.entries

theorem Never.blind {h : Handler} (never : h.Never Action.ReadsLog) : h.Blind :=
  fun calls args c => Console.perform_traced (never calls args) c

theorem Never.adds {h : Handler} (never : h.Never Action.EmptiesLog) : h.Adds :=
  fun calls args c => Console.entries_prefix_perform (never calls args) c

end Handler

namespace Console

section Lines

variable {c : Console}

/-- Handlers that do not depend on the history and the log are all that could make a line depend
on them. -/
theorem execute_traced (blind : c.EveryHandler Handler.Blind) (line : String) :
    Traced (fun c => c.execute line) c := by
  cases found : c.entered? line with
  | none =>
      refine (Traced.done (c := c.freeze) (Except.error (c.errorOf line))).step
        (c.warningTrace line) ?_
      intro history entries
      rw [execute_of_not_entered (entered?_withTrace.trans found), prepared_withTrace]
      rfl
  | some x =>
      obtain ⟨call, entry⟩ := x
      have traced := blind call.id entry (entered?_eq_some_iff.mp found).2 (entry.calls + 1)
        ⟨call.line, call.values⟩ c.freeze
      have entering := traced.map (fun after => after.withHandler call.id entry.called)
        (fun outcome => (outcome.result call.name).mapError LineError.invocation)
        (fun _ _ _ => rfl)
      refine entering.step (c.warningTrace line) ?_
      intro history entries
      rw [execute_of_entered (entered?_withTrace.trans found), prepared_withTrace]
      rfl

theorem run_traced (blind : c.EveryHandler Handler.Blind) (line : String) :
    Traced (fun c => (c.run line, ())) c := by
  by_cases blank : (trimLine line).isEmpty = true
  · refine (Traced.done (c := c) ()).step {} ?_
    simp [run_of_blank blank]
  · obtain ⟨t, goes⟩ := execute_traced blind (trimLine line)
    have ended : Traced (fun c => ((c.execute (trimLine line)).1.behind true
        (c.execute (trimLine line)).2, ())) c := by
      refine ⟨t.append (endTrace true (c.execute (trimLine line)).2), ?_⟩
      intro history entries
      simp only [goes, Trace.on_append]
      rfl
    refine ended.step
      { recorded := [trimLine line], said := [c.echoEntry (trimLine line)] } ?_
    intro history entries
    rw [run_of_not_blank blank]
    rfl

theorem runAll_traced (blind : c.EveryHandler Handler.Blind) (lines : List String) :
    Traced (fun c => (c.runAll lines, ())) c := by
  induction lines generalizing c with
  | nil => exact Traced.done ()
  | cons line lines ih =>
      obtain ⟨t, goes⟩ := run_traced blind line
      refine (ih (blind.of_steps (steps_run c line))).step t ?_
      intro history entries
      rw [runAll_cons, (Prod.mk.inj (goes history entries)).1]

theorem entries_prefix_run (adds : c.EveryHandler Handler.Adds) (line : String) :
    c.log.entries <+: (c.run line).log.entries :=
  admits_entries_prefix.run (fun _ => List.prefix_rfl) adds line

theorem entries_prefix_runAll (adds : c.EveryHandler Handler.Adds) (lines : List String) :
    c.log.entries <+: (c.runAll lines).log.entries := by
  induction lines generalizing c with
  | nil => exact List.prefix_rfl
  | cons line lines ih =>
      rw [runAll_cons]
      exact (entries_prefix_run adds line).trans (ih (adds.of_steps (steps_run c line)))

/-- If besides no handler takes entries away, lines only add to the log, and always the same. -/
theorem exists_keeping_trace (blind : c.EveryHandler Handler.Blind)
    (adds : c.EveryHandler Handler.Adds) (lines : List String) :
    ∃ t : Trace, t.emptied = false ∧ ∀ history entries,
      (c.withTrace history entries).runAll lines = t.on history entries (c.runAll lines) := by
  obtain ⟨t, goes⟩ := runAll_traced blind lines
  have ran (history : History) (entries : List LogEntry) :
      (c.withTrace history entries).runAll lines = t.on history entries (c.runAll lines) :=
    (Prod.mk.inj (goes history entries)).1
  refine ⟨t, Trace.emptied_eq_false fun entries => ?_, ran⟩
  have adds' : (c.withTrace default entries).EveryHandler Handler.Adds := adds
  have kept := entries_prefix_runAll adds' lines
  rw [ran, Trace.entries_on] at kept
  exact kept

/-- Lines freeze the registry themselves. -/
theorem execute_freeze (c : Console) (line : String) : c.freeze.execute line = c.execute line :=
  rfl

theorem run_freeze {line : String} (present : ¬ (trimLine line).isEmpty = true) :
    c.freeze.run line = c.run line := by
  rw [run_of_not_blank present, run_of_not_blank present]
  rfl

end Lines

/-- What a console is apart from its history, its log, and whether its registry
is frozen. -/
def standing (c : Console) : Console := c.freeze.withTrace default []

@[simp] theorem standing_on (c : Console) (t : Trace) (history : History)
    (entries : List LogEntry) : (t.on history entries c).standing = c.standing := rfl

section Alike

variable {a b : Console}

theorem freeze_withTrace (c : Console) :
    c.freeze.withTrace c.history c.log.entries = c.freeze := rfl

theorem freeze_eq_of_standing_eq (same : a.standing = b.standing) :
    b.freeze = a.freeze.withTrace b.history b.log.entries := by
  have known : b.freeze = b.standing.withTrace b.history b.log.entries := rfl
  rw [known, ← same]
  rfl

/-- A line goes the same way in two consoles. What it records and logs is added
to what the histories and logs hold already. -/
structure GoesAlike (line : String) (a b : Console) : Prop where
  result : (a.execute line).2 = (b.execute line).2
  standing_execute : (a.execute line).1.standing = (b.execute line).1.standing
  standing_run : (a.run line).standing = (b.run line).standing
  trace : ∃ (lines : List String) (said : List LogEntry),
    (a.run line).history = lines.foldl History.record a.history ∧
    (b.run line).history = lines.foldl History.record b.history ∧
    (a.run line).log.entries = a.log.entries ++ said ∧
    (b.run line).log.entries = b.log.entries ++ said

/-- Without a handler that depends on the history and the log, a line goes the same way in
consoles that stand alike. Without one that takes entries away, it only adds to both logs. -/
theorem goesAlike_of_standing_eq (blind : a.EveryHandler Handler.Blind)
    (adds : a.EveryHandler Handler.Adds) (same : a.standing = b.standing) (line : String) :
    GoesAlike line a b := by
  have blind' : a.freeze.EveryHandler Handler.Blind := blind
  obtain ⟨t, goes⟩ := execute_traced blind' line
  have alike : b.execute line =
      (t.on b.history b.log.entries (a.execute line).1, (a.execute line).2) := by
    have there := goes b.history b.log.entries
    simpa only [← freeze_eq_of_standing_eq same, execute_freeze] using there
  have results : (a.execute line).2 = (b.execute line).2 := by rw [alike]
  have executed : (a.execute line).1.standing = (b.execute line).1.standing := by
    rw [alike, standing_on]
  by_cases blank : (trimLine line).isEmpty = true
  · refine ⟨results, executed, ?_, [], [], ?_⟩
    · rw [run_of_blank blank, run_of_blank blank, same]
    · simp [run_of_blank blank]
  · have adds' : a.freeze.EveryHandler Handler.Adds := adds
    obtain ⟨t, keeps, goes⟩ := exists_keeping_trace blind' adds' [line]
    simp only [runAll_cons, runAll_nil] at goes
    have ran : a.run line = t.on a.history a.log.entries (a.run line) := by
      have here := goes a.history a.log.entries
      rwa [freeze_withTrace, run_freeze blank] at here
    have ran' : b.run line = t.on b.history b.log.entries (a.run line) := by
      have there := goes b.history b.log.entries
      rwa [← freeze_eq_of_standing_eq same, run_freeze blank, run_freeze blank] at there
    refine ⟨results, executed, ?_, t.recorded, t.said, ?_, ?_, ?_, ?_⟩
    · rw [ran', standing_on]
    · rw [ran, Trace.history_on]
    · rw [ran', Trace.history_on]
    · rw [ran, Trace.entries_on, if_neg (by simp [keeps])]
    · rw [ran', Trace.entries_on, if_neg (by simp [keeps])]

/-- Consoles that stand alike still do after any lines. -/
theorem standing_runAll_congr (blind : a.EveryHandler Handler.Blind)
    (adds : a.EveryHandler Handler.Adds) (same : a.standing = b.standing) (lines : List String) :
    (a.runAll lines).standing = (b.runAll lines).standing := by
  induction lines generalizing a b with
  | nil => exact same
  | cons line lines ih =>
      rw [runAll_cons, runAll_cons]
      have steps := steps_run a line
      exact ih (blind.of_steps steps) (adds.of_steps steps)
        (goesAlike_of_standing_eq blind adds same line).standing_run

end Alike

end Console

end CommandConsole
