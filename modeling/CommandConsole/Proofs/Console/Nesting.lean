import CommandConsole.Proofs.Console.Activity
import CommandConsole.Proofs.Line.Composition

/-!
# No handler within a handler

A handler may run any lines from inside, and as many as it likes, but while it
is running no other handler is entered, nor itself again. A line from inside
that fails before a handler would be entered is reported, and the handler goes
on. A line that gets that far ends the handler with a crash, which becomes the
error of the outer line. Either way the line from inside has changed no variable
and no command, and the handler goes back into the table.
-/

namespace CommandConsole

namespace Activity

open Console

/-- The error of a line whose handler crashes because it calls another one. -/
def nestedCallError (call : Call) : LineError :=
  .invocation (.handlerFault call.name
    ("Command '" ++ call.name ++ "' panicked: " ++ tableInUse) none)

/-- What becomes of a text that is executed from inside by the handler of a line. When it is
executed the console is `d`, and after an error the activity is as `failed` says. -/
structure EndsInside (c : Console) (line : String) (call : Call) (entry : HandlerEntry)
    (m : Activity) (d : Console) (text : String) (failed : LineError → Activity) : Prop where
  vars : (d.prepared text).vars = m.console.vars
  overloads : ∀ name,
    (d.prepared text).registry.overloads name = m.console.registry.overloads name
  /-- The table is out of the console, and the end of the handler is waited for. -/
  out : m.table = none ∧ m.frames = [.handler call entry c.handlers]
  unchanged : ∀ e, (failed e).table = m.table ∧ (failed e).frames = m.frames
  crashes : ∀ inner, d.callOf text = .ok inner →
    c.execute line =
      ((d.prepared text).withTable (c.handlers.insert call.id entry.called),
        .error (nestedCallError call))
  goesOn : ∀ e, d.callOf text = .error e → Reaches m (failed e)

section

variable {c d : Console} {line text : String} {call : Call} {entry : HandlerEntry}
  {m : Activity} {a : Action} {told : Bool} {later : Except LineError Unit → Action}

theorem endsInside_of_turn (entered : c.entered? line = some (call, entry))
    (reached : Reaches (start c line) m) (acting : m.control = .act a)
    (turn : a.turn m.console = .line text d told later) (vars : d.vars = m.console.vars)
    (registry : d.registry = m.console.registry) :
    EndsInside c line call entry m d text fun e =>
      ⟨(d.prepared text).behind told (.error e), none, .act (later (.error e)), m.frames⟩ := by
  have empty : d.handlers = ∅ :=
    (handlers_of_changes (admits_changes.of_turn_line turn)).trans (handlers_of_reaches reached)
  obtain ⟨b, table, control, frames⟩ := m
  subst acting
  obtain ⟨call', entry', entered', rfl, rfl⟩ := (stage_of_reaches reached).of_act
  obtain ⟨rfl, rfl⟩ := Prod.mk.inj (Option.some.inj (entered.symm.trans entered'))
  refine ⟨vars, ?_, ⟨rfl, rfl⟩, fun _ => ⟨rfl, rfl⟩, ?_, ?_⟩
  · intro name
    change d.registry.freeze.overloads name = _
    rw [registry, Registry.overloads_freeze]
  · intro inner computed
    have crashed := (reached.tail (.line turn)).trans (reaches_of_called computed)
    apply execute_eq_of_reaches
    -- The crash has passed the line from inside and meets the handler of the outer one.
    rw [finished, ← empty]
    exact crashed.tail .leave
  · intro e computed
    exact .head (.line turn) (reaches_of_refused computed)

/-- While the handler of a line is running, no handler is entered, whatever it does. When it has
ended it is in the table again, with one more call. Of the lines that it runs from inside, those
that come to an error are told to the log by `run` and to the handler by `execute`, and the
handler goes on; the first one from which a call comes ends the handler, and so the outer line.
None of them changes a variable or a command. -/
theorem execute_not_reentrant (entered : c.entered? line = some (call, entry)) :
    Reaches (start c line) (finished (c.execute line)) ∧
    (c.execute line).1.handlers = c.handlers.insert call.id entry.called ∧
    ∀ m, Reaches (start c line) m →
      (m.running = [] ∨ m.running = [call]) ∧
      (m.table = none ↔ m.running = [call]) ∧
      (∀ text next, m.control = .act (.run text next) → ¬ (trimLine text).isEmpty = true →
        EndsInside c line call entry m (m.console.echo (trimLine text)) (trimLine text) fun e =>
          ⟨((m.console.echo (trimLine text)).prepared (trimLine text)).say .error e.message,
            none, .act next, m.frames⟩) ∧
      ∀ text next, m.control = .act (.execute text next) →
        EndsInside c line call entry m m.console text fun e =>
          ⟨m.console.prepared text, none, .act (next (.error e)), m.frames⟩ := by
  refine ⟨reaches_finished c line, ?_, ?_⟩
  · have kept := handlers_perform (entry.action call) (c.prepared line)
    rw [execute_of_entered entered]
    simp only [withHandler, kept]
    rfl
  · intro m reached
    refine ⟨?_, ?_, ?_, ?_⟩
    · rcases (stage_of_reaches reached).running with ⟨_, _, idle⟩ | ⟨_, _, entered', _, busy⟩
      · exact .inl idle
      · obtain ⟨rfl, rfl⟩ := Prod.mk.inj (Option.some.inj (entered.symm.trans entered'))
        exact .inr busy
    · rcases (stage_of_reaches reached).running with ⟨_, here, idle⟩ | ⟨_, _, entered', out, busy⟩
      · simp [here, idle]
      · obtain ⟨rfl, rfl⟩ := Prod.mk.inj (Option.some.inj (entered.symm.trans entered'))
        simp [out, busy]
    · intro text next acting present
      have turn : (Action.run text next).turn m.console =
          .line (trimLine text) (m.console.echo (trimLine text)) true fun _ => next := by
        rw [Action.turn, if_neg present]
      exact endsInside_of_turn entered reached acting turn rfl rfl
    · intro text next acting
      exact endsInside_of_turn entered reached acting rfl rfl rfl

/-- A handler goes on after a command that does not exist, and ends when it calls itself. -/
theorem execute_not_reentrant_self :
    let h : Handler := fun _ _ => .execute "nope" fun _ => .run "self" .succeed
    let c := (({} : Console).declare ⟨"self", none, "", []⟩ h).1
    let call : Call := ⟨"self", "self", 0, []⟩
    let before := (c.withTable ∅).prepared "self"
    c.entered? "self" = some (call, ⟨h, 0⟩) ∧
      Reaches (start c "self") ⟨before.prepared "nope", none, .act (.run "self" .succeed),
        [.handler call ⟨h, 0⟩ c.handlers]⟩ ∧
      (c.execute "self").2 = .error (nestedCallError call) ∧
      (c.execute "self").1.handlers = c.handlers.insert 0 ⟨h, 1⟩ := by
  intro h c call before
  have computed : c.callOf "self" = .ok call := by
    have known : c.registry.contains (commandOf "self") = true := by decide
    have text : (splitLine "self".toList).2 = [] := by decide
    have read : c.parametersOf "self" = .ok ⟨[], []⟩ := by
      rw [parametersOf, text]
      exact parseParameters_of_blank (List.forall_mem_nil _)
    rw [callOf, if_pos known, read]
    rfl
  have present : c.handlers[call.id]? = some ⟨h, 0⟩ := rfl
  have entered := entered?_eq_some_iff.mpr ⟨computed, present⟩
  obtain ⟨-, back, inside⟩ := execute_not_reentrant entered
  have acting : Reaches (start c "self") ⟨before, none, .act (h 1 ⟨"self", []⟩),
      [.handler call ⟨h, 0⟩ c.handlers]⟩ :=
    .head (.prepare computed) (.single (.enter present))
  have unknown : before.callOf "nope" = .error (.unknownCommand "nope") := by
    have absent : before.registry.contains (commandOf "nope") = false := by decide
    rw [callOf, absent]
    rfl
  have next := acting.trans (((inside _ acting).2.2.2 _ _ rfl).goesOn _ unknown)
  have again := ((inside _ next).2.2.1 _ _ rfl (by decide)).crashes call computed
  exact ⟨entered, next, congrArg Prod.snd again, back⟩

end

end Activity

end CommandConsole
