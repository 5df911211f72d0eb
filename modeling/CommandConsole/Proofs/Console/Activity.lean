import Mathlib.Logic.Relation
import CommandConsole.Proofs.Console.Steps
import CommandConsole.Proofs.Resolution.Binding

/-!
# Lines within lines

A handler may run lines from inside. In `Console.perform` such a line ends
before a second handler is entered, and what would follow is cut short. Here
the same execution is taken apart into single steps in which all lines are
alike: the outer line and those from inside are prepared, call, and end by the
same rules, and nothing forbids the second handler but the table of handlers.
It is taken out of the console when a handler is entered, and put back when the
handler has ended. A call that does not find the table crashes, and the crash
passes all lines that are waited for until it meets a handler that was entered.

Every line ends in this way, and it ends in what `Console.execute` says.
-/

namespace CommandConsole

namespace Console

open Relation

theorem turn_withTable (a : Action) (c : Console) (table : HandlerTable) :
    a.turn (c.withTable table) = (a.turn c).map (·.withTable table) := by
  cases a with
  | setVariable name value =>
      simp only [Action.turn, withTable]
      cases c.vars.set name value <;> rfl
  | unsetVariable name =>
      simp only [Action.turn, withTable]
      cases c.vars.unset name <;> rfl
  | register d =>
      simp only [Action.turn, withTable]
      cases c.registry.register d <;> rfl
  | saveSettings =>
      simp only [Action.turn, withTable]
      cases c.settings <;> rfl
  | run text =>
      simp only [Action.turn]
      split <;> rfl
  | _ => rfl

/-- Nothing that a handler asks for depends on the table of handlers. -/
theorem perform_withTable (a : Action) (c : Console) (table : HandlerTable) :
    perform a (c.withTable table) = ((perform a c).1.withTable table, (perform a c).2) := by
  induction a using Action.induction_leaves generalizing c with
  | step a ih =>
    rw [perform_eq, perform_eq a c, turn_withTable]
    cases turn : a.turn c with
    | halted outcome => rfl
    | next b d => exact ih b (Action.leaves_of_turn_next turn) d
    | line text d told later =>
        have same : (d.withTable table).callOf text = d.callOf text := rfl
        simp only [Turn.map, same]
        cases d.callOf text with
        | ok call => rfl
        | error e =>
            simp only
            rw [← ih _ (Action.leaves_of_turn_line turn (.error e))]
            cases told <;> rfl

end Console

/-- What is being done. -/
inductive Control where
  /-- A line is to be prepared. -/
  | line (text : String)
  /-- A handler is to be entered. -/
  | call (call : Call)
  /-- A handler is at work, and this is what is left of it. -/
  | act (a : Action)
  /-- A handler has ended, or is ending by a crash. -/
  | halted (outcome : Outcome)
  /-- A line has ended. -/
  | ended (result : Except LineError Unit)

/-- What is waited for. -/
inductive Frame where
  /-- The end of a handler. It goes back into this table, and the table into the console. -/
  | handler (call : Call) (entry : HandlerEntry) (table : HandlerTable)
  /-- The end of a line that a handler runs from inside. -/
  | line (told : Bool) (next : Except LineError Unit → Action)

/-- How far the execution of a line has come. -/
structure Activity where
  console : Console
  /-- The table of handlers, unless it is out of the console. -/
  table : Option HandlerTable
  control : Control
  /-- What is waited for, the innermost first. -/
  frames : List Frame

namespace Activity

open Relation Console

/-- A line is to be executed, and nothing is waited for. -/
def start (c : Console) (line : String) : Activity :=
  ⟨c.withTable ∅, some c.handlers, .line line, []⟩

/-- A line has ended, and nothing is waited for. -/
def finished (after : Console × Except LineError Unit) : Activity :=
  ⟨after.1.withTable ∅, some after.1.handlers, .ended after.2, []⟩

/-- One step. The rules are the same for the outer line and for those from inside. -/
inductive Next : Activity → Activity → Prop where
  | refuse {c : Console} {place : Option HandlerTable} {text : String} {e : LineError}
    {frames : List Frame} : c.callOf text = .error e →
    Next ⟨c, place, .line text, frames⟩ ⟨c.prepared text, place, .ended (.error e), frames⟩
  | prepare {c : Console} {place : Option HandlerTable} {text : String} {call : Call}
    {frames : List Frame} : c.callOf text = .ok call →
    Next ⟨c, place, .line text, frames⟩ ⟨c.prepared text, place, .call call, frames⟩
  /-- The table is out of the console. -/
  | tableOut {c : Console} {call : Call} {frames : List Frame} :
    Next ⟨c, none, .call call, frames⟩ ⟨c, none, .halted (.crashed (some tableInUse)), frames⟩
  | missing {c : Console} {table : HandlerTable} {call : Call} {frames : List Frame} :
    table[call.id]? = none →
    Next ⟨c, some table, .call call, frames⟩
      ⟨c, some table, .ended (.error (.invocation (.missingHandler call.name))), frames⟩
  | enter {c : Console} {table : HandlerTable} {call : Call} {entry : HandlerEntry}
    {frames : List Frame} : table[call.id]? = some entry →
    Next ⟨c, some table, .call call, frames⟩
      ⟨c, none, .act (entry.action call), .handler call entry table :: frames⟩
  | halt {c : Console} {place : Option HandlerTable} {a : Action} {outcome : Outcome}
    {frames : List Frame} : a.turn c = .halted outcome →
    Next ⟨c, place, .act a, frames⟩ ⟨c, place, .halted outcome, frames⟩
  | go {c d : Console} {place : Option HandlerTable} {a b : Action} {frames : List Frame} :
    a.turn c = .next b d → Next ⟨c, place, .act a, frames⟩ ⟨d, place, .act b, frames⟩
  | line {c d : Console} {place : Option HandlerTable} {a : Action} {text : String} {told : Bool}
    {later : Except LineError Unit → Action} {frames : List Frame} :
    a.turn c = .line text d told later →
    Next ⟨c, place, .act a, frames⟩ ⟨d, place, .line text, .line told later :: frames⟩
  /-- The handler goes back into the table, and the table into the console. -/
  | leave {c : Console} {place : Option HandlerTable} {outcome : Outcome} {call : Call}
    {entry : HandlerEntry} {table : HandlerTable} {frames : List Frame} :
    Next ⟨c, place, .halted outcome, .handler call entry table :: frames⟩
      ⟨c, some (table.insert call.id entry.called),
        .ended ((outcome.result call.name).mapError .invocation), frames⟩
  /-- A crash is not caught by a line that is waited for. -/
  | unwind {c : Console} {place : Option HandlerTable} {outcome : Outcome} {told : Bool}
    {later : Except LineError Unit → Action} {frames : List Frame} :
    Next ⟨c, place, .halted outcome, .line told later :: frames⟩
      ⟨c, place, .halted outcome, frames⟩
  | resume {c : Console} {place : Option HandlerTable} {result : Except LineError Unit}
    {told : Bool} {later : Except LineError Unit → Action} {frames : List Frame} :
    Next ⟨c, place, .ended result, .line told later :: frames⟩
      ⟨c.behind told result, place, .act (later result), frames⟩

/-- What an activity comes to in any number of steps. -/
abbrev Reaches : Activity → Activity → Prop := ReflTransGen Next

/-- The calls whose handlers have been entered and have not ended, the innermost first. -/
def running (m : Activity) : List Call :=
  m.frames.filterMap fun
    | .handler call _ _ => some call
    | .line _ _ => none

/-- There is at most one way to go on. -/
theorem Next.unique {m n n' : Activity} (next : Next m n) (next' : Next m n') : n = n' := by
  cases next with
  | refuse computed | prepare computed => cases next' <;> simp_all
  | missing present | enter present => cases next' <;> simp_all
  | halt turn | go turn | line turn => cases next' <;> simp_all
  | tableOut | leave | unwind | resume =>
      cases next'
      rfl

section Steps

variable {d : Console} {place : Option HandlerTable} {text : String} {call : Call}
  {told : Bool} {later : Except LineError Unit → Action} {frames : List Frame}

/-- A line that comes to nothing lets the handler go on that has run it. -/
theorem reaches_of_refused {e : LineError} (computed : d.callOf text = .error e) :
    Reaches ⟨d, place, .line text, .line told later :: frames⟩
      ⟨(d.prepared text).behind told (.error e), place, .act (later (.error e)), frames⟩ :=
  .head (.refuse computed) (.single .resume)

/-- A line from which a call comes ends the handler that has run it. -/
theorem reaches_of_called (computed : d.callOf text = .ok call) :
    Reaches ⟨d, none, .line text, .line told later :: frames⟩
      ⟨d.prepared text, none, .halted (.crashed (some tableInUse)), frames⟩ :=
  .head (.prepare computed) (.head .tableOut (.single .unwind))

/-- A handler that is at work while the table is out comes to the end that `Console.perform`
says, whatever waits for it. -/
theorem reaches_perform (a : Action) (c : Console) (frames : List Frame) :
    Reaches ⟨c, none, .act a, frames⟩
      ⟨(perform a c).1, none, .halted (perform a c).2, frames⟩ := by
  -- A line that is refused leaves a smaller handler, one that calls leaves none.
  induction a using Action.induction_leaves generalizing c with
  | step a ih =>
    simp only [perform_eq a c]
    cases turn : a.turn c with
    | halted outcome => exact .single (.halt turn)
    | next b d => exact .head (.go turn) (ih b (Action.leaves_of_turn_next turn) d)
    | line text d told later =>
        refine .head (.line turn) ?_
        cases computed : d.callOf text with
        | error e =>
            simp only [computed]
            have left := Action.leaves_of_turn_line turn (.error e)
            exact (reaches_of_refused computed).trans (ih _ left _)
        | ok call =>
            simp only [computed]
            exact reaches_of_called computed

end Steps

/-- A step is made of the changes that lines make. -/
theorem Next.changes {m n : Activity} (next : Next m n) :
    ReflTransGen Change m.console n.console := by
  cases next with
  | refuse | prepare => exact changes_prepared _ _
  | go turn => exact changes_of_turn_next turn
  | line turn => exact admits_changes.of_turn_line turn
  | resume => exact changes_behind _ _ _
  | _ => exact .refl

/-- Only the end of a handler puts a table into the console. -/
theorem Next.handlers {m n : Activity} (next : Next m n) :
    n.console.handlers = m.console.handlers :=
  handlers_of_changes next.changes

theorem handlers_of_reaches {c : Console} {line : String} {m : Activity}
    (reached : Reaches (start c line) m) : m.console.handlers = ∅ := by
  induction reached with
  | refl => rfl
  | tail _ next ih => exact next.handlers.trans ih

/-- That a handler is missing is only seen when it is to be entered. -/
theorem callOf_ne_missingHandler (c : Console) (line name : String) :
    c.callOf line ≠ .error (.invocation (.missingHandler name)) := by
  intro failed
  rcases callOf_eq_error_iff.mp failed with _ | _ | _ | ⟨-, -, -, unbound⟩
  obtain ⟨_, _, _, other, -⟩ := bindValues_eq_error_iff.mp unbound
  cases other

section Execution

variable {c : Console} {line : String}

theorem finished_injective : Function.Injective finished := by
  rintro ⟨c, result⟩ ⟨d, result'⟩ same
  simp only [finished, mk.injEq, Option.some.injEq, Control.ended.injEq] at same
  obtain ⟨consoles, tables, rfl, -⟩ := same
  have restored : (c.withTable ∅).withTable c.handlers = (d.withTable ∅).withTable d.handlers := by
    rw [consoles, tables]
  exact congrArg (·, result) restored

theorem eq_of_finished_reaches {after : Console × Except LineError Unit} {m : Activity}
    (reached : Reaches (finished after) m) : m = finished after := by
  rcases reached.cases_head with rfl | ⟨n, next, -⟩
  · rfl
  · cases next

theorem reaches_finished (c : Console) (line : String) :
    Reaches (start c line) (finished (c.execute line)) := by
  cases computed : c.callOf line with
  | error e =>
      have out : c.entered? line = none := by rw [entered?, computed]
      rw [execute_of_not_entered out, errorOf, computed]
      exact .single (.refuse computed)
  | ok call =>
      refine .head (.prepare computed) ?_
      cases present : c.handlers[call.id]? with
      | none =>
          have out : c.entered? line = none := by simp [entered?, computed, present]
          rw [execute_of_not_entered out, errorOf, computed]
          exact .single (.missing present)
      | some entry =>
          have entered := entered?_eq_some_iff.mpr ⟨computed, present⟩
          have acted := perform_withTable (entry.action call) (c.prepared line) ∅
          have kept := handlers_perform (entry.action call) (c.prepared line)
          have worked := reaches_perform (entry.action call) ((c.prepared line).withTable ∅)
            [.handler call entry c.handlers]
          rw [acted] at worked
          rw [execute_of_entered entered, withHandler, kept]
          exact .head (.enter present) (worked.tail .leave)

/-- There is one way in which a line ends. -/
theorem execute_eq_of_reaches {after : Console × Except LineError Unit}
    (ended : Reaches (start c line) (finished after)) : c.execute line = after := by
  have deterministic : Relator.RightUnique Next := fun _ _ _ => Next.unique
  apply finished_injective
  -- Of two ends one is reached from the other, and an end goes nowhere.
  rcases ReflTransGen.total_of_right_unique deterministic (reaches_finished c line) ended with
    later | later
  · exact (eq_of_finished_reaches later).symm
  · exact eq_of_finished_reaches later

end Execution

/-- Where the execution of a line can be. The table is out of the console while a handler is at
work, and lines that it runs from inside find it so. -/
inductive Stage (c : Console) (line : String) : Activity → Prop where
  | started : Stage c line (start c line)
  | refused {d : Console} {e : LineError} : c.callOf line = .error e →
    Stage c line ⟨d, some c.handlers, .ended (.error e), []⟩
  | calling {d : Console} {call : Call} : c.callOf line = .ok call →
    Stage c line ⟨d, some c.handlers, .call call, []⟩
  | missing {d : Console} {call : Call} : c.callOf line = .ok call →
    c.handlers[call.id]? = none →
    Stage c line
      ⟨d, some c.handlers, .ended (.error (.invocation (.missingHandler call.name))), []⟩
  | acting {d : Console} {call : Call} {entry : HandlerEntry} {a : Action} :
    c.entered? line = some (call, entry) →
    Stage c line ⟨d, none, .act a, [.handler call entry c.handlers]⟩
  | halted {d : Console} {call : Call} {entry : HandlerEntry} {outcome : Outcome} :
    c.entered? line = some (call, entry) →
    Stage c line ⟨d, none, .halted outcome, [.handler call entry c.handlers]⟩
  | inside {d : Console} {call : Call} {entry : HandlerEntry} {text : String} {told : Bool}
    {later : Except LineError Unit → Action} : c.entered? line = some (call, entry) →
    Stage c line ⟨d, none, .line text, [.line told later, .handler call entry c.handlers]⟩
  | insideCalling {d : Console} {call inner : Call} {entry : HandlerEntry} {told : Bool}
    {later : Except LineError Unit → Action} : c.entered? line = some (call, entry) →
    Stage c line ⟨d, none, .call inner, [.line told later, .handler call entry c.handlers]⟩
  | insideHalted {d : Console} {call : Call} {entry : HandlerEntry} {outcome : Outcome}
    {told : Bool} {later : Except LineError Unit → Action} :
    c.entered? line = some (call, entry) →
    Stage c line ⟨d, none, .halted outcome, [.line told later, .handler call entry c.handlers]⟩
  | insideRefused {b d : Console} {call : Call} {entry : HandlerEntry} {text : String}
    {e : LineError} {told : Bool} {later : Except LineError Unit → Action} :
    c.entered? line = some (call, entry) → b.callOf text = .error e →
    Stage c line
      ⟨d, none, .ended (.error e), [.line told later, .handler call entry c.handlers]⟩
  | left {d : Console} {call : Call} {entry : HandlerEntry} {outcome : Outcome} :
    c.entered? line = some (call, entry) →
    Stage c line ⟨d, some (c.handlers.insert call.id entry.called),
      .ended ((outcome.result call.name).mapError .invocation), []⟩

section Stages

variable {c : Console} {line : String} {m n : Activity}

theorem Stage.next (stage : Stage c line m) (next : Next m n) : Stage c line n := by
  cases stage with
  | started =>
      cases next with
      | refuse computed => exact .refused computed
      | prepare computed => exact .calling computed
  | refused | missing | left => cases next
  | calling computed =>
      cases next with
      | missing absent => exact .missing computed absent
      | enter present => exact .acting (entered?_eq_some_iff.mpr ⟨computed, present⟩)
  | acting entered =>
      cases next with
      | halt => exact .halted entered
      | go => exact .acting entered
      | line => exact .inside entered
  | halted entered =>
      cases next
      exact .left entered
  | inside entered =>
      cases next with
      | refuse computed => exact .insideRefused entered computed
      | prepare => exact .insideCalling entered
  | insideCalling entered =>
      cases next
      exact .insideHalted entered
  | insideHalted entered =>
      cases next
      exact .halted entered
  | insideRefused entered =>
      cases next
      exact .acting entered

theorem stage_of_reaches (reached : Reaches (start c line) m) : Stage c line m := by
  induction reached with
  | refl => exact .started
  | tail _ next stage => exact stage.next next

/-- Handlers that are running are counted by whether the table is out of the console. -/
theorem Stage.running (stage : Stage c line m) :
    (∃ table, m.table = some table ∧ m.running = []) ∨
      ∃ call entry, c.entered? line = some (call, entry) ∧ m.table = none ∧
        m.running = [call] := by
  cases stage with
  | started | refused | calling | missing | left => exact .inl ⟨_, rfl, rfl⟩
  | acting entered | halted entered | inside entered | insideCalling entered
  | insideHalted entered | insideRefused entered => exact .inr ⟨_, _, entered, rfl, rfl⟩

/-- What is at work is the handler of the line itself. -/
theorem Stage.of_act {d : Console} {place : Option HandlerTable} {a : Action}
    {frames : List Frame} (stage : Stage c line ⟨d, place, .act a, frames⟩) :
    ∃ call entry, c.entered? line = some (call, entry) ∧ place = none ∧
      frames = [.handler call entry c.handlers] := by
  cases stage with
  | acting entered => exact ⟨_, _, entered, rfl, rfl⟩

/-- Only the call of the line itself can miss its handler. -/
theorem Stage.of_missingHandler (stage : Stage c line m) {name : String}
    (missing : m.control = .ended (.error (.invocation (.missingHandler name)))) :
    ∃ call, c.callOf line = .ok call ∧ c.handlers[call.id]? = none := by
  cases stage with
  | missing computed absent => exact ⟨_, computed, absent⟩
  | started | calling | acting | halted | inside | insideCalling | insideHalted => cases missing
  | refused computed | insideRefused _ computed =>
      cases missing
      exact absurd computed (callOf_ne_missingHandler _ _ _)
  | @left d call entry outcome => cases outcome <;> cases missing

end Stages

end Activity

end CommandConsole
