import Mathlib.Logic.Relation
import CommandConsole.Proofs.Command.Registration
import CommandConsole.Proofs.Console.Turn

/-!
# What happens while lines are run

Running a line is a sequence of small changes, each of which touches one part of
the console. Which changes there are is said once; that a line makes no others
is proved once, by going through the turns of a handler. What every single
change keeps is then kept by any number of lines.

The table of handlers is not touched by anything that a handler does. It only
counts the calls, so what is known of all handlers is known of them after any
lines.
-/

namespace CommandConsole

namespace Console

open Relation

/-- One change that a line makes, apart from counting a call. -/
inductive Change : Console → Console → Prop where
  | say (c : Console) (level : Level) (message : String) : Change c (c.say level message)
  | clear (c : Console) : Change c { c with log := c.log.clear }
  | record (c : Console) (line : String) :
    Change c { c with history := c.history.record line }
  | freeze (c : Console) : Change c c.freeze
  | set {c : Console} {name : String} {value : Value} {vars : Variables} :
    c.vars.set name value = .ok vars → Change c { c with vars }
  | unset {c : Console} {name : String} {value : Value} {vars : Variables} :
    c.vars.unset name = .ok (value, vars) → Change c { c with vars }
  | spawn (c : Console) (name : String) :
    Change c { c with objects := (c.objects.spawn name).2 }
  | despawn (c : Console) (object : Entity) :
    Change c { c with objects := (c.objects.despawn object).2 }
  | save {c : Console} {s : Settings} : c.settings = some s →
    Change c { c with files := (s.save c.files c.settingsPath).1 }
  | register {c : Console} {d : Declaration} {o : Overload} {registry : Registry} :
    c.registry.register d = .ok (o, registry) → Change c { c with registry }

theorem changes_warn (c : Console) (warnings : List Warning) :
    ReflTransGen Change c (c.warn warnings) := by
  rw [warn]
  induction warnings generalizing c with
  | nil => exact .refl
  | cons w warnings ih => exact .head (.say c .warning w.message) (ih _)

theorem changes_prepared (c : Console) (line : String) :
    ReflTransGen Change c (c.prepared line) := by
  have told : c.prepared line = c.freeze.warn (c.warningsOf line) := (warn_eq _ _).symm
  rw [told]
  exact .head (.freeze c) (changes_warn c.freeze _)

theorem changes_echo (c : Console) (line : String) : ReflTransGen Change c (c.echo line) :=
  .head (.record c line) (.single (.say _ _ _))

/-- What is met for a handler is met by changes. -/
theorem changes_of_turn_next {a b : Action} {c d : Console} (turn : a.turn c = .next b d) :
    ReflTransGen Change c d := by
  cases a with
  | log level message =>
      cases turn
      exact .single (.say c level message)
  | drainLog | clearLog =>
      cases turn
      exact .single (.clear c)
  | readLog | listCommands | getVariable =>
      cases turn
      exact .refl
  | setVariable name value =>
      simp only [Action.turn] at turn
      split at turn <;> cases turn
      · exact .single (.set ‹_›)
      · exact .refl
  | unsetVariable name =>
      simp only [Action.turn] at turn
      split at turn <;> cases turn
      · exact .single (.unset ‹_›)
      · exact .refl
  | spawn name =>
      cases turn
      exact .single (.spawn c name)
  | despawn object =>
      cases turn
      exact .single (.despawn c object)
  | saveSettings =>
      simp only [Action.turn] at turn
      split at turn <;> cases turn
      exact .single (.save ‹_›)
  | register declaration =>
      simp only [Action.turn] at turn
      split at turn <;> cases turn
      · exact .single (.register ‹_›)
      · exact .refl
  | run =>
      simp only [Action.turn] at turn
      split at turn <;> cases turn
      exact .refl
  | succeed | fail | crash | execute => cases turn

theorem changes_behind (c : Console) (told : Bool) (result : Except LineError Unit) :
    ReflTransGen Change c (c.behind told result) := by
  cases told with
  | false => exact .refl
  | true =>
      cases result with
      | error e => exact .single (.say c .error e.message)
      | ok _ =>
          rw [behind, if_pos rfl, endEntries, List.append_nil]
          exact .refl

theorem admits_changes : Admits (ReflTransGen Change) where
  refl _ := .refl
  trans := .trans
  echo := changes_echo
  prepared := changes_prepared
  behind := changes_behind

/-- Whatever a handler asks for, it is done by changes. -/
theorem changes_perform (a : Action) (c : Console) :
    ReflTransGen Change c (perform a c).1 :=
  admits_changes.perform (I := fun _ => True) (fun _ _ => trivial)
    (fun _ => changes_of_turn_next) trivial c

theorem Change.handlers {c d : Console} (change : Change c d) : d.handlers = c.handlers := by
  cases change <;> rfl

theorem handlers_of_changes {c d : Console} (changes : ReflTransGen Change c d) :
    d.handlers = c.handlers := by
  induction changes with
  | refl => rfl
  | tail _ change ih => exact change.handlers.trans ih

/-- The table of handlers is in use while a handler runs, and nothing that the
handler does changes it. -/
theorem handlers_perform (a : Action) (c : Console) : (perform a c).1.handlers = c.handlers :=
  handlers_of_changes (changes_perform a c)

/-- One change that a line makes. -/
inductive Step : Console → Console → Prop where
  | change {c d : Console} : Change c d → Step c d
  | count {c : Console} {id : Nat} {entry : HandlerEntry} : c.handlers[id]? = some entry →
    Step c (c.withHandler id entry.called)

theorem steps_of_changes {c d : Console} (changes : ReflTransGen Change c d) :
    ReflTransGen Step c d :=
  ReflTransGen.mono (fun _ _ => Step.change) c d changes

theorem admits_steps : Admits (ReflTransGen Step) where
  refl _ := .refl
  trans := .trans
  echo c line := steps_of_changes (changes_echo c line)
  prepared c line := steps_of_changes (changes_prepared c line)
  behind c told result := steps_of_changes (changes_behind c told result)

theorem steps_perform (a : Action) (c : Console) : ReflTransGen Step c (perform a c).1 :=
  steps_of_changes (changes_perform a c)

/-- Something holds of all handlers in the table. -/
def EveryHandler (c : Console) (P : Handler → Prop) : Prop :=
  ∀ (id : Nat) (entry : HandlerEntry), c.handlers[id]? = some entry → P entry.handler

section Handlers

variable {c d : Console} {P : Handler → Prop}

theorem Step.everyHandler (step : Step c d) (every : c.EveryHandler P) : d.EveryHandler P := by
  intro id entry present
  cases step with
  | change change => exact every id entry (change.handlers ▸ present)
  | @count counted called found =>
      rw [withHandler, Std.TreeMap.getElem?_insert] at present
      split at present
      · obtain rfl := Option.some.inj present
        exact every counted called found
      · exact every id entry present

theorem EveryHandler.of_steps (every : c.EveryHandler P) (steps : ReflTransGen Step c d) :
    d.EveryHandler P := by
  induction steps with
  | refl => exact every
  | tail _ step ih => exact step.everyHandler ih

theorem EveryHandler.imp {Q : Handler → Prop} (every : c.EveryHandler P)
    (implies : ∀ h, P h → Q h) : c.EveryHandler Q :=
  fun id entry present => implies _ (every id entry present)

theorem everyHandler_of_handlers_eq_empty (empty : c.handlers = ∅) : c.EveryHandler P := by
  intro id entry present
  rw [empty] at present
  simp at present

theorem EveryHandler.declare (every : c.EveryHandler P) (d : Declaration) {h : Handler}
    (holds : P h) : (c.declare d h).1.EveryHandler P := by
  rw [Console.declare]
  split
  · exact every
  · intro id entry present
    rw [Std.TreeMap.getElem?_insert] at present
    split at present
    · obtain rfl := Option.some.inj present
      exact holds
    · exact every id entry present

theorem EveryHandler.declareAll (every : c.EveryHandler P)
    {commands : List (Declaration × Handler)} (holds : ∀ x ∈ commands, P x.2) :
    (c.declareAll commands).EveryHandler P := by
  rw [Console.declareAll]
  induction commands generalizing c with
  | nil => exact every
  | cons x commands ih =>
      rw [List.forall_mem_cons] at holds
      exact ih (every.declare x.1 holds.1) holds.2

end Handlers

namespace Admits

variable {R : Console → Console → Prop} {c : Console} (admits : Admits R)
  (called : ∀ {d : Console} {id : Nat} {entry : HandlerEntry}, d.handlers[id]? = some entry →
    R d (d.withHandler id entry.called))
  (acts : c.EveryHandler fun h => ∀ calls args d, R d (Console.perform (h calls args) d).1)

include admits called acts

/-- If it takes in what the handlers do, and that their calls are counted, it takes in all that
a line does. -/
theorem execute (line : String) : R c (c.execute line).1 := by
  cases found : c.entered? line with
  | none =>
      rw [execute_of_not_entered found]
      exact admits.prepared c line
  | some x =>
      obtain ⟨call, entry⟩ := x
      have present := (entered?_eq_some_iff.mp found).2
      have acted : R c (Console.perform (entry.action call) (c.prepared line)).1 :=
        admits.trans (admits.prepared c line) (acts call.id entry present _ _ _)
      rw [execute_of_entered found]
      refine admits.trans acted (called ?_)
      rw [handlers_perform]
      exact present

theorem run (line : String) : R c (c.run line) := by
  by_cases blank : (trimLine line).isEmpty = true
  · rw [run_of_blank blank]
    exact admits.refl c
  · have executed := (admits.trans (admits.echo c (trimLine line))
      (admits.execute (c := c.echo (trimLine line)) called acts (trimLine line)))
    rw [run_of_not_blank blank]
    exact admits.trans executed (admits.behind _ true _)

end Admits

theorem steps_execute (c : Console) (line : String) :
    ReflTransGen Step c (c.execute line).1 :=
  admits_steps.execute (fun present => .single (.count present))
    (fun _ _ _ _ _ _ => steps_perform _ _) line

theorem steps_run (c : Console) (line : String) : ReflTransGen Step c (c.run line) :=
  admits_steps.run (fun present => .single (.count present))
    (fun _ _ _ _ _ _ => steps_perform _ _) line

theorem steps_runAll (c : Console) (lines : List String) :
    ReflTransGen Step c (c.runAll lines) := by
  induction lines generalizing c with
  | nil => exact .refl
  | cons line lines ih =>
      rw [runAll_cons]
      exact (steps_run c line).trans (ih _)

theorem Step.built {c d : Console} (step : Step c d) (built : c.registry.Built) :
    d.registry.Built := by
  cases step with
  | count => exact built
  | change change =>
      cases change with
      | freeze => exact built.freeze
      | register accepted => exact built.register accepted
      | _ => exact built

theorem built_of_steps {c d : Console} (steps : ReflTransGen Step c d)
    (built : c.registry.Built) : d.registry.Built := by
  induction steps with
  | refl => exact built
  | tail _ step ih => exact step.built ih

/-- No line, and no handler that is entered by one, makes anything else of a
registry than declaring commands does. -/
theorem built_runAll {c : Console} (built : c.registry.Built) (lines : List String) :
    (c.runAll lines).registry.Built :=
  built_of_steps (steps_runAll c lines) built

end Console

end CommandConsole
