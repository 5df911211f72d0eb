import Mathlib.Data.List.Sort
import CommandConsole.Handler.Scripted
import CommandConsole.Proofs.Command.Acceptance
import CommandConsole.Proofs.Console.Activity
import CommandConsole.Proofs.Console.Frame

/-!
# Every overload has its handler

A session declares commands and runs lines, in any order. A declaration that is
accepted takes the next number and stores its handler under it; one that is
refused does neither. A line takes a handler out of the table and puts it back,
however the handler ends, and what the handler declares is refused because the
line has frozen the registry. So the table has a handler for each overload and
no other, at any time between lines, and no line ever misses one.
-/

namespace CommandConsole

namespace Console

open Relation Activity

/-- What can happen in a session from one moment to the next. -/
inductive Happens : Console → Console → Prop where
  | declare (c : Console) (d : Declaration) (h : Handler) : Happens c (c.declare d h).1
  | execute (c : Console) (line : String) : Happens c (c.execute line).1
  | run (c : Console) (line : String) : Happens c (c.run line)
  /-- Something happens that has to do with neither commands nor handlers. -/
  | elsewhere {c d : Console} : d.registry = c.registry → d.handlers = c.handlers → Happens c d

/-- Nothing is declared yet. -/
structure Fresh (c : Console) : Prop where
  registry : c.registry = {}
  handlers : c.handlers = ∅

/-- The table has handlers for the numbers that were given out. -/
structure Supplied (c : Console) : Prop where
  built : c.registry.Built
  present : ∀ id, c.handlers.contains id = true ↔ id < c.registry.nextId

section Lines

variable {c d : Console}

/-- Once the registry is frozen, a line declares nothing. -/
theorem Step.registry (step : Step c d) (frozen : c.registry.isFrozen = true) :
    d.registry = c.registry := by
  cases step with
  | count => rfl
  | change change =>
      cases change with
      | freeze => exact Registry.freeze_of_isFrozen frozen
      | register accepted => exact absurd accepted (Registry.register_ne_ok_of_isFrozen frozen)
      | _ => rfl

/-- A line brings no handler into the table and takes none out for good. -/
theorem Step.contains_handlers (step : Step c d) (id : Nat) :
    d.handlers.contains id = c.handlers.contains id := by
  cases step with
  | change change => rw [change.handlers]
  | @count counted entry present =>
      rw [withHandler, Std.TreeMap.contains_insert]
      by_cases same : counted = id
      · subst same
        simp [Std.TreeMap.contains_eq_isSome_getElem?, present]
      · have apart : (compare counted id == .eq) = false := by simpa using same
        rw [apart, Bool.false_or]

theorem registry_of_steps (steps : ReflTransGen Step c d) (frozen : c.registry.isFrozen = true) :
    d.registry = c.registry := by
  induction steps with
  | refl => rfl
  | tail _ step ih =>
      rw [← ih] at frozen
      exact (step.registry frozen).trans ih

theorem contains_handlers_of_steps (steps : ReflTransGen Step c d) (id : Nat) :
    d.handlers.contains id = c.handlers.contains id := by
  induction steps with
  | refl => rfl
  | tail _ step ih => exact (step.contains_handlers id).trans ih

/-- Whatever its handler does, a line does no more to the registry than to freeze it. -/
theorem registry_execute (c : Console) (line : String) :
    (c.execute line).1.registry = c.registry.freeze :=
  -- The line freezes the registry itself, so freezing it before makes no difference.
  registry_of_steps (steps_execute c.freeze line) rfl

theorem registry_run {line : String} (present : ¬ (trimLine line).isEmpty = true) :
    (c.run line).registry = c.registry.freeze := by
  rw [← run_freeze present]
  exact registry_of_steps (steps_run c.freeze line) rfl

theorem declare_of_isFrozen (frozen : c.registry.isFrozen = true) (d : Declaration)
    (h : Handler) : c.declare d h = (c, .error (.frozen d.fullName)) := by
  rw [Console.declare, Registry.register, if_pos frozen]

theorem Supplied.declare (supplied : c.Supplied) (d : Declaration) (h : Handler) :
    (c.declare d h).1.Supplied := by
  refine ⟨built_declare supplied.built d h, ?_⟩
  intro id
  rw [Console.declare]
  cases accepted : c.registry.register d with
  | error e => exact supplied.present id
  | ok x =>
      obtain ⟨-, numbered, changed⟩ := Registry.register_eq_ok accepted
      simp only [Std.TreeMap.contains_insert, Bool.or_eq_true, supplied.present id, changed, numbered]
      simp
      omega

theorem Supplied.of_freeze (supplied : c.Supplied) (registry : d.registry = c.registry.freeze)
    (handlers : ∀ id, d.handlers.contains id = c.handlers.contains id) : d.Supplied := by
  refine ⟨?_, ?_⟩
  · rw [registry]
    exact supplied.built.freeze
  · intro id
    rw [registry, handlers id]
    exact supplied.present id

theorem Happens.supplied (happens : Happens c d) (supplied : c.Supplied) : d.Supplied := by
  cases happens with
  | declare d h => exact supplied.declare d h
  | execute line =>
      exact supplied.of_freeze (registry_execute c line)
        (contains_handlers_of_steps (steps_execute c line))
  | run line =>
      by_cases blank : (trimLine line).isEmpty = true
      · rw [run_of_blank blank]
        exact supplied
      · exact supplied.of_freeze (registry_run blank)
          (contains_handlers_of_steps (steps_run c line))
  | elsewhere registry handlers =>
      refine ⟨?_, ?_⟩
      · rw [registry]
        exact supplied.built
      · rw [registry, handlers]
        exact supplied.present

theorem Fresh.supplied (fresh : c.Fresh) : c.Supplied := by
  refine ⟨?_, ?_⟩
  · rw [fresh.registry]
    exact .empty
  · simp [fresh.registry, fresh.handlers]

theorem supplied_of_session {c₀ : Console} (fresh : c₀.Fresh)
    (session : ReflTransGen Happens c₀ c) : c.Supplied := by
  induction session with
  | refl => exact fresh.supplied
  | tail _ happens supplied => exact happens.supplied supplied

/-- The table lists the numbers that were given out. -/
theorem Supplied.keys_eq_range (supplied : c.Supplied) :
    c.handlers.keys = List.range c.registry.nextId := by
  have ascending : c.handlers.keys.Pairwise (· < ·) :=
    Std.TreeMap.ordered_keys.imp fun less => compare_lt_iff_lt.mp less
  refine List.Perm.eq_of_pairwise' ascending List.pairwise_lt_range ?_
  rw [List.perm_ext_iff_of_nodup Std.TreeMap.nodup_keys List.nodup_range]
  intro id
  rw [Std.TreeMap.mem_keys, Std.TreeMap.mem_iff_contains, supplied.present, List.mem_range]

/-- A call that comes out of a line finds its handler. -/
theorem Supplied.handler_ne_none (supplied : c.Supplied) {line : String} {call : Call}
    (computed : c.callOf line = .ok call) : c.handlers[call.id]? ≠ none := by
  obtain ⟨p, o, -, picked, -, -, -, same⟩ := exists_of_callOf computed
  have listed : o ∈ c.registry.overloads (commandOf line) := mem_overloads_of_resolve picked
  have below := supplied.built.id_lt_nextId listed
  rw [← same, ← supplied.present, Std.TreeMap.contains_eq_isSome_getElem?] at below
  exact Option.isSome_iff_ne_none.mp below

/-- At any time of a session the table has the numbers that were given out, the overloads have
the same numbers, each of them once, and neither a line nor one that its handler runs from inside
misses a handler. -/
theorem handlers_complete_of_session {c₀ : Console} (fresh : c₀.Fresh)
    (session : ReflTransGen Happens c₀ c) :
    c.handlers.keys = List.range c.registry.nextId ∧
    (c.registry.all.map Overload.id).Perm (List.range c.registry.nextId) ∧
    ∀ line name,
      (c.execute line).2 ≠ .error (.invocation (.missingHandler name)) ∧
      ∀ m, Reaches (start c line) m →
        m.control ≠ .ended (.error (.invocation (.missingHandler name))) := by
  have supplied := supplied_of_session fresh session
  refine ⟨supplied.keys_eq_range, supplied.built.ids_perm_range, ?_⟩
  intro line name
  have found : ∀ m, Reaches (start c line) m →
      m.control ≠ .ended (.error (.invocation (.missingHandler name))) := by
    intro m reached missing
    obtain ⟨call, computed, absent⟩ := (stage_of_reaches reached).of_missingHandler missing
    exact supplied.handler_ne_none computed absent
  refine ⟨?_, found⟩
  intro missing
  exact found _ (reaches_finished c line) (congrArg Control.ended missing)

/-- Two declarations are accepted and two refused, around lines that crash and that run another
line from inside. -/
theorem handlers_complete_of_session_mixed :
    let declared : Console :=
      (((({} : Console).declare ⟨"f", none, "", []⟩ (Script.crash .other none).handler).1.declare
        ⟨"1x", none, "", []⟩ Script.nothing.handler).1.declare
        ⟨"f", none, "", [⟨"x", .any⟩]⟩ (Script.run "f").handler).1
    let ran := ((declared.run "f 1").execute "f").1
    let c := (ran.declare ⟨"late", none, "", []⟩ Script.nothing.handler).1
    c.handlers.keys = [0, 1] ∧
      ∀ line name, (c.execute line).2 ≠ .error (.invocation (.missingHandler name)) := by
  intro declared ran c
  have session : ReflTransGen Happens {} c :=
    .tail (.tail (.tail (.tail (.tail (.single (.declare _ _ _)) (.declare _ _ _)) (.declare _ _ _))
      (.run _ _)) (.execute _ _)) (.declare _ _ _)
  have law := handlers_complete_of_session ⟨rfl, rfl⟩ session
  have frozen : ran.registry = declared.registry.freeze := by
    rw [registry_execute, registry_run (by decide)]
    rfl
  have refused : c = ran :=
    congrArg Prod.fst (declare_of_isFrozen (congrArg Registry.isFrozen frozen) _ _)
  have numbers : c.registry.nextId = 2 := by
    rw [refused, frozen]
    rfl
  rw [numbers] at law
  exact ⟨law.1, fun line name => (law.2.2 line name).1⟩

end Lines

end Console

end CommandConsole
