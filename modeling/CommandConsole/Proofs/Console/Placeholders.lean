import CommandConsole.Proofs.Console.VariableCommands

/-!
# Variables stay where they are asked for

A variable that is written on a line stands for what it stores, except where a
parameter asks for the variable itself. If variables are only set by lines that
call the built-in commands, no variable ever stores another one, and so what
stands for a variable never is one. A handler then finds variables among its
values exactly where its overload declares them.
-/

namespace CommandConsole

namespace Console

open Relation Activity

/-- The overload that is picked for a line, if its parameters can be read. -/
def overloadOf? (c : Console) (line : String) : Option Overload :=
  match c.parametersOf line with
  | .error _ => none
  | .ok p => (c.registry.resolve (commandOf line) c.vars p.values).toOption

/-- A line enters the built-in `set` or `unset`, with the kinds of its declaration. -/
def EntersSetter (c : Console) (line : String) : Prop :=
  ∃ call entry o d, c.entered? line = some (call, entry) ∧ c.overloadOf? line = some o ∧
    (d, entry.handler) ∈ Builtin.all ∧ (d.name = "set" ∨ d.name = "unset") ∧
    o.kinds = d.parameters.map (·.kind)

/-- What can happen in a session in which variables are changed by nothing but lines that call
the built-in `set` and `unset`. -/
inductive SetsByLines : Console → Console → Prop where
  | execute {c : Console} {line : String} : c.EntersSetter line →
    SetsByLines c (c.execute line).1
  | run {c : Console} {line : String} : c.EntersSetter (trimLine line) →
    SetsByLines c (c.run line)
  /-- Anything else happens that leaves the variables alone, be it a line. -/
  | elsewhere {c d : Console} : d.vars = c.vars → SetsByLines c d

section

variable {c d : Console} {line : String} {call : Call} {entry : HandlerEntry} {o : Overload}

theorem exists_overloadOf_of_callOf (computed : c.callOf line = .ok call) :
    ∃ o values, c.overloadOf? line = some o ∧ o.id = call.id ∧
      (o.score? c.vars values).isSome ∧ bindValues c.vars values o.kinds = .ok call.values := by
  obtain ⟨p, o, read, picked, bound, -, -, same⟩ := exists_of_callOf computed
  refine ⟨o, p.values, ?_, same.symm, Overload.isSome_score?_of_resolve picked, bound⟩
  rw [overloadOf?, read]
  simp only [picked]
  rfl

/-- Of the values of a call those are variables that the overload asks for. -/
theorem varName_iff_of_callOf (direct : c.vars.Direct) (computed : c.callOf line = .ok call) :
    ∃ o, c.overloadOf? line = some o ∧ o.id = call.id ∧
      call.values.length = o.kinds.length ∧
      ∀ (i : Nat) (v : Value) (k : Kind), call.values[i]? = some v → o.kinds[i]? = some k →
        ((∃ name, v = .varName name) ↔ k = .varName) := by
  obtain ⟨o, values, picked, same, viable, bound⟩ := exists_overloadOf_of_callOf computed
  exact ⟨o, picked, same, bindValues_varName_iff direct viable bound⟩

/-- What the built-in commands that change variables ask for. -/
theorem EntersSetter.kinds (enters : c.EntersSetter line) :
    ∃ call entry o, c.entered? line = some (call, entry) ∧ c.overloadOf? line = some o ∧
      (entry.handler = Builtin.set ∧ o.kinds = [.varName, .any] ∨
        entry.handler = Builtin.unset ∧ o.kinds = [.varName]) := by
  obtain ⟨call, entry, o, d, entered, picked, listed, named, declared⟩ := enters
  refine ⟨call, entry, o, entered, picked, ?_⟩
  simp only [Builtin.all, List.mem_cons, Prod.mk.injEq, List.not_mem_nil, or_false] at listed
  rcases listed with ⟨rfl, -⟩ | ⟨rfl, set⟩ | ⟨rfl, unset⟩ | ⟨rfl, -⟩ | ⟨rfl, -⟩
  · simp at named
  · exact .inl ⟨set, declared⟩
  · exact .inr ⟨unset, declared⟩
  · simp at named
  · simp at named

/-- What a line stores is no variable, because it is bound where its value is wanted. -/
theorem EntersSetter.sound_execute (enters : c.EntersSetter line) (sound : c.vars.Sound) :
    (c.execute line).1.vars.Sound := by
  obtain ⟨call, entry, o, entered, picked, setter⟩ := enters.kinds
  obtain ⟨o', picked', -, length, varNames⟩ :=
    varName_iff_of_callOf sound.direct (entered?_eq_some_iff.mp entered).1
  obtain rfl : o' = o := Option.some.inj (picked'.symm.trans picked)
  rw [execute_of_entered entered]
  change (perform (entry.handler (entry.calls + 1) ⟨call.line, call.values⟩)
    (c.prepared line)).1.vars.Sound
  rcases setter with ⟨handler, kinds⟩ | ⟨handler, kinds⟩
  · rw [kinds] at length varNames
    obtain ⟨a, v, values⟩ := List.length_eq_two.mp length
    rw [values] at varNames ⊢
    obtain ⟨name, rfl⟩ := (varNames 0 a .varName rfl rfl).mpr rfl
    -- The second parameter takes any kind, and so it is bound to what a variable stores.
    have plain : ∀ other, v ≠ .varName other := by
      intro other same
      cases (varNames 1 v .any rfl rfl).mp ⟨other, same⟩
    rw [handler, Builtin.perform_set]
    cases stored : (c.prepared line).vars.set name v with
    | error e => exact sound
    | ok vars => exact Variables.Sound.set sound stored plain
  · rw [kinds] at length varNames
    obtain ⟨a, values⟩ := List.length_eq_one_iff.mp length
    rw [values] at varNames ⊢
    obtain ⟨name, rfl⟩ := (varNames 0 a .varName rfl rfl).mpr rfl
    rw [handler, Builtin.perform_unset]
    cases forgotten : (c.prepared line).vars.unset name with
    | error e => exact sound
    | ok x => exact Variables.Sound.unset sound forgotten

theorem SetsByLines.sound (step : SetsByLines c d) (sound : c.vars.Sound) : d.vars.Sound := by
  cases step with
  | execute enters => exact enters.sound_execute sound
  | @run line enters =>
      by_cases blank : (trimLine line).isEmpty = true
      · rw [run_of_blank blank]
        exact sound
      · have enters' : (c.echo (trimLine line)).EntersSetter (trimLine line) := enters
        rw [run_of_not_blank blank]
        exact enters'.sound_execute sound
  | elsewhere same =>
      rw [same]
      exact sound

/-- The built-in `set`, where it is the only command of its name, sets variables like that. -/
theorem OffersVariables.entersSetter {n t : String} {v : Value} {ws : List Warning}
    (offers : c.OffersVariables) (valid : VariableName.isValid n.toList = true)
    (read : parseParameters c.objects.find? Literal.standard t.toList = .ok ⟨[v], ws⟩)
    (covered : c.vars.Covers [v]) : c.EntersSetter (trimLine (setLine n t)) := by
  obtain ⟨call, calls, entered, -⟩ := (offers.enters_set valid read covered).entered
  have read' := parseParameters_name_value valid read
  rw [← offers.literals] at read'
  obtain ⟨o, _, only, kinds, -⟩ := offers.set
  have picked : c.overloadOf? (trimLine (setLine n t)) = some o := by
    rw [overloadOf?, (calls_set valid t).parametersOf read', (calls_set valid t).commandOf]
    simp only [Registry.resolve, only, resolve_singleton (viable_name_value kinds)]
    rfl
  refine ⟨call, _, o, _, entered, picked, List.mem_cons_of_mem _ (List.mem_cons_self ..),
    .inl rfl, kinds⟩

/-- A line that sets a variable to a written value is a step of such a session. -/
theorem OffersVariables.exists_setsByLines {n t : String} {v : Value} {ws : List Warning}
    (offers : c.OffersVariables) (valid : VariableName.isValid n.toList = true)
    (read : parseParameters c.objects.find? Literal.standard t.toList = .ok ⟨[v], ws⟩)
    (covered : c.vars.Covers [v]) :
    ∃ d, SetsByLines c d ∧ d.OffersVariables ∧ ∀ other, d.vars.get? other =
      if n = other then some (c.vars.valueOf v) else c.vars.get? other :=
  ⟨c.run (setLine n t), .run (offers.entersSetter valid read covered), offers.run _,
    (offers.run_set valid read covered).1⟩

theorem sound_of_session {c₀ : Console} (empty : ∀ name, c₀.vars.get? name = none)
    (session : ReflTransGen SetsByLines c₀ c) : c.vars.Sound := by
  induction session with
  | refl => exact ⟨by simp [Variables.Direct, empty], by simp [empty]⟩
  | tail _ step sound => exact step.sound sound

/-- In a session that begins without variables, nothing that is stored is a variable and every
stored name is valid. Whatever handler is entered, also from inside another one, finds a variable
in a place of its values exactly if the overload that was picked declares it so. -/
theorem placeholders_never_leak {c₀ : Console} (empty : ∀ name, c₀.vars.get? name = none)
    (session : ReflTransGen SetsByLines c₀ c) :
    (∀ name v, c.vars.get? name = some v →
      (∀ other, v ≠ .varName other) ∧ VariableName.isValid name.toList = true) ∧
    ∀ line m, Reaches (start c line) m → ∀ call ∈ m.running,
      ∃ o, c.overloadOf? line = some o ∧ o.id = call.id ∧
        call.values.length = o.kinds.length ∧
        ∀ (i : Nat) (v : Value) (k : Kind), call.values[i]? = some v → o.kinds[i]? = some k →
          ((∃ name, v = .varName name) ↔ k = .varName) := by
  have sound := sound_of_session empty session
  constructor
  · intro name v stored
    exact ⟨sound.direct name v stored, sound.valid name v stored⟩
  · intro line m reached call running
    rcases (stage_of_reaches reached).running with ⟨_, _, idle⟩ | ⟨_, _, entered, _, busy⟩
    · rw [idle] at running
      cases running
    · rw [busy] at running
      obtain rfl := List.mem_singleton.mp running
      exact varName_iff_of_callOf sound.direct (entered?_eq_some_iff.mp entered).1

/-- After a variable is copied into another one, the other one stores the value. -/
theorem placeholders_never_leak_copied :
    ∃ d, ReflTransGen SetsByLines {} d ∧ d.vars.get? "b" = some (.int 7) ∧
      (∀ other, Value.int 7 ≠ .varName other) ∧
      ∀ line m, Reaches (start d line) m → ∀ call ∈ m.running,
        ∃ o, d.overloadOf? line = some o ∧ call.values.length = o.kinds.length := by
  let c := ({} : Console).declareBuiltins
  have offers : c.OffersVariables :=
    ⟨rfl, ⟨_, _, rfl, rfl, rfl⟩, ⟨_, _, rfl, rfl, rfl⟩, ⟨_, _, rfl, rfl, rfl⟩⟩
  have seven : ∀ find : ObjectLookup,
      parseParameters find Literal.standard "7".toList = .ok ⟨[.int 7], []⟩ := by
    intro find
    have text : "7".toList = ['7'] := by decide
    rw [text, parseParameters_eq,
      readAll_of_token (l := .int) (t := ['7']) (r := []) rfl (by decide), readAll_of_blank rfl]
    rfl
  have named : ∀ find : ObjectLookup,
      parseParameters find Literal.standard "a".toList = .ok ⟨[.varName "a"], []⟩ :=
    fun find => parseParameters_varName (Literal.mem_standard .varName) (by decide)
  obtain ⟨e, first, offers', stored⟩ := offers.exists_setsByLines (n := "a") (by decide)
    (seven _) (by simp [Variables.Covers])
  have held : e.vars.get? "a" = some (.int 7) := stored "a"
  obtain ⟨d, second, -, stored'⟩ := offers'.exists_setsByLines (n := "b") (by decide)
    (named _) (by simp [Variables.Covers, held])
  have copied : d.vars.get? "b" = some (.int 7) := by
    rw [stored', if_pos rfl, Variables.valueOf_of_get? held]
  have declared : SetsByLines {} c := .elsewhere rfl
  have session : ReflTransGen SetsByLines {} d := .tail (.tail (.single declared) first) second
  have law := placeholders_never_leak (fun _ => rfl) session
  refine ⟨d, session, copied, (law.1 "b" _ copied).1, ?_⟩
  intro line m reached call running
  obtain ⟨o, picked, -, length, -⟩ := law.2 line m reached call running
  exact ⟨o, picked, length⟩

end

end Console

end CommandConsole
