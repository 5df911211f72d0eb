import CommandConsole.Proofs.Console.Containment
import CommandConsole.Proofs.Console.Session
import CommandConsole.Proofs.Handler.Builtin
import CommandConsole.Proofs.Line.Edges
import CommandConsole.Proofs.Variable.Store

/-!
# Setting, showing and forgetting a variable

A console that offers the built-in commands for variables, and nothing else
under their names, can be used as a store: what `set` stores for a name is what
`peek` shows, until `unset` forgets it. The value may be written as any literal.
A variable in its place is copied if it is set, and refused if it is not, while
the variable that is set stays a name from the line to the handler.
-/

namespace CommandConsole

open Text

namespace Console

open Relation

/-- A command has one overload, of certain kinds, with its handler in the table. -/
def Offers (c : Console) (name : String) (kinds : List Kind) (h : Handler) : Prop :=
  ∃ o calls, c.registry.overloads name = [o] ∧ o.kinds = kinds ∧
    c.handlers[o.id]? = some ⟨h, calls⟩

/-- Standard literals are read, and the names of the built-in commands for variables have no
overloads but the built-in ones. -/
structure OffersVariables (c : Console) : Prop where
  literals : c.literals = Literal.standard
  set : c.Offers "set" [.varName, .any] Builtin.set
  unset : c.Offers "unset" [.varName] Builtin.unset
  peek : c.Offers "peek" [.varName] Builtin.peek

section Offering

variable {c d : Console} {name : String} {kinds : List Kind} {h : Handler}

theorem Step.literals (step : Step c d) : d.literals = c.literals := by
  cases step with
  | count => rfl
  | change change => cases change <;> rfl

/-- A line only counts the calls of a handler. -/
theorem Step.handler (step : Step c d) {id calls : Nat}
    (present : c.handlers[id]? = some ⟨h, calls⟩) :
    ∃ calls', d.handlers[id]? = some ⟨h, calls'⟩ := by
  cases step with
  | change change => exact ⟨calls, change.handlers ▸ present⟩
  | @count counted entry found =>
      rw [withHandler, Std.TreeMap.getElem?_insert]
      by_cases same : compare counted id = .eq
      · obtain rfl := Std.LawfulEqCmp.compare_eq_iff_eq.mp same
        obtain rfl := Option.some.inj (found.symm.trans present)
        exact ⟨calls + 1, by simp [HandlerEntry.called]⟩
      · exact ⟨calls, by rw [if_neg same, present]⟩

theorem literals_of_steps (steps : ReflTransGen Step c d) : d.literals = c.literals := by
  induction steps with
  | refl => rfl
  | tail _ step ih => exact step.literals.trans ih

theorem handler_of_steps (steps : ReflTransGen Step c d) {id calls : Nat}
    (present : c.handlers[id]? = some ⟨h, calls⟩) :
    ∃ calls', d.handlers[id]? = some ⟨h, calls'⟩ := by
  induction steps with
  | refl => exact ⟨calls, present⟩
  | tail _ step ih =>
      obtain ⟨_, present'⟩ := ih
      exact step.handler present'

theorem Offers.run (offers : c.Offers name kinds h) (line : String) :
    (c.run line).Offers name kinds h := by
  by_cases blank : (trimLine line).isEmpty = true
  · rw [run_of_blank blank]
    exact offers
  · obtain ⟨o, calls, only, declared, present⟩ := offers
    obtain ⟨calls', present'⟩ := handler_of_steps (steps_run c line) present
    refine ⟨o, calls', ?_, declared, present'⟩
    rw [registry_run blank, Registry.overloads_freeze, only]

theorem OffersVariables.run (offers : c.OffersVariables) (line : String) :
    (c.run line).OffersVariables :=
  ⟨(literals_of_steps (steps_run c line)).trans offers.literals, offers.set.run line,
    offers.unset.run line, offers.peek.run line⟩

end Offering

/-- A line is not blank and enters a handler with certain values, behind certain warnings. -/
structure Enters (c : Console) (line : String) (h : Handler) (values : List Value)
    (warnings : List Warning) : Prop where
  present : ¬ (trimLine line).isEmpty = true
  warned : c.warningsOf (trimLine line) = warnings
  entered : ∃ call calls, c.entered? (trimLine line) = some (call, ⟨h, calls⟩) ∧
    call.values = values

/-- The entries with which a line is shown in the log, before anything is done for it. -/
def shownEntries (c : Console) (line : String) (warnings : List Warning) : List LogEntry :=
  c.echoEntry (trimLine line) :: warnings.map Warning.entry

section Entering

variable {c : Console} {line message : String} {h : Handler} {values : List Value}
  {warnings : List Warning}

theorem Enters.run (enters : c.Enters line h values warnings) {after : Console}
    {outcome : Outcome} (performed : ∀ calls text,
      perform (h calls ⟨text, values⟩) (c.entering (trimLine line)) = (after, outcome)) :
    (c.run line).vars = after.vars ∧ ∃ name, (c.run line).log.entries =
      after.log.entries ++ endEntries ((outcome.result name).mapError .invocation) := by
  obtain ⟨call, calls, entered, rfl⟩ := enters.entered
  have entered' : (c.echo (trimLine line)).entered? (trimLine line) =
      some (call, ⟨h, calls⟩) := entered
  have acted := performed (calls + 1) call.line
  rw [entering] at acted
  rw [run_of_not_blank enters.present, execute_of_entered entered', HandlerEntry.action, acted]
  exact ⟨rfl, call.name, rfl⟩

theorem Enters.entries_entering (enters : c.Enters line h values warnings) :
    (c.entering (trimLine line)).log.entries =
      c.log.entries ++ c.shownEntries line warnings := by
  rw [Console.entries_entering, enters.warned, shownEntries]

/-- A handler that changes nothing but variables, and tells so. -/
theorem Enters.run_say (enters : c.Enters line h values warnings) {vars : Variables}
    {level : Level} (performed : ∀ calls text,
      perform (h calls ⟨text, values⟩) (c.entering (trimLine line)) =
        ({ c.entering (trimLine line) with vars }.say level message, .succeeded)) :
    (c.run line).vars = vars ∧ (c.run line).log.entries =
      c.log.entries ++ c.shownEntries line warnings ++ [⟨level, message⟩] := by
  obtain ⟨changed, _, logged⟩ := enters.run performed
  refine ⟨changed, ?_⟩
  rw [logged, ← enters.entries_entering]
  exact List.append_nil _

/-- A handler that fails at once. -/
theorem Enters.run_fail (enters : c.Enters line h values warnings)
    (performed : ∀ calls text,
      perform (h calls ⟨text, values⟩) (c.entering (trimLine line)) =
        (c.entering (trimLine line), .failed ⟨message, []⟩)) :
    (c.run line).vars = c.vars ∧ (c.run line).log.entries =
      c.log.entries ++ c.shownEntries line warnings ++ [⟨.error, message⟩] := by
  obtain ⟨kept, _, logged⟩ := enters.run performed
  refine ⟨kept, ?_⟩
  rw [logged, ← enters.entries_entering]
  rfl

end Entering

/-- A line is the name of a command with something visible behind a blank. -/
structure Calls (line name : String) (t : List Char) : Prop where
  whole : line.toList = name.toList ++ t
  word : ∀ c ∈ name.toList, isBlank c = false
  nonempty : name.toList ≠ []
  boundary : atBoundary t = true
  visible : ∃ c ∈ t, isBlank c = false

section Lines

variable {c : Console} {line name : String} {t : List Char} {kinds : List Kind} {h : Handler}
  {p : Parameters}

theorem Calls.not_blank (calls : Calls line name t) : ¬ (trimLine line).isEmpty = true := by
  rw [trimLine, calls.whole, trim_word_append calls.word calls.nonempty calls.visible]
  simpa using fun _ => calls.visible

theorem Calls.splitLine (calls : Calls line name t) :
    splitLine (trimLine line).toList = (name.toList, t.rdropWhile isBlank) := by
  rw [trimLine, String.toList_ofList, calls.whole]
  exact splitLine_trim calls.word calls.nonempty calls.boundary calls.visible

theorem Calls.commandOf (calls : Calls line name t) : commandOf (trimLine line) = name := by
  rw [CommandConsole.commandOf, calls.splitLine, String.ofList_toList]

theorem Calls.parametersOf (calls : Calls line name t)
    (read : parseParameters c.objects.find? c.literals t = .ok p) :
    c.parametersOf (trimLine line) = .ok p := by
  rw [Console.parametersOf, calls.splitLine]
  exact parseParameters_rdropWhile.mpr read

section Offered

variable (offers : c.Offers name kinds h) (calls : Calls line name t)
  (read : parseParameters c.objects.find? c.literals t = .ok p)

include offers calls read

theorem Offers.warningsOf : c.warningsOf (trimLine line) = p.warnings := by
  obtain ⟨o, _, only, -, -⟩ := offers
  have known : c.registry.contains name = true :=
    Registry.contains_of_mem_overloads (only ▸ List.mem_singleton_self o)
  rw [Console.warningsOf, calls.commandOf, if_pos known, calls.parametersOf read]

variable (viable : ∀ o : Overload, o.kinds = kinds → (o.score? c.vars p.values).isSome = true)

include viable

/-- The overload that is offered is picked, and only binding can still fail. -/
theorem Offers.exists_callOf : ∃ id count, c.handlers[id]? = some ⟨h, count⟩ ∧
    (∀ e, bindValues c.vars p.values kinds = .error e →
      c.callOf (trimLine line) = .error (.invocation e)) ∧
    ∀ values, bindValues c.vars p.values kinds = .ok values →
      c.callOf (trimLine line) = .ok ⟨name, trimLine line, id, values⟩ := by
  obtain ⟨o, count, only, rfl, present⟩ := offers
  have known : c.registry.contains name = true :=
    Registry.contains_of_mem_overloads (only ▸ List.mem_singleton_self o)
  have picked : c.registry.resolve name c.vars p.values = .ok o := by
    rw [Registry.resolve, only]
    exact resolve_singleton (viable o rfl)
  rw [callOf, calls.commandOf, if_pos known, calls.parametersOf read]
  refine ⟨o.id, count, present, ?_, ?_⟩
  · intro e unbound
    simp only [picked, unbound]
  · intro values bound
    simp only [picked, bound]

theorem Offers.enters {values : List Value}
    (bound : bindValues c.vars p.values kinds = .ok values) :
    c.Enters line h values p.warnings := by
  obtain ⟨id, count, present, -, computed⟩ := offers.exists_callOf calls read viable
  exact ⟨calls.not_blank, offers.warningsOf calls read, _, count,
    entered?_eq_some_iff.mpr ⟨computed values bound, present⟩, rfl⟩

/-- Without its values a line only shows why it has failed. -/
theorem Offers.run_of_unbound {e : InvocationError}
    (unbound : bindValues c.vars p.values kinds = .error e) :
    (c.run line).vars = c.vars ∧ (c.run line).log.entries =
      c.log.entries ++ c.shownEntries line p.warnings ++ [⟨.error, e.message⟩] := by
  obtain ⟨_, _, -, refused, -⟩ := offers.exists_callOf calls read viable
  have computed := refused e unbound
  have out : c.entered? (trimLine line) = none := by rw [entered?, computed]
  have failed : (c.execute (trimLine line)).2 = .error (.invocation e) := by
    rw [execute_of_not_entered out, errorOf, computed]
  rw [run_of_not_entered calls.not_blank out, failed, offers.warningsOf calls read]
  exact ⟨rfl, rfl⟩

end Offered

end Lines

/-- The line that sets a variable to a written value. -/
def setLine (n t : String) : String := "set " ++ n ++ " " ++ t

/-- The line that shows a variable. -/
def peekLine (n : String) : String := "peek " ++ n

/-- The line that forgets a variable. -/
def unsetLine (n : String) : String := "unset " ++ n

section Written

variable {vs : Variables} {find : ObjectLookup} {line name n t : String} {u : List Char} {v : Value}
  {ws : List Warning}

theorem Calls.of_isValid (valid : VariableName.isValid n.toList = true)
    (command : CommandName.isValid name.toList = true)
    (whole : line.toList = name.toList ++ ' ' :: (n.toList ++ u)) :
    Calls line name (' ' :: (n.toList ++ u)) := by
  refine ⟨whole, CommandName.isBlank_eq_false_of_isValid command,
    CommandName.ne_nil_of_isValid command, rfl, ?_⟩
  obtain ⟨c, w, letters, -⟩ := exists_cons_of_isValid valid
  have inside : c ∈ n.toList := letters ▸ List.mem_cons_self ..
  exact ⟨c, by simp [inside], VariableName.isBlank_eq_false_of_isValid valid c inside⟩

theorem calls_set (valid : VariableName.isValid n.toList = true) (t : String) :
    Calls (setLine n t) "set" (' ' :: (n.toList ++ ' ' :: t.toList)) :=
  .of_isValid valid (by decide) (by simp [setLine])

theorem calls_unset (valid : VariableName.isValid n.toList = true) :
    Calls (unsetLine n) "unset" (' ' :: (n.toList ++ [])) :=
  .of_isValid valid (by decide) (by simp [unsetLine])

theorem calls_peek (valid : VariableName.isValid n.toList = true) :
    Calls (peekLine n) "peek" (' ' :: (n.toList ++ [])) :=
  .of_isValid valid (by decide) (by simp [peekLine])

theorem parseParameters_name (valid : VariableName.isValid n.toList = true) :
    parseParameters find Literal.standard (' ' :: (n.toList ++ [])) = .ok ⟨[.varName n], []⟩ := by
  have blank : ∀ c ∈ [' '], isBlank c = true := by simp; rfl
  have named : parseParameters find Literal.standard n.toList =
      .ok ⟨[.varName (String.ofList n.toList)], []⟩ :=
    parseParameters_varName (Literal.mem_standard .varName) valid
  rw [String.ofList_toList] at named
  rw [List.append_nil, ← List.singleton_append, parseParameters_append_of_blank blank, named]

theorem parseParameters_name_value (valid : VariableName.isValid n.toList = true)
    (read : parseParameters find Literal.standard t.toList = .ok ⟨[v], ws⟩) :
    parseParameters find Literal.standard (' ' :: (n.toList ++ ' ' :: t.toList)) =
      .ok ⟨[.varName n, v], ws⟩ := by
  have blank : ∀ c ∈ [' '], isBlank c = true := by simp; rfl
  have named : parseParameters find Literal.standard (' ' :: n.toList) =
      .ok ⟨[.varName n], []⟩ := by
    rw [← parseParameters_name valid, List.append_nil]
  have split : ' ' :: (n.toList ++ ' ' :: t.toList) = ' ' :: n.toList ++ [' '] ++ t.toList := by
    simp
  rw [split, parseParameters_append_gap blank (by simp) (by simp [named]), named, read]
  rfl

theorem viable_name {o : Overload} (kinds : o.kinds = [.varName]) :
    (o.score? vs [.varName n]).isSome = true := by
  rw [Overload.score?, kinds]
  rfl

theorem viable_name_value {o : Overload} (kinds : o.kinds = [.varName, .any]) :
    (o.score? vs [.varName n, v]).isSome = true := by
  obtain ⟨points, scored⟩ := Option.isSome_iff_exists.mp (isSome_parameterScore?_any vs v)
  have named : parameterScore? vs (.varName n) .varName = some 2 := rfl
  rw [Overload.score?, kinds]
  simp [named, scored]

end Written

namespace OffersVariables

section

variable {c : Console} {n t : String} {v : Value} {ws : List Warning}

/-- The values of `set` are the name and what the written value stands for. -/
theorem enters_set (offers : c.OffersVariables) (valid : VariableName.isValid n.toList = true)
    (read : parseParameters c.objects.find? Literal.standard t.toList = .ok ⟨[v], ws⟩)
    (covered : c.vars.Covers [v]) :
    c.Enters (setLine n t) Builtin.set [.varName n, c.vars.valueOf v] ws := by
  have read' := parseParameters_name_value valid read
  rw [← offers.literals] at read'
  refine offers.set.enters (calls_set valid t) read' (fun _ => viable_name_value) ?_
  have stands : bindValue c.vars v .any = .ok (c.vars.valueOf v) :=
    bindValue_eq_valueOf covered (List.mem_singleton_self v) (by decide)
  exact bindValues_eq_ok_iff.mpr (.cons rfl (.cons stands .nil))

theorem enters_name {line name : String} {h : Handler} (offers : c.OffersVariables)
    (offered : c.Offers name [.varName] h) (valid : VariableName.isValid n.toList = true)
    (calls : Calls line name (' ' :: (n.toList ++ []))) :
    c.Enters line h [.varName n] [] := by
  have read : parseParameters c.objects.find? Literal.standard (' ' :: (n.toList ++ [])) =
      .ok ⟨[.varName n], []⟩ := parseParameters_name valid
  rw [← offers.literals] at read
  exact offered.enters calls read (fun _ => viable_name)
    (bindValues_eq_ok_iff.mpr (.cons rfl .nil))

/-- What is written is stored under the name. -/
theorem run_set (offers : c.OffersVariables) (valid : VariableName.isValid n.toList = true)
    (read : parseParameters c.objects.find? Literal.standard t.toList = .ok ⟨[v], ws⟩)
    (covered : c.vars.Covers [v]) :
    (∀ other, (c.run (setLine n t)).vars.get? other =
      if n = other then some (c.vars.valueOf v) else c.vars.get? other) ∧
    (c.run (setLine n t)).log.entries =
      c.log.entries ++ c.shownEntries (setLine n t) ws ++
        [⟨.success, Builtin.setMessage n (c.vars.valueOf v)⟩] := by
  obtain ⟨vars, stored⟩ := Variables.exists_set_of_isValid valid (c.vars.valueOf v)
  have held : (c.entering (trimLine (setLine n t))).vars.set n (c.vars.valueOf v) =
      .ok vars := stored
  obtain ⟨changed, told⟩ := (offers.enters_set valid read covered).run_say fun _ _ => by
    rw [Builtin.perform_set, held]
  rw [changed]
  exact ⟨Variables.get?_set stored, told⟩

/-- A variable that is not set cannot be copied. -/
theorem run_set_of_unbound {m : String} (offers : c.OffersVariables)
    (valid : VariableName.isValid n.toList = true)
    (read : parseParameters c.objects.find? Literal.standard t.toList = .ok ⟨[.varName m], ws⟩)
    (unbound : c.vars.get? m = none) :
    (c.run (setLine n t)).vars = c.vars ∧
    (c.run (setLine n t)).log.entries =
      c.log.entries ++ c.shownEntries (setLine n t) ws ++
        [⟨.error, (InvocationError.unboundVariable m).message⟩] := by
  have read' := parseParameters_name_value valid read
  rw [← offers.literals] at read'
  refine offers.set.run_of_unbound (calls_set valid t) read' (fun _ => viable_name_value) ?_
  simp [bindValues, bindValue, unbound, bind, Except.bind]

section Shown

variable (offers : c.OffersVariables) (valid : VariableName.isValid n.toList = true)

include offers valid

theorem run_peek (stored : c.vars.get? n = some v) :
    (c.run (peekLine n)).vars = c.vars ∧
    (c.run (peekLine n)).log.entries =
      c.log.entries ++ c.shownEntries (peekLine n) [] ++ [⟨.info, v.text⟩] := by
  have held : (c.entering (trimLine (peekLine n))).vars.get n = .ok v := by
    change c.vars.get n = .ok v
    rw [Variables.get, stored]
  exact (offers.enters_name offers.peek valid (calls_peek valid)).run_say fun _ _ => by
    rw [Builtin.perform_peek, held]
    rfl

theorem run_unset (stored : c.vars.get? n = some v) :
    (∀ other, (c.run (unsetLine n)).vars.get? other =
      if n = other then none else c.vars.get? other) ∧
    (c.run (unsetLine n)).log.entries =
      c.log.entries ++ c.shownEntries (unsetLine n) [] ++
        [⟨.success, Builtin.unsetMessage n⟩] := by
  obtain ⟨vars, forgotten⟩ := Variables.exists_unset_of_get? stored
  have held : (c.entering (trimLine (unsetLine n))).vars.unset n = .ok (v, vars) := forgotten
  have enters := offers.enters_name offers.unset valid (calls_unset valid)
  obtain ⟨changed, told⟩ := enters.run_say fun _ _ => by rw [Builtin.perform_unset, held]
  rw [changed]
  exact ⟨Variables.get?_unset forgotten, told⟩

theorem run_peek_of_unbound (unbound : c.vars.get? n = none) :
    (c.run (peekLine n)).vars = c.vars ∧
    (c.run (peekLine n)).log.entries =
      c.log.entries ++ c.shownEntries (peekLine n) [] ++
        [⟨.error, (VariableError.unbound n).message⟩] := by
  have held : (c.entering (trimLine (peekLine n))).vars.get n = .error (.unbound n) := by
    change c.vars.get n = .error (.unbound n)
    rw [Variables.get, unbound]
  exact (offers.enters_name offers.peek valid (calls_peek valid)).run_fail fun _ _ => by
    rw [Builtin.perform_peek, held]

theorem run_unset_of_unbound (unbound : c.vars.get? n = none) :
    (c.run (unsetLine n)).vars = c.vars ∧
    (c.run (unsetLine n)).log.entries =
      c.log.entries ++ c.shownEntries (unsetLine n) [] ++
        [⟨.error, Builtin.notSetMessage n⟩] := by
  have held : (c.entering (trimLine (unsetLine n))).vars.unset n = .error (.unbound n) := by
    change c.vars.unset n = .error (.unbound n)
    rw [Variables.unset, unbound]
  exact (offers.enters_name offers.unset valid (calls_unset valid)).run_fail fun _ _ => by
    rw [Builtin.perform_unset, held]

/-- Without a value, neither showing nor forgetting changes anything but the log. -/
theorem run_of_unbound {line : String} (unbound : c.vars.get? n = none)
    (either : line = peekLine n ∨ line = unsetLine n) :
    (c.run line).vars = c.vars ∧ ∃ message, (c.run line).log.entries =
      c.log.entries ++ c.shownEntries line [] ++ [⟨.error, message⟩] := by
  rcases either with rfl | rfl
  · obtain ⟨kept, logged⟩ := offers.run_peek_of_unbound valid unbound
    exact ⟨kept, _, logged⟩
  · obtain ⟨kept, logged⟩ := offers.run_unset_of_unbound valid unbound
    exact ⟨kept, _, logged⟩

omit offers in
theorem runAll_of_unbound {lines : List String} (offers : c.OffersVariables)
    (unbound : c.vars.get? n = none)
    (either : ∀ line ∈ lines, line = peekLine n ∨ line = unsetLine n) :
    (c.runAll lines).OffersVariables ∧ (c.runAll lines).vars = c.vars := by
  induction lines generalizing c with
  | nil => exact ⟨offers, rfl⟩
  | cons line lines ih =>
      obtain ⟨first, others⟩ := List.forall_mem_cons.mp either
      have kept := (offers.run_of_unbound valid unbound first).1
      have unbound' : (c.run line).vars.get? n = none := by rw [kept, unbound]
      obtain ⟨offered, same⟩ := ih (offers.run line) unbound' others
      rw [runAll_cons]
      exact ⟨offered, same.trans kept⟩

end Shown

end

end OffersVariables

/-- What is written behind a valid name is stored, shown and forgotten again. After that showing
and forgetting fail, each time. A variable that is not set is not stored. -/
theorem set_peek_unset_roundtrip {c : Console} {n t : String} {v : Value} {ws : List Warning}
    (offers : c.OffersVariables) (valid : VariableName.isValid n.toList = true)
    (read : parseParameters c.objects.find? Literal.standard t.toList = .ok ⟨[v], ws⟩) :
    let afterSet := c.run (setLine n t)
    let afterPeek := afterSet.run (peekLine n)
    let afterUnset := afterPeek.run (unsetLine n)
    (c.vars.Covers [v] →
      (∀ other, afterSet.vars.get? other =
        if n = other then some (c.vars.valueOf v) else c.vars.get? other) ∧
      afterSet.log.entries = c.log.entries ++ c.shownEntries (setLine n t) ws ++
        [⟨.success, Builtin.setMessage n (c.vars.valueOf v)⟩] ∧
      afterPeek.vars = afterSet.vars ∧
      afterPeek.log.entries = afterSet.log.entries ++ afterSet.shownEntries (peekLine n) [] ++
        [⟨.info, (c.vars.valueOf v).text⟩] ∧
      (∀ other, afterUnset.vars.get? other =
        if n = other then none else afterPeek.vars.get? other) ∧
      afterUnset.log.entries = afterPeek.log.entries ++ afterPeek.shownEntries (unsetLine n) [] ++
        [⟨.success, Builtin.unsetMessage n⟩] ∧
      ∀ earlier, (∀ line ∈ earlier, line = peekLine n ∨ line = unsetLine n) →
        ∀ line, line = peekLine n ∨ line = unsetLine n →
          let d := afterUnset.runAll earlier
          d.vars = afterUnset.vars ∧ (d.run line).vars = d.vars ∧
          ∃ message, (d.run line).log.entries =
            d.log.entries ++ d.shownEntries line [] ++ [⟨.error, message⟩]) ∧
    ∀ m, v = .varName m → c.vars.get? m = none →
      afterSet.vars = c.vars ∧
      afterSet.log.entries = c.log.entries ++ c.shownEntries (setLine n t) ws ++
        [⟨.error, (InvocationError.unboundVariable m).message⟩] := by
  intro afterSet afterPeek afterUnset
  have set_eq : afterSet = c.run (setLine n t) := rfl
  have peek_eq : afterPeek = afterSet.run (peekLine n) := rfl
  have unset_eq : afterUnset = afterPeek.run (unsetLine n) := rfl
  -- The consoles must not be computed when the facts about them are put together.
  clear_value afterUnset afterPeek afterSet
  constructor
  · intro covered
    obtain ⟨stored, told⟩ := offers.run_set valid read covered
    have offers₁ := offers.run (setLine n t)
    rw [← set_eq] at stored told offers₁
    have held : afterSet.vars.get? n = some (c.vars.valueOf v) := by rw [stored, if_pos rfl]
    obtain ⟨kept, shown⟩ := offers₁.run_peek valid held
    have offers₂ := offers₁.run (peekLine n)
    rw [← peek_eq] at kept shown offers₂
    obtain ⟨forgotten, told'⟩ := offers₂.run_unset valid (kept ▸ held)
    have offers₃ := offers₂.run (unsetLine n)
    rw [← unset_eq] at forgotten told' offers₃
    have unbound : afterUnset.vars.get? n = none := by rw [forgotten, if_pos rfl]
    refine ⟨stored, told, kept, shown, forgotten, told', ?_⟩
    intro earlier either line either'
    obtain ⟨offered, same⟩ := offers₃.runAll_of_unbound valid unbound either
    rw [← same] at unbound
    exact ⟨same, offered.run_of_unbound valid unbound either'⟩
  · rintro m rfl unbound
    rw [set_eq]
    exact offers.run_set_of_unbound valid read unbound

/-- An object that is not found is stored as `null`, and a variable that is not set is not
stored. -/
theorem set_peek_unset_roundtrip_missing_object :
    let c := ({} : Console).declareBuiltins
    let d := c.run (setLine "a" "{Ghost} ")
    c.OffersVariables ∧ d.vars.get? "a" = some .null ∧
      (d.run (peekLine "a")).log.entries =
        d.log.entries ++ d.shownEntries (peekLine "a") [] ++ [⟨.info, "null"⟩] ∧
      (c.run (setLine "a" "b")).vars = c.vars := by
  intro c d
  have offers : c.OffersVariables :=
    ⟨rfl, ⟨_, _, rfl, rfl, rfl⟩, ⟨_, _, rfl, rfl, rfl⟩, ⟨_, _, rfl, rfl, rfl⟩⟩
  have ghost : parseParameters c.objects.find? Literal.standard "{Ghost} ".toList =
      .ok ⟨[.null], [.unknownObject "Ghost"]⟩ := by
    have text : "{Ghost} ".toList = ['{', 'G', 'h', 'o', 's', 't', '}', ' '] := by decide
    rw [text, parseParameters_eq,
      readAll_of_token (l := .object) (t := ['{', 'G', 'h', 'o', 's', 't', '}']) (r := [' ']) rfl
        (by decide),
      readAll_of_blank rfl]
    rfl
  have other : parseParameters c.objects.find? Literal.standard "b".toList =
      .ok ⟨[.varName "b"], []⟩ :=
    parseParameters_varName (Literal.mem_standard .varName) (by decide)
  have valid : VariableName.isValid "a".toList = true := by decide
  obtain ⟨stored, -, -, shown, -⟩ :=
    (set_peek_unset_roundtrip offers valid ghost).1 (by simp [Variables.Covers])
  have refused := (set_peek_unset_roundtrip offers valid other).2 "b" rfl rfl
  exact ⟨offers, stored "a", shown, refused.1⟩

end Console

end CommandConsole
