import CommandConsole.Proofs.Console.Preparation

/-!
# What a handler asks for next

A handler is at work turn by turn: it makes a request, the console meets it, and
what is left of the handler is smaller. Lines from inside are the exception, for
they are left to be executed. What one turn does is said here for every request,
and `Console.perform` is nothing but turns, one after the other.

What a handler never asks for is a property of its requests alone, whatever it
is answered. It is kept by what is left of the handler.

What becomes of a console by a whole handler is known from what becomes of it by
a single turn, together with what is done around the turns.
-/

namespace CommandConsole

namespace Console

/-- The console with another table of handlers. -/
def withTable (c : Console) (table : HandlerTable) : Console := { c with handlers := table }

/-- The console behind a line. The log is told how the line has ended, if it is to be told. -/
def behind (c : Console) (told : Bool) (result : Except LineError Unit) : Console :=
  if told then c.withTrace c.history (c.log.entries ++ endEntries result) else c

end Console

/-- What a handler asks for next, and what the console makes of it. -/
inductive Turn where
  | halted (outcome : Outcome)
  /-- The request is met, and the handler goes on. -/
  | next (action : Action) (c : Console)
  /-- A line is to be executed, and the handler goes on with its result. The log is told of
  the result if the line is run as if it were typed. -/
  | line (text : String) (c : Console) (told : Bool) (next : Except LineError Unit → Action)

/-- The same turn in another console. -/
def Turn.map (f : Console → Console) : Turn → Turn
  | .halted outcome => .halted outcome
  | .next a c => .next a (f c)
  | .line text c told later => .line text (f c) told later

namespace Action

/-- Meet the next request of a handler, except that lines are left to be executed. -/
def turn : Action → Console → Turn
  | succeed, _ => .halted .succeeded
  | fail fault, _ => .halted (.failed fault)
  | crash reason, _ => .halted (.crashed reason)
  | log level message next, c => .next next (c.say level message)
  | readLog next, c => .next (next c.log.entries) c
  | drainLog next, c => .next (next c.log.drain.1) { c with log := c.log.drain.2 }
  | clearLog next, c => .next next { c with log := c.log.clear }
  | listCommands next, c => .next (next c.registry.commands) c
  | getVariable name next, c => .next (next (c.vars.get name)) c
  | setVariable name value next, c =>
    match c.vars.set name value with
    | .ok vars => .next (next (.ok ())) { c with vars }
    | .error e => .next (next (.error e)) c
  | unsetVariable name next, c =>
    match c.vars.unset name with
    | .ok (value, vars) => .next (next (.ok value)) { c with vars }
    | .error e => .next (next (.error e)) c
  | spawn name next, c =>
    .next (next (c.objects.spawn name).1) { c with objects := (c.objects.spawn name).2 }
  | despawn object next, c =>
    .next (next (c.objects.despawn object).1) { c with objects := (c.objects.despawn object).2 }
  | saveSettings next, c =>
    match c.settings with
    | none => .halted (.crashed (some settingsMissing))
    | some s =>
      .next (next ((s.save c.files c.settingsPath).2.map fun _ => c.settingsPath))
        { c with files := (s.save c.files c.settingsPath).1 }
  | register d next, c =>
    match c.registry.register d with
    | .ok (o, registry) => .next (next (.ok o.id)) { c with registry }
    | .error e => .next (next (.error e)) c
  | run text next, c =>
    if (Console.trimLine text).isEmpty then .next next c
    else .line (Console.trimLine text) (c.echo (Console.trimLine text)) true fun _ => next
  | execute text next, c => .line text c false next

/-- What is left of a handler when its next request has been answered somehow. -/
def Leaves : Action → Action → Prop
  | succeed, _ | fail _, _ | crash _, _ => False
  | log _ _ next, b | clearLog next, b | run _ next, b => b = next
  | readLog next, b | drainLog next, b | listCommands next, b | getVariable _ next, b
  | setVariable _ _ next, b | unsetVariable _ next, b | spawn _ next, b | despawn _ next, b
  | saveSettings next, b | register _ next, b | execute _ next, b => ∃ answer, b = next answer

/-- Whatever a handler is answered, it makes no such request, and it does not end like that. -/
def Never (p : Action → Prop) : Action → Prop
  | a@succeed | a@(fail _) | a@(crash _) => ¬ p a
  | a@(log _ _ next) | a@(clearLog next) | a@(run _ next) => ¬ p a ∧ next.Never p
  | a@(readLog next) | a@(drainLog next) | a@(listCommands next) | a@(getVariable _ next)
  | a@(setVariable _ _ next) | a@(unsetVariable _ next) | a@(spawn _ next) | a@(despawn _ next)
  | a@(saveSettings next) | a@(register _ next) | a@(execute _ next) =>
    ¬ p a ∧ ∀ answer, (next answer).Never p

/-- The handler is told what is in the log. -/
def ReadsLog : Action → Prop
  | readLog _ | drainLog _ => True
  | _ => False

/-- The handler takes what is in the log away. -/
def EmptiesLog : Action → Prop
  | drainLog _ | clearLog _ => True
  | _ => False

section

variable {a b : Action} {c d : Console} {p q : Action → Prop}

theorem leaves_of_turn_next (turn : a.turn c = .next b d) : a.Leaves b := by
  cases a with
  | log | clearLog =>
      cases turn
      rfl
  | readLog | drainLog | listCommands | getVariable | spawn | despawn =>
      cases turn
      exact ⟨_, rfl⟩
  | setVariable | unsetVariable | saveSettings | register =>
      simp only [Action.turn] at turn
      split at turn <;> cases turn
      all_goals exact ⟨_, rfl⟩
  | run =>
      simp only [Action.turn] at turn
      split at turn <;> cases turn
      rfl
  | succeed | fail | crash | execute => cases turn

/-- Only two requests leave a line to be executed. -/
theorem cases_of_turn_line {text : String} {told : Bool}
    {later : Except LineError Unit → Action} (turn : a.turn c = .line text d told later) :
    (∃ line next, a = .run line next ∧ text = Console.trimLine line ∧ d = c.echo text ∧
      told = true ∧ later = fun _ => next) ∨
    a = .execute text later ∧ d = c ∧ told = false := by
  cases a with
  | run line next =>
      simp only [Action.turn] at turn
      split at turn <;> cases turn
      exact .inl ⟨line, next, rfl, rfl, rfl, rfl, rfl⟩
  | execute =>
      cases turn
      exact .inr ⟨rfl, rfl, rfl⟩
  | setVariable | unsetVariable | saveSettings | register =>
      simp only [Action.turn] at turn
      split at turn <;> cases turn
  | _ => cases turn

theorem leaves_of_turn_line {text : String} {told : Bool}
    {later : Except LineError Unit → Action} (turn : a.turn c = .line text d told later)
    (result : Except LineError Unit) : a.Leaves (later result) := by
  obtain ⟨_, _, rfl, -, -, -, rfl⟩ | ⟨rfl, -, -⟩ := cases_of_turn_line turn
  · rfl
  · exact ⟨result, rfl⟩

/-- What is left of a handler is a part of it, so all handlers end. -/
theorem induction_leaves {motive : Action → Prop}
    (step : ∀ a : Action, (∀ b, a.Leaves b → motive b) → motive a) (a : Action) : motive a := by
  induction a with
  | succeed | fail | crash => exact step _ nofun
  | log _ _ _ ih | clearLog _ ih | run _ _ ih =>
      refine step _ ?_
      rintro _ rfl
      exact ih
  | readLog _ ih | drainLog _ ih | listCommands _ ih | getVariable _ _ ih | setVariable _ _ _ ih
  | unsetVariable _ _ ih | spawn _ _ ih | despawn _ _ ih | saveSettings _ ih | register _ _ ih
  | execute _ _ ih =>
      refine step _ ?_
      rintro _ ⟨answer, rfl⟩
      exact ih answer

theorem Never.not (never : a.Never p) : ¬ p a := by
  cases a with
  | succeed | fail | crash => exact never
  | _ => exact never.1

theorem Never.mono (never : a.Never q) (implies : ∀ b, p b → q b) : a.Never p := by
  induction a with
  | succeed | fail | crash => exact mt (implies _) never
  | log _ _ _ ih | clearLog _ ih | run _ _ ih => exact ⟨mt (implies _) never.1, ih never.2⟩
  | readLog _ ih | drainLog _ ih | listCommands _ ih | getVariable _ _ ih | setVariable _ _ _ ih
  | unsetVariable _ _ ih | spawn _ _ ih | despawn _ _ ih | saveSettings _ ih | register _ _ ih
  | execute _ _ ih => exact ⟨mt (implies _) never.1, fun answer => ih answer (never.2 answer)⟩

theorem Never.of_leaves (never : a.Never p) (leaves : a.Leaves b) : b.Never p := by
  cases a with
  | succeed | fail | crash => cases leaves
  | log | clearLog | run =>
      cases leaves
      exact never.2
  | _ =>
      obtain ⟨answer, rfl⟩ := leaves
      exact never.2 answer

end

end Action

/-- Whatever the handler is called with, it makes no such request. -/
def Handler.Never (p : Action → Prop) (h : Handler) : Prop :=
  ∀ calls args, (h calls args).Never p

theorem Handler.Never.mono {p q : Action → Prop} {h : Handler} (never : h.Never q)
    (implies : ∀ a, p a → q a) : h.Never p :=
  fun calls args => (never calls args).mono implies

namespace Console

/-- A handler is at work turn by turn. A line from inside ends it, if a call comes out. -/
theorem perform_eq (a : Action) (c : Console) :
    perform a c =
      match a.turn c with
      | .halted outcome => (c, outcome)
      | .next b d => perform b d
      | .line text d told next =>
        match d.callOf text with
        | .error e => perform (next (.error e)) ((d.prepared text).behind told (.error e))
        | .ok _ => (d.prepared text, .crashed (some tableInUse)) := by
  cases a with
  | setVariable name value =>
      rw [perform, Action.turn]
      cases c.vars.set name value <;> rfl
  | unsetVariable name =>
      rw [perform, Action.turn]
      cases c.vars.unset name <;> rfl
  | register d =>
      rw [perform, Action.turn]
      cases c.registry.register d <;> rfl
  | saveSettings =>
      rw [perform, Action.turn]
      cases c.settings <;> rfl
  | run text next =>
      rw [perform, Action.turn, prepare_eq]
      split
      · rfl
      · cases computed : (c.echo (trimLine text)).callOf (trimLine text) with
        | error e => simp only [computed]; rfl
        | ok call => simp only [computed]
  | execute text next =>
      rw [perform, Action.turn, prepare_eq]
      cases computed : c.callOf text with
      | error e => simp only [computed]; rfl
      | ok call => simp only [computed]
  | _ => rfl

/-- A relation between consoles takes in all that is done around the requests of handlers: lines
are echoed and prepared, and the log is told how they have ended. -/
structure Admits (R : Console → Console → Prop) : Prop where
  refl : ∀ c, R c c
  trans : ∀ {b c d}, R b c → R c d → R b d
  echo : ∀ c line, R c (c.echo line)
  prepared : ∀ c line, R c (c.prepared line)
  behind : ∀ c told result, R c (c.behind told result)

namespace Admits

variable {R : Console → Console → Prop} (admits : Admits R)

include admits

/-- A line that is run from inside is at most echoed before it is executed. -/
theorem of_turn_line {a : Action} {c d : Console} {text : String} {told : Bool}
    {later : Except LineError Unit → Action} (turn : a.turn c = .line text d told later) :
    R c d := by
  obtain ⟨_, _, -, -, rfl, -, -⟩ | ⟨-, rfl, -⟩ := Action.cases_of_turn_line turn
  · exact admits.echo c text
  · exact admits.refl _

/-- If it takes in what is met for a handler turn by turn, it takes in all that the handler does.
What is known of the handler may be used, if it is known of all that is left of it. -/
theorem perform {I : Action → Prop} (leaves : ∀ {a b : Action}, I a → a.Leaves b → I b)
    (next : ∀ {a b : Action} {c d}, I a → a.turn c = .next b d → R c d) {a : Action}
    (known : I a) (c : Console) : R c (Console.perform a c).1 := by
  induction a using Action.induction_leaves generalizing c with
  | step a ih =>
    rw [perform_eq]
    cases turn : a.turn c with
    | halted outcome => exact admits.refl c
    | next b d =>
        have left := Action.leaves_of_turn_next turn
        exact admits.trans (next known turn) (ih b left (leaves known left) d)
    | line text d told later =>
        have before : R c (d.prepared text) :=
          admits.trans (admits.of_turn_line turn) (admits.prepared d text)
        simp only
        cases d.callOf text with
        | ok call => exact before
        | error e =>
            have left := Action.leaves_of_turn_line turn (.error e)
            have refused := admits.trans before (admits.behind _ told (.error e))
            exact admits.trans refused (ih _ left (leaves known left) _)

end Admits

end Console

end CommandConsole
