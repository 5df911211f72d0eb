import CommandConsole.Handler.Scripted
import CommandConsole.Proofs.Command.Acceptance
import CommandConsole.Proofs.Console.Activity

/-!
# The first line ends all declaring

A session is followed step by step. Between lines the host declares commands,
freezes the registry and does other things; a line goes on by the steps of its
execution, in which its handler may declare commands as well. At any time the
registry holds exactly what it has accepted so far. The first step of a line
freezes it, and from then on nothing that the host or a handler declares is
accepted.
-/

namespace CommandConsole

open Relation Console

/-- The overload that a request of a handler adds, if it is an accepted declaration. -/
def Action.accepted (a : Action) (r : Registry) : List Overload :=
  match a with
  | .register d _ => r.accepted d
  | _ => []

/-- The overload that the next step of a line adds. -/
def Activity.accepted (m : Activity) : List Overload :=
  match m.control with
  | .act a => a.accepted m.console.registry
  | _ => []

/-- What can happen next, with the overloads that are accepted in it. -/
inductive Moment : Activity → List Overload → Activity → Prop where
  | declare (c : Console) (d : Declaration) (h : Handler) (result : Except LineError Unit) :
    Moment (.finished (c, result)) (c.registry.accepted d) (.finished ((c.declare d h).1, result))
  | freeze (c : Console) (result : Except LineError Unit) :
    Moment (.finished (c, result)) [] (.finished (c.freeze, result))
  | start (c : Console) (line : String) (result : Except LineError Unit) :
    Moment (.finished (c, result)) [] (.start c line)
  /-- A line that is being executed goes one step further. -/
  | step {m n : Activity} : m.Next n → Moment m m.accepted n
  /-- Between lines something happens that has nothing to do with the registry. -/
  | elsewhere {c d : Console} (result : Except LineError Unit) : d.registry = c.registry →
    Moment (.finished (c, result)) [] (.finished (d, result))

/-- What has happened since some time, with all overloads that were accepted, in order. -/
inductive Session (m : Activity) : List Overload → Activity → Prop where
  | here : Session m [] m
  | next {os later : List Overload} {n p : Activity} :
    Session m os n → Moment n later p → Session m (os ++ later) p

section Steps

variable {c d : Console} {m n : Activity} {os : List Overload} {a b : Action}

/-- Of all that a handler asks for, only a declaration has to do with the registry. -/
theorem Action.grows_of_turn (turn : a.turn c = .next b d) :
    c.registry.Grows (a.accepted c.registry) d.registry := by
  cases a with
  | register declaration next =>
      simp only [Action.turn] at turn
      rw [Action.accepted, Registry.accepted]
      cases answer : c.registry.register declaration with
      | ok x =>
          rw [answer] at turn
          cases turn
          exact .register answer
      | error e =>
          rw [answer] at turn
          cases turn
          exact .keep _
  | setVariable | unsetVariable | saveSettings | run =>
      simp only [Action.turn] at turn
      split at turn <;> cases turn
      all_goals exact .keep _
  | log | readLog | drainLog | clearLog | listCommands | getVariable | spawn | despawn =>
      cases turn
      exact .keep _
  | succeed | fail | crash | execute => cases turn

/-- Behind a declaration the handler always goes on. -/
theorem Action.accepted_of_turn (turn : ∀ b d, a.turn c ≠ .next b d) :
    a.accepted c.registry = [] := by
  cases a with
  | register declaration next =>
      cases answer : c.registry.register declaration with
      | ok x => exact absurd (by rw [Action.turn, answer]) (turn (next (.ok x.1.id)) _)
      | error e => exact absurd (by rw [Action.turn, answer]) (turn (next (.error e)) c)
  | _ => rfl

theorem Action.registry_of_turn {text : String} {told : Bool}
    {later : Except LineError Unit → Action} (turn : a.turn c = .line text d told later) :
    d.registry = c.registry := by
  obtain ⟨_, _, -, -, rfl, -, -⟩ | ⟨-, rfl, -⟩ := cases_of_turn_line turn
  · rfl
  · rfl

/-- A step freezes the registry, declares a command, or leaves the registry alone. -/
theorem Activity.Next.grows (next : m.Next n) :
    m.console.registry.Grows m.accepted n.console.registry := by
  cases next with
  | refuse | prepare => exact .freeze _
  | go turn => exact Action.grows_of_turn turn
  | @line c d _ a _ _ _ _ turn =>
      have none : a.accepted c.registry = [] := Action.accepted_of_turn (by simp [turn])
      simp only [accepted, none, Action.registry_of_turn turn]
      exact .keep _
  | @halt c _ a _ _ turn =>
      have none : a.accepted c.registry = [] := Action.accepted_of_turn (by simp [turn])
      simp only [accepted, none]
      exact .keep _
  | @resume c place result told => cases told <;> exact .keep _
  | _ => exact .keep _

theorem Moment.grows (moment : Moment m os n) :
    m.console.registry.Grows os n.console.registry := by
  cases moment with
  | declare c d h =>
      change c.registry.Grows _ (c.declare d h).1.registry
      rw [Console.declare, Registry.accepted]
      cases accepted : c.registry.register d with
      | error e => exact .keep _
      | ok x => exact .register accepted
  | freeze => exact .freeze _
  | start => exact .keep _
  | step next => exact next.grows
  | @elsewhere c d _ same =>
      change c.registry.Grows [] d.registry
      rw [same]
      exact .keep _

/-- The first step of a line freezes the registry and declares nothing. -/
theorem Activity.Next.freezes {line : String} (next : m.Next n) (begins : m.control = .line line) :
    m.accepted = [] ∧ n.console.registry = m.console.registry.freeze := by
  cases next with
  | refuse | prepare => exact ⟨rfl, rfl⟩
  | _ => cases begins

end Steps

namespace Session

open Activity

variable {c : Console} {m n p : Activity} {os later : List Overload}

theorem holds (session : Session m os n) (empty : m.console.registry.Holds []) :
    n.console.registry.Holds os := by
  induction session with
  | here => exact empty
  | next _ moment ih => exact moment.grows.holds ih

/-- Nothing is accepted once the registry is frozen. -/
theorem of_isFrozen (session : Session m os n) (frozen : m.console.registry.isFrozen = true) :
    os = [] ∧ n.console.registry = m.console.registry := by
  induction session with
  | here => exact ⟨rfl, rfl⟩
  | next _ moment ih =>
      obtain ⟨rfl, same⟩ := ih
      obtain ⟨rfl, same'⟩ := moment.grows.of_isFrozen (same ▸ frozen)
      exact ⟨rfl, same'.trans same⟩

/-- The steps of a line add nothing behind the one that freezes the registry. -/
theorem of_reaches (session : Session m os n) (frozen : n.console.registry.isFrozen = true)
    (reached : Reaches n p) : Session m os p ∧ p.console.registry.isFrozen = true := by
  induction reached with
  | refl => exact ⟨session, frozen⟩
  | tail _ next ih =>
      obtain ⟨session, frozen⟩ := ih
      obtain ⟨none, same⟩ := next.grows.of_isFrozen frozen
      have later := session.next (.step next)
      rw [none, List.append_nil] at later
      exact ⟨later, same ▸ frozen⟩

/-- A line goes through all its steps and adds nothing. -/
theorem execute {result : Except LineError Unit} (session : Session m os (finished (c, result)))
    (line : String) : Session m os (finished (c.execute line)) := by
  rcases (reaches_finished c line).cases_head with same | ⟨n, first, reached⟩
  · cases congrArg Activity.control same
  · obtain ⟨none, frozen⟩ := first.freezes rfl
    have begun := (session.next (.start c line result)).next (.step first)
    rw [none, List.append_nil, List.append_nil] at begun
    exact (begun.of_reaches (by rw [frozen, Registry.isFrozen_freeze]) reached).1

end Session

/-- Whatever follows, no declaration is accepted, the registry is the given one, frozen, and no
overload of any name changes. -/
def Activity.DeclaresNoMore (m : Activity) (r : Registry) : Prop :=
  ∀ later p, Session m later p →
    later = [] ∧ p.console.registry = r.freeze ∧
      (∀ name, p.console.registry.overloads name = r.overloads name) ∧
      ∀ d, p.console.registry.register d = .error (.frozen d.fullName)

section

variable {c : Console} {m n : Activity} {accepted : List Overload}

theorem Activity.declaresNoMore_of_registry {r : Registry}
    (frozen : m.console.registry = r.freeze) : m.DeclaresNoMore r := by
  intro later p session
  obtain ⟨none, same⟩ := session.of_isFrozen (by rw [frozen, Registry.isFrozen_freeze])
  rw [frozen] at same
  refine ⟨none, same, ?_, ?_⟩
  · intro name
    rw [same, Registry.overloads_freeze]
  · intro d
    rw [same]
    exact Registry.register_of_isFrozen rfl d

/-- A line freezes the registry in its first step. -/
theorem Activity.Next.declaresNoMore {line : String} (next : m.Next n)
    (begins : m.control = .line line) : n.DeclaresNoMore m.console.registry :=
  declaresNoMore_of_registry (next.freezes begins).2

theorem Activity.declaresNoMore_execute (c : Console) (line : String) :
    (finished (c.execute line)).DeclaresNoMore c.registry := by
  rcases (reaches_finished c line).cases_head with same | ⟨n, first, reached⟩
  · cases congrArg Activity.control same
  · have frozen := (first.freezes rfl).2
    have later := Session.here.of_reaches (by rw [frozen, Registry.isFrozen_freeze]) reached
    apply declaresNoMore_of_registry
    rw [(first.declaresNoMore rfl [] _ later.1).2.1]
    rfl

/-- A declaration that is refused leaves everything as it is, whether the host or a handler makes
it. -/
theorem Console.unchanged_of_refused {d : Declaration} {e : RegistrationError}
    (refused : c.registry.register d = .error e) :
    (∀ h, c.declare d h = (c, .error e)) ∧
      ∀ next, (Action.register d next).turn c = .next (next (.error e)) c := by
  constructor
  · intro h
    rw [Console.declare, refused]
  · intro next
    rw [Action.turn, refused]

/-- At any time of a session, also while a line is being executed, the registry lists valid names
only, each with the overloads that were accepted under it. The numbers are those below the next
one, given out in the order of acceptance. The list of commands has every name once, in ascending
order, with the overload that was accepted first. What is refused changes nothing. Once a line has
begun, whatever becomes of it, no declaration is accepted any more, and no overload of any name
changes. -/
theorem registry_of_session (empty : c.registry = {})
    (session : Session (.finished (c, .ok ())) accepted m) :
    (∀ (name : String) (os : List Overload), m.console.registry.byName[name]? = some os →
      CommandName.isValid name.toList = true ∧ os ≠ [] ∧ (∀ o ∈ os, o.name = name) ∧
        (os.Pairwise fun a b => a.id < b.id) ∧ os = accepted.filter (·.name = name)) ∧
    (accepted.map Overload.id = List.range m.console.registry.nextId ∧
      m.console.registry.all.Perm accepted) ∧
    (m.console.registry.commands.map Overload.name = m.console.registry.byName.keys ∧
      (m.console.registry.commands.map Overload.name).Pairwise (· < ·) ∧
      ∀ o, o ∈ m.console.registry.commands ↔ accepted.find? (·.name = o.name) = some o) ∧
    (∀ d e, m.console.registry.register d = .error e →
      (∀ h, m.console.declare d h = (m.console, .error e)) ∧
        ∀ next, (Action.register d next).turn m.console = .next (next (.error e)) m.console) ∧
    (∀ line n, m.control = .line line → m.Next n → n.DeclaresNoMore m.console.registry) ∧
    (∀ (d : Console) line, (Activity.finished (d.execute line)).DeclaresNoMore d.registry) := by
  have holds : m.console.registry.Holds accepted :=
    session.holds (by rw [Activity.finished]; exact empty ▸ Registry.holds_empty)
  refine ⟨?_, ⟨holds.ids, holds.all_perm⟩, ⟨holds.names_commands, ?_, ?_⟩, ?_, ?_, ?_⟩
  · intro name os entry
    obtain ⟨o, first, named, found⟩ := holds.head?_eq entry
    have same := holds.byName_eq entry
    refine ⟨?_, ?_, ?_, ?_, same⟩
    · rw [← named]
      exact holds.valid o (List.mem_of_find?_eq_some found)
    · rintro rfl
      cases first
    · intro a listed
      rw [same] at listed
      simpa using (List.mem_filter.mp listed).2
    · rw [same]
      exact holds.ascending.filter _
  · rw [holds.names_commands]
    exact Std.TreeMap.ordered_keys.imp fun less => compare_lt_iff_lt.mp less
  · intro o
    exact holds.mem_commands_iff
  · intro d e refused
    exact Console.unchanged_of_refused refused
  · intro line n begins next
    exact next.declaresNoMore begins
  · intro d line
    exact Activity.declaresNoMore_execute d line

/-- A command with two overloads, a command of a group and a name that is refused are declared
around an unknown line, from which on a handler and the host declare in vain. -/
theorem registry_of_session_unknown_line :
    let late : Declaration := ⟨"late", none, "", []⟩
    let c := (((({} : Console).declare ⟨"b", none, "", []⟩ (Script.register late).handler).1.declare
      ⟨"1x", none, "", []⟩ Script.nothing.handler).1.declare
      ⟨"a", some "g", "", []⟩ Script.nothing.handler).1.declare
      ⟨"b", none, "more", [⟨"x", .any⟩]⟩ Script.nothing.handler |>.1
    let m := Activity.finished (c.execute "nope")
    Session (.finished ({}, .ok ())) [⟨0, "b", "", []⟩, ⟨1, "g.a", "", []⟩,
        ⟨2, "b", "more", [⟨"x", .any⟩]⟩] m ∧
      m.console.registry.nextId = 3 ∧
      m.console.registry.commands.map Overload.name = m.console.registry.byName.keys ∧
      ⟨0, "b", "", []⟩ ∈ m.console.registry.commands ∧
      (∀ d, ∃ e, m.console.registry.register d = .error e) := by
  intro late c m
  have session : Session (.finished ({}, .ok ())) [⟨0, "b", "", []⟩, ⟨1, "g.a", "", []⟩,
      ⟨2, "b", "more", [⟨"x", .any⟩]⟩] m := by
    have declared := (((Session.here (m := .finished ({}, .ok ()))).next
      (.declare {} ⟨"b", none, "", []⟩ (Script.register late).handler (.ok ()))).next
      (.declare _ ⟨"1x", none, "", []⟩ Script.nothing.handler _)).next
      (.declare _ ⟨"a", some "g", "", []⟩ Script.nothing.handler _) |>.next
      (.declare _ ⟨"b", none, "more", [⟨"x", .any⟩]⟩ Script.nothing.handler _)
    exact declared.execute "nope"
  obtain ⟨-, ⟨ids, -⟩, ⟨names, -, listed⟩, -, -, closed⟩ := registry_of_session rfl session
  refine ⟨session, ?_, names, (listed _).mpr rfl, ?_⟩
  · simpa using (congrArg List.length ids).symm
  · intro d
    exact ⟨_, (closed c "nope" [] m .here).2.2.2 d⟩

end

end CommandConsole
