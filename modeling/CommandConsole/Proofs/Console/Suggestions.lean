import CommandConsole.Handler.Scripted
import CommandConsole.Proofs.Command.Acceptance
import CommandConsole.Proofs.Console.Preparation

/-!
# Suggestions for what would be run

Of a typed line overloads are suggested as soon as its name is complete, and
these should be the ones among which the line is resolved when it is run.
Running drops blanks in front of the name, but a suggestion takes the typed text
as it is. Without blanks in front the two agree. With blanks in front names are
suggested, also when the name of the line is complete.
-/

namespace CommandConsole

open Text

namespace Text

variable {s : List Char}

theorem splitLine_of_trimStart_eq (flush : trimStart s = s) : splitLine s = splitWord s := by
  rw [splitLine, flush]

/-- In front of a leading blank there is no word. -/
theorem splitWord_of_trimStart_ne (indented : trimStart s ≠ s) : (splitWord s).1 = [] := by
  cases s with
  | nil => exact absurd rfl indented
  | cons c r =>
      cases blank : isBlank c with
      | false =>
          have flush : trimStart (c :: r) = c :: r := List.dropWhile_cons_of_neg (by simp [blank])
          exact absurd flush indented
      | true =>
          rw [splitWord, List.takeWhile_cons_of_neg (by simp [blank])]

end Text

namespace Registry

/-- The suggestion for a text is about the command that the text would run: its overloads, once
the name is followed by something, and names of commands before that. -/
def SuggestsAsRun (r : Registry) (typed : String) (threshold : Nat) : Prop :=
  if (splitLine typed.toList).1 ≠ [] ∧ (splitLine typed.toList).2 ≠ [] then
    r.suggest typed threshold = .overloads (r.signatures (commandOf typed))
  else ∃ found, r.suggest typed threshold = .commands found

section

variable {r : Registry} {typed : String} {threshold : Nat}

theorem suggest_of_trimStart_ne (indented : trimStart typed.toList ≠ typed.toList) :
    r.suggest typed threshold = .commands (r.suggestCommands typed threshold) := by
  rw [suggest]
  split
  next first _ word rest split =>
    have none := splitWord_of_trimStart_ne indented
    rw [split] at none
    cases none
  next => rfl

theorem suggest_of_trimStart_eq (flush : trimStart typed.toList = typed.toList) :
    r.suggest typed threshold =
      if (splitLine typed.toList).1 ≠ [] ∧ (splitLine typed.toList).2 ≠ [] then
        .overloads (r.signatures (commandOf typed))
      else .commands (r.suggestCommands typed threshold) := by
  rw [suggest, commandOf, splitLine_of_trimStart_eq flush]
  rcases splitWord typed.toList with ⟨_ | ⟨c, word⟩, _ | ⟨d, rest⟩⟩ <;> simp

end

end Registry

namespace Console

/-- The command of a line is picked among the given overloads, if there is such a command and
its parameters can be read. -/
structure ResolvesAmong (c : Console) (line : String) (os : List Overload) : Prop where
  unknown : c.registry.contains (commandOf line) = false →
    os = [] ∧ (c.execute line).2 = .error (.unknownCommand (commandOf line))
  refused : c.registry.contains (commandOf line) = true →
    ∀ p, c.parametersOf line = .ok p → ∀ e,
      (c.execute line).2 = .error (.resolution e) ↔
        resolve (commandOf line) os c.vars p.values = .error e
  entered : ∀ call entry, c.entered? line = some (call, entry) →
    ∃ p o, c.parametersOf line = .ok p ∧
      resolve (commandOf line) os c.vars p.values = .ok o ∧ call.id = o.id

theorem resolvesAmong_overloads (c : Console) (line : String) :
    c.ResolvesAmong line (c.registry.overloads (commandOf line)) where
  unknown unknown := by
    constructor
    · rw [Registry.contains, Std.TreeMap.contains_eq_isSome_getElem?, Option.isSome_eq_false_iff,
        Option.isNone_iff_eq_none] at unknown
      rw [Registry.overloads, unknown, Option.getD_none]
    · exact (execute_eq_error_iff (by simp)).mpr (.unknown unknown)
  refused known p read e := by
    rw [execute_eq_error_iff (by simp)]
    constructor
    · rintro (_ | _ | ⟨-, read', refused⟩)
      rw [read] at read'
      cases read'
      exact refused
    · exact .unresolved known read
  entered call entry found := by
    obtain ⟨p, o, read, picked, -, -, -, same⟩ :=
      exists_of_callOf (entered?_eq_some_iff.mp found).1
    exact ⟨p, o, read, picked, same⟩

end Console

/-- A line is resolved among the overloads of its command, which are in the order of registration.
Of a text without blanks in front their signatures are suggested, in that order, as soon as
something follows the name, and commands before that. Of a text with blanks in front it is always
commands. So what is suggested is about what would be run, unless there are blanks in front of a
name with something behind it. -/
theorem suggestsAsRun_iff {c : Console} (built : c.registry.Built) (typed : String)
    (threshold : Nat) :
    c.ResolvesAmong typed (c.registry.overloads (commandOf typed)) ∧
    (c.registry.overloads (commandOf typed)).Pairwise (fun a b => a.id < b.id) ∧
    (trimStart typed.toList = typed.toList → c.registry.suggest typed threshold =
      if (splitLine typed.toList).1 ≠ [] ∧ (splitLine typed.toList).2 ≠ [] then
        .overloads ((c.registry.overloads (commandOf typed)).map Overload.signature)
      else .commands (c.registry.suggestCommands typed threshold)) ∧
    (trimStart typed.toList ≠ typed.toList → c.registry.suggest typed threshold =
      .commands (c.registry.suggestCommands typed threshold)) ∧
    (c.registry.SuggestsAsRun typed threshold ↔
      ¬ (trimStart typed.toList ≠ typed.toList ∧ (splitLine typed.toList).1 ≠ [] ∧
        (splitLine typed.toList).2 ≠ [])) := by
  refine ⟨c.resolvesAmong_overloads typed, built.pairwise_overloads _,
    Registry.suggest_of_trimStart_eq, Registry.suggest_of_trimStart_ne, ?_⟩
  rw [Registry.SuggestsAsRun]
  by_cases flush : trimStart typed.toList = typed.toList
  · rw [Registry.suggest_of_trimStart_eq flush]
    split <;> simp_all
  · rw [Registry.suggest_of_trimStart_ne flush]
    split <;> simp_all

/-- Behind a complete name its two overloads are suggested. -/
theorem suggestsAsRun_iff_overloaded :
    let c := ((({} : Console).declare ⟨"peek", none, "", [⟨"name", .varName⟩]⟩
      Script.nothing.handler).1.declare ⟨"peek", none, "", []⟩ Script.nothing.handler).1
    c.registry.Built ∧
      c.registry.suggest "peek x" 3 = .overloads ["peek [name: Variable]", "peek"] ∧
      c.registry.SuggestsAsRun "peek x" 3 := by
  intro c
  have built : c.registry.Built := Console.built_declare (Console.built_declare .empty _ _) _ _
  obtain ⟨-, -, suggested, -, agree⟩ := suggestsAsRun_iff built "peek x" 3
  refine ⟨built, ?_, agree.mpr (by decide)⟩
  rw [suggested (by decide)]
  decide

/-- With a blank in front of a complete name nothing is suggested for it. -/
theorem not_suggestsAsRun_leading_blank :
    let c := (({} : Console).declare ⟨"peek", none, "", [⟨"name", .varName⟩]⟩
      Script.nothing.handler).1
    commandOf " peek x" = "peek" ∧
      c.registry.signatures "peek" = ["peek [name: Variable]"] ∧
      c.registry.suggest "peek x" 3 = .overloads ["peek [name: Variable]"] ∧
      (∃ found, c.registry.suggest " peek x" 3 = .commands found) ∧
      ¬ c.registry.SuggestsAsRun " peek x" 3 := by
  intro c
  have commands : c.registry.suggest " peek x" 3 =
      .commands (c.registry.suggestCommands " peek x" 3) :=
    Registry.suggest_of_trimStart_ne (by decide)
  refine ⟨by decide, by decide, by decide, ⟨_, commands⟩, ?_⟩
  rw [Registry.SuggestsAsRun, if_pos (by decide), commands]
  simp

end CommandConsole
