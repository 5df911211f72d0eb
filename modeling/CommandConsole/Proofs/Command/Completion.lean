import CommandConsole.Proofs.Command.Ranking
import CommandConsole.Proofs.Text.Distance

/-!
# Completing a typed name

The name that is cut one character behind the typed length is equal to what is
typed only if it is not cut at all, so the distance to it is zero exactly for
the name that is typed. That name comes first whatever other names begin with
it, and a completion completes to itself.

A name that is still being typed has one more character when it is cut, and is
at a distance of one. Hence every beginning of a name is completed as long as
two edits are too many.
-/

namespace CommandConsole

open Text

section Cutting

variable {typed name : List Char}

/-- A text is as long as a name that is cut one character behind it only if nothing is cut. -/
theorem eq_take_succ_length_iff : typed = name.take (typed.length + 1) ↔ name = typed := by
  constructor
  · intro cut
    have length := congrArg List.length cut
    rw [List.length_take] at length
    rw [cut, List.take_of_length_le]
    omega
  · rintro rfl
    rw [List.take_of_length_le (Nat.le_succ _)]

theorem exists_take_succ_length (begins : typed <+: name) (unfinished : typed ≠ name) :
    ∃ c, name.take (typed.length + 1) = typed ++ [c] := by
  obtain ⟨rest, rfl⟩ := begins
  cases rest with
  | nil => exact absurd (List.append_nil typed).symm unfinished
  | cons c rest => exact ⟨c, List.take_length_add_append 1⟩

end Cutting

namespace Match

variable {typed : List Char} {name help : String}

theorem partialDistance_eq_zero_iff :
    (compute typed name help).partialDistance = 0 ↔ name.toList = typed := by
  rw [compute, editDistance_eq_zero_iff, eq_take_succ_length_iff]

theorem partialDistance_eq_one (begins : typed <+: name.toList)
    (unfinished : typed ≠ name.toList) : (compute typed name help).partialDistance = 1 := by
  obtain ⟨c, cut⟩ := exists_take_succ_length begins unfinished
  rw [compute, cut, editDistance_append_singleton]

end Match

namespace Registry

variable {r : Registry} {os : List Overload} {typed name : String} {threshold : Nat} {m : Match}

theorem partialDistance_of_mem_suggestCommands (member : m ∈ r.suggestCommands typed threshold) :
    m.partialDistance = 0 ↔ m.name = typed := by
  obtain ⟨⟨o, -, rfl⟩, -⟩ := mem_suggestCommands.mp member
  rw [Match.partialDistance_eq_zero_iff, String.toList_inj]
  exact Iff.rfl

/-- A name of the registry is suggested if it is closer than the threshold, whichever of its
overloads stands for it. -/
theorem Holds.exists_mem_suggestCommands (holds : r.Holds os) (known : r.contains name = true)
    {distance : Nat} (close : distance < threshold)
    (measured : ∀ help, (Match.compute typed.toList name help).partialDistance = distance) :
    ∃ m ∈ r.suggestCommands typed threshold, m.name = name ∧ m.partialDistance = distance := by
  obtain ⟨o, listed, rfl⟩ := holds.contains_iff.mp known
  refine ⟨Match.compute typed.toList o.name o.help, ?_, rfl, measured o.help⟩
  refine mem_suggestCommands.mpr ⟨⟨o, listed, rfl⟩, ?_⟩
  rw [measured]
  exact close

theorem complete_eq_some_iff : r.complete typed threshold = some name ↔
    typed ≠ "" ∧ ∃ m, (r.suggestCommands typed threshold).head? = some m ∧ m.name = name := by
  rw [complete]
  split
  next empty => simp_all
  next present => simp_all [Option.map_eq_some_iff]

theorem exists_complete (present : typed ≠ "") (member : m ∈ r.suggestCommands typed threshold) :
    ∃ found, r.complete typed threshold = some found := by
  obtain ⟨first, rest, listed⟩ :=
    List.exists_cons_of_ne_nil (List.ne_nil_of_mem member)
  exact ⟨first.name, complete_eq_some_iff.mpr ⟨present, first, by rw [listed]; rfl, rfl⟩⟩

theorem Holds.contains_of_complete (holds : r.Holds os)
    (completed : r.complete typed threshold = some name) : r.contains name = true := by
  obtain ⟨-, m, first, rfl⟩ := complete_eq_some_iff.mp completed
  obtain ⟨⟨o, listed, rfl⟩, -⟩ := mem_suggestCommands.mp (List.mem_of_mem_head? first)
  exact holds.contains_iff.mpr ⟨o, listed, rfl⟩

/-- No suggestion is closer than the first one. -/
theorem Holds.partialDistance_head_le (holds : r.Holds os) {first : Match}
    (head : (r.suggestCommands typed threshold).head? = some first)
    (member : m ∈ r.suggestCommands typed threshold) :
    first.partialDistance ≤ m.partialDistance := by
  have ordered := holds.pairwise_suggestCommands typed threshold
  obtain ⟨rest, listed⟩ := List.head?_eq_some_iff.mp head
  rw [listed] at ordered member
  rcases List.mem_cons.mp member with rfl | behind
  · exact le_rfl
  · rcases List.rel_of_pairwise_cons ordered behind with nearer | ⟨same, -⟩
    · exact nearer.le
    · exact same.le

/-- What is typed in full is completed to itself, whatever names begin with it. -/
theorem Holds.complete_self (holds : r.Holds os) (present : name ≠ "")
    (known : r.contains name = true) (positive : 1 ≤ threshold) :
    r.complete name threshold = some name := by
  obtain ⟨m, member, -, zero⟩ :
      ∃ m ∈ r.suggestCommands name threshold, m.name = name ∧ m.partialDistance = 0 :=
    holds.exists_mem_suggestCommands known positive fun _ =>
      Match.partialDistance_eq_zero_iff.mpr rfl
  obtain ⟨found, completed⟩ := exists_complete present member
  obtain ⟨-, first, head, rfl⟩ := complete_eq_some_iff.mp completed
  have nearest := holds.partialDistance_head_le head member
  rw [zero, Nat.le_zero, partialDistance_of_mem_suggestCommands (List.mem_of_mem_head? head)]
    at nearest
  rw [completed, nearest]

theorem Built.ne_empty_of_contains (built : r.Built) (known : r.contains name = true) :
    name ≠ "" := by
  rintro rfl
  exact CommandName.ne_nil_of_isValid (built.isValid_of_contains known) rfl

end Registry

/-- A suggestion is at no distance from what is typed exactly if its name is typed. So a name of
the registry is completed to itself, and completing a completion changes nothing. As soon as one
edit is allowed, every name is suggested at the distance one for each beginning of it that is not
the whole name, and every beginning with at least one character has a completion. -/
theorem completions_stable_and_found {r : Registry} (built : r.Built) :
    (∀ threshold, 1 ≤ threshold →
      (∀ typed, ∀ m ∈ r.suggestCommands typed threshold,
        m.partialDistance = 0 ↔ m.name = typed) ∧
      (∀ name, r.contains name = true → r.complete name threshold = some name) ∧
      ∀ typed name, r.complete typed threshold = some name →
        r.complete name threshold = some name) ∧
    ∀ threshold, 2 ≤ threshold → ∀ name, r.contains name = true →
      ∀ typed : String, typed.toList <+: name.toList →
        (typed ≠ name →
          ∃ m ∈ r.suggestCommands typed threshold, m.name = name ∧ m.partialDistance = 1) ∧
        (typed ≠ "" → ∃ found, r.complete typed threshold = some found) := by
  obtain ⟨os, holds⟩ := built.exists_holds
  have itself : ∀ threshold, 1 ≤ threshold → ∀ name, r.contains name = true →
      r.complete name threshold = some name := fun threshold positive name known =>
    holds.complete_self (built.ne_empty_of_contains known) known positive
  refine ⟨fun threshold positive => ⟨?_, itself threshold positive, ?_⟩, ?_⟩
  · intro typed m member
    exact Registry.partialDistance_of_mem_suggestCommands member
  · intro typed name completed
    exact itself threshold positive name (holds.contains_of_complete completed)
  · intro threshold two name known typed begins
    have suggested : typed ≠ name →
        ∃ m ∈ r.suggestCommands typed threshold, m.name = name ∧ m.partialDistance = 1 := by
      intro unfinished
      apply holds.exists_mem_suggestCommands known two
      intro help
      exact Match.partialDistance_eq_one begins (mt String.toList_inj.mp unfinished)
    refine ⟨suggested, fun present => ?_⟩
    by_cases whole : typed = name
    · subst whole
      exact ⟨typed, itself threshold (Nat.le_of_succ_le two) typed known⟩
    · obtain ⟨m, member, -⟩ := suggested whole
      exact Registry.exists_complete present member

/-- A whole name is completed to itself beside a longer one that begins with it, and the longer one
is suggested for what both begin with. -/
theorem completions_stable_and_found_shared_beginning :
    let r := ((({} : Console).declare ⟨"gravity-x", none, "", []⟩ Script.nothing.handler).1.declare
      ⟨"gravity", none, "", []⟩ Script.nothing.handler).1.registry
    r.Built ∧ r.contains "gravity" = true ∧ r.complete "gravity" 2 = some "gravity" ∧
      (∃ m ∈ r.suggestCommands "grav" 2, m.name = "gravity-x" ∧ m.partialDistance = 1) ∧
      ∃ found, r.complete "grav" 2 = some found := by
  intro r
  have built : r.Built := Console.built_declare (Console.built_declare .empty _ _) _ _
  obtain ⟨stable, found⟩ := completions_stable_and_found built
  have whole : r.contains "gravity" = true := by decide
  have longer : r.contains "gravity-x" = true := by decide
  obtain ⟨suggested, completed⟩ := found 2 (by decide) "gravity-x" longer "grav" (by decide)
  exact ⟨built, whole, (stable 2 (by decide)).2.1 _ whole, suggested (by decide),
    completed (by decide)⟩

end CommandConsole
