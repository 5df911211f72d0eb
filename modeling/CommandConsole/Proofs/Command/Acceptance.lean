import Mathlib.Data.List.Nodup
import Mathlib.Data.List.Pairwise
import Mathlib.Data.List.Perm.Basic
import CommandConsole.Proofs.Command.Registration

/-!
# The order of acceptance

A registry is known from the overloads that it has accepted, in the order in
which it has accepted them: an overload has its place in that order as number,
and the overloads of a name are those among the accepted ones that have the
name. So the names that are listed, which overload stands for a name, and that
the numbers in use are those below the next one, each used once, do not depend
on anything else.

What can become of a registry is said once, in `Grows`. A frozen registry
accepts nothing and stays as it is.
-/

namespace CommandConsole

namespace Registry

/-- The overloads of all names, in ascending order of the names. -/
def all (r : Registry) : List Overload := r.byName.toList.flatMap fun x => x.2

/-- The overload that a declaration adds, if it is accepted. -/
def accepted (r : Registry) (d : Declaration) : List Overload :=
  match r.register d with
  | .ok (o, _) => [o]
  | .error _ => []

/-- What becomes of a registry at once, with the overloads that are accepted. -/
inductive Grows : Registry → List Overload → Registry → Prop where
  | keep (r : Registry) : Grows r [] r
  | freeze (r : Registry) : Grows r [] r.freeze
  | register {r r' : Registry} {d : Declaration} {o : Overload} :
    r.register d = .ok (o, r') → Grows r [o] r'

/-- A registry holds what it has accepted, in the order of acceptance. -/
structure Holds (r : Registry) (os : List Overload) : Prop where
  overloads : ∀ name, r.overloads name = os.filter (·.name = name)
  ids : os.map Overload.id = List.range r.nextId
  valid : ∀ o ∈ os, CommandName.isValid o.name.toList = true
  /-- A name is listed only with an overload. -/
  inhabited : ∀ name : String, r.byName[name]? ≠ some []

section

variable {r r' : Registry} {d : Declaration} {o : Overload} {os later : List Overload}
  {name : String}

theorem mem_all : o ∈ r.all ↔ ∃ name, o ∈ r.overloads name := by
  simp only [all, List.mem_flatMap, Prod.exists, Std.TreeMap.mem_toList_iff_getElem?_eq_some]
  refine exists_congr fun name => ?_
  rw [Registry.overloads]
  cases r.byName[name]? <;> simp

theorem Grows.of_isFrozen (grows : r.Grows os r') (frozen : r.isFrozen = true) :
    os = [] ∧ r' = r := by
  cases grows with
  | keep => exact ⟨rfl, rfl⟩
  | freeze => exact ⟨rfl, freeze_of_isFrozen frozen⟩
  | register accepted => exact absurd accepted (register_ne_ok_of_isFrozen frozen)

theorem holds_empty : Holds {} [] where
  overloads _ := rfl
  ids := rfl
  valid _ member := nomatch member
  inhabited name := by simp

theorem Holds.freeze (holds : r.Holds os) : r.freeze.Holds os :=
  ⟨holds.overloads, holds.ids, holds.valid, holds.inhabited⟩

theorem Holds.register (holds : r.Holds os) (accepted : r.register d = .ok (o, r')) :
    r'.Holds (os ++ [o]) := by
  obtain ⟨valid, numbered, changed⟩ := register_eq_ok accepted
  have named : o.name = d.fullName := by rw [numbered]
  refine ⟨?_, ?_, ?_, ?_⟩
  · intro name
    rw [overloads_register accepted, holds.overloads, List.filter_append]
    by_cases same : d.fullName = name <;> simp [named, same]
  · rw [List.map_append, holds.ids, changed, List.range_succ, numbered]
    rfl
  · rw [List.forall_mem_append]
    refine ⟨holds.valid, ?_⟩
    simpa [named] using valid
  · intro name
    rw [changed, Std.TreeMap.getElem?_insert]
    split
    · simp
    · exact holds.inhabited name

theorem Grows.holds (grows : r.Grows later r') (holds : r.Holds os) :
    r'.Holds (os ++ later) := by
  cases grows with
  | keep => rwa [List.append_nil]
  | freeze =>
      rw [List.append_nil]
      exact holds.freeze
  | register accepted => exact holds.register accepted

/-- However a registry came about, it has accepted some overloads. -/
theorem Built.exists_holds (built : r.Built) : ∃ os, r.Holds os := by
  induction built with
  | empty => exact ⟨[], holds_empty⟩
  | register _ accepted ih =>
      obtain ⟨os, holds⟩ := ih
      exact ⟨_, holds.register accepted⟩
  | freeze _ ih =>
      obtain ⟨os, holds⟩ := ih
      exact ⟨os, holds.freeze⟩

theorem Holds.ascending (holds : r.Holds os) : os.Pairwise fun a b => a.id < b.id := by
  rw [← List.pairwise_map, holds.ids]
  exact List.pairwise_lt_range

theorem Holds.nodup_ids (holds : r.Holds os) : (os.map Overload.id).Nodup := by
  rw [holds.ids]
  exact List.nodup_range

theorem Holds.mem_overloads (holds : r.Holds os) :
    o ∈ r.overloads name ↔ o ∈ os ∧ o.name = name := by
  rw [holds.overloads, List.mem_filter, decide_eq_true_eq]

theorem Holds.byName_eq (holds : r.Holds os) {listed : List Overload}
    (entry : r.byName[name]? = some listed) : listed = os.filter (·.name = name) := by
  rw [← holds.overloads, Registry.overloads, entry, Option.getD_some]

theorem Holds.mem_byName (holds : r.Holds os) (member : o ∈ os) :
    r.byName[o.name]? = some (os.filter (·.name = o.name)) := by
  have listed : o ∈ r.overloads o.name := holds.mem_overloads.mpr ⟨member, rfl⟩
  have present := contains_of_mem_overloads listed
  rw [contains, Std.TreeMap.contains_eq_isSome_getElem?] at present
  obtain ⟨listed, entry⟩ := Option.isSome_iff_exists.mp present
  rw [entry, holds.byName_eq entry]

/-- No overload is listed twice. Those of one name have different places in the order of
acceptance, and those of two names have different names. -/
theorem Holds.nodup_all (holds : r.Holds os) : r.all.Nodup := by
  have listed {name : String} {listed : List Overload}
      (entry : (name, listed) ∈ r.byName.toList) : listed = os.filter (·.name = name) :=
    holds.byName_eq (Std.TreeMap.mem_toList_iff_getElem?_eq_some.mp entry)
  rw [List.Nodup, all, List.pairwise_flatMap]
  constructor
  · rintro ⟨name, os'⟩ entry
    rw [listed entry]
    exact (List.Nodup.of_map _ holds.nodup_ids).filter _
  · refine Std.TreeMap.distinct_keys_toList.imp_of_mem ?_
    rintro ⟨name, os'⟩ ⟨other, os''⟩ entry entry' apart a member b member' same
    rw [listed entry] at member
    rw [listed entry', ← same] at member'
    have named : a.name = name := by simpa using (List.mem_filter.mp member).2
    have named' : a.name = other := by simpa using (List.mem_filter.mp member').2
    exact apart (Std.LawfulEqCmp.compare_eq_iff_eq.mpr (named.symm.trans named'))

/-- The overloads of all names are the accepted ones. -/
theorem Holds.all_perm (holds : r.Holds os) : r.all.Perm os := by
  rw [List.perm_ext_iff_of_nodup holds.nodup_all (List.Nodup.of_map _ holds.nodup_ids)]
  intro o
  simp only [mem_all, holds.mem_overloads]
  exact ⟨fun ⟨_, member, _⟩ => member, fun member => ⟨o.name, member, rfl⟩⟩

/-- A name stands with what was accepted under it first. -/
theorem Holds.head?_eq (holds : r.Holds os) {listed : List Overload}
    (entry : r.byName[name]? = some listed) :
    ∃ o, listed.head? = some o ∧ o.name = name ∧ os.find? (·.name = name) = some o := by
  have same := holds.byName_eq entry
  cases listed with
  | nil => exact absurd entry (holds.inhabited name)
  | cons o rest =>
      have first := congrArg List.head? same
      rw [List.head?_filter] at first
      have named := List.find?_some first.symm
      exact ⟨o, rfl, by simpa using named, first.symm⟩

/-- The list of commands has the names of the registry. -/
theorem Holds.names_commands (holds : r.Holds os) :
    r.commands.map Overload.name = r.byName.keys := by
  rw [commands, List.map_filterMap, ← Std.TreeMap.map_fst_toList_eq_keys, ← List.filterMap_eq_map]
  apply List.filterMap_congr
  rintro ⟨name, listed⟩ entry
  obtain ⟨o, first, named, -⟩ :=
    holds.head?_eq (Std.TreeMap.mem_toList_iff_getElem?_eq_some.mp entry)
  simp only [first, Option.map_some, named, Function.comp]

/-- Every name is listed with its first overload. -/
theorem Holds.mem_commands_iff (holds : r.Holds os) :
    o ∈ r.commands ↔ os.find? (·.name = o.name) = some o := by
  simp only [commands, List.mem_filterMap, Prod.exists,
    Std.TreeMap.mem_toList_iff_getElem?_eq_some]
  constructor
  · rintro ⟨name, listed, entry, first⟩
    obtain ⟨a, first', named, found⟩ := holds.head?_eq entry
    obtain rfl := Option.some.inj (first.symm.trans first')
    rw [named]
    exact found
  · intro found
    have entry := holds.mem_byName (List.mem_of_find?_eq_some found)
    exact ⟨o.name, _, entry, by rw [List.head?_filter, found]⟩

/-- The first overload of a name is the first of those that a line can call. -/
theorem Holds.mem_commands_iff_head? (holds : r.Holds os) :
    o ∈ r.commands ↔ (r.overloads o.name).head? = some o := by
  rw [holds.mem_commands_iff, holds.overloads, List.head?_filter]

theorem Holds.contains_iff (holds : r.Holds os) :
    r.contains name = true ↔ ∃ o ∈ r.commands, o.name = name := by
  rw [contains, Std.TreeMap.contains_iff_mem, ← Std.TreeMap.mem_keys, ← holds.names_commands,
    List.mem_map]

section Built

variable (built : r.Built)

include built

theorem Built.isValid_of_contains (known : r.contains name = true) :
    CommandName.isValid name.toList = true := by
  obtain ⟨os, holds⟩ := built.exists_holds
  obtain ⟨o, listed, rfl⟩ := holds.contains_iff.mp known
  exact holds.valid o (List.mem_of_find?_eq_some (holds.mem_commands_iff.mp listed))

/-- The overloads of a name are in the order of registration. -/
theorem Built.pairwise_overloads (name : String) :
    (r.overloads name).Pairwise fun a b => a.id < b.id := by
  obtain ⟨os, holds⟩ := built.exists_holds
  rw [holds.overloads]
  exact holds.ascending.filter _

theorem Built.nodup_overloads (name : String) : (r.overloads name).Nodup := by
  apply (built.pairwise_overloads name).imp
  rintro a b less rfl
  exact Nat.lt_irrefl _ less

/-- Numbers that are in use are not given out again. -/
theorem Built.id_lt_nextId (listed : o ∈ r.overloads name) : o.id < r.nextId := by
  obtain ⟨os, holds⟩ := built.exists_holds
  rw [← List.mem_range, ← holds.ids]
  exact List.mem_map_of_mem (holds.mem_overloads.mp listed).1

/-- No number is used twice, neither for one name nor for different ones. -/
theorem Built.eq_of_id_eq {a b : Overload} {other : String} (listed : a ∈ r.overloads name)
    (listed' : b ∈ r.overloads other) (same : a.id = b.id) : a = b := by
  obtain ⟨os, holds⟩ := built.exists_holds
  exact List.inj_on_of_nodup_map holds.nodup_ids (holds.mem_overloads.mp listed).1
    (holds.mem_overloads.mp listed').1 same

/-- The numbers of the overloads are those below the next one, each used once. -/
theorem Built.ids_perm_range : (r.all.map Overload.id).Perm (List.range r.nextId) := by
  obtain ⟨os, holds⟩ := built.exists_holds
  rw [← holds.ids]
  exact holds.all_perm.map _

end Built

end

end Registry

end CommandConsole
