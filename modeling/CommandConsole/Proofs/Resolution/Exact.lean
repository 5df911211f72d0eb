import Mathlib.Data.List.Nodup
import CommandConsole.Proofs.Resolution.Binding

/-!
# Exact calls

No value scores more than two points, and only a value of the declared kind
scores two. An overload whose parameters all have the kinds of the values thus
reaches a score that no overload with other kinds can reach, however it widens
or takes `null`. If it is the only one of these kinds, it is picked.
-/

namespace CommandConsole

section Parameter

variable {vs : Variables} {v : Value} {k : Kind} {points : Nat}

theorem parameterScore?_le_two (scored : parameterScore? vs v k = some points) : points ≤ 2 := by
  rw [parameterScore?] at scored
  grind

/-- Full points are for a value of the declared kind only. -/
theorem parameterScore?_eq_two_iff :
    parameterScore? vs v k = some 2 ↔ effectiveKind? vs k v = some k := by
  rw [parameterScore?]
  grind

theorem totalPoints_scores {xs : List (Value × Kind)} {ps : List Nat}
    (scored : List.Forall₂ (fun x p => parameterScore? vs x.1 x.2 = some p) xs ps) :
    totalPoints ps ≤ 2 * xs.length ∧
      (totalPoints ps = 2 * xs.length ↔ ∀ x ∈ xs, effectiveKind? vs x.2 x.1 = some x.2) := by
  induction scored with
  | nil => simp [totalPoints]
  | @cons x p xs ps head _ ih =>
      obtain ⟨most, full⟩ := ih
      have low := parameterScore?_le_two head
      have two : p = 2 ↔ effectiveKind? vs x.2 x.1 = some x.2 := by
        rw [← parameterScore?_eq_two_iff, head, Option.some.injEq]
      have sum : totalPoints (p :: ps) = p + totalPoints ps := rfl
      rw [List.forall_mem_cons, ← full, ← two, sum, List.length_cons]
      omega

end Parameter

namespace Overload

variable {o : Overload} {vs : Variables} {values : List Value} {points : Nat}

theorem exists_points_of_score? (scored : o.score? vs values = some points) :
    o.kinds.length = values.length ∧ ∃ ps, totalPoints ps = points ∧
      List.Forall₂ (fun x p => parameterScore? vs x.1 x.2 = some p) (values.zip o.kinds) ps := by
  rw [score?] at scored
  split at scored
  next arity =>
    obtain ⟨ps, each, total⟩ := Option.map_eq_some_iff.mp scored
    exact ⟨arity, ps, total, Traversal.mapM_eq_some_iff.mp each⟩
  next => cases scored

theorem length_zip_kinds (arity : o.kinds.length = values.length) :
    (values.zip o.kinds).length = values.length := by
  rw [List.length_zip, arity, Nat.min_self]

theorem score?_le (scored : o.score? vs values = some points) : points ≤ 2 * values.length := by
  obtain ⟨arity, ps, rfl, each⟩ := exists_points_of_score? scored
  rw [← length_zip_kinds arity]
  exact (totalPoints_scores each).1

/-- Full points are for values of the declared kinds only. -/
theorem score?_eq_full_iff :
    o.score? vs values = some (2 * values.length) ↔
      List.Forall₂ (fun v k => effectiveKind? vs k v = some k) values o.kinds := by
  rw [List.forall₂_iff_zip]
  constructor
  · intro scored
    obtain ⟨arity, ps, total, each⟩ := exists_points_of_score? scored
    rw [← length_zip_kinds arity] at total
    exact ⟨arity.symm, fun {v k} => (totalPoints_scores each).2.mp total (v, k)⟩
  · rintro ⟨arity, exact⟩
    have viable : (o.score? vs values).isSome := by
      rw [score?, if_pos arity.symm, Option.isSome_map, Traversal.isSome_mapM_iff]
      rintro ⟨v, k⟩ paired
      exact Option.isSome_of_eq_some (parameterScore?_eq_two_iff.mpr (exact paired))
    obtain ⟨points, scored⟩ := Option.isSome_iff_exists.mp viable
    obtain ⟨_, ps, rfl, each⟩ := exists_points_of_score? scored
    rw [scored, ← length_zip_kinds arity.symm,
      (totalPoints_scores each).2.mpr fun x paired => exact paired]

/-- Values that are no variables have the declared kinds. -/
theorem score?_eq_full_iff_of_plain (plain : ∀ v ∈ values, ∀ name, v ≠ .varName name) :
    o.score? vs values = some (2 * values.length) ↔
      values.map Value.kind? = o.kinds.map some := by
  rw [score?_eq_full_iff, ← List.forall₂_eq_eq_eq, List.forall₂_map_left_iff,
    List.forall₂_map_right_iff, List.forall₂_iff_zip, List.forall₂_iff_zip]
  refine and_congr_right fun _ => ⟨?_, ?_⟩
  · intro each v k paired
    rw [← effectiveKind?_of_ne_varName (plain v (List.of_mem_zip paired).1), each paired]
  · intro each v k paired
    rw [effectiveKind?_of_ne_varName (plain v (List.of_mem_zip paired).1), each paired]

end Overload

section Call

variable {vs : Variables} {values : List Value} {d : Overload}

/-- The only overload of the kinds of some values is picked for them. -/
theorem resolve_of_exact {overloads : List Overload} (command : String) (member : d ∈ overloads)
    (nodup : overloads.Nodup) (only : ∀ o ∈ overloads, o.kinds = d.kinds → o = d)
    (plain : ∀ v ∈ values, ∀ name, v ≠ .varName name)
    (exact : values.map Value.kind? = d.kinds.map some) :
    resolve command overloads vs values = .ok d := by
  obtain ⟨before, after, rfl⟩ := List.append_of_mem member
  rw [resolve_eq_ok_iff, topOverloads_eq_singleton_iff]
  refine ⟨before, after, 2 * values.length, rfl,
    (Overload.score?_eq_full_iff_of_plain plain).mpr exact, ?_⟩
  intro o other points scored
  -- Full points need the kinds of the values, and these only `d` has.
  apply Nat.lt_of_le_of_ne (Overload.score?_le scored)
  rintro rfl
  have kinds := (Overload.score?_eq_full_iff_of_plain plain).mp scored
  have same : o.kinds = d.kinds := by
    apply (List.map_inj_right fun _ _ => Option.some.inj).mp
    rw [← kinds, exact]
  have listed : o ∈ before ++ d :: after := by
    simp only [List.mem_append, List.mem_cons] at other ⊢
    exact other.imp_right .inr
  rw [only o listed same] at other
  exact (List.nodup_middle.mp nodup).notMem other

/-- Values that are no variables are received as they are. -/
theorem bindValues_of_plain {kinds : List Kind} (arity : kinds.length = values.length)
    (plain : ∀ v ∈ values, ∀ name, v ≠ .varName name) :
    bindValues vs values kinds = .ok values := by
  rw [bindValues_eq_map (f := id) arity, List.map_id]
  intro v member k _
  cases v with
  | varName name => exact absurd rfl (plain _ member name)
  | _ => rfl

end Call

end CommandConsole
