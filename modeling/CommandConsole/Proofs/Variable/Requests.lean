import Mathlib.Data.List.Induction
import Mathlib.Data.List.Sort
import Mathlib.Data.Set.Card
import Mathlib.Data.String.Basic
import CommandConsole.Proofs.Traversal
import CommandConsole.Proofs.Variable.Store

/-!
# What the variables hold

Variables are set and unset, one request after the other, and some requests are
refused: a name that is not valid cannot be set, and what is not set cannot be
unset. A request that is refused changes nothing. A variable has the value that
it was set to by the last request about it that was not refused. All other
questions have the answer that follows from this one, and the listing does not
tell in which order anything was set.
-/

namespace CommandConsole.Variables

/-- What can be asked for that changes the variables. -/
inductive Request where
  | set (name : String) (v : Value)
  | unset (name : String)

namespace Request

/-- The variable that is to change. -/
def name : Request → String
  | set name _ => name
  | unset name => name

/-- The request is not refused. -/
def Accepted (vs : Variables) : Request → Prop
  | set name v => ∃ vs', vs.set name v = .ok vs'
  | unset name => ∃ v vs', vs.unset name = .ok (v, vs')

/-- What the variables are when the request was granted or refused. -/
def apply (vs : Variables) : Request → Variables
  | set name v => vs.setIfValid name v
  | unset name =>
    match vs.unset name with
    | .ok (_, vs') => vs'
    | .error _ => vs

end Request

/-- What has become of no variables. -/
def after (requests : List Request) : Variables := requests.foldl Request.apply {}

/-- Of the requests about a name that were not refused, the last one set it to a value. -/
def LastSet (requests : List Request) (name : String) (v : Value) : Prop :=
  ∃ front back, requests = front ++ .set name v :: back ∧
    (Request.set name v).Accepted (after front) ∧
    ∀ since r rest, back = since ++ r :: rest → r.name = name →
      ¬ r.Accepted (after (front ++ .set name v :: since))

section

variable {vs ws : Variables} {name : String} {v : Value} {r : Request} {requests : List Request}

@[simp] theorem after_concat (requests : List Request) (r : Request) :
    after (requests ++ [r]) = r.apply (after requests) := by
  simp [after]

/-! ## One request -/

theorem get_eq_ok_iff : vs.get name = .ok v ↔ vs.get? name = some v := by
  rw [get]
  cases vs.get? name <;> simp

theorem get_eq_error_iff {e : VariableError} :
    vs.get name = .error e ↔ e = .unbound name ∧ vs.get? name = none := by
  rw [get]
  cases vs.get? name <;> simp [eq_comm]

theorem set_eq_error_iff {e : VariableError} :
    vs.set name v = .error e ↔ VariableName.error? name.toList = some e := by
  rw [set]
  cases VariableName.error? name.toList <;> simp

theorem unset_eq_error_iff {e : VariableError} :
    vs.unset name = .error e ↔ e = .unbound name ∧ vs.get? name = none := by
  rw [unset]
  cases vs.get? name <;> simp [eq_comm]

/-- What is unset is what would have been found. -/
theorem map_unset (vs : Variables) (name : String) :
    (vs.unset name).map Prod.fst = vs.get name := by
  rw [unset, get]
  cases vs.get? name <;> rfl

namespace Request

theorem not_accepted_of_set {e : VariableError} (refused : vs.set name v = .error e) :
    ¬ (set name v).Accepted vs := by
  rintro ⟨vs', stored⟩
  cases stored.symm.trans refused

theorem not_accepted_of_unset {e : VariableError} (refused : vs.unset name = .error e) :
    ¬ (unset name).Accepted vs := by
  rintro ⟨v, vs', forgotten⟩
  cases forgotten.symm.trans refused

/-- A request that is refused changes nothing. -/
theorem apply_of_not_accepted (refused : ¬ r.Accepted vs) : r.apply vs = vs := by
  cases r with
  | set name v =>
      rw [apply, setIfValid]
      cases stored : vs.set name v with
      | ok vs' => exact absurd ⟨vs', stored⟩ refused
      | error e => rfl
  | unset name =>
      rw [apply]
      cases forgotten : vs.unset name with
      | ok x => exact absurd ⟨x.1, x.2, forgotten⟩ refused
      | error e => rfl

theorem get?_apply_set (accepted : (set name v).Accepted vs) (other : String) :
    ((set name v).apply vs).get? other = if name = other then some v else vs.get? other := by
  obtain ⟨vs', stored⟩ := accepted
  rw [apply, setIfValid, stored]
  exact get?_set stored other

theorem get?_apply_unset (accepted : (unset name).Accepted vs) (other : String) :
    ((unset name).apply vs).get? other = if name = other then none else vs.get? other := by
  obtain ⟨v, vs', forgotten⟩ := accepted
  rw [apply, forgotten]
  exact get?_unset forgotten other

/-- A variable is set by the request, or it was set before and is none of the request's business. -/
theorem get?_apply_eq_some_iff : (r.apply vs).get? name = some v ↔
    (r = .set name v ∧ r.Accepted vs) ∨
      (vs.get? name = some v ∧ ¬ (r.name = name ∧ r.Accepted vs)) := by
  by_cases accepted : r.Accepted vs
  · cases r with
    | set other w =>
        rw [get?_apply_set accepted]
        by_cases same : other = name
        · subst same
          simp [Request.name, accepted]
        · simp [Request.name, same]
    | unset other =>
        rw [get?_apply_unset accepted]
        by_cases same : other = name
        · subst same
          simp [Request.name, accepted]
        · simp [Request.name, same]
  · simp [apply_of_not_accepted accepted, accepted]

end Request

/-! ## All requests -/

theorem not_lastSet_nil : ¬ LastSet [] name v := by
  rintro ⟨front, back, split, -⟩
  simp at split

theorem lastSet_concat_iff : LastSet (requests ++ [r]) name v ↔
    (r = .set name v ∧ r.Accepted (after requests)) ∨
      (LastSet requests name v ∧ ¬ (r.name = name ∧ r.Accepted (after requests))) := by
  constructor
  · rintro ⟨front, back, split, accepted, refused⟩
    rcases Traversal.concat_eq_append_cons_iff.mp split with
      ⟨rfl, rfl, rfl⟩ | ⟨back, rfl, rfl⟩
    · exact .inl ⟨rfl, accepted⟩
    · -- One more request is about another name or refused, and so were those before it.
      refine .inr ⟨⟨front, back, rfl, accepted, ?_⟩, ?_⟩
      · rintro since r' rest rfl
        exact refused since r' (rest ++ [r]) (by simp)
      · rintro ⟨about, granted⟩
        exact refused back r [] rfl about granted
  · rintro (⟨rfl, accepted⟩ | ⟨⟨front, back, rfl, accepted, refused⟩, other⟩)
    · exact ⟨requests, [], rfl, accepted, by simp⟩
    · refine ⟨front, back ++ [r], by simp, accepted, ?_⟩
      intro since r' rest split about granted
      rcases Traversal.concat_eq_append_cons_iff.mp split with
        ⟨rfl, rfl, rfl⟩ | ⟨rest, rfl, rfl⟩
      · exact other ⟨about, granted⟩
      · exact refused since r' rest rfl about granted

theorem get?_after_eq_some_iff :
    (after requests).get? name = some v ↔ LastSet requests name v := by
  induction requests using List.reverseRecOn with
  | nil => simp [after, not_lastSet_nil]
  | append_singleton requests r ih =>
      rw [after_concat, Request.get?_apply_eq_some_iff, lastSet_concat_iff, ih]

theorem get?_after_eq_none_iff :
    (after requests).get? name = none ↔ ∀ v, ¬ LastSet requests name v := by
  rw [Option.eq_none_iff_forall_ne_some]
  exact forall_congr' fun v => not_congr get?_after_eq_some_iff

theorem LastSet.mem (last : LastSet requests name v) : .set name v ∈ requests := by
  obtain ⟨front, back, rfl, -⟩ := last
  exact List.mem_append_right front List.mem_cons_self

theorem LastSet.isValid (last : LastSet requests name v) :
    VariableName.isValid name.toList = true := by
  obtain ⟨front, back, -, ⟨vs', stored⟩, -⟩ := last
  exact isValid_of_set stored

/-! ## The listing -/

theorem contains_iff : vs.contains name = true ↔ ∃ v, vs.get? name = some v := by
  rw [contains, Std.TreeMap.contains_eq_isSome_getElem?, Option.isSome_iff_exists]
  exact Iff.rfl

theorem mem_toList_iff : (name, v) ∈ vs.toList ↔ vs.get? name = some v :=
  Std.TreeMap.mem_toList_iff_getElem?_eq_some

theorem pairwise_toList (vs : Variables) : vs.toList.Pairwise fun a b => a.1 < b.1 :=
  Std.TreeMap.ordered_keys_toList.imp fun less => compare_lt_iff_lt.mp less

theorem nodup_names_toList (vs : Variables) : (vs.toList.map Prod.fst).Nodup :=
  List.pairwise_map.mpr ((pairwise_toList vs).imp ne_of_lt)

/-- Variables with the same values are listed in the same way. -/
theorem toList_congr (same : ∀ name, vs.get? name = ws.get? name) : vs.toList = ws.toList := by
  have : Std.Irrefl fun a b : String × Value => a.1 < b.1 := ⟨fun _ => lt_irrefl _⟩
  have : Std.Antisymm fun a b : String × Value => a.1 < b.1 :=
    ⟨fun _ _ before behind => absurd behind (lt_asymm before)⟩
  apply (pairwise_toList vs).eq_of_mem_iff (pairwise_toList ws)
  rintro ⟨name, v⟩
  rw [mem_toList_iff, mem_toList_iff, same]

theorem size_eq_ncard (vs : Variables) : vs.size = {name | ∃ v, vs.get? name = some v}.ncard := by
  have names : {name | ∃ v, vs.get? name = some v} =
      ((vs.toList.map Prod.fst).toFinset : Set String) := by
    ext name
    simp [mem_toList_iff]
  rw [names, Set.ncard_coe_finset, List.toFinset_card_of_nodup (nodup_names_toList vs),
    List.length_map]
  exact Std.TreeMap.length_toList.symm

end

/-- Whatever was asked for, a variable has the value of the last request about it that was not
refused, if that set it, and otherwise it is not set. How many variables there are and whether one
is there agree with that. What is unset is what would have been found. Setting is refused for what
is wrong with the name and unsetting if nothing is set, and then nothing changes at all. Only valid
names are set. The listing has every variable that is set once, in ascending order of the names,
and is the same after any other requests that lead to the same values. -/
theorem variables_refine_last_requests (requests : List Request) :
    let vs := after requests
    (∀ name v, vs.get name = .ok v ↔ LastSet requests name v) ∧
    (∀ name e, vs.get name = .error e ↔ e = .unbound name ∧ ∀ v, ¬ LastSet requests name v) ∧
    (∀ name, vs.contains name = true ↔ ∃ v, LastSet requests name v) ∧
    vs.size = {name | ∃ v, LastSet requests name v}.ncard ∧
    (∀ name, (vs.unset name).map Prod.fst = vs.get name) ∧
    (∀ name v e, vs.set name v = .error e → VariableName.error? name.toList = some e ∧
      after (requests ++ [.set name v]) = vs) ∧
    (∀ name e, vs.unset name = .error e → e = .unbound name ∧ (∀ v, ¬ LastSet requests name v) ∧
      after (requests ++ [.unset name]) = vs) ∧
    (∀ name v, vs.get name = .ok v → VariableName.error? name.toList = none) ∧
    (∀ name v, (name, v) ∈ vs.toList ↔ vs.get name = .ok v) ∧
    vs.toList.Pairwise (fun a b => a.1 < b.1) ∧
    ∀ others, (∀ name, (after others).get name = vs.get name) →
      (after others).toList = vs.toList := by
  intro vs
  refine ⟨?_, ?_, ?_, ?_, map_unset vs, ?_, ?_, ?_, ?_, pairwise_toList vs, ?_⟩
  · intro name v
    rw [get_eq_ok_iff, get?_after_eq_some_iff]
  · intro name e
    rw [get_eq_error_iff, get?_after_eq_none_iff]
  · intro name
    rw [contains_iff]
    exact exists_congr fun v => get?_after_eq_some_iff
  · rw [size_eq_ncard]
    simp only [vs, get?_after_eq_some_iff]
  · intro name v e refused
    refine ⟨set_eq_error_iff.mp refused, ?_⟩
    rw [after_concat]
    exact Request.apply_of_not_accepted (Request.not_accepted_of_set refused)
  · intro name e refused
    obtain ⟨reason, unset⟩ := unset_eq_error_iff.mp refused
    refine ⟨reason, get?_after_eq_none_iff.mp unset, ?_⟩
    rw [after_concat]
    exact Request.apply_of_not_accepted (Request.not_accepted_of_unset refused)
  · intro name v held
    have last := get?_after_eq_some_iff.mp (get_eq_ok_iff.mp held)
    exact Option.isNone_iff_eq_none.mp last.isValid
  · intro name v
    rw [mem_toList_iff, get_eq_ok_iff]
  · intro others same
    apply toList_congr
    intro name
    apply Option.ext
    intro v
    rw [← get_eq_ok_iff, ← get_eq_ok_iff, same]

/-- A color word is refused and a variable is set twice, and then the listing is that of two
variables which were set in another order, of which a third was unset. -/
theorem variables_refine_last_requests_reordered :
    let requests : List Request := [.set "b" .null, .set "a" (.int 1)]
    let others : List Request := [.set "a" (.int 2), .set "red" .null, .set "c" .null,
      .set "a" (.int 1), .unset "c", .set "b" .null]
    (after others).get "a" = .ok (.int 1) ∧ LastSet others "a" (.int 1) ∧
      (after others).set "red" .null = .error (.reserved "red" .color) ∧
      after (others ++ [.set "red" .null]) = after others ∧
      (after others).unset "c" = .error (.unbound "c") ∧
      after (others ++ [.unset "c"]) = after others ∧
      VariableName.error? "a".toList = none ∧
      (after others).toList = (after requests).toList := by
  intro requests others
  obtain ⟨last, unset, -, -, -, refused, missing, valid, -, -, -⟩ :=
    variables_refine_last_requests others
  obtain ⟨-, unset', -, -, -, -, -, -, -, -, listing⟩ := variables_refine_last_requests requests
  have held : (after others).get "a" = .ok (.int 1) := by decide +kernel
  have reserved : (after others).set "red" .null = .error (.reserved "red" .color) :=
    set_eq_error_iff.mpr (by decide)
  have unbound : (after others).unset "c" = .error (.unbound "c") :=
    unset_eq_error_iff.mpr ⟨rfl, by decide +kernel⟩
  have same : ∀ name, (after others).get name = (after requests).get name := by
    intro name
    by_cases listed : name ∈ ["a", "b", "c", "red"]
    · have each : ∀ name ∈ ["a", "b", "c", "red"],
          (after others).get name = (after requests).get name := by
        decide +kernel
      exact each name listed
    · have unnamed : ∀ v, .set name v ∉ others ∧ .set name v ∉ requests := by
        simp_all [others, requests]
      rw [(unset name _).mpr ⟨rfl, fun v last => (unnamed v).1 last.mem⟩,
        (unset' name _).mpr ⟨rfl, fun v last => (unnamed v).2 last.mem⟩]
  exact ⟨held, (last _ _).mp held, reserved, (refused _ _ _ reserved).2, unbound,
    (missing _ _ unbound).2.2, valid _ _ held, listing others same⟩

end CommandConsole.Variables
