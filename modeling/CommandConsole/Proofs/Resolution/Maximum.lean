import Mathlib.Data.Prod.Lex
import Mathlib.Data.String.Basic
import CommandConsole.Command.Resolution

/-!
# The unique maximum among overloads

Overloads are looked at one after the other, and only those that lead so far
are remembered. What the leaders are at every moment is stated once, as an
invariant of one more look; after the whole list they are the overloads that
nothing in the list outscores, in the order of the list.

An overload is therefore picked exactly if it outscores every other entry, and
what is reported otherwise does not depend on the order of the declarations:
the candidates are listed by a key that determines their signatures.
-/

namespace CommandConsole

namespace Overload

variable {vs : Variables} {values : List Value}

/-- Only the declared kinds and the values take part in the score. -/
theorem score?_congr {a b : Overload} (same : a.kinds = b.kinds) :
    a.score? vs values = b.score? vs values := by
  simp only [score?, same]

/-- An overload is at the top of a list if it can take the values and none of
the list that can take them scores more. -/
def isTop (vs : Variables) (values : List Value) (overloads : List Overload) (o : Overload) :
    Bool :=
  (o.score? vs values).any fun points =>
    overloads.all fun other => (other.score? vs values).all (· ≤ points)

theorem isTop_iff {overloads : List Overload} {o : Overload} :
    o.isTop vs values overloads = true ↔
      ∃ points, o.score? vs values = some points ∧
        ∀ other ∈ overloads, ∀ others, other.score? vs values = some others → others ≤ points := by
  simp [isTop, Option.any_eq_true, Option.all_eq_true]

/-- Overloads of the same kinds are at the top together. -/
theorem isTop_congr {overloads : List Overload} {a b : Overload} (same : a.kinds = b.kinds) :
    a.isTop vs values overloads = b.isTop vs values overloads := by
  simp only [isTop, score?_congr same]

/-- Only what is in the list matters, not the order in which it is there. -/
theorem isTop_perm {overloads reordered : List Overload} (perm : reordered.Perm overloads) :
    isTop vs values reordered = isTop vs values overloads := by
  funext o
  apply Bool.eq_iff_iff.mpr
  simp only [isTop_iff, perm.mem_iff]

end Overload

/-- The overloads that nothing in the list outscores. -/
def topOverloads (overloads : List Overload) (vs : Variables) (values : List Value) :
    List Overload :=
  overloads.filter (Overload.isTop vs values overloads)

/-- What the leaders are after a list was looked at: the overloads of the
leading score, which nothing exceeds. The score of no leaders is no bound that
anything has reached, so the list without leaders is described apart. -/
structure Leaders.Lead (vs : Variables) (values : List Value) (seen : List Overload)
    (l : Leaders) : Prop where
  members : l.overloads = seen.filter fun o => o.score? vs values == some l.score
  bound : ∀ o ∈ seen, ∀ points, o.score? vs values = some points → points ≤ l.score
  none_viable : l.overloads = [] → ∀ o ∈ seen, o.score? vs values = none

namespace Leaders

variable {vs : Variables} {values : List Value} {seen : List Overload} {l : Leaders}

theorem lead_nil : Lead vs values [] {} where
  members := rfl
  bound := by simp
  none_viable := by simp

theorem score?_le_append {most : Nat}
    (old : ∀ o ∈ seen, ∀ points, o.score? vs values = some points → points ≤ most) {o : Overload}
    (new : ∀ points, o.score? vs values = some points → points ≤ most) :
    ∀ o' ∈ seen ++ [o], ∀ points, o'.score? vs values = some points → points ≤ most :=
  List.forall_mem_append.mpr ⟨old, List.forall_mem_singleton.mpr new⟩

/-- An overload that cannot take the values changes nothing. -/
theorem Lead.skip (h : Lead vs values seen l) {o : Overload} (out : o.score? vs values = none) :
    Lead vs values (seen ++ [o]) l where
  members := by simp [List.filter_append, out, ← h.members]
  bound := by
    apply score?_le_append h.bound
    intro points scored
    rw [out] at scored
    cases scored
  none_viable := by
    intro empty
    exact List.forall_mem_append.mpr
      ⟨h.none_viable empty, List.forall_mem_singleton.mpr out⟩

/-- Whatever the leaders were, none of them has the score of an overload that
exceeds everything seen before. -/
theorem Lead.replace {o : Overload} {points : Nat} (scored : o.score? vs values = some points)
    (exceeds : ∀ o' ∈ seen, ∀ points', o'.score? vs values = some points' → points' < points) :
    Lead vs values (seen ++ [o]) ⟨points, [o]⟩ where
  members := by
    have none_left : seen.filter (fun o' => o'.score? vs values == some points) = [] := by
      apply List.filter_eq_nil_iff.mpr
      intro o' member equal
      exact Nat.lt_irrefl _ (exceeds o' member points (beq_iff_eq.mp equal))
    simp [List.filter_append, none_left, scored]
  bound := by
    apply score?_le_append
    · intro o' member points' scored'
      exact Nat.le_of_lt (exceeds o' member points' scored')
    · intro points' scored'
      exact Nat.le_of_eq (Option.some.inj (scored'.symm.trans scored))
  none_viable := by simp

/-- An overload of the leading score joins the leaders. -/
theorem Lead.join (h : Lead vs values seen l) {o : Overload}
    (scored : o.score? vs values = some l.score) :
    Lead vs values (seen ++ [o]) { l with overloads := l.overloads ++ [o] } where
  members := by simp [List.filter_append, scored, ← h.members]
  bound := by
    apply score?_le_append h.bound
    intro points scored'
    exact Nat.le_of_eq (Option.some.inj (scored'.symm.trans scored))
  none_viable := by simp

/-- An overload that scores less than the leaders changes nothing. -/
theorem Lead.pass (h : Lead vs values seen l) (leading : l.overloads ≠ []) {o : Overload}
    {points : Nat} (scored : o.score? vs values = some points) (less : points < l.score) :
    Lead vs values (seen ++ [o]) l where
  members := by simp [List.filter_append, scored, Nat.ne_of_lt less, ← h.members]
  bound := by
    apply score?_le_append h.bound
    intro points' scored'
    obtain rfl := Option.some.inj (scored.symm.trans scored')
    exact Nat.le_of_lt less
  none_viable := fun empty => absurd empty leading

/-- One more look keeps the invariant. -/
theorem Lead.add (h : Lead vs values seen l) (o : Overload) :
    Lead vs values (seen ++ [o]) (l.add vs values o) := by
  cases scored : o.score? vs values with
  | none =>
      simp only [Leaders.add, scored]
      exact h.skip scored
  | some points =>
      simp only [Leaders.add, scored]
      by_cases takes : l.overloads.isEmpty || l.score < points
      · rw [if_pos takes]
        apply Lead.replace scored
        intro o' member points' scored'
        cases (Bool.or_eq_true _ _).mp takes with
        | inl empty =>
            rw [h.none_viable (List.isEmpty_iff.mp empty) o' member] at scored'
            cases scored'
        | inr more =>
            have below := h.bound o' member points' scored'
            exact Nat.lt_of_le_of_lt below (of_decide_eq_true more)
      · rw [if_neg takes]
        simp only [Bool.or_eq_true, List.isEmpty_iff, decide_eq_true_eq, not_or] at takes
        by_cases equal : points = l.score
        · rw [if_pos equal]
          exact h.join (equal ▸ scored)
        · rw [if_neg equal]
          exact h.pass takes.1 scored (by omega)

theorem Lead.foldl (h : Lead vs values seen l) (overloads : List Overload) :
    Lead vs values (seen ++ overloads) (overloads.foldl (Leaders.add vs values) l) := by
  induction overloads generalizing seen l with
  | nil => simpa using h
  | cons o overloads ih => simpa using ih (h.add o)

theorem lead_leaders (overloads : List Overload) (vs : Variables) (values : List Value) :
    Lead vs values overloads (leaders overloads vs values) :=
  lead_nil.foldl overloads

/-- After the whole list the leaders are what nothing in the list outscores. -/
theorem overloads_leaders (overloads : List Overload) (vs : Variables) (values : List Value) :
    (leaders overloads vs values).overloads = topOverloads overloads vs values := by
  have h := lead_leaders overloads vs values
  rw [h.members]
  apply List.filter_congr
  intro o member
  apply Bool.eq_iff_iff.mpr
  rw [beq_iff_eq, Overload.isTop_iff]
  constructor
  · intro scored
    exact ⟨_, scored, h.bound⟩
  · rintro ⟨points, scored, top⟩
    -- Some leader has the leading score, so what nothing outscores has it too.
    have leading : (leaders overloads vs values).overloads ≠ [] := by
      intro empty
      rw [h.none_viable empty o member] at scored
      cases scored
    obtain ⟨leader, first⟩ := List.exists_mem_of_ne_nil _ leading
    rw [h.members, List.mem_filter, beq_iff_eq] at first
    have below := h.bound o member points scored
    have above := top leader first.1 _ first.2
    rw [scored, Nat.le_antisymm below above]

end Leaders

section Top

variable {vs : Variables} {values : List Value} {overloads reordered : List Overload}

theorem mem_topOverloads {o : Overload} :
    o ∈ topOverloads overloads vs values ↔
      o ∈ overloads ∧ o.isTop vs values overloads = true :=
  List.mem_filter

theorem score?_isSome_of_mem_topOverloads {o : Overload}
    (member : o ∈ topOverloads overloads vs values) : (o.score? vs values).isSome := by
  obtain ⟨points, scored, _⟩ := Overload.isTop_iff.mp (mem_topOverloads.mp member).2
  rw [scored]
  rfl

/-- Of finitely many overloads that can take the values one has the greatest score. -/
theorem topOverloads_eq_nil_iff :
    topOverloads overloads vs values = [] ↔ ∀ o ∈ overloads, o.score? vs values = none := by
  constructor
  · intro empty
    apply (Leaders.lead_leaders overloads vs values).none_viable
    exact (Leaders.overloads_leaders overloads vs values).trans empty
  · intro out
    apply List.eq_nil_iff_forall_not_mem.mpr
    intro o member
    have viable := score?_isSome_of_mem_topOverloads member
    rw [out o (mem_topOverloads.mp member).1] at viable
    cases viable

/-- One overload is alone at the top exactly if it outscores every other entry
of the list that can take the values, an equal entry in another place included. -/
theorem topOverloads_eq_singleton_iff {d : Overload} :
    topOverloads overloads vs values = [d] ↔
      ∃ before after points, overloads = before ++ d :: after ∧
        d.score? vs values = some points ∧
        ∀ o ∈ before ++ after, ∀ others, o.score? vs values = some others → others < points := by
  constructor
  · intro alone
    obtain ⟨before, after, split, below, top, above⟩ := List.filter_eq_cons_iff.mp alone
    obtain ⟨points, scored, greatest⟩ := Overload.isTop_iff.mp top
    refine ⟨before, after, points, split, scored, ?_⟩
    intro o member others scored'
    have listed : o ∈ overloads := by
      rw [split]
      simp only [List.mem_append, List.mem_cons] at member ⊢
      exact member.imp_right .inr
    have not_top : ¬ o.isTop vs values overloads = true := by
      cases List.mem_append.mp member with
      | inl front => exact below o front
      | inr back => exact List.filter_eq_nil_iff.mp above o back
    apply Nat.lt_of_le_of_ne (greatest o listed others scored')
    rintro rfl
    exact not_top (Overload.isTop_iff.mpr ⟨_, scored', greatest⟩)
  · rintro ⟨before, after, points, rfl, scored, greatest⟩
    have not_top : ∀ o ∈ before ++ after,
        ¬ o.isTop vs values (before ++ d :: after) = true := by
      intro o member top
      obtain ⟨others, scored', greatest'⟩ := Overload.isTop_iff.mp top
      have less := greatest o member others scored'
      have more := greatest' d (by simp) points scored
      omega
    apply List.filter_eq_cons_iff.mpr
    refine ⟨before, after, rfl, ?_, ?_, ?_⟩
    · intro o member
      exact not_top o (List.mem_append_left after member)
    · refine Overload.isTop_iff.mpr ⟨points, scored, ?_⟩
      intro o member others scored'
      simp only [List.mem_append, List.mem_cons] at member
      rcases member with front | rfl | back
      · exact Nat.le_of_lt (greatest o (List.mem_append_left after front) others scored')
      · rw [scored] at scored'
        exact Nat.le_of_eq (Option.some.inj scored').symm
      · exact Nat.le_of_lt (greatest o (List.mem_append_right before back) others scored')
    · apply List.filter_eq_nil_iff.mpr
      intro o member
      exact not_top o (List.mem_append_right before member)

theorem one_lt_length_topOverloads {o : Overload} (member : o ∈ overloads)
    (viable : (o.score? vs values).isSome) (shared : ∀ d, topOverloads overloads vs values ≠ [d]) :
    1 < (topOverloads overloads vs values).length := by
  match top : topOverloads overloads vs values with
  | [] =>
      rw [topOverloads_eq_nil_iff.mp top o member] at viable
      cases viable
  | [d] => exact absurd top (shared d)
  | _ :: _ :: _ => simp

theorem topOverloads_perm (perm : reordered.Perm overloads) :
    (topOverloads reordered vs values).Perm (topOverloads overloads vs values) := by
  rw [topOverloads, topOverloads, Overload.isTop_perm perm]
  exact perm.filter _

end Top

namespace Overload

/-- By what candidates are ordered. The second part is what is shown of them. -/
def listingKey (o : Overload) : String ×ₗ String := toLex (o.kindKey, o.signature)

theorem listedBefore_iff {a b : Overload} :
    a.listedBefore b = true ↔ a.listingKey ≤ b.listingKey := by
  simp [listedBefore, listingKey, Prod.Lex.toLex_le_toLex]

theorem pairwise_mergeSort_listedBefore (os : List Overload) :
    (os.mergeSort listedBefore).Pairwise fun a b => a.listingKey ≤ b.listingKey := by
  have trans : ∀ a b c : Overload,
      a.listedBefore b = true → b.listedBefore c = true → a.listedBefore c = true := by
    intro a b c ab bc
    exact listedBefore_iff.mpr (le_trans (listedBefore_iff.mp ab) (listedBefore_iff.mp bc))
  have total : ∀ a b : Overload, (a.listedBefore b || b.listedBefore a) = true := by
    intro a b
    rw [Bool.or_eq_true, listedBefore_iff, listedBefore_iff]
    exact le_total _ _
  exact (List.pairwise_mergeSort trans total os).imp listedBefore_iff.mp

/-- Different overloads may have one key, and then their order is that of the
declarations. What is shown of them is the same all the same. -/
theorem signatures_mergeSort_perm {os reordered : List Overload} (perm : reordered.Perm os) :
    (reordered.mergeSort listedBefore).map signature =
      (os.mergeSort listedBefore).map signature := by
  have keys : (reordered.mergeSort listedBefore).map listingKey =
      (os.mergeSort listedBefore).map listingKey := by
    have sorted : ∀ os : List Overload,
        ((os.mergeSort listedBefore).map listingKey).Pairwise (· ≤ ·) := fun os =>
      List.pairwise_map.mpr (pairwise_mergeSort_listedBefore os)
    apply List.Perm.eq_of_pairwise _ (sorted reordered) (sorted os)
    · apply List.Perm.map
      exact (List.mergeSort_perm _ _).trans (perm.trans (List.mergeSort_perm _ _).symm)
    · intro a b _ _ ab ba
      exact le_antisymm ab ba
  have shown := congrArg (List.map fun key => (ofLex key).2) keys
  simpa only [List.map_map, Function.comp_def, listingKey, ofLex_toLex] using shown

end Overload

section Resolve

variable {command : String} {vs : Variables} {values : List Value}
variable {overloads reordered : List Overload}

theorem resolve_eq_noMatch_iff :
    resolve command overloads vs values = .error (.noMatch command) ↔
      topOverloads overloads vs values = [] := by
  rw [resolve, Leaders.overloads_leaders]
  split <;> simp_all

theorem resolve_eq_ok_iff {d : Overload} :
    resolve command overloads vs values = .ok d ↔ topOverloads overloads vs values = [d] := by
  rw [resolve, Leaders.overloads_leaders]
  split <;> simp_all

/-- An overload that stands alone is picked if it can take the values. -/
theorem resolve_singleton {o : Overload} (viable : (o.score? vs values).isSome = true) :
    resolve command [o] vs values = .ok o := by
  obtain ⟨points, scored⟩ := Option.isSome_iff_exists.mp viable
  simp [resolve, leaders, Leaders.add, scored]

theorem mem_overloads_of_resolve {d : Overload}
    (picked : resolve command overloads vs values = .ok d) : d ∈ overloads := by
  have alone := resolve_eq_ok_iff.mp picked
  exact (mem_topOverloads.mp (alone ▸ List.mem_singleton_self d)).1

/-- Several overloads at the top are all named, and none of them is picked. -/
theorem resolve_eq_ambiguous (several : 1 < (topOverloads overloads vs values).length) :
    resolve command overloads vs values =
      .error (.ambiguous command
        (((topOverloads overloads vs values).mergeSort Overload.listedBefore).map
          Overload.signature)) := by
  rw [resolve, Leaders.overloads_leaders]
  split
  next none => simp [none] at several
  next one => simp [one] at several
  next => rfl

theorem resolve_perm (perm : reordered.Perm overloads) :
    resolve command reordered vs values = resolve command overloads vs values := by
  have tops : (topOverloads reordered vs values).Perm (topOverloads overloads vs values) :=
    topOverloads_perm perm
  match top : topOverloads overloads vs values with
  | [] =>
      rw [top, List.perm_nil] at tops
      rw [resolve_eq_noMatch_iff.mpr top, resolve_eq_noMatch_iff.mpr tops]
  | [d] =>
      rw [top, List.perm_singleton] at tops
      rw [resolve_eq_ok_iff.mpr top, resolve_eq_ok_iff.mpr tops]
  | first :: second :: rest =>
      have several : 1 < (topOverloads overloads vs values).length := by
        rw [top, List.length_cons, List.length_cons]
        omega
      rw [resolve_eq_ambiguous several, resolve_eq_ambiguous (tops.length_eq ▸ several),
        Overload.signatures_mergeSort_perm tops]

/-- Two entries of the list with the same kinds are at the top together or not
at all, so nothing of these kinds is ever alone there. -/
theorem kinds_ne_of_resolve_eq_ok {a b d : Overload} (twice : [a, b].Sublist overloads)
    (same : a.kinds = b.kinds) (picked : resolve command overloads vs values = .ok d) :
    d.kinds ≠ a.kinds := by
  intro equal
  have alone := resolve_eq_ok_iff.mp picked
  have top : d.isTop vs values overloads = true :=
    (mem_topOverloads.mp (alone ▸ List.mem_singleton_self d)).2
  have both : [a, b].filter (Overload.isTop vs values overloads) = [a, b] := by
    apply List.filter_eq_self.mpr
    intro o member
    have kinds : d.kinds = o.kinds := by
      rcases List.mem_pair.mp member with rfl | rfl
      · exact equal
      · exact equal.trans same
    exact (Overload.isTop_congr kinds) ▸ top
  have inside : [a, b].Sublist [d] := by
    rw [← both, ← alone]
    exact twice.filter _
  exact absurd inside.length_le (by simp)

/-- An overload is picked exactly if it outscores every other entry of the list.
Nothing else is ever picked: with no overload that can take the values there is
no match, and otherwise all at the top are named, each as often as it is there
and in ascending order of their kinds and signatures. None of this depends on
the order of the list, and of two entries with the same kinds none is picked. -/
theorem resolve_unique_maximum (command : String) (overloads : List Overload) (vs : Variables)
    (values : List Value) :
    (resolve command overloads vs values = .error (.noMatch command) ↔
      ∀ o ∈ overloads, o.score? vs values = none) ∧
    (∀ d, resolve command overloads vs values = .ok d ↔
      ∃ before after points, overloads = before ++ d :: after ∧
        d.score? vs values = some points ∧
        ∀ o ∈ before ++ after, ∀ others,
          o.score? vs values = some others → others < points) ∧
    ((∃ o ∈ overloads, (o.score? vs values).isSome) →
      (∀ d, resolve command overloads vs values ≠ .ok d) →
      ∃ tied : List Overload,
        tied.Perm (overloads.filter (Overload.isTop vs values overloads)) ∧
        tied.Pairwise (fun a b => a.kindKey < b.kindKey ∨
          a.kindKey = b.kindKey ∧ a.signature ≤ b.signature) ∧
        resolve command overloads vs values =
          .error (.ambiguous command (tied.map Overload.signature))) ∧
    (∀ reordered : List Overload, reordered.Perm overloads →
      resolve command reordered vs values = resolve command overloads vs values) ∧
    (∀ a b, [a, b].Sublist overloads → a.kinds = b.kinds →
      ∀ d, resolve command overloads vs values = .ok d → d.kinds ≠ a.kinds) := by
  refine ⟨?_, ?_, ?_, fun _ => resolve_perm,
    fun _ _ twice same _ => kinds_ne_of_resolve_eq_ok twice same⟩
  · rw [resolve_eq_noMatch_iff, topOverloads_eq_nil_iff]
  · intro d
    rw [resolve_eq_ok_iff, topOverloads_eq_singleton_iff]
  · rintro ⟨o, member, viable⟩ unpicked
    have several := one_lt_length_topOverloads member viable
      fun d => mt resolve_eq_ok_iff.mpr (unpicked d)
    refine ⟨(topOverloads overloads vs values).mergeSort Overload.listedBefore,
      List.mergeSort_perm _ _, ?_, resolve_eq_ambiguous several⟩
    apply (Overload.pairwise_mergeSort_listedBefore _).imp
    intro a b ordered
    simpa [Overload.listingKey, Prod.Lex.toLex_le_toLex] using ordered

/-- A later overload of the declared kind takes the place of two that tied
before it. With `null` the two that tie are named, and in one order only. -/
theorem resolve_unique_maximum_late :
    let wide : Overload := ⟨0, "f", "", [⟨"x", .string⟩]⟩
    let other : Overload := ⟨1, "f", "", [⟨"x", .object⟩]⟩
    let exact : Overload := ⟨2, "f", "", [⟨"x", .int⟩]⟩
    (∃ tied : List Overload, tied.Perm [wide, other] ∧
      resolve "f" [wide, other, exact] {} [.null] =
        .error (.ambiguous "f" (tied.map Overload.signature))) ∧
    resolve "f" [exact, other, wide] {} [.null] = resolve "f" [wide, other, exact] {} [.null] ∧
    resolve "f" [⟨0, "f", "", [⟨"x", .any⟩]⟩, ⟨1, "f", "", [⟨"x", .any⟩]⟩, exact] {} [.int 3] =
      .ok exact := by
  intro wide other exact
  have null := resolve_unique_maximum "f" [wide, other, exact] {} [.null]
  have tie : topOverloads [wide, other, exact] {} [.null] = [wide, other] := rfl
  refine ⟨?_, ?_, ?_⟩
  · obtain ⟨tied, perm, _, reported⟩ := null.2.2.1 ⟨wide, by simp, rfl⟩ (by
      intro d picked
      rw [resolve_eq_ok_iff, tie] at picked
      cases picked)
    exact ⟨tied, perm, reported⟩
  · exact null.2.2.2.1 _ (by decide)
  · refine ((resolve_unique_maximum "f" _ {} [.int 3]).2.1 exact).mpr
      ⟨[⟨0, "f", "", [⟨"x", .any⟩]⟩, ⟨1, "f", "", [⟨"x", .any⟩]⟩], [], 2, rfl, rfl, ?_⟩
    decide

end Resolve

end CommandConsole
