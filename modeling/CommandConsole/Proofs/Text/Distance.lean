import Mathlib.Order.Bounds.Basic
import CommandConsole.Text.Distance

/-!
# The least number of edits

A single edit inserts, deletes or substitutes one character anywhere in a text.
The edit distance of two texts is the least number of edits that lead from one
to the other, so it is a metric on texts.

Between the row of distances and the edits stands the cost of an alignment. It
compares two texts from one end, while edits can be made in any place and order;
that no order of edits is cheaper follows because one edit changes the cost
against any other text by at most one. The row reads texts from the beginning
and the cost takes off the last characters first, so the cost is about texts
written backwards.
-/

namespace CommandConsole.Text

/-- One edit turns a text into another. -/
inductive Edit : List Char → List Char → Prop
  | insert (front back : List Char) (x : Char) : Edit (front ++ back) (front ++ x :: back)
  | delete (front back : List Char) (x : Char) : Edit (front ++ x :: back) (front ++ back)
  | substitute (front back : List Char) (x y : Char) :
    Edit (front ++ x :: back) (front ++ y :: back)

/-- A number of edits, one after the other, turns a text into another. -/
inductive Edits : Nat → List Char → List Char → Prop
  | none (a : List Char) : Edits 0 a a
  | more {n : Nat} {a b c : List Char} : Edit a b → Edits n b c → Edits (n + 1) a c

section Edits

variable {a b c : List Char} {m n : Nat}

theorem Edit.symm (edit : Edit a b) : Edit b a := by
  cases edit with
  | insert front back x => exact .delete front back x
  | delete front back x => exact .insert front back x
  | substitute front back x y => exact .substitute front back y x

theorem Edit.cons (x : Char) (edit : Edit a b) : Edit (x :: a) (x :: b) := by
  cases edit with
  | insert front back y => exact .insert (x :: front) back y
  | delete front back y => exact .delete (x :: front) back y
  | substitute front back y z => exact .substitute (x :: front) back y z

theorem Edit.reverse (edit : Edit a b) : Edit a.reverse b.reverse := by
  cases edit with
  | insert front back x =>
      simp only [List.reverse_append, List.reverse_cons, List.append_assoc]
      exact .insert back.reverse front.reverse x
  | delete front back x =>
      simp only [List.reverse_append, List.reverse_cons, List.append_assoc]
      exact .delete back.reverse front.reverse x
  | substitute front back x y =>
      simp only [List.reverse_append, List.reverse_cons, List.append_assoc]
      exact .substitute back.reverse front.reverse x y

theorem Edits.cons (x : Char) (edits : Edits n a b) : Edits n (x :: a) (x :: b) := by
  induction edits with
  | none a => exact .none (x :: a)
  | more edit _ ih => exact .more (edit.cons x) ih

theorem Edits.reverse (edits : Edits n a b) : Edits n a.reverse b.reverse := by
  induction edits with
  | none a => exact .none a.reverse
  | more edit _ ih => exact .more edit.reverse ih

theorem Edits.trans (first : Edits m a b) (second : Edits n b c) : Edits (m + n) a c := by
  induction first with
  | none a => rwa [Nat.zero_add]
  | more edit _ ih =>
      rw [Nat.add_right_comm]
      exact .more edit (ih second)

theorem Edits.symm (edits : Edits n a b) : Edits n b a := by
  induction edits with
  | none a => exact .none a
  | more edit _ ih => exact ih.trans (.more edit.symm (.none _))

theorem edits_zero_iff : Edits 0 a b ↔ a = b := by
  constructor
  · intro edits
    cases edits
    rfl
  · rintro rfl
    exact .none a

end Edits

/-- The cost of turning one text into another from the front, character by character. -/
def alignmentCost : List Char → List Char → Nat
  | [], b => b.length
  | a, [] => a.length
  | x :: a, y :: b =>
    min (min (alignmentCost a b + if x = y then 0 else 1) (alignmentCost (x :: a) b + 1))
      (alignmentCost a (y :: b) + 1)
termination_by a b => a.length + b.length

section Cost

variable {a a' b : List Char} {x y : Char}

@[simp] theorem alignmentCost_nil (b : List Char) : alignmentCost [] b = b.length := by
  rw [alignmentCost]

@[simp] theorem alignmentCost_nil_right (a : List Char) : alignmentCost a [] = a.length := by
  cases a <;> simp [alignmentCost]

theorem alignmentCost_cons_cons (x y : Char) (a b : List Char) :
    alignmentCost (x :: a) (y :: b) =
      min (min (alignmentCost a b + if x = y then 0 else 1) (alignmentCost (x :: a) b + 1))
        (alignmentCost a (y :: b) + 1) := by
  rw [alignmentCost]

theorem edits_length_nil (a : List Char) : Edits a.length a [] := by
  induction a with
  | nil => exact .none []
  | cons x a ih => exact .more (.delete [] a x) ih

/-- The cost is the number of some edits. -/
theorem edits_alignmentCost (a b : List Char) : Edits (alignmentCost a b) a b := by
  induction a, b using alignmentCost.induct with
  | case1 b =>
      rw [alignmentCost_nil]
      exact (edits_length_nil b).symm
  | case2 a =>
      rw [alignmentCost_nil_right]
      exact edits_length_nil a
  | case3 x a y b kept inserted deleted =>
      have diagonal : Edits (alignmentCost a b + if x = y then 0 else 1) (x :: a) (y :: b) := by
        split
        next same =>
          subst same
          exact kept.cons x
        next => exact (kept.cons x).trans (.more (.substitute [] b x y) (.none _))
      have left : Edits (alignmentCost (x :: a) b + 1) (x :: a) (y :: b) :=
        inserted.trans (.more (.insert [] b y) (.none _))
      have above : Edits (alignmentCost a (y :: b) + 1) (x :: a) (y :: b) :=
        .more (.delete [] a x) deleted
      rw [alignmentCost_cons_cons]
      exact min_rec' (Edits · _ _) (min_rec' (Edits · _ _) diagonal left) above

theorem alignmentCost_self (a : List Char) : alignmentCost a a = 0 := by
  induction a with
  | nil => simp
  | cons x a ih => simp [alignmentCost_cons_cons, ih]

theorem alignmentCost_cons_le (x : Char) (a b : List Char) :
    alignmentCost (x :: a) b ≤ alignmentCost a b + 1 := by
  cases b with
  | nil => simp
  | cons y b =>
      rw [alignmentCost_cons_cons]
      exact min_le_right _ _

theorem alignmentCost_cons_right_le (y : Char) (a b : List Char) :
    alignmentCost a (y :: b) ≤ alignmentCost a b + 1 := by
  cases a with
  | nil => simp
  | cons x a =>
      rw [alignmentCost_cons_cons]
      exact (min_le_left _ _).trans (min_le_right _ _)

theorem le_alignmentCost_cons (x : Char) (a b : List Char) :
    alignmentCost a b ≤ alignmentCost (x :: a) b + 1 := by
  induction b with
  | nil =>
      simp only [alignmentCost_nil_right, List.length_cons]
      omega
  | cons y b ih =>
      have := alignmentCost_cons_right_le y a b
      rw [alignmentCost_cons_cons]
      omega

theorem alignmentCost_substitute_le (x y : Char) (a b : List Char) :
    alignmentCost (x :: a) b ≤ alignmentCost (y :: a) b + 1 := by
  induction b with
  | nil => simp
  | cons z b ih =>
      rw [alignmentCost_cons_cons, alignmentCost_cons_cons]
      have : (if x = z then 0 else 1) ≤ (if y = z then 0 else 1) + 1 := by
        split <;> simp
      omega

theorem alignmentCost_cons_le_cons (x : Char)
    (near : ∀ b, alignmentCost a b ≤ alignmentCost a' b + 1) (b : List Char) :
    alignmentCost (x :: a) b ≤ alignmentCost (x :: a') b + 1 := by
  induction b with
  | nil => simpa using near []
  | cons y b ih =>
      have diagonal := near b
      have above := near (y :: b)
      rw [alignmentCost_cons_cons, alignmentCost_cons_cons]
      omega

theorem alignmentCost_append_le (front : List Char)
    (near : ∀ b, alignmentCost a b ≤ alignmentCost a' b + 1) (b : List Char) :
    alignmentCost (front ++ a) b ≤ alignmentCost (front ++ a') b + 1 := by
  induction front generalizing b with
  | nil => exact near b
  | cons x front ih => exact alignmentCost_cons_le_cons x ih b

/-- One edit changes the cost by at most one, whatever text it is the cost of. -/
theorem Edit.alignmentCost_le (edit : Edit a a') (b : List Char) :
    alignmentCost a b ≤ alignmentCost a' b + 1 := by
  cases edit with
  | insert front back x => exact alignmentCost_append_le front (le_alignmentCost_cons x back) b
  | delete front back x => exact alignmentCost_append_le front (alignmentCost_cons_le x back) b
  | substitute front back x y =>
      exact alignmentCost_append_le front (alignmentCost_substitute_le x y back) b

/-- No edits are fewer than the cost. -/
theorem Edits.alignmentCost_le {n : Nat} (edits : Edits n a b) : alignmentCost a b ≤ n := by
  induction edits with
  | none a => rw [alignmentCost_self]
  | more edit _ ih => exact (edit.alignmentCost_le _).trans (Nat.succ_le_succ ih)

end Cost

/-- The costs of turning `a` into `q` and into the texts that come about by putting the
characters of another text in front of `q`, one by one. -/
def alignmentCosts (a q : List Char) : List Char → List Nat
  | [] => [alignmentCost a q]
  | y :: b => alignmentCost a q :: alignmentCosts a (y :: q) b

section Rows

variable {a q b : List Char} {x : Char}

theorem alignmentCosts_eq_cons (a q b : List Char) :
    alignmentCosts a q b = alignmentCost a q :: (alignmentCosts a q b).tail := by
  cases b <;> rfl

/-- A cell is the cost of one more character of the second text. -/
theorem nextCells_alignmentCosts (x : Char) (a q b : List Char) :
    nextCells x (alignmentCost a q) (alignmentCost (x :: a) q) b (alignmentCosts a q b).tail =
      (alignmentCosts (x :: a) q b).tail := by
  induction b generalizing q with
  | nil => rfl
  | cons y b ih =>
      simp only [alignmentCosts, List.tail_cons]
      rw [alignmentCosts_eq_cons a (y :: q), alignmentCosts_eq_cons (x :: a) (y :: q), nextCells,
        ← alignmentCost_cons_cons, ih]

theorem nextRow_alignmentCosts (x : Char) (a b : List Char) :
    nextRow b (alignmentCosts a [] b) x = alignmentCosts (x :: a) [] b := by
  rw [alignmentCosts_eq_cons, alignmentCosts_eq_cons (x :: a), nextRow,
    ← nextCells_alignmentCosts]
  simp

theorem foldl_nextRow (p a b : List Char) :
    a.foldl (nextRow b) (alignmentCosts p [] b) = alignmentCosts (a.reverse ++ p) [] b := by
  induction a generalizing p with
  | nil => rfl
  | cons x a ih =>
      rw [List.foldl_cons, nextRow_alignmentCosts, ih, List.reverse_cons, List.append_assoc,
        List.singleton_append]

theorem alignmentCosts_nil (q b : List Char) :
    alignmentCosts [] q b = List.range' q.length (b.length + 1) := by
  induction b generalizing q with
  | nil => simp [alignmentCosts]
  | cons y b ih => simp [alignmentCosts, ih, List.range'_succ]

theorem getLastD_alignmentCosts (a q b : List Char) (d : Nat) :
    (alignmentCosts a q b).getLastD d = alignmentCost a (b.reverse ++ q) := by
  induction b generalizing q d with
  | nil => rfl
  | cons y b ih =>
      rw [alignmentCosts, List.getLastD_cons, ih, List.reverse_cons, List.append_assoc,
        List.singleton_append]

/-- The row for `a` has the costs against all beginnings of `b`. -/
theorem distances_eq (a b : List Char) : distances a b = alignmentCosts a.reverse [] b := by
  have start : List.range (b.length + 1) = alignmentCosts [] [] b := by
    rw [alignmentCosts_nil, List.range_eq_range']
    rfl
  rw [distances, start, foldl_nextRow, List.append_nil]

theorem editDistance_eq (a b : List Char) :
    editDistance a b = alignmentCost a.reverse b.reverse := by
  rw [editDistance, distances_eq, getLastD_alignmentCosts, List.append_nil]

end Rows

theorem edits_editDistance (a b : List Char) : Edits (editDistance a b) a b := by
  have backwards := (edits_alignmentCost a.reverse b.reverse).reverse
  rwa [← editDistance_eq, List.reverse_reverse, List.reverse_reverse] at backwards

theorem Edits.editDistance_le {n : Nat} {a b : List Char} (edits : Edits n a b) :
    editDistance a b ≤ n := by
  rw [editDistance_eq]
  exact edits.reverse.alignmentCost_le

theorem editDistance_eq_zero_iff {a b : List Char} : editDistance a b = 0 ↔ a = b := by
  rw [← edits_zero_iff]
  constructor
  · intro zero
    rw [← zero]
    exact edits_editDistance a b
  · intro edits
    exact Nat.le_zero.mp edits.editDistance_le

theorem editDistance_append_singleton (a : List Char) (x : Char) :
    editDistance a (a ++ [x]) = 1 := by
  have edit := Edit.insert a [] x
  rw [List.append_nil] at edit
  have near : editDistance a (a ++ [x]) ≤ 1 :=
    (Edits.more edit (.none _)).editDistance_le
  have apart : editDistance a (a ++ [x]) ≠ 0 := by
    simp [editDistance_eq_zero_iff]
  exact le_antisymm near (Nat.one_le_iff_ne_zero.mpr apart)

/-- The edit distance is the least number of edits that turn one text into the other. So it is
symmetric, zero only between equal texts, and at most the length of any way through a third
text. -/
theorem isLeast_editDistance (a b : List Char) :
    IsLeast {n | Edits n a b} (editDistance a b) ∧
      editDistance b a = editDistance a b ∧
      (editDistance a b = 0 ↔ a = b) ∧
      ∀ c, editDistance a c ≤ editDistance a b + editDistance b c := by
  refine ⟨⟨edits_editDistance a b, fun n edits => edits.editDistance_le⟩, ?_, ?_, ?_⟩
  · apply le_antisymm
    · exact (edits_editDistance a b).symm.editDistance_le
    · exact (edits_editDistance b a).symm.editDistance_le
  · constructor
    · intro zero
      have edits := edits_editDistance a b
      rw [zero] at edits
      exact edits_zero_iff.mp edits
    · rintro rfl
      exact Nat.le_zero.mp (Edits.none a).editDistance_le
  · intro c
    exact ((edits_editDistance a b).trans (edits_editDistance b c)).editDistance_le

example : editDistance "kitten".toList "sitting".toList = 3 := by decide

end CommandConsole.Text
