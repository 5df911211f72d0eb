import Mathlib.Data.List.Forall2

/-!
# Traversals that may fail

A traversal of a list either succeeds with every element or fails with the
first element that fails.

What a traversal has come to depends on the place. In a list that is longer by
one element a place is that of the new element or one that was there before.
-/

namespace CommandConsole.Traversal

universe u

variable {α β ε : Type u}

theorem concat_eq_append_cons_iff {xs front back : List α} {x a : α} :
    xs ++ [a] = front ++ x :: back ↔
      (back = [] ∧ xs = front ∧ a = x) ∨
        ∃ rest, back = rest ++ [a] ∧ xs = front ++ x :: rest := by
  constructor
  · intro split
    rcases List.eq_nil_or_concat back with rfl | ⟨rest, last, rfl⟩
    · obtain ⟨rfl, same⟩ := List.append_inj' split rfl
      exact .inl ⟨rfl, rfl, List.singleton_inj.mp same⟩
    · rw [List.concat_eq_append, ← List.cons_append, ← List.append_assoc] at split
      obtain ⟨rfl, same⟩ := List.append_inj' split rfl
      obtain rfl := List.singleton_inj.mp same
      exact .inr ⟨rest, List.concat_eq_append, rfl⟩
  · rintro (⟨rfl, rfl, rfl⟩ | ⟨rest, rfl, rfl⟩)
    · rfl
    · rw [List.append_assoc, List.cons_append]

theorem isSome_mapM_iff {f : α → Option β} {xs : List α} :
    (xs.mapM f).isSome ↔ ∀ x ∈ xs, (f x).isSome := by
  induction xs with
  | nil => simp
  | cons x xs ih =>
      rw [List.mapM_cons, List.forall_mem_cons, ← ih]
      cases f x with
      | none => simp
      | some y => cases xs.mapM f <;> simp

theorem mapM_congr {m : Type u → Type u} [Monad m] [LawfulMonad m] {f g : α → m β}
    {xs : List α} (same : ∀ x ∈ xs, f x = g x) : xs.mapM f = xs.mapM g := by
  induction xs with
  | nil => rfl
  | cons x xs ih =>
      rw [List.mapM_cons, List.mapM_cons, same x (List.mem_cons_self ..),
        ih fun y member => same y (List.mem_cons_of_mem x member)]

theorem mapM_eq_some_iff {f : α → Option β} {xs : List α} {ys : List β} :
    xs.mapM f = some ys ↔ List.Forall₂ (fun x y => f x = some y) xs ys := by
  induction xs generalizing ys with
  | nil => simp [eq_comm]
  | cons x xs ih =>
      rw [List.mapM_cons, List.forall₂_cons_left_iff]
      simp only [← ih]
      cases f x with
      | none => simp
      | some z => cases xs.mapM f <;> simp [eq_comm]

/-- A traversal that succeeds has one result for each element. -/
theorem mapM_eq_ok_iff {f : α → Except ε β} {xs : List α} {ys : List β} :
    xs.mapM f = .ok ys ↔ List.Forall₂ (fun x y => f x = .ok y) xs ys := by
  induction xs generalizing ys with
  | nil =>
      rw [List.mapM_nil, List.forall₂_nil_left_iff]
      exact ⟨fun same => (Except.ok.inj same).symm, fun same => congrArg Except.ok same.symm⟩
  | cons x xs ih =>
      rw [List.mapM_cons, List.forall₂_cons_left_iff]
      cases head : f x with
      | error e => simp [bind, Except.bind]
      | ok z =>
          simp only [← ih]
          cases tail : xs.mapM f with
          | error e => simp [bind, Except.bind]
          | ok zs => simp [bind, Except.bind, pure, Except.pure, eq_comm]

/-- A traversal that fails reports the first element that fails. -/
theorem mapM_eq_error_iff {f : α → Except ε β} {xs : List α} {e : ε} :
    xs.mapM f = .error e ↔
      ∃ (i : Nat) (x : α), xs[i]? = some x ∧ f x = .error e ∧
        ∀ j < i, ∀ y, xs[j]? = some y → ∃ z, f y = .ok z := by
  induction xs with
  | nil => simp [pure, Except.pure]
  | cons x xs ih =>
      rw [List.mapM_cons]
      cases head : f x with
      | error e' =>
          constructor
          · intro failed
            obtain rfl := Except.error.inj failed
            exact ⟨0, x, rfl, head, by simp⟩
          · rintro ⟨i, y, place, failed, earlier⟩
            cases i with
            | zero =>
                obtain rfl := Option.some.inj place
                rw [head] at failed
                obtain rfl := Except.error.inj failed
                rfl
            | succ i =>
                obtain ⟨z, fine⟩ := earlier 0 (Nat.succ_pos i) x rfl
                rw [head] at fine
                cases fine
      | ok z =>
          have rest : (Except.ok z >>= fun z => xs.mapM f >>= fun zs => pure (z :: zs)) =
              Except.error e ↔ xs.mapM f = .error e := by
            cases xs.mapM f <;> simp [bind, Except.bind, pure, Except.pure]
          rw [rest, ih]
          constructor
          · rintro ⟨i, y, place, failed, earlier⟩
            refine ⟨i + 1, y, place, failed, ?_⟩
            intro j less y' place'
            cases j with
            | zero =>
                obtain rfl := Option.some.inj place'
                exact ⟨z, head⟩
            | succ j => exact earlier j (by omega) y' place'
          · rintro ⟨i, y, place, failed, earlier⟩
            cases i with
            | zero =>
                obtain rfl := Option.some.inj place
                rw [head] at failed
                cases failed
            | succ i =>
                exact ⟨i, y, place, failed, fun j less => earlier (j + 1) (by omega)⟩

end CommandConsole.Traversal
