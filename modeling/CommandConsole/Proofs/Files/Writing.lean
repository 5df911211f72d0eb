import CommandConsole.Files

/-!
# Written files are read

What has been written under a path is read under it. The place the path leads to
held a text or nothing, so the directories on the way to it are where they were,
and the path leads to the same place again.
-/

namespace CommandConsole

/-- The place where a text can be put. -/
def Target.filePlace? : Target → Option Place
  | directory _ => none
  | file place _ => some place
  | vacant place => some place

namespace Files

variable {fs fs' : Files} {place : Place} {path text : String}

theorem node?_put_self {node : FileNode} (inner : place ≠ []) :
    (fs.put place node).node? place = some node := by
  simp [node?, put, List.isEmpty_iff, inner]

theorem node?_put_of_ne {node : FileNode} {other : Place} (apart : other ≠ place) :
    (fs.put place node).node? other = fs.node? other := by
  have skipped : (place == other) = false := beq_false_of_ne apart.symm
  have kept : (fs.nodes.filter (·.1 != place)).find? (·.1 == other) =
      fs.nodes.find? (·.1 == other) := by
    rw [List.find?_filter]
    congr 1
    funext x
    by_cases found : x.1 = other <;> simp [found, apart]
  simp only [node?, put, List.find?_cons, skipped, kept]

/-- No directory is where a text can be put. -/
theorem node?_of_follow {words : List String} {dir : Place} {t : Target}
    (leads : fs.follow words dir = .ok t) (there : t.filePlace? = some place) :
    fs.node? place ≠ some .directory := by
  fun_induction fs.follow words dir with
  | case1 dir =>
      obtain rfl := Except.ok.inj leads
      cases there
  | case2 rest dir ih => exact ih leads
  | case3 rest dir _ ih => exact ih leads
  | case4 => cases leads
  | case5 word rest dir _ _ _ found ih => exact ih leads
  | case6 word rest dir _ _ _ text found last =>
      obtain rfl := Except.ok.inj leads
      obtain rfl := Option.some.inj there
      simp [found]
  | case7 => cases leads
  | case8 word rest dir _ _ _ absent last =>
      obtain rfl := Except.ok.inj leads
      obtain rfl := Option.some.inj there
      simp [absent]
  | case9 => cases leads

/-- A path leads to the text that was put where it led. -/
theorem follow_put {words : List String} {dir : Place} {t : Target}
    (leads : fs.follow words dir = .ok t) (there : t.filePlace? = some place) :
    (fs.put place (.file text)).follow words dir = .ok (.file place text) := by
  have free := node?_of_follow leads there
  fun_induction fs.follow words dir with
  | case1 dir =>
      obtain rfl := Except.ok.inj leads
      cases there
  | case2 rest dir ih =>
      rw [follow, if_pos rfl]
      exact ih leads
  | case3 rest dir stays ih =>
      rw [follow, if_neg stays, if_pos rfl]
      exact ih leads
  | case4 => cases leads
  | case5 word rest dir stays up short found ih =>
      have apart : dir ++ [word] ≠ place := by
        rintro rfl
        exact free found
      rw [follow, if_neg stays, if_neg up, if_neg short, node?_put_of_ne apart, found]
      exact ih leads
  | case6 word rest dir stays up short text' found last =>
      obtain rfl := Except.ok.inj leads
      obtain rfl := Option.some.inj there
      rw [follow, if_neg stays, if_neg up, if_neg short, node?_put_self (by simp)]
      exact if_pos last
  | case7 => cases leads
  | case8 word rest dir stays up short absent last =>
      obtain rfl := Except.ok.inj leads
      obtain rfl := Option.some.inj there
      rw [follow, if_neg stays, if_neg up, if_neg short, node?_put_self (by simp)]
      exact if_pos last
  | case9 => cases leads

theorem target_put {t : Target} (leads : fs.target path = .ok t)
    (there : t.filePlace? = some place) :
    (fs.put place (.file text)).target path = .ok (.file place text) := by
  simp only [target] at leads ⊢
  split at leads
  · cases leads
  next named =>
    split at leads
    · cases leads
    next short =>
      split at leads
      · cases leads
      next given =>
        rw [if_neg named, if_neg short, if_neg given]
        exact follow_put leads there

/-- Writing succeeds by putting the text where the path leads. -/
theorem exists_put_of_write (written : fs.write path text = .ok fs') :
    mustBeDirectory path = false ∧
      ∃ t place, fs.target path = .ok t ∧ t.filePlace? = some place ∧
        fs' = fs.put place (.file text) := by
  simp only [write] at written
  split at written
  · cases written
  · cases written
  all_goals
    split at written
    · cases written
    next leads allowed =>
      exact ⟨Bool.eq_false_iff.mpr allowed, _, _, leads, rfl, (Except.ok.inj written).symm⟩

/-- What has been written under a path is read under it. -/
theorem read_of_write (written : fs.write path text = .ok fs') : fs'.read path = .ok text := by
  obtain ⟨allowed, t, place, leads, there, rfl⟩ := exists_put_of_write written
  rw [read, target_put leads there]
  exact if_neg (Bool.eq_false_iff.mp allowed)

end Files

end CommandConsole
