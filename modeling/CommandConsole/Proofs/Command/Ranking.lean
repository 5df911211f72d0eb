import Mathlib.Data.List.Sort
import Mathlib.Data.Prod.Lex
import Mathlib.Data.String.Basic
import CommandConsole.Handler.Scripted
import CommandConsole.Proofs.Command.Acceptance

/-!
# The order of suggestions

Suggestions are ordered by two distances only, and names that are equal in both
keep the order in which the registry lists them. Since it lists every name once
and in ascending order, this is a third key: no two suggestions are equal in all
three, so a list of suggestions is known from what is in it.

Hence two lists with the same names agree, however these were declared, and a
greater threshold only adds suggestions at the end.
-/

namespace CommandConsole

section Lists

variable {α : Type} {le : α → α → Bool} {before : α → α → Prop} {l : List α}

/-- Entries that a stable sort does not tell from `a` stay as they were. -/
theorem filter_mergeSort_tied (trans : ∀ a b c : α, le a b = true → le b c = true → le a c = true)
    (total : ∀ a b : α, (le a b || le b a) = true) (l : List α) (a : α) :
    ((l.mergeSort le).filter fun x => le a x && le x a) = l.filter fun x => le a x && le x a := by
  have tied : (l.filter fun x => le a x && le x a).Pairwise (le · · = true) := by
    refine List.pairwise_filter.mpr (List.pairwise_of_forall fun x y below above => ?_)
    exact trans x a y ((Bool.and_eq_true _ _).mp below).2 ((Bool.and_eq_true _ _).mp above).1
  have inside := (List.sublist_mergeSort trans total tied List.filter_sublist).filter
    fun x => le a x && le x a
  simp only [List.filter_filter, Bool.and_self] at inside
  exact (inside.eq_of_length ((List.mergeSort_perm l le).filter _).length_eq.symm).symm

/-- Where a stable sort does not tell two entries apart, they stay in order. -/
theorem pairwise_mergeSort_of_pairwise
    (trans : ∀ a b c : α, le a b = true → le b c = true → le a c = true)
    (total : ∀ a b : α, (le a b || le b a) = true) (given : l.Pairwise before) :
    (l.mergeSort le).Pairwise fun a b => le a b = true ∧ (le b a = true → before a b) := by
  have sorted := List.pairwise_mergeSort trans total l
  rw [List.pairwise_iff_forall_sublist] at sorted given ⊢
  intro a b listed
  refine ⟨sorted listed, fun tied => given ?_⟩
  have self : le a a = true := by simpa using total a a
  have both : [a, b].filter (fun x => le a x && le x a) = [a, b] := by
    simp [self, sorted listed, tied]
  have inside := listed.filter fun x => le a x && le x a
  rw [both, filter_mergeSort_tied trans total] at inside
  exact inside.trans List.filter_sublist

/-- Of a list in order, what comes before everything else of it is a beginning. -/
theorem filter_prefix_of_pairwise {p : α → Bool} (given : l.Pairwise before)
    (closed : ∀ a b, before a b → p b = true → p a = true) : l.filter p <+: l := by
  induction given with
  | nil => exact List.prefix_rfl
  | @cons a l first _ ih =>
      by_cases kept : p a = true
      · rw [List.filter_cons_of_pos kept]
        exact (List.prefix_cons_inj a).mpr ih
      · have none : (a :: l).filter p = [] := by
          rw [List.filter_cons_of_neg kept, List.filter_eq_nil_iff]
          intro b member keeps
          exact kept (closed a b (first b member) keeps)
        rw [none]
        exact List.nil_prefix

end Lists

namespace Match

/-- A match comes before another if it is closer to what is typed; of two that are equally close,
if it is closer as a whole; and of two that are equal in that as well, if its name is less. -/
def Precedes (a b : Match) : Prop :=
  a.partialDistance < b.partialDistance ∨ a.partialDistance = b.partialDistance ∧
    (a.fullDistance < b.fullDistance ∨ a.fullDistance = b.fullDistance ∧ a.name < b.name)

/-- The name of a match and its two distances. -/
def scored (m : Match) : String × Nat × Nat := (m.name, m.partialDistance, m.fullDistance)

/-- By which a match is ordered. -/
def place (m : Match) : Nat ×ₗ Nat ×ₗ String :=
  toLex (m.partialDistance, toLex (m.fullDistance, m.name))

section

variable {a b m : Match} {typed : List Char} {candidates : List (String × String)}
  {threshold more : Nat}

theorem precedes_iff : a.Precedes b ↔ a.place < b.place := by
  simp only [Precedes, place, Prod.Lex.toLex_lt_toLex]

instance : Std.Irrefl Precedes := ⟨fun _ before => lt_irrefl _ (precedes_iff.mp before)⟩

instance : Std.Antisymm Precedes :=
  ⟨fun _ _ before after =>
    absurd (precedes_iff.mp after) (lt_asymm (precedes_iff.mp before))⟩

theorem notAfter_iff : a.notAfter b = true ↔
    toLex (a.partialDistance, a.fullDistance) ≤ toLex (b.partialDistance, b.fullDistance) := by
  simp [notAfter, Prod.Lex.toLex_le_toLex]

theorem mem_rank : m ∈ rank typed candidates threshold ↔
    (∃ c ∈ candidates, compute typed c.1 c.2 = m) ∧ m.partialDistance < threshold := by
  simp only [rank, List.mem_mergeSort, List.mem_filter, List.mem_map, decide_eq_true_eq]

/-- Candidates in ascending order of their names are ranked in ascending order. -/
theorem pairwise_rank (ascending : candidates.Pairwise fun c d => c.1 < d.1) :
    (rank typed candidates threshold).Pairwise Precedes := by
  have trans : ∀ a b c : Match,
      a.notAfter b = true → b.notAfter c = true → a.notAfter c = true := by
    intro a b c ab bc
    exact notAfter_iff.mpr ((notAfter_iff.mp ab).trans (notAfter_iff.mp bc))
  have total : ∀ a b : Match, (a.notAfter b || b.notAfter a) = true := by
    intro a b
    rw [Bool.or_eq_true, notAfter_iff, notAfter_iff]
    exact le_total _ _
  have named : (candidates.map fun c => compute typed c.1 c.2).Pairwise
      fun a b => a.name < b.name := List.pairwise_map.mpr ascending
  apply (pairwise_mergeSort_of_pairwise trans total (named.filter _)).imp
  rintro a b ⟨first, tied⟩
  rw [notAfter_iff, Prod.Lex.toLex_le_toLex] at first tied
  rcases first with nearer | ⟨same, near⟩
  · exact .inl nearer
  · rcases near.lt_or_eq with nearer | equal
    · exact .inr ⟨same, .inl nearer⟩
    · exact .inr ⟨same, .inr ⟨equal, tied (.inr ⟨same.symm, equal.ge⟩)⟩⟩

/-- A name that is given once is ranked at most once. -/
theorem nodup_rank (ascending : candidates.Pairwise fun c d => c.1 < d.1) :
    ((rank typed candidates threshold).map name).Nodup := by
  have names : ((candidates.map fun c => compute typed c.1 c.2).map name).Nodup :=
    List.pairwise_map.mpr (List.pairwise_map.mpr (ascending.imp ne_of_lt))
  rw [rank, ((List.mergeSort_perm _ _).map name).nodup_iff]
  exact names.sublist (List.filter_sublist.map name)

/-- A greater threshold adds matches at the end. -/
theorem rank_prefix (ascending : candidates.Pairwise fun c d => c.1 < d.1)
    (less : threshold ≤ more) : rank typed candidates threshold <+: rank typed candidates more := by
  have within : rank typed candidates threshold =
      (rank typed candidates more).filter (·.partialDistance < threshold) := by
    apply (pairwise_rank ascending).eq_of_mem_iff ((pairwise_rank ascending).filter _)
    intro m
    simp only [mem_rank, List.mem_filter, decide_eq_true_eq]
    constructor
    · rintro ⟨candidate, close⟩
      exact ⟨⟨candidate, close.trans_le less⟩, close⟩
    · rintro ⟨⟨candidate, -⟩, close⟩
      exact ⟨candidate, close⟩
  rw [within]
  apply filter_prefix_of_pairwise (pairwise_rank ascending)
  intro a b before close
  rw [decide_eq_true_eq] at close ⊢
  rcases before with nearer | ⟨same, -⟩
  · exact nearer.trans close
  · exact same ▸ close

end

end Match

namespace Registry

section

variable {r r' : Registry} {os os' : List Overload} {typed : String} {threshold : Nat}
  {m : Match} {o : Overload} {name : String}

theorem Holds.ascending_commands (holds : r.Holds os) :
    (r.commands.map fun o => (o.name, o.help)).Pairwise fun c d => c.1 < d.1 := by
  have names : (r.commands.map Overload.name).Pairwise (· < ·) := by
    rw [holds.names_commands]
    exact Std.TreeMap.ordered_keys.imp fun less => compare_lt_iff_lt.mp less
  exact List.pairwise_map.mpr (List.pairwise_map.mp names)

theorem mem_suggestCommands : m ∈ r.suggestCommands typed threshold ↔
    (∃ o ∈ r.commands, Match.compute typed.toList o.name o.help = m) ∧
      m.partialDistance < threshold := by
  rw [suggestCommands, Match.mem_rank]
  simp only [List.mem_map, exists_exists_and_eq_and]

theorem Holds.pairwise_suggestCommands (holds : r.Holds os) (typed : String) (threshold : Nat) :
    (r.suggestCommands typed threshold).Pairwise Match.Precedes :=
  Match.pairwise_rank holds.ascending_commands

theorem Holds.mem_suggestCommands_iff (holds : r.Holds os) :
    m ∈ r.suggestCommands typed threshold ↔
      ∃ o, (r.overloads m.name).head? = some o ∧ m.help = o.help ∧
        m.partialDistance =
          Text.editDistance typed.toList (m.name.toList.take (typed.toList.length + 1)) ∧
        m.fullDistance = Text.editDistance typed.toList m.name.toList ∧
        m.partialDistance < threshold := by
  rw [mem_suggestCommands]
  constructor
  · rintro ⟨⟨o, listed, rfl⟩, close⟩
    exact ⟨o, holds.mem_commands_iff_head?.mp listed, rfl, rfl, rfl, close⟩
  · rintro ⟨o, first, help, partly, full, close⟩
    have named : o.name = m.name :=
      (holds.mem_overloads.mp (List.mem_of_mem_head? first)).2
    rw [← named] at first
    refine ⟨⟨o, holds.mem_commands_iff_head?.mpr first, ?_⟩, close⟩
    obtain ⟨mName, mHelp, mPartial, mFull⟩ := m
    simp only at help partly full named
    simp [Match.compute, help, partly, full, named]

/-- Names that are equal are equally close, whatever their help texts are. -/
theorem Holds.place_mem_of_contains (holds : r.Holds os) (holds' : r'.Holds os')
    (within : ∀ name, r.contains name = true → r'.contains name = true)
    (member : m ∈ r.suggestCommands typed threshold) :
    ∃ m' ∈ r'.suggestCommands typed threshold, m'.place = m.place := by
  obtain ⟨⟨o, listed, rfl⟩, close⟩ := mem_suggestCommands.mp member
  obtain ⟨o', listed', same⟩ :=
    holds'.contains_iff.mp (within o.name (holds.contains_iff.mpr ⟨o, listed, rfl⟩))
  refine ⟨Match.compute typed.toList o'.name o'.help,
    mem_suggestCommands.mpr ⟨⟨o', listed', rfl⟩, ?_⟩, ?_⟩
  · rw [same]
    exact close
  · rw [same]
    rfl

theorem Holds.scored_suggestCommands_congr (holds : r.Holds os) (holds' : r'.Holds os')
    (same : ∀ name, r'.contains name = r.contains name) :
    (r'.suggestCommands typed threshold).map Match.scored =
      (r.suggestCommands typed threshold).map Match.scored := by
  have places : (r'.suggestCommands typed threshold).map Match.place =
      (r.suggestCommands typed threshold).map Match.place := by
    have ascending : ∀ {r : Registry} {os : List Overload}, r.Holds os →
        ((r.suggestCommands typed threshold).map Match.place).Pairwise (· < ·) := fun holds =>
      List.pairwise_map.mpr
        ((holds.pairwise_suggestCommands typed threshold).imp Match.precedes_iff.mp)
    apply (ascending holds').eq_of_mem_iff (ascending holds)
    intro p
    simp only [List.mem_map]
    constructor
    · rintro ⟨m, member, rfl⟩
      exact holds'.place_mem_of_contains holds (fun name => (same name ▸ ·)) member
    · rintro ⟨m, member, rfl⟩
      exact holds.place_mem_of_contains holds' (fun name => (same name ▸ ·)) member
  have shown := congrArg (List.map fun p : Nat ×ₗ Nat ×ₗ String =>
    ((ofLex (ofLex p).2).2, (ofLex p).1, (ofLex (ofLex p).2).1)) places
  rw [List.map_map, List.map_map] at shown
  exact shown

theorem contains_register {d : Declaration} (accepted : r.register d = .ok (o, r')) :
    r'.contains name = true ↔ r.contains name = true ∨ d.fullName = name := by
  rw [(register_eq_ok accepted).2.2, contains, contains, Std.TreeMap.contains_insert, Bool.or_eq_true,
    beq_iff_eq, Std.LawfulEqCmp.compare_eq_iff_eq, or_comm]

end

end Registry

namespace Console

variable {c : Console}

theorem contains_declare (d : Declaration) (h : Handler) (name : String) :
    (c.declare d h).1.registry.contains name = true ↔ c.registry.contains name = true ∨
      c.registry.isFrozen = false ∧ CommandName.isValid d.fullName.toList = true ∧
        d.fullName = name := by
  rw [declare]
  cases accepted : c.registry.register d with
  | ok x =>
      obtain ⟨o, registry⟩ := x
      have unfrozen : c.registry.isFrozen = false :=
        Bool.eq_false_iff.mpr fun frozen =>
          Registry.register_ne_ok_of_isFrozen frozen accepted
      have valid := (Registry.register_eq_ok accepted).1
      simp only [Registry.contains_register accepted, unfrozen, valid, true_and]
  | error e =>
      constructor
      · exact .inl
      · rintro (known | ⟨unfrozen, valid, -⟩)
        · exact known
        · rw [Registry.register, if_neg (by simp [unfrozen]), if_pos valid] at accepted
          cases accepted

theorem isFrozen_declare (d : Declaration) (h : Handler) :
    (c.declare d h).1.registry.isFrozen = c.registry.isFrozen := by
  rw [declare]
  cases accepted : c.registry.register d with
  | ok x =>
      simp only
      rw [(Registry.register_eq_ok accepted).2.2]
  | error e => rfl

/-- Which names there are after some declarations does not depend on their order. -/
theorem contains_declareAll (commands : List (Declaration × Handler)) (name : String) :
    (c.declareAll commands).registry.contains name = true ↔ c.registry.contains name = true ∨
      c.registry.isFrozen = false ∧ ∃ x ∈ commands,
        CommandName.isValid x.1.fullName.toList = true ∧ x.1.fullName = name := by
  rw [declareAll]
  induction commands generalizing c with
  | nil => simp
  | cons x commands ih =>
      rw [List.foldl_cons, ih, isFrozen_declare, contains_declare, or_assoc, ← and_or_left]
      simp only [List.mem_cons, exists_eq_or_imp]

theorem built_declareAll (built : c.registry.Built)
    (commands : List (Declaration × Handler)) : (c.declareAll commands).registry.Built := by
  rw [declareAll]
  induction commands generalizing c with
  | nil => exact built
  | cons x commands ih => exact ih (built_declare built x.1 x.2)

end Console

/-- The suggestions for a typed text are the commands whose names, cut one character behind the
length of the text, are closer to it than the threshold, each once and with the help text that
was declared first. They ascend strictly in the distance to the cut name, the distance to the
whole name, and the name. So their names and distances are known from what names there are, in
whatever order they were declared, and a greater threshold adds suggestions at the end only. -/
theorem suggestions_complete_unique_ordered {r : Registry} (built : r.Built) (typed : String) :
    (∀ threshold m, m ∈ r.suggestCommands typed threshold ↔
      ∃ o, (r.overloads m.name).head? = some o ∧ m.help = o.help ∧
        m.partialDistance =
          Text.editDistance typed.toList (m.name.toList.take (typed.toList.length + 1)) ∧
        m.fullDistance = Text.editDistance typed.toList m.name.toList ∧
        m.partialDistance < threshold) ∧
    (∀ threshold, ((r.suggestCommands typed threshold).map Match.name).Nodup ∧
      (r.suggestCommands typed threshold).Pairwise Match.Precedes) ∧
    (∀ r' : Registry, r'.Built → (∀ name, r'.contains name = r.contains name) →
      ∀ threshold, (r'.suggestCommands typed threshold).map Match.scored =
        (r.suggestCommands typed threshold).map Match.scored) ∧
    (∀ (c : Console) (commands reordered : List (Declaration × Handler)), c.registry = r →
      reordered.Perm commands → ∀ threshold,
        ((c.declareAll reordered).registry.suggestCommands typed threshold).map Match.scored =
          ((c.declareAll commands).registry.suggestCommands typed threshold).map Match.scored) ∧
    ∀ threshold more, threshold ≤ more →
      r.suggestCommands typed threshold <+: r.suggestCommands typed more := by
  obtain ⟨os, holds⟩ := built.exists_holds
  refine ⟨fun threshold m => holds.mem_suggestCommands_iff, fun threshold => ⟨?_, ?_⟩, ?_, ?_, ?_⟩
  · exact Match.nodup_rank holds.ascending_commands
  · exact holds.pairwise_suggestCommands typed threshold
  · intro r' built' same threshold
    obtain ⟨os', holds'⟩ := built'.exists_holds
    exact holds.scored_suggestCommands_congr holds' same
  · rintro c commands reordered rfl perm threshold
    obtain ⟨_, holds'⟩ := (Console.built_declareAll built reordered).exists_holds
    obtain ⟨_, holds⟩ := (Console.built_declareAll built commands).exists_holds
    apply holds.scored_suggestCommands_congr holds'
    intro name
    rw [Bool.eq_iff_iff, Console.contains_declareAll, Console.contains_declareAll]
    simp only [perm.mem_iff]
  · intro threshold more less
    exact Match.rank_prefix holds.ascending_commands less

/-- Of a command with two overloads the first one is suggested, with its help text. -/
theorem suggestions_complete_unique_ordered_overloaded :
    let r := (((({} : Console).declare ⟨"gravity-x", none, "", []⟩ Script.nothing.handler).1.declare
      ⟨"gravity", none, "first", [⟨"x", .float⟩]⟩ Script.nothing.handler).1.declare
      ⟨"gravity", none, "second", [⟨"v", .vec3⟩]⟩ Script.nothing.handler).1.registry
    r.Built ∧ (r.overloads "gravity").length = 2 ∧
      ⟨"gravity", "first", 1, 1⟩ ∈ r.suggestCommands "grvity" 2 ∧
      ((r.suggestCommands "grvity" 2).map Match.name).Nodup ∧
      r.suggestCommands "grvity" 2 <+: r.suggestCommands "grvity" 3 := by
  intro r
  have built : r.Built :=
    Console.built_declare (Console.built_declare (Console.built_declare .empty _ _) _ _) _ _
  obtain ⟨listed, ordered, -, -, grows⟩ := suggestions_complete_unique_ordered built "grvity"
  refine ⟨built, by decide, (listed 2 _).mpr ?_, (ordered 2).1, grows 2 3 (by decide)⟩
  exact ⟨⟨1, "gravity", "first", [⟨"x", .float⟩]⟩, by decide, rfl, by decide, by decide, by decide⟩

end CommandConsole
