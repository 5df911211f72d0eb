import Mathlib.Data.List.TakeWhile
import CommandConsole.Proofs.Literal.Unambiguous

/-!
# Reading texts one behind the other

Text that is typed later does not change how earlier text was read. Behind a
boundary a token is found again whatever follows it, because it is recognized
there by the same literal and no other literal can be recognized as well.
Reading therefore goes through the first of two texts as if it stood alone and
then reads the second, unless the first one ended in a text that no literal
recognized: only such a rest may still become part of a longer token.
-/

namespace CommandConsole

open Text

namespace Text

theorem atBoundary_append_of {r u : List Char} (inner : atBoundary r = true)
    (outer : atBoundary u = true) : atBoundary (r ++ u) = true := by
  cases r with
  | nil => exact outer
  | cons c r => exact inner

theorem atBoundary_of_forall_isBlank {s : List Char} (blank : ∀ c ∈ s, isBlank c = true) :
    atBoundary s = true := by
  cases s with
  | nil => rfl
  | cons c s => exact blank c (List.mem_cons_self ..)

/-- Pieces of text that each have blanks in front begin at a boundary. -/
theorem atBoundary_flatMap {α : Type} {gap token : α → List Char} {args : List α}
    {back : List Char} (blank : ∀ a ∈ args, ∀ c ∈ gap a, isBlank c = true)
    (apart : ∀ a ∈ args, gap a ≠ []) (trailing : ∀ c ∈ back, isBlank c = true) :
    atBoundary (args.flatMap (fun a => gap a ++ token a) ++ back) = true := by
  cases args with
  | nil => exact atBoundary_of_forall_isBlank trailing
  | cons a args =>
      rw [List.flatMap_cons, List.append_assoc, List.append_assoc,
        atBoundary_append (apart a (List.mem_cons_self ..))]
      exact atBoundary_of_forall_isBlank (blank a (List.mem_cons_self ..))

theorem trimStart_eq_nil_iff {s : List Char} :
    trimStart s = [] ↔ ∀ c ∈ s, isBlank c = true :=
  List.dropWhile_eq_nil_iff

/-- Blanks in front of a text are dropped with those that it begins with. -/
theorem trimStart_append_of_blank {s : List Char} (blank : ∀ c ∈ s, isBlank c = true)
    (u : List Char) : trimStart (s ++ u) = trimStart u :=
  List.dropWhile_append_of_pos blank

/-- What is left of a text that is not blank stays in front of what follows it. -/
theorem trimStart_append_of_cons {s cs : List Char} {c : Char} (start : trimStart s = c :: cs)
    (u : List Char) : trimStart (s ++ u) = c :: (cs ++ u) := by
  rw [trimStart] at start
  rw [trimStart, List.dropWhile_append, start]
  rfl

end Text

section Token

variable {literals : List Literal} {s t r u : List Char} {l : Literal}

/-- A literal of the list that recognizes a token is the first that does. -/
theorem firstToken_eq_some_iff :
    firstToken literals s = some (l, t, r) ↔ l ∈ literals ∧ l.recognize s = some (t, r) := by
  constructor
  · intro found
    obtain ⟨l', member, found'⟩ := List.exists_of_findSome?_eq_some found
    obtain ⟨x, recognized, e⟩ := Option.map_eq_some_iff.mp found'
    obtain ⟨rfl, rfl⟩ := Prod.mk.inj e
    exact ⟨member, recognized⟩
  · rintro ⟨member, recognized⟩
    cases found : firstToken literals s with
    | none =>
        have absent := List.findSome?_eq_none_iff.mp found l member
        rw [recognized] at absent
        cases absent
    | some x =>
        obtain ⟨l', t', r'⟩ := x
        have recognized' := recognize_of_firstToken found
        obtain rfl := Literal.eq_of_recognize recognized recognized'
        obtain ⟨rfl, rfl⟩ := Prod.mk.inj (Option.some.inj (recognized.symm.trans recognized'))
        rfl

theorem Literal.recognize_append (recognized : l.recognize s = some (t, r))
    (boundary : atBoundary u = true) : l.recognize (s ++ u) = some (t, r ++ u) := by
  obtain ⟨rfl, member, inner⟩ := recognize_eq_some_iff.mp recognized
  exact recognize_eq_some_iff.mpr
    ⟨List.append_assoc t r u, member, atBoundary_append_of inner boundary⟩

/-- A token is found again if more is typed behind a boundary. -/
theorem firstToken_append (found : firstToken literals s = some (l, t, r))
    (boundary : atBoundary u = true) :
    firstToken literals (s ++ u) = some (l, t, r ++ u) := by
  obtain ⟨member, recognized⟩ := firstToken_eq_some_iff.mp found
  exact firstToken_eq_some_iff.mpr ⟨member, Literal.recognize_append recognized boundary⟩

end Token

section Reading

variable {find : ObjectLookup} {literals : List Literal} {p r s : List Char}

/-- Blanks in front of a text do not matter. -/
theorem readAll_congr (same : trimStart p = trimStart s) :
    readAll find literals p = readAll find literals s := by
  cases start : trimStart s with
  | nil => rw [readAll_of_blank start, readAll_of_blank (same.trans start)]
  | cons c cs =>
      cases found : firstToken literals (c :: cs) with
      | none =>
          rw [readAll_of_unrecognized start found,
            readAll_of_unrecognized (same.trans start) found]
      | some x =>
          obtain ⟨l, t, r⟩ := x
          rw [readAll_of_token start found, readAll_of_token (same.trans start) found]

/-- A text is read to its end, or up to a token without a value, before anything
behind it is looked at. -/
theorem readAll_append (boundary : atBoundary r = true)
    (known : ∀ rest, readAll find literals p ≠ .error (.unrecognized rest)) :
    readAll find literals (p ++ r) =
      (readAll find literals p).bind fun ds => (readAll find literals r).map (ds ++ ·) := by
  -- Along the tokens of the first text; the second is only ever looked at behind its end.
  induction p using readAllM.induct literals with
  | case1 p start =>
      have blank := trimStart_eq_nil_iff.mp start
      rw [readAll_congr (trimStart_append_of_blank blank r), readAll_of_blank start]
      cases readAll find literals r <;> rfl
  | case2 p c cs start none => exact absurd (readAll_of_unrecognized start none) (known _)
  | case3 p c cs start l t rest found ih =>
      have start' := trimStart_append_of_cons start r
      have found' : firstToken literals (c :: (cs ++ r)) = some (l, t, rest ++ r) :=
        firstToken_append found boundary
      rw [readAll_of_token start found] at known ⊢
      rw [readAll_of_token start' found']
      cases value : l.read find t with
      | error e => rfl
      | ok d =>
          simp only [value] at known ⊢
          rw [ih ?_]
          · cases readAll find literals rest with
            | error e => rfl
            | ok ds => cases readAll find literals r <;> rfl
          · intro left unread
            rw [unread] at known
            exact known left rfl

end Reading

/-- Parameters behind others, each with their warnings. -/
instance : Append Parameters where
  append a b := ⟨a.values ++ b.values, a.warnings ++ b.warnings⟩

namespace Parameters

theorem ofMeanings_append (ds es : List Meaning) :
    ofMeanings (ds ++ es) = ofMeanings ds ++ ofMeanings es := by
  simp only [ofMeanings, List.map_append, List.flatMap_append]
  rfl

end Parameters

section Parameters

variable {find : ObjectLookup} {literals : List Literal} {p r s : List Char}

theorem parseParameters_of_blank (blank : ∀ c ∈ s, isBlank c = true) :
    parseParameters find literals s = .ok ⟨[], []⟩ := by
  rw [parseParameters_eq, readAll_of_blank (trimStart_eq_nil_iff.mpr blank)]
  rfl

theorem parseParameters_append_of_blank (blank : ∀ c ∈ s, isBlank c = true) (r : List Char) :
    parseParameters find literals (s ++ r) = parseParameters find literals r := by
  rw [parseParameters_eq, parseParameters_eq, readAll_congr (trimStart_append_of_blank blank r)]

theorem parseParameters_append (boundary : atBoundary r = true)
    (known : ∀ rest, parseParameters find literals p ≠ .error (.unrecognized rest)) :
    parseParameters find literals (p ++ r) =
      (parseParameters find literals p).bind fun a =>
        (parseParameters find literals r).map (a ++ ·) := by
  simp only [parseParameters_eq] at known ⊢
  rw [readAll_append boundary]
  · cases readAll find literals p with
    | error e => rfl
    | ok ds =>
        cases readAll find literals r with
        | error e => rfl
        | ok es => exact congrArg Except.ok (Parameters.ofMeanings_append ds es)
  · intro rest unread
    rw [unread] at known
    exact known rest rfl

/-- Behind blanks a text is read as it is alone. -/
theorem parseParameters_append_gap (blank : ∀ c ∈ s, isBlank c = true) (nonempty : s ≠ [])
    (known : ∀ rest, parseParameters find literals p ≠ .error (.unrecognized rest))
    (r : List Char) :
    parseParameters find literals (p ++ s ++ r) =
      (parseParameters find literals p).bind fun a =>
        (parseParameters find literals r).map (a ++ ·) := by
  have boundary : atBoundary (s ++ r) = true := by
    rw [atBoundary_append nonempty]
    exact atBoundary_of_forall_isBlank blank
  rw [List.append_assoc, parseParameters_append boundary known,
    parseParameters_append_of_blank blank]

end Parameters

/-- What is read of a text is not changed by what is typed behind a blank: the
values and warnings of the second text come behind those of the first, and it
fails as it does alone. A token without a value ends the reading whatever
follows. Which blanks stand between the two and how many makes no difference. -/
theorem parseParameters_compositional (find : ObjectLookup) (p q : List Char) {s : List Char}
    (blank : ∀ c ∈ s, isBlank c = true) (nonempty : s ≠ []) :
    (∀ first, parseParameters find Literal.standard p = .ok first →
      (∀ second, parseParameters find Literal.standard q = .ok second →
        parseParameters find Literal.standard (p ++ s ++ q) =
          .ok ⟨first.values ++ second.values, first.warnings ++ second.warnings⟩) ∧
      ∀ e, parseParameters find Literal.standard q = .error e →
        parseParameters find Literal.standard (p ++ s ++ q) = .error e) ∧
    (∀ e, parseParameters find Literal.standard p = .error (.conversion e) →
      parseParameters find Literal.standard (p ++ s ++ q) = .error (.conversion e)) ∧
    ((∀ rest, parseParameters find Literal.standard p ≠ .error (.unrecognized rest)) →
      ∀ other : List Char, (∀ c ∈ other, isBlank c = true) → other ≠ [] →
        parseParameters find Literal.standard (p ++ other ++ q) =
          parseParameters find Literal.standard (p ++ s ++ q)) := by
  refine ⟨?_, ?_, fun known other blanks present => ?_⟩
  · intro first read
    rw [parseParameters_append_gap blank nonempty (by simp [read]), read]
    constructor
    · intro second read'
      rw [read']
      rfl
    · intro e failed
      rw [failed]
      rfl
  · intro e failed
    rw [parseParameters_append_gap blank nonempty (by simp [failed]), failed]
    rfl
  · rw [parseParameters_append_gap blanks present known,
      parseParameters_append_gap blank nonempty known]

/-- An object that is not found is told of once, with whatever follows it. -/
theorem parseParameters_compositional_missing_object :
    let ghost := ['{', 'a', '}', 'b', '}']
    let gap := ['\t', '\u00a0']
    let first : Parameters := ⟨[.null], [.unknownObject "a\x7db"]⟩
    (∀ c ∈ gap, isBlank c = true) ∧
      parseParameters (fun _ => none) Literal.standard ghost = .ok first ∧
      parseParameters (fun _ => none) Literal.standard (ghost ++ gap ++ ['"', ' ', '"']) =
        .ok ⟨[.null, .string " "], [.unknownObject "a\x7db"]⟩ ∧
      parseParameters (fun _ => none) Literal.standard (ghost ++ gap ++ ['3', 'x']) =
        .error (.unrecognized "3x") := by
  intro ghost gap first
  have blank : ∀ c ∈ gap, isBlank c = true := List.all_eq_true.mp (by decide)
  have read : parseParameters (fun _ => none) Literal.standard ghost = .ok first := by
    rw [parseParameters_eq, readAll_of_token (l := .object) (t := ghost) (r := []) rfl (by decide),
      readAll_of_blank rfl]
    rfl
  have quoted : parseParameters (fun _ => none) Literal.standard ['"', ' ', '"'] =
      .ok ⟨[.string " "], []⟩ := by
    rw [parseParameters_eq,
      readAll_of_token (l := .string) (t := ['"', ' ', '"']) (r := []) rfl (by decide),
      readAll_of_blank rfl]
    rfl
  have glued : parseParameters (fun _ => none) Literal.standard ['3', 'x'] =
      .error (.unrecognized "3x") := by
    have unread : firstToken Literal.standard ['3', 'x'] = none := by decide
    rw [parseParameters_eq, readAll_of_unrecognized rfl unread]
    rfl
  have law := fun q =>
    (parseParameters_compositional (fun _ => none) ghost q blank (by simp)).1 first read
  exact ⟨blank, read, (law _).1 _ quoted, (law _).2 _ glued⟩

end CommandConsole
