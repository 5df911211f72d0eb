import CommandConsole.Proofs.Literal.Conversion

/-!
# Tuples and their numbers

A tuple is recognized with the numbers that stand between its parentheses, and
is read by looking for numbers in the token, wherever they stand. Every spacing,
sign and fraction gives the same numbers both times, so the components of the
value are the numbers that were written, in their order. If one of them is too
great the first such number is reported.

The first closing parenthesis ends the token: nothing that a number, its blanks
or the commas are made of closes one.
-/

namespace CommandConsole

open Text Binary32

/-- A tuple has as many numbers as it needs, with blanks around each, with commas between them and
with nothing else between its parentheses. -/
structure TupleShape.WrittenWith (shape : TupleShape) (ns : List (List Char)) (t : List Char) :
    Prop where
  counted : ns.length = shape.arity
  all : ∀ n ∈ ns, n ∈ numbers
  written : t ∈ shape.written ns

section Numbers

variable {n : List Char} {kind : Kind} {x : Binary32}

theorem finiteNumber_eq_ok_iff :
    finiteNumber kind n = .ok x ↔ ofText? n = some x ∧ x.isFinite = true := by
  rw [finiteNumber]
  cases ofText? n with
  | none => simp
  | some y =>
      simp only [Option.some.injEq]
      by_cases finite : y.isFinite = true
      · rw [if_pos finite, Except.ok.injEq]
        constructor
        · rintro rfl
          exact ⟨rfl, finite⟩
        · rintro ⟨rfl, -⟩
          rfl
      · rw [if_neg finite]
        constructor
        · intro failed
          cases failed
        · rintro ⟨rfl, other⟩
          exact absurd other finite

theorem abs_decimalValue_lt_of_ofText? (number : n ∈ numbers) (read : ofText? n = some x)
    (finite : x.isFinite = true) : |decimalValue n| < overflowBound := by
  obtain ⟨y, read', small⟩ := exists_ofText?_of_mem_numbers number
  obtain rfl := Option.some.inj (read.symm.trans read')
  exact small.mp finite

theorem le_abs_decimalValue_of_ofText? (number : n ∈ numbers) (read : ofText? n = some x)
    (infinite : x.isFinite = false) : (overflowBound : ℚ) ≤ |decimalValue n| := by
  obtain ⟨y, read', small⟩ := exists_ofText?_of_mem_numbers number
  obtain rfl := Option.some.inj (read.symm.trans read')
  exact not_lt.mp (mt small.mpr (by simp [infinite]))

end Numbers

namespace TupleShape

variable {shape : TupleShape} {ns front back : List (List Char)} {n t : List Char}

theorem mem_language_iff_writtenWith :
    t ∈ (Literal.tuple shape).language ↔ ∃ ns, shape.WrittenWith ns t := by
  rw [Literal.language, mem_language_iff]
  constructor
  · rintro ⟨ns, counted, all, written⟩
    exact ⟨ns, counted, all, written⟩
  · rintro ⟨ns, counted, all, written⟩
    exact ⟨ns, counted, all, written⟩

/-- Only the last character of a tuple is a closing parenthesis. -/
theorem exists_append_of_mem_language (member : t ∈ (Literal.tuple shape).language) :
    ∃ u, t = u ++ [')'] ∧ ')' ∉ u := by
  obtain ⟨_, rfl, _, ⟨_, rfl, _, ⟨v, component, w, further, rfl⟩, rfl⟩, rfl⟩ :=
    Language.mem_mul.mp member
  obtain ⟨u, rfl, closed, -⟩ := exists_append_of_mem_furtherComponents further
  have lead : ')' ∉ shape.lead := by cases shape <;> simp [TupleShape.lead]
  have inside : ')' ∉ v := not_mem_components component rfl
  exact ⟨shape.lead ++ (['('] ++ (v ++ u)), by simp, by simp [lead, inside, closed]⟩

/-- The value of a tuple is of its kind, and its components are the given ones. A color without
alpha is opaque. -/
theorem components_value? {xs : List Binary32} {v : Value} (made : shape.value? xs = some v) :
    v.kind? = some shape.kind ∧ v.components = if shape = rgb then xs ++ [.one] else xs := by
  unfold value? at made
  split at made <;> cases made <;> exact ⟨rfl, rfl⟩

/-- Numbers that are all finite are the components of the value, in their order. -/
theorem WrittenWith.read_eq_ok (written : shape.WrittenWith ns t)
    (finite : ∀ n ∈ ns, |decimalValue n| < overflowBound) (find : ObjectLookup) :
    ∃ xs v, List.Forall₂ (fun n x => ofText? n = some x ∧ x.isFinite = true) ns xs ∧
      v.kind? = some shape.kind ∧ (v.components = if shape = rgb then xs ++ [.one] else xs) ∧
      (Literal.tuple shape).read find t = .ok ⟨v, []⟩ := by
  obtain ⟨xs, traversed, sameLength, -⟩ | ⟨n, member, -, outside⟩ :=
    mapM_finiteNumber written.all shape.kind
  · obtain ⟨v, made⟩ := Option.isSome_iff_exists.mp
      (value?_isSome_iff.mpr (sameLength.trans written.counted))
    obtain ⟨kind, components⟩ := components_value? made
    refine ⟨xs, v, ?_, kind, components, ?_⟩
    · exact (Traversal.mapM_eq_ok_iff.mp traversed).imp fun n x => finiteNumber_eq_ok_iff.mp
    · simp only [Literal.read, findNumbers_of_mem_written written.all written.written, traversed,
        bind, Except.bind, made]
  · exact absurd (finite n member) outside.not_gt

/-- The first number that is not finite is out of range. -/
theorem WrittenWith.read_eq_error (written : shape.WrittenWith (front ++ n :: back) t)
    (finite : ∀ m ∈ front, |decimalValue m| < overflowBound)
    (great : (overflowBound : ℚ) ≤ |decimalValue n|) (find : ObjectLookup) :
    (Literal.tuple shape).read find t =
      .error (.outOfRange (String.ofList n) shape.kind) := by
  have number {m : List Char} (member : m ∈ front ++ n :: back) :=
    finiteNumber_of_mem_numbers (written.all m member) shape.kind
  have failed : finiteNumber shape.kind n = .error (.outOfRange (String.ofList n) shape.kind) := by
    obtain ⟨inside, -⟩ | ⟨-, failed⟩ := number (by simp : n ∈ front ++ n :: back)
    · exact absurd inside great.not_gt
    · exact failed
  have traversed : (front ++ n :: back).mapM (finiteNumber shape.kind) =
      .error (.outOfRange (String.ofList n) shape.kind) := by
    refine Traversal.mapM_eq_error_iff.mpr ⟨front.length, n, by simp, failed, ?_⟩
    intro j earlier m place
    rw [List.getElem?_append_left earlier] at place
    have member : m ∈ front := List.mem_of_getElem? place
    obtain ⟨-, x, read, -⟩ | ⟨outside, -⟩ := number (List.mem_append_left _ member)
    · exact ⟨x, read⟩
    · exact absurd (finite m member) outside.not_gt
  simp only [Literal.read, findNumbers_of_mem_written written.all written.written, traversed,
    bind, Except.bind]

end TupleShape

/-- A tuple is recognized where it is written with as many numbers as it needs and a boundary
follows. It ends at the first closing parenthesis. In the token exactly the numbers are found that
it is written with. If they are all finite they are the components of the value, each as it is
read by itself, in their order; `rgb` adds an alpha of one. Otherwise the first one that is not
finite is reported as out of range. -/
theorem tuples_hold_written_numbers (shape : TupleShape) :
    (∀ s t r : List Char, (Literal.tuple shape).recognize s = some (t, r) ↔
      s = t ++ r ∧ (∃ ns, shape.WrittenWith ns t) ∧
        (r = [] ∨ ∃ c u, r = c :: u ∧ isBlank c = true)) ∧
    ∀ (ns : List (List Char)) (t : List Char), shape.WrittenWith ns t →
      (∃ u, t = u ++ [')'] ∧ ')' ∉ u) ∧ findNumbers t = ns ∧
      ∀ find : ObjectLookup,
        ((∀ n ∈ ns, |decimalValue n| < overflowBound) →
          ∃ xs v, List.Forall₂ (fun n x => ofText? n = some x ∧ x.isFinite = true) ns xs ∧
            v.kind? = some shape.kind ∧
            (v.components = if shape = .rgb then xs ++ [.one] else xs) ∧
            (Literal.tuple shape).read find t = .ok ⟨v, []⟩) ∧
        ∀ front n back, ns = front ++ n :: back →
          (∀ m ∈ front, |decimalValue m| < overflowBound) →
          (overflowBound : ℚ) ≤ |decimalValue n| →
          (Literal.tuple shape).read find t =
            .error (.outOfRange (String.ofList n) shape.kind) := by
  constructor
  · intro s t r
    rw [Literal.recognize_eq_some_iff, TupleShape.mem_language_iff_writtenWith, atBoundary_iff]
  · intro ns t written
    refine ⟨?_, TupleShape.findNumbers_of_mem_written written.all written.written, fun find => ?_⟩
    · exact TupleShape.exists_append_of_mem_language
        (TupleShape.mem_language_iff_writtenWith.mpr ⟨ns, written⟩)
    · refine ⟨fun finite => written.read_eq_ok finite find, ?_⟩
      rintro front n back rfl finite great
      exact written.read_eq_error finite great find

/-- Two numbers with a blank in front of the comma, and one with forty digits behind another. -/
theorem tuples_hold_written_numbers_second_too_great :
    let small := "(1 ,-0.5)".toList
    let great := "(\t-0.5 ,".toList ++ List.replicate 40 '9' ++ [')']
    (∃ xs v, xs.length = 2 ∧ v.components = xs ∧
      (Literal.tuple .vec2).read (fun _ => none) small = .ok ⟨v, []⟩) ∧
    (Literal.tuple .vec2).recognize (great ++ " 1)".toList) = some (great, " 1)".toList) ∧
      (Literal.tuple .vec2).read (fun _ => none) great =
        .error (.outOfRange (String.ofList (List.replicate 40 '9')) .vec2) := by
  intro small great
  obtain ⟨recognized, holds⟩ := tuples_hold_written_numbers .vec2
  have first : (Literal.tuple .vec2).recognize small = some (small, []) := by decide +kernel
  have second : (Literal.tuple .vec2).recognize (great ++ " 1)".toList) =
      some (great, " 1)".toList) := by
    decide +kernel
  obtain ⟨-, ⟨ns, written⟩, -⟩ := (recognized _ _ _).mp first
  obtain ⟨-, ⟨ms, written'⟩, -⟩ := (recognized _ _ _).mp second
  obtain ⟨-, found, read⟩ := holds ns small written
  obtain ⟨-, found', read'⟩ := holds ms great written'
  have inSmall : findNumbers small = [['1'], "-0.5".toList] := by decide +kernel
  have inGreat : findNumbers great = ["-0.5".toList, List.replicate 40 '9'] := by decide +kernel
  obtain rfl := found.symm.trans inSmall
  obtain rfl := found'.symm.trans inGreat
  have one : |decimalValue ['1']| < overflowBound :=
    abs_decimalValue_lt_of_ofText? (x := .one) (written.all _ (by simp)) (by decide +kernel)
      (by decide +kernel)
  have half : |decimalValue "-0.5".toList| < overflowBound :=
    abs_decimalValue_lt_of_ofText? (x := ⟨0xBF000000⟩) (written.all _ (by simp))
      (by decide +kernel) (by decide +kernel)
  have tooGreat : (overflowBound : ℚ) ≤ |decimalValue (List.replicate 40 '9')| :=
    le_abs_decimalValue_of_ofText? (x := .infinity false) (written'.all _ (by simp))
      (by decide +kernel) (by decide +kernel)
  refine ⟨?_, second, ?_⟩
  · have finite : ∀ n ∈ [['1'], "-0.5".toList], |decimalValue n| < overflowBound :=
      List.forall_mem_cons.mpr ⟨one, List.forall_mem_singleton.mpr half⟩
    obtain ⟨xs, v, same, -, components, value⟩ := (read fun _ => none).1 finite
    exact ⟨xs, v, same.length_eq.symm, components, value⟩
  · exact (read' fun _ => none).2 ["-0.5".toList] _ [] rfl (List.forall_mem_singleton.mpr half)
      tooGreat

end CommandConsole
