import CommandConsole.Value.Display
import CommandConsole.Proofs.Line.TokenSequence
import CommandConsole.Proofs.Literal.Components
import CommandConsole.Proofs.Number.ReadBack
import CommandConsole.Proofs.Traversal

/-!
# Values read back

The texts of values are read as the same values, to the last bit of every
number. Left out are characters, texts and objects, which are shown without
quotes or by their number, and decimals without a fraction, which are shown
without a point and read as integers. Inside a vector or a color there is no
such difference.
-/

namespace CommandConsole

open Text

/-- Values that are shown as they are written. -/
def Value.Printable : Value → Prop
  | null | bool _ | int _ => True
  | float x => x.isFinite = true ∧ x.HasFraction
  | vec2 v => ∀ x ∈ v.components, x.isFinite = true
  | vec3 v => ∀ x ∈ v.components, x.isFinite = true
  | vec4 v => ∀ x ∈ v.components, x.isFinite = true
  | color c => ∀ x ∈ c.components, x.isFinite = true
  | varName name => VariableName.isValid name.toList = true
  | char _ | string _ | object _ => False

section Numbers

variable {x : Binary32}

theorem display_mem_numbers (finite : x.isFinite = true) : x.display ∈ numbers := by
  obtain ⟨whole, digits, fraction, behind, written, -, -⟩ := Binary32.exists_display finite
  exact mem_numbers_iff.mpr ⟨_, whole, digits, fraction, behind, written⟩

theorem finiteNumber_display (finite : x.isFinite = true) (kind : Kind) :
    finiteNumber kind x.display = .ok x := by
  obtain ⟨-, -, -, -, -, read, -⟩ := Binary32.exists_display finite
  simp only [finiteNumber, read, finite, if_true]

/-- A decimal with a fraction is shown with a point. -/
theorem display_mem_float (finite : x.isFinite = true) (fractional : x.HasFraction) :
    x.display ∈ Literal.float.language := by
  obtain ⟨whole, digits, fraction, behind, written, -, point⟩ := Binary32.exists_display finite
  exact mem_float_language_iff.mpr
    ⟨_, whole, digits, fraction, ⟨point fractional, behind⟩, written⟩

theorem int32OfText?_intText (i : Int32) : int32OfText? (intText i.toInt) = some i := by
  have value : intOfText? (intText i.toInt) = some i.toInt := by
    rw [intText_eq, intOfText?_numberText (decimalDigits_mem _), natOfDigits_decimalDigits]
    by_cases negative : i.toInt < 0
    · rw [decide_eq_true negative, if_pos rfl, Int.ofNat_natAbs_of_nonpos negative.le, neg_neg]
    · rw [decide_eq_false negative, if_neg Bool.false_ne_true,
        Int.natAbs_of_nonneg (not_lt.mp negative)]
  rw [int32OfText?, value, Option.bind_some,
    if_pos ⟨Int32.minValue_le_toInt i, Int32.toInt_le i⟩, Int32.ofInt_toInt]

end Numbers

section Tuples

/-- All texts behind the first come with the separator in front. -/
theorem intercalate_cons_eq (separator n : List Char) (ns : List (List Char)) :
    separator.intercalate (n :: ns) = n ++ ns.flatMap (separator ++ ·) := by
  induction ns generalizing n with
  | nil => simp [List.intercalate]
  | cons m ns ih =>
      rw [List.intercalate_cons_cons, ih, List.flatMap_cons, List.append_assoc, List.append_assoc]

theorem mem_spaced {n front : List Char} (blank : ∀ c ∈ front, isBlank c = true) :
    front ++ n ∈ spaced n := by
  refine Language.append_mem_mul blank ⟨n, rfl, [], List.forall_mem_nil _, ?_⟩
  exact List.append_nil n

theorem flatMap_mem_furtherNumbers (ns : List (List Char)) :
    ns.flatMap (", ".toList ++ ·) ∈ furtherNumbers ns := by
  induction ns with
  | nil => rfl
  | cons n ns ih =>
      have blank : ∀ c ∈ [' '], isBlank c = true := by simp [isBlank]
      have first : [','] ++ ([' '] ++ n) ∈ ({[',']} : Language Char) * spaced n :=
        Language.append_mem_mul rfl (mem_spaced blank)
      exact Language.append_mem_mul first ih

theorem intercalate_mem_listedNumbers (ns : List (List Char)) :
    ", ".toList.intercalate ns ∈ listedNumbers ns := by
  cases ns with
  | nil => rfl
  | cons n ns =>
      rw [intercalate_cons_eq]
      have first : n ∈ spaced n := mem_spaced (List.forall_mem_nil _)
      exact Language.append_mem_mul first (flatMap_mem_furtherNumbers ns)

/-- Finite numbers are found again in the text of a tuple, and make up the same value. -/
theorem TupleShape.read_tupleText {shape : TupleShape} {xs : List Binary32} {v : Value}
    (finite : ∀ x ∈ xs, x.isFinite = true) (made : shape.value? xs = some v) :
    shape.lead ++ tupleText xs ∈ shape.language ∧
      ∀ find, (Literal.tuple shape).read find (shape.lead ++ tupleText xs) = .ok ⟨v, []⟩ := by
  have all : ∀ n ∈ xs.map Binary32.display, n ∈ numbers :=
    List.forall_mem_map.mpr fun x member => display_mem_numbers (finite x member)
  have counted : (xs.map Binary32.display).length = shape.arity := by
    rw [List.length_map, ← value?_isSome_iff, made]
    rfl
  have written : shape.lead ++ tupleText xs ∈ shape.written (xs.map Binary32.display) := by
    have closed : ", ".toList.intercalate (xs.map Binary32.display) ++ [')'] ∈
        listedNumbers (xs.map Binary32.display) * ({[')']} : Language Char) :=
      Language.append_mem_mul (intercalate_mem_listedNumbers _) rfl
    exact Language.append_mem_mul rfl (Language.append_mem_mul (a := ['(']) rfl closed)
  have traversed : (xs.map Binary32.display).mapM (finiteNumber shape.kind) = .ok xs := by
    rw [Traversal.mapM_eq_ok_iff, List.forall₂_map_left_iff, List.forall₂_same]
    exact fun x member => finiteNumber_display (finite x member) shape.kind
  refine ⟨mem_language_iff.mpr ⟨_, counted, all, written⟩, fun find => ?_⟩
  simp only [Literal.read, findNumbers_of_mem_written all written, traversed, bind, Except.bind,
    made]

end Tuples

section Reading

variable {v : Value}

/-- There is a literal that the text of a value is a token of, and it reads the value. -/
theorem Value.exists_literal (printable : v.Printable) :
    ∃ l : Literal, v.display ∈ l.language ∧ ∀ find, l.read find v.display = .ok ⟨v, []⟩ := by
  cases v with
  | null => exact ⟨.null, ⟨['n'], ⟨'n', rfl, rfl⟩, _, rfl, rfl⟩, fun _ => rfl⟩
  | bool b =>
      cases b with
      | true => exact ⟨.bool, .inl ⟨['t'], ⟨'t', rfl, rfl⟩, _, rfl, rfl⟩, fun _ => rfl⟩
      | false => exact ⟨.bool, .inr ⟨['f'], ⟨'f', rfl, rfl⟩, _, rfl, rfl⟩, fun _ => rfl⟩
  | int i =>
      refine ⟨.int, mem_wholeNumbers_iff.mpr ⟨_, _, decimalDigits_mem _, intText_eq _⟩, fun _ => ?_⟩
      simp only [display, Literal.read, int32OfText?_intText]
  | float x =>
      obtain ⟨finite, fractional⟩ := printable
      refine ⟨.float, display_mem_float finite fractional, fun _ => ?_⟩
      rw [display, Literal.read, finiteNumber_display finite]
      rfl
  | vec2 v => exact ⟨.tuple .vec2, TupleShape.read_tupleText printable rfl⟩
  | vec3 v => exact ⟨.tuple .vec3, TupleShape.read_tupleText printable rfl⟩
  | vec4 v => exact ⟨.tuple .vec4, TupleShape.read_tupleText printable rfl⟩
  | color c => exact ⟨.tuple .rgba, TupleShape.read_tupleText printable rfl⟩
  | varName name =>
      refine ⟨.varName, printable, fun _ => ?_⟩
      rw [Literal.read, display, String.ofList_toList]
  | char c => exact printable.elim
  | string s => exact printable.elim
  | object e => exact printable.elim

/-- Texts of values, each behind blanks. -/
def displayText (args : List (List Char × Value)) : List Char :=
  args.flatMap fun a => a.1 ++ a.2.display

variable {args : List (List Char × Value)} {back : List Char}

/-- A text of values is read one by one, each by its own literal. -/
theorem readAll_displayText (find : ObjectLookup) (printable : ∀ a ∈ args, a.2.Printable)
    (blank : ∀ a ∈ args, ∀ c ∈ a.1, isBlank c = true) (apart : ∀ a ∈ args.tail, a.1 ≠ [])
    (trailing : ∀ c ∈ back, isBlank c = true) :
    readAll find Literal.standard (displayText args ++ back) =
      .ok (args.map fun a => ⟨a.2, []⟩) := by
  induction args with
  | nil => exact readAll_of_blank (trimStart_eq_nil_iff.mpr trailing)
  | cons a args ih =>
      obtain ⟨gap, others⟩ := List.forall_mem_cons.mp blank
      obtain ⟨first, rest⟩ := List.forall_mem_cons.mp printable
      obtain ⟨l, token, value⟩ := Value.exists_literal first
      have boundary : atBoundary (displayText args ++ back) = true :=
        atBoundary_flatMap others apart trailing
      have found := firstToken_eq_some_iff.mpr
        ⟨l.mem_standard, Literal.recognize_eq_some_iff.mpr ⟨rfl, token, boundary⟩⟩
      have accepted : Piece.Accepted find Literal.standard ⟨a.1, a.2.display, l, ⟨a.2, []⟩⟩
          (displayText args ++ back) :=
        ⟨gap, acceptedFirst_iff.mpr found, value find⟩
      have separate : displayText (a :: args) ++ back =
          a.1 ++ (a.2.display ++ (displayText args ++ back)) := by
        simp only [displayText, List.flatMap_cons, List.append_assoc]
      rw [separate, readAll_of_accepted accepted,
        ih rest others fun b member => apart b (List.mem_of_mem_tail member)]
      rfl

end Reading

/-- Values that are shown one behind the other, with any blanks between them, are read as the same
values: no number loses a bit or its sign, and nothing is warned of. -/
theorem parseParameters_displayText (find : ObjectLookup) {args : List (List Char × Value)}
    {back : List Char} (printable : ∀ a ∈ args, a.2.Printable)
    (blank : ∀ a ∈ args, ∀ c ∈ a.1, isBlank c = true) (apart : ∀ a ∈ args.tail, a.1 ≠ [])
    (trailing : ∀ c ∈ back, isBlank c = true) :
    parseParameters find Literal.standard (displayText args ++ back) =
      .ok ⟨args.map (·.2), []⟩ := by
  rw [parseParameters_eq, readAll_displayText find printable blank apart trailing]
  simp [Except.map, Parameters.ofMeanings, Function.comp_def, List.flatMap_map]

/-- Minus zero, a whole number inside a vector, a fraction and the least integer. -/
theorem parseParameters_displayText_signs :
    let zero : Binary32 := ⟨0x80000000⟩
    let args : List (List Char × Value) :=
      [([], .vec3 ⟨zero, .one, ⟨0x3F000000⟩⟩), (['\t'], .float ⟨0xBFC00000⟩),
        ([' '], .int (-2147483648)), (['\u00a0', ' '], .varName "speed")]
    displayText args ++ [' '] = "(-0, 1, 0.5)\t-1.5 -2147483648\u00a0 speed ".toList ∧
      parseParameters (fun _ => none) Literal.standard (displayText args ++ [' ']) =
        .ok ⟨args.map (·.2), []⟩ := by
  intro zero args
  have printable : ∀ a ∈ args, a.2.Printable := by
    have half : ∀ x ∈ (Vec3.mk zero .one ⟨0x3F000000⟩).components, x.isFinite = true := by
      decide +kernel
    have negative : (Binary32.mk 0xBFC00000).isFinite = true ∧
        (Binary32.mk 0xBFC00000).HasFraction :=
      ⟨by decide +kernel, by unfold Binary32.HasFraction; decide +kernel⟩
    have name : VariableName.isValid "speed".toList = true := by decide +kernel
    simp only [args, List.forall_mem_cons]
    exact ⟨half, negative, trivial, name, List.forall_mem_nil _⟩
  have blank : ∀ a ∈ args, ∀ c ∈ a.1, isBlank c = true := by
    simp [args, isBlank]
  have text : displayText args ++ [' '] =
      "(-0, 1, 0.5)\t-1.5 -2147483648\u00a0 speed ".toList := by
    decide +kernel
  refine ⟨text, ?_⟩
  exact parseParameters_displayText _ printable blank (by simp [args]) (by simp [isBlank])

end CommandConsole
