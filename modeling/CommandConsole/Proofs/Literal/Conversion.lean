import CommandConsole.Proofs.Line.Misses
import CommandConsole.Proofs.Literal.Components
import CommandConsole.Proofs.Number.Written
import CommandConsole.Proofs.Traversal

/-!
# Recognized tokens have values

A token that a literal recognizes is read by the same literal. Nothing that is
recognized is malformed: reading it either gives a value whose numbers are
finite, or says that a number is out of range. The latter happens exactly if the
written number is: an integer that does not fit 32 bits, or a number of a
decimal or a tuple that is rounded to infinity.
-/

namespace CommandConsole

open Text Binary32

/-- The text between the first and the last byte of a token. There is none if the token is
shorter than that, or if a character of several bytes stands at one of its ends. -/
def innerBytes? : List Char → Option (List Char)
  | [] => none
  | c :: r =>
    match r.getLast? with
    | none => none
    | some d => if c.utf8Size = 1 ∧ d.utf8Size = 1 then some r.dropLast else none

theorem innerBytes?_of_ends {c d : Char} (first : c.utf8Size = 1) (last : d.utf8Size = 1)
    (inner : List Char) :
    innerBytes? (c :: (inner ++ [d])) = some (innerText (c :: (inner ++ [d]))) := by
  simp [innerBytes?, innerText, first, last]

/-- A number of the token is too great for the literal. -/
def Literal.OutOfRange (l : Literal) (t : List Char) : Prop :=
  match l with
  | int => ¬ (-2147483648 ≤ decimalValue t ∧ decimalValue t ≤ 2147483647)
  | float => (overflowBound : ℚ) ≤ |decimalValue t|
  | tuple shape => ∃ ns : List (List Char), (∀ n ∈ ns, n ∈ numbers) ∧ t ∈ shape.written ns ∧
      ∃ n ∈ ns, (overflowBound : ℚ) ≤ |decimalValue n|
  | _ => False

section Numbers

variable {t n : List Char} {kind : Kind}

theorem int32OfText?_of_mem_wholeNumbers (member : t ∈ wholeNumbers) :
    (int32OfText? t).isSome = true ↔
      -2147483648 ≤ decimalValue t ∧ decimalValue t ≤ 2147483647 := by
  obtain ⟨negative, whole, digits, rfl⟩ := mem_wholeNumbers_iff.mp member
  have value : decimalValue (numberText negative whole []) =
      ((if negative then -(natOfDigits whole : Int) else natOfDigits whole : Int) : ℚ) := by
    rw [decimalValue_numberText digits, List.append_nil]
    cases negative <;> simp
  have range (i : Int) : (if Int32.minValue.toInt ≤ i ∧ i ≤ Int32.maxValue.toInt then
      some (Int32.ofInt i) else none).isSome = true ↔ -2147483648 ≤ i ∧ i ≤ 2147483647 := by
    rw [Option.isSome_ite]
    exact Iff.rfl
  rw [int32OfText?, intOfText?_numberText digits, Option.bind_some, range, value]
  exact_mod_cast Iff.rfl

/-- A number below the overflow bound is read, and is finite. From the bound on it is out of
range. -/
theorem finiteNumber_of_mem_numbers (member : n ∈ numbers) (kind : Kind) :
    (|decimalValue n| < overflowBound ∧ ∃ x, finiteNumber kind n = .ok x ∧ x.isFinite = true) ∨
    ((overflowBound : ℚ) ≤ |decimalValue n| ∧
      finiteNumber kind n = .error (.outOfRange (String.ofList n) kind)) := by
  obtain ⟨x, read, finite⟩ := exists_ofText?_of_mem_numbers member
  simp only [finiteNumber, read]
  by_cases inside : x.isFinite = true
  · exact .inl ⟨finite.mp inside, x, if_pos inside, inside⟩
  · exact .inr ⟨not_lt.mp (mt finite.mpr inside), if_neg inside⟩

end Numbers

section Tuples

variable {shape : TupleShape} {ns : List (List Char)} {kind : Kind}

/-- The components of a tuple are the numbers it is made of; a color may be opaque. -/
theorem TupleShape.components_of_value? {xs : List Binary32} {v : Value}
    (made : shape.value? xs = some v) : v.components = xs ∨ v.components = xs ++ [.one] := by
  unfold value? at made
  split at made <;> cases made
  · exact .inl rfl
  · exact .inl rfl
  · exact .inl rfl
  · exact .inr rfl
  · exact .inl rfl

theorem isFinite_one : Binary32.one.isFinite = true :=
  (isFinite_ofRatio_iff (by decide)).mpr (by decide)

/-- Either all numbers are finite, or the first that is not is reported. -/
theorem mapM_finiteNumber (all : ∀ n ∈ ns, n ∈ numbers) (kind : Kind) :
    (∃ xs, ns.mapM (finiteNumber kind) = .ok xs ∧ xs.length = ns.length ∧
      (∀ x ∈ xs, x.isFinite = true) ∧ ∀ n ∈ ns, |decimalValue n| < overflowBound) ∨
    ∃ n ∈ ns, ns.mapM (finiteNumber kind) = .error (.outOfRange (String.ofList n) kind) ∧
      (overflowBound : ℚ) ≤ |decimalValue n| := by
  induction ns with
  | nil => exact .inl ⟨[], rfl, rfl, by simp, by simp⟩
  | cons n ns ih =>
      obtain ⟨number, others⟩ := List.forall_mem_cons.mp all
      rw [List.mapM_cons]
      obtain ⟨inside, x, read, finite⟩ | ⟨outside, failed⟩ :=
        finiteNumber_of_mem_numbers number kind
      · rw [read]
        obtain ⟨xs, traversed, counted, finites, insides⟩ | ⟨m, member, failed, outside⟩ :=
          ih others
        · refine .inl ⟨x :: xs, by rw [traversed]; rfl, by simp [counted], ?_, ?_⟩
          · exact List.forall_mem_cons.mpr ⟨finite, finites⟩
          · exact List.forall_mem_cons.mpr ⟨inside, insides⟩
        · exact .inr ⟨m, List.mem_cons_of_mem n member, by rw [failed]; rfl, outside⟩
      · exact .inr ⟨n, List.mem_cons_self .., by rw [failed]; rfl, outside⟩

end Tuples

section Colors

variable {t : List Char}

theorem Color.isFinite_ofBytes {red green blue alpha : Nat} (r : red < 256) (g : green < 256)
    (b : blue < 256) (a : alpha < 256) :
    ∀ x ∈ (ofBytes red green blue alpha).components, x.isFinite = true := by
  have byte {n : Nat} (small : n < 256) : (ofRatio false n 255).isFinite = true :=
    (isFinite_ofRatio_iff (by decide)).mpr (small.trans (by decide))
  simp [ofBytes, components, byte r, byte g, byte b, byte a]

theorem Color.isFinite_ofRgb (n : Nat) : ∀ x ∈ (ofRgb n).components, x.isFinite = true := by
  apply isFinite_ofBytes <;> omega

theorem Color.isFinite_ofRgba (n : Nat) : ∀ x ∈ (ofRgba n).components, x.isFinite = true := by
  apply isFinite_ofBytes <;> omega

/-- Hexadecimal digits always read a number. -/
theorem exists_natOfSignedHex? {digits : List Char} (hex : digits ∈ runs1 isHexDigit) :
    ∃ n, natOfSignedHex? digits = some n := by
  have folds (digits : List Char) (hex : ∀ c ∈ digits, isHexDigit c = true) (m : Nat) :
      ∃ n, digits.foldlM (fun n c => (hexDigit? c).map (16 * n + ·)) m = some n := by
    induction digits generalizing m with
    | nil => exact ⟨m, rfl⟩
    | cons c digits ih =>
        obtain ⟨digit, others⟩ := List.forall_mem_cons.mp hex
        obtain ⟨d, value⟩ := Option.isSome_iff_exists.mp digit
        rw [List.foldlM_cons, value]
        exact ih others _
  obtain ⟨nonempty, all⟩ := hex
  obtain ⟨c, digits, rfl⟩ := List.exists_cons_of_ne_nil nonempty
  have unsigned : c ≠ '+' := by
    rintro rfl
    cases all '+' (List.mem_cons_self ..)
  have same : natOfSignedHex? (c :: digits) = natOfHex? (c :: digits) := by
    rw [natOfSignedHex?]
    · rintro d r rfl
      exact absurd rfl unsigned
    · rintro rfl
      exact absurd rfl unsigned
  rw [same]
  exact folds _ all 0

/-- The tokens of colors are colors, and their components are finite. -/
theorem Color.ofText?_of_mem_language (member : t ∈ Literal.color.language) :
    ∃ c, ofText? t = some c ∧ ∀ x ∈ c.components, x.isFinite = true := by
  unfold ofText?
  cases word : colorNumber? t with
  | some n => exact ⟨_, rfl, isFinite_ofRgb n⟩
  | none =>
      rcases (Language.mem_add _ _ _).mp member with ⟨hex, length⟩ | named
      · obtain ⟨_, rfl, digits, all, rfl⟩ := Language.mem_mul.mp hex
        obtain ⟨n, value⟩ := exists_natOfSignedHex? all
        have counted : digits.length = 6 ∨ digits.length = 8 := by
          simpa using mem_satisfying.mp length
        rcases counted with six | eight
        · exact ⟨ofRgb n, by simp [ofHex?, six, value], isFinite_ofRgb n⟩
        · exact ⟨ofRgba n, by simp [ofHex?, eight, value], isFinite_ofRgba n⟩
      · have number : isColorName t = true := named
        rw [isColorName, word] at number
        cases number

end Colors

namespace Literal

variable {l : Literal} {t : List Char}

/-- What becomes of a token: a value with finite numbers, or a report that a number is too great. -/
structure Converts (find : ObjectLookup) (l : Literal) (t : List Char) : Prop where
  inside : ¬ l.OutOfRange t →
    ∃ d, l.read find t = .ok d ∧ ∀ x ∈ d.value.components, x.isFinite = true
  outside : l.OutOfRange t → ∃ token kind, l.read find t = .error (.outOfRange token kind)

/-- Literals without numbers have a value for every token of theirs. -/
theorem Converts.of_ok {find : ObjectLookup} {d : Meaning} (range : ¬ l.OutOfRange t)
    (value : l.read find t = .ok d) (finite : ∀ x ∈ d.value.components, x.isFinite = true) :
    Converts find l t :=
  ⟨fun _ => ⟨d, value, finite⟩, fun outside => absurd outside range⟩

theorem Converts.of_error {find : ObjectLookup} (token : String) (kind : Kind)
    (range : l.OutOfRange t) (failed : l.read find t = .error (.outOfRange token kind)) :
    Converts find l t :=
  ⟨fun inside => absurd range inside, fun _ => ⟨token, kind, failed⟩⟩

theorem converts_float (find : ObjectLookup) (member : t ∈ float.language) :
    Converts find float t := by
  have number : t ∈ numbers := by
    obtain ⟨negative, whole, digits, fraction, behind, rfl⟩ := mem_float_language_iff.mp member
    exact mem_numbers_iff.mpr ⟨negative, whole, digits, fraction, behind.2, rfl⟩
  obtain ⟨inside, x, value, finite⟩ | ⟨outside, failed⟩ := finiteNumber_of_mem_numbers number .float
  · refine .of_ok (d := ⟨.float x, []⟩) (not_le.mpr inside) ?_ (by simpa [Value.components])
    rw [read, value]
    rfl
  · refine .of_error (String.ofList t) .float outside ?_
    rw [read, failed]
    rfl

theorem converts_int (find : ObjectLookup) (member : t ∈ int.language) :
    Converts find int t := by
  have range := int32OfText?_of_mem_wholeNumbers member
  cases value : int32OfText? t with
  | some i =>
      have inside : ¬ int.OutOfRange t := not_not.mpr (range.mp (by rw [value]; rfl))
      refine .of_ok (d := ⟨.int i, []⟩) inside ?_ (by simp [Value.components])
      simp only [read, value]
  | none =>
      have outside : int.OutOfRange t := fun inside => by simpa [value] using range.mpr inside
      refine .of_error (String.ofList t) .int outside ?_
      simp only [read, value]

/-- The numbers that are looked for in the token are those that it was recognized with, so there
are as many as the tuple needs. -/
theorem converts_tuple (find : ObjectLookup) {shape : TupleShape}
    (member : t ∈ (tuple shape).language) : Converts find (tuple shape) t := by
  obtain ⟨ns, counted, all, written⟩ := TupleShape.mem_language_iff.mp member
  have found := TupleShape.findNumbers_of_mem_written all written
  obtain ⟨xs, traversed, sameLength, finite, inside⟩ | ⟨n, part, failed, outside⟩ :=
    mapM_finiteNumber all shape.kind
  · obtain ⟨v, made⟩ := Option.isSome_iff_exists.mp
      (TupleShape.value?_isSome_iff.mpr (sameLength.trans counted))
    have range : ¬ (tuple shape).OutOfRange t := by
      rintro ⟨ms, others, written', m, part, great⟩
      obtain rfl : ns = ms :=
        found.symm.trans (TupleShape.findNumbers_of_mem_written others written')
      exact (inside m part).not_ge great
    have components : ∀ x ∈ v.components, x.isFinite = true := by
      obtain same | opaque' := TupleShape.components_of_value? made
      · rw [same]
        exact finite
      · rw [opaque']
        exact List.forall_mem_append.mpr ⟨finite, by simp [isFinite_one]⟩
    refine .of_ok (d := ⟨v, []⟩) range ?_ components
    simp only [read, found, traversed, bind, Except.bind, made]
  · refine .of_error (String.ofList n) shape.kind ⟨ns, all, written, n, part, outside⟩ ?_
    simp only [read, found, failed, bind, Except.bind]

theorem converts_of_mem_language (find : ObjectLookup) (member : t ∈ l.language) :
    Converts find l t := by
  cases l with
  | float => exact converts_float find member
  | int => exact converts_int find member
  | tuple shape => exact converts_tuple find member
  | color =>
      obtain ⟨c, value, finite⟩ := Color.ofText?_of_mem_language member
      refine .of_ok (d := ⟨.color c, []⟩) id ?_ finite
      rw [read, value]
  | char =>
      obtain ⟨_, rfl, _, ⟨_, ⟨c, _, rfl⟩, _, rfl, rfl⟩, rfl⟩ := Language.mem_mul.mp member
      exact .of_ok (d := ⟨.char c, []⟩) id rfl (by simp [Value.components])
  | object =>
      cases found : find (String.ofList (innerText t)) with
      | some e =>
          refine .of_ok (d := ⟨.object e, []⟩) id ?_ (by simp [Value.components])
          simp only [read, found]
      | none =>
          refine .of_ok (d := ⟨.null, [.unknownObject (String.ofList (innerText t))]⟩) id ?_
            (by simp [Value.components])
          simp only [read, found]
  | null | string | bool | varName =>
      exact .of_ok id rfl (by simp [Value.components])

theorem converts_of_recognize (find : ObjectLookup) {s r : List Char}
    (found : l.recognize s = some (t, r)) : Converts find l t :=
  converts_of_mem_language find (recognize_eq_some_iff.mp found).2.1

/-- No token is malformed. -/
theorem Converts.ne_malformed {find : ObjectLookup} (converts : Converts find l t)
    (token : String) (kind : Kind) : l.read find t ≠ .error (.malformed token kind) := by
  intro malformed
  by_cases range : l.OutOfRange t
  · obtain ⟨_, _, failed⟩ := converts.outside range
    cases failed.symm.trans malformed
  · obtain ⟨_, value, _⟩ := converts.inside range
    cases value.symm.trans malformed

/-- A token with quotes or braces at its ends has something between them. -/
theorem innerBytes?_of_mem_language (enclosed : l = string ∨ l = object) (member : t ∈ l.language) :
    innerBytes? t = some (innerText t) := by
  obtain rfl | rfl := enclosed
  · obtain ⟨_, rfl, _, ⟨body, _, _, rfl, rfl⟩, rfl⟩ := Language.mem_mul.mp member
    exact innerBytes?_of_ends rfl rfl body
  · obtain ⟨_, rfl, _, ⟨_, ⟨c, _, rfl⟩, _, ⟨name, rfl, _⟩, rfl⟩, rfl⟩ := Language.mem_mul.mp member
    exact innerBytes?_of_ends rfl rfl (c :: name)

end Literal

section Parameters

variable {σ : Type} {l : Literal}

/-- Whatever a lookup does, what a token means is decided by its one answer. -/
theorem Literal.exists_run_readM (ask : String → StateM σ (Option Entity)) (t : List Char)
    (before : σ) :
    ∃ find after, (l.readM ask t).run before = pure (l.read find t, after) := by
  cases l with
  | object => exact ⟨fun _ => ((ask (String.ofList (innerText t))).run before).1, _, rfl⟩
  | _ => exact ⟨fun _ => none, before, rfl⟩

/-- No malformed token is reported, whatever the lookup does. -/
theorem readAllM_ne_malformed (ask : String → StateM σ (Option Entity)) (literals : List Literal)
    (s : List Char) (before : σ) (token : String) (kind : Kind) :
    ((readAllM ask literals s).run before).1 ≠ .error (.conversion (.malformed token kind)) := by
  -- Along the tokens; each lookup may change what the later ones answer.
  induction s using readAllM.induct literals generalizing before with
  | case1 s start =>
      rw [readAllM_of_blank start]
      exact fun malformed => by cases malformed
  | case2 s c cs start none =>
      rw [readAllM_of_unrecognized start none]
      exact fun malformed => by cases malformed
  | case3 s c cs start l t rest found ih =>
      obtain ⟨find, after, asked⟩ := l.exists_run_readM ask t before
      have converts := l.converts_of_recognize find (recognize_of_firstToken found)
      rw [readAllM_of_token start found, StateT.run_bind, asked, pure_bind]
      cases value : l.read find t with
      | error e =>
          rintro ⟨⟩
          exact converts.ne_malformed token kind value
      | ok d =>
          have later := ih after
          simp only [StateT.run_bind]
          cases rest' : (readAllM ask literals rest).run after with
          | mk read final =>
              rw [rest'] at later
              change read ≠ _ at later
              cases read with
              | error e => exact fun malformed => later (Except.error.inj malformed ▸ rfl)
              | ok ds => exact fun malformed => by cases malformed

/-- The same for a lookup that never changes its mind. -/
theorem readAll_ne_malformed (find : ObjectLookup) (literals : List Literal) (s : List Char)
    (token : String) (kind : Kind) :
    readAll find literals s ≠ .error (.conversion (.malformed token kind)) := by
  obtain ⟨missed, notes, _⟩ := run_readAllM_raising find literals s
  have same := readAllM_ne_malformed (raising find) literals s [] token kind
  rwa [notes] at same

theorem map_ofMeanings_ne {read : Except ParseError (List Meaning)} {e : ParseError}
    (other : read ≠ .error e) : read.map Parameters.ofMeanings ≠ .error e := by
  cases read with
  | error e' => exact fun failed => other (congrArg Except.error (Except.error.inj failed))
  | ok ds => exact fun failed => by cases failed

end Parameters

/-- A token that a literal recognizes is never malformed: its ends can be cut off where that is
done, and it has a value with finite numbers, unless one that it is written with is too great for
the literal. Only then is it out of range. So parameters are never malformed either, whatever
literals are tried in whatever order and whatever the lookup answers. -/
theorem recognized_tokens_convert :
    (∀ (l : Literal) (s t r : List Char), l.recognize s = some (t, r) →
      (l = .string ∨ l = .object → innerBytes? t = some (innerText t)) ∧
      ∀ find : ObjectLookup,
        ((∃ d, l.read find t = .ok d ∧ ∀ x ∈ d.value.components, x.isFinite = true) ∨
          ∃ token kind, l.read find t = .error (.outOfRange token kind)) ∧
        ((∃ token kind, l.read find t = .error (.outOfRange token kind)) ↔ l.OutOfRange t)) ∧
    (∀ (find : ObjectLookup) (literals : List Literal) (s : List Char) (token : String)
      (kind : Kind),
      parseParameters find literals s ≠ .error (.conversion (.malformed token kind))) ∧
    ∀ (σ : Type) (ask : String → StateM σ (Option Entity)) (literals : List Literal)
      (s : List Char) (before : σ) (token : String) (kind : Kind),
      ((parseParametersM ask literals s).run before).1 ≠
        .error (.conversion (.malformed token kind)) := by
  refine ⟨fun l s t r found => ⟨?_, fun find => ?_⟩, ?_, ?_⟩
  · intro enclosed
    exact Literal.innerBytes?_of_mem_language enclosed (Literal.recognize_eq_some_iff.mp found).2.1
  · obtain ⟨inside, outside⟩ := Literal.converts_of_recognize find found
    by_cases range : l.OutOfRange t
    · exact ⟨.inr (outside range), fun _ => range, outside⟩
    · obtain ⟨d, value, finite⟩ := inside range
      refine ⟨.inl ⟨d, value, finite⟩, ?_, outside⟩
      rintro ⟨_, _, failed⟩
      cases value.symm.trans failed
  · intro find literals s token kind
    exact map_ofMeanings_ne (readAll_ne_malformed find literals s token kind)
  · intro σ ask literals s before token kind
    exact map_ofMeanings_ne (readAllM_ne_malformed ask literals s before token kind)

/-- A decimal at the bound is out of range, and one just below it is not. -/
theorem recognized_tokens_convert_at_bound :
    let great := "340282356779733661637539395458142568448.0".toList
    let less := "-340282356779733661637539395458142568447.9".toList
    Literal.float.recognize (great ++ " 1".toList) = some (great, " 1".toList) ∧
      Literal.float.OutOfRange great ∧
      Literal.float.recognize less = some (less, []) ∧ ¬ Literal.float.OutOfRange less := by
  intro great less
  have first : Literal.float.recognize (great ++ " 1".toList) = some (great, " 1".toList) := by
    decide +kernel
  have second : Literal.float.recognize less = some (less, []) := by decide +kernel
  have law := recognized_tokens_convert.1
  have failed : Literal.float.read (fun _ => none) great =
      .error (.outOfRange (String.ofList great) .float) := by rfl
  obtain ⟨x, value⟩ : ∃ x, Literal.float.read (fun _ => none) less = .ok ⟨.float x, []⟩ :=
    ⟨_, by rfl⟩
  refine ⟨first, ?_, second, ?_⟩
  · exact ((law _ _ _ _ first).2 fun _ => none).2.mp ⟨_, _, failed⟩
  · intro range
    obtain ⟨_, _, failed'⟩ := ((law _ _ _ _ second).2 fun _ => none).2.mpr range
    cases value.symm.trans failed'

end CommandConsole
