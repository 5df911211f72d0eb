import Mathlib.Data.List.TFAE
import Mathlib.Tactic.TFAE
import CommandConsole.Console.Run
import CommandConsole.Proofs.Line.TokenSequence
import CommandConsole.Proofs.Variable.Store

/-!
# Who decides what names a variable

Names are looked at when a variable is set, when a text is to be a name as a
whole, and when parameters are read, where a name comes last among all literals.
All of these accept the same words. A name that can be set can therefore be
typed, wherever a parameter may stand, and is not mistaken for another literal;
and whatever was read as a variable can be set. Other words change nothing.
-/

namespace CommandConsole

open Text

namespace VariableName

variable {s : List Char} {name : String}

theorem isValid_iff : isValid s = true ↔ error? s = none := Option.isNone_iff_eq_none

/-- A text is a name as a whole if it is valid, and then it names itself. -/
theorem ofText?_eq_some_iff :
    ofText? s = some name ↔ isValid s = true ∧ name = String.ofList s := by
  rw [ofText?]
  split
  next t recognized =>
    obtain ⟨whole, valid, -⟩ := Literal.recognize_eq_some_iff.mp recognized
    obtain rfl : s = t := whole.trans (List.append_nil t)
    have same : isValid s = true := valid
    simp [same, eq_comm]
  next other =>
    simp only [reduceCtorEq, false_iff, not_and]
    intro valid
    have recognized : Literal.varName.recognize s = some (s, []) :=
      Literal.recognize_eq_some_iff.mpr ⟨(List.append_nil s).symm, valid, rfl⟩
    exact absurd recognized (other s)

end VariableName

section Reading

variable {s t r : List Char} {l : Literal} {d : Meaning} {name : String} {find : ObjectLookup}

theorem TupleShape.ne_varName_of_value? {shape : TupleShape} {xs : List Binary32} {v : Value}
    (made : shape.value? xs = some v) (name : String) : v ≠ .varName name := by
  unfold value? at made
  split at made <;> cases made <;> simp

/-- Only names are read as variables, and as the variables they name. -/
theorem Literal.eq_varName_of_read (read : l.read find t = .ok d)
    (named : d.value = .varName name) : l = varName ∧ name = String.ofList t := by
  cases l with
  | varName =>
      obtain rfl := Except.ok.inj read
      exact ⟨rfl, (Value.varName.inj named).symm⟩
  | null | string | bool =>
      obtain rfl := Except.ok.inj read
      cases named
  | float =>
      rw [Literal.read] at read
      cases number : finiteNumber .float t with
      | error e => simp [number, Except.map] at read
      | ok x =>
          rw [number] at read
          obtain rfl := Except.ok.inj read
          cases named
  | tuple shape =>
      rw [Literal.read] at read
      cases traversed : (findNumbers t).mapM (finiteNumber shape.kind) with
      | error e => simp [traversed, bind, Except.bind] at read
      | ok xs =>
          simp only [traversed, bind, Except.bind] at read
          split at read
          next v made =>
            obtain rfl := Except.ok.inj read
            exact absurd named (TupleShape.ne_varName_of_value? made name)
          next => cases read
  | char | int | color | object =>
      simp only [Literal.read] at read
      split at read <;> cases read <;> cases named

/-- In front of a boundary a valid name is recognized as a name and as nothing else. -/
theorem Literal.recognize_name_append (valid : VariableName.isValid t = true)
    (boundary : atBoundary r = true) :
    varName.recognize (t ++ r) = some (t, r) ∧ ∀ l ≠ varName, l.recognize (t ++ r) = none := by
  have recognized : varName.recognize (t ++ r) = some (t, r) :=
    recognize_eq_some_iff.mpr ⟨rfl, valid, boundary⟩
  exact ⟨recognized, fun l other => recognize_eq_none_of_recognize recognized other⟩

/-- A valid name is read as the variable it names, and no object is asked for. -/
theorem readFirstM_name_append {m : Type → Type} [Monad m] [LawfulMonad m]
    (ask : String → m (Option Entity)) (valid : VariableName.isValid t = true)
    (boundary : atBoundary r = true) :
    readFirstM ask Literal.standard (t ++ r) =
      pure (.ok (some (⟨.varName (String.ofList t), []⟩, t))) := by
  have found : firstToken Literal.standard (t ++ r) = some (.varName, t, r) :=
    firstToken_eq_some_iff.mpr
      ⟨Literal.mem_standard _, (Literal.recognize_name_append valid boundary).1⟩
  rw [readFirstM, found]
  simp [Literal.readM, Literal.read, Except.map]

/-- What is read as a variable is its valid name. -/
theorem isValid_of_readFirst
    (read : readFirst find Literal.standard s = .ok (some (d, t)))
    (named : d.value = .varName name) :
    VariableName.isValid name.toList = true ∧ t = name.toList := by
  cases found : firstToken Literal.standard s with
  | none =>
      rw [readFirst, readFirstM, found] at read
      cases read
  | some x =>
      obtain ⟨l, t', r⟩ := x
      rw [readFirst_of_firstToken find found] at read
      cases value : l.read find t' with
      | error e => simp [value, Except.map] at read
      | ok d' =>
          rw [value] at read
          obtain ⟨rfl, rfl⟩ := Prod.mk.inj (Option.some.inj (Except.ok.inj read))
          obtain ⟨rfl, rfl⟩ := Literal.eq_varName_of_read value named
          obtain ⟨-, valid, -⟩ :=
            Literal.recognize_eq_some_iff.mp (recognize_of_firstToken found)
          rw [String.toList_ofList]
          exact ⟨valid, rfl⟩

/-- The variables among the parameters of a line have valid names. -/
theorem isValid_of_mem_parseParameters {literals : List Literal} {a : Parameters}
    (read : parseParameters find literals s = .ok a) (typed : .varName name ∈ a.values) :
    VariableName.isValid name.toList = true := by
  obtain ⟨ps, back, -, sequence, -, rfl⟩ := parseParameters_eq_ok_iff.mp read
  obtain ⟨d, member, named⟩ := List.mem_map.mp typed
  obtain ⟨p, piece, rfl⟩ := List.mem_map.mp member
  clear read typed member
  induction sequence with
  | nil => cases piece
  | cons accepted apart others ih =>
      rcases List.mem_cons.mp piece with rfl | later
      · obtain ⟨name, rfl⟩ := Literal.eq_varName_of_read accepted.value named
        obtain ⟨-, -, -, -, recognized⟩ := accepted.first
        rw [name] at recognized
        obtain ⟨-, valid, -⟩ := Literal.recognize_eq_some_iff.mp recognized
        rw [String.toList_ofList]
        exact valid
      · exact ih later

end Reading

/-- A word is a valid name, is a name as a whole, can be set, and is read as a variable by the
standard literals, or none of these. A name that can be set is no other literal wherever a
parameter may stand, and variables that were read can be set. Setting anything else is refused for
what is wrong with the word, and leaves the variables as they are. -/
theorem variable_names_agree (name : String) :
    (∀ find : ObjectLookup, List.TFAE
      [VariableName.error? name.toList = none,
        VariableName.ofText? name.toList = some name,
        ∀ (vs : Variables) (v : Value), ∃ vs', vs.set name v = .ok vs',
        readFirst find Literal.standard name.toList =
          .ok (some (⟨.varName name, []⟩, name.toList))]) ∧
    (∀ (vs vs' : Variables) (v : Value), vs.set name v = .ok vs' →
      ∀ rest, atBoundary rest = true →
        (∀ l ≠ Literal.varName, l.recognize (name.toList ++ rest) = none) ∧
        ∀ (m : Type → Type) [Monad m] [LawfulMonad m] (ask : String → m (Option Entity)),
          readFirstM ask Literal.standard (name.toList ++ rest) =
            pure (.ok (some (⟨.varName name, []⟩, name.toList)))) ∧
    (∀ (find : ObjectLookup) (s : List Char) (a : Parameters),
      parseParameters find Literal.standard s = .ok a → .varName name ∈ a.values →
        ∀ (vs : Variables) (v : Value), ∃ vs', vs.set name v = .ok vs') ∧
    (∀ e, VariableName.error? name.toList = some e →
      ∀ (vs : Variables) (v : Value), vs.set name v = .error e ∧ vs.setIfValid name v = vs ∧
        ∀ (c : Console) (next : Except VariableError Unit → Action),
          Console.perform (.setVariable name v next) c = Console.perform (next (.error e)) c) := by
  have same : String.ofList name.toList = name := String.ofList_toList
  refine ⟨?_, ?_, ?_, ?_⟩
  · intro find
    tfae_have 1 ↔ 2 := by
      rw [VariableName.ofText?_eq_some_iff, VariableName.isValid_iff, same]
      simp
    tfae_have 1 ↔ 3 := by
      simp only [Variables.exists_set_iff, VariableName.isValid_iff]
      exact ⟨fun valid _ _ => valid, fun valid => valid {} .null⟩
    tfae_have 1 → 4 := by
      intro valid
      have read := readFirstM_name_append (m := Id) find (VariableName.isValid_iff.mpr valid)
        atBoundary_nil
      rw [List.append_nil, same] at read
      exact read
    tfae_have 4 → 1 := by
      intro read
      exact VariableName.isValid_iff.mp (isValid_of_readFirst read rfl).1
    tfae_finish
  · intro vs vs' v stored rest boundary
    have valid := Variables.isValid_of_set stored
    refine ⟨(Literal.recognize_name_append valid boundary).2, ?_⟩
    intro m _ _ ask
    rw [readFirstM_name_append ask valid boundary, same]
  · intro find s a read typed vs v
    exact Variables.exists_set_of_isValid (isValid_of_mem_parseParameters read typed) v
  · intro e invalid vs v
    have refused : ∀ vs : Variables, vs.set name v = .error e := by
      intro vs
      rw [Variables.set, invalid]
    refine ⟨refused vs, ?_, ?_⟩
    · rw [Variables.setIfValid, refused vs]
    · intro c next
      rw [Console.perform, refused c.vars]

/-- `Red` is a name in front of a blank, also for a lookup that counts what it is asked, and
behind a number. In this spelling it is no color, as `red` is. -/
theorem variable_names_agree_red :
    let counting : String → StateM Nat (Option Entity) := fun _ asked => (none, asked + 1)
    (∃ vs, ({} : Variables).set "Red" (.int 1) = .ok vs) ∧
      Literal.color.recognize "Red red".toList = none ∧
      (readFirstM counting Literal.standard "Red red".toList).run 0 =
        (.ok (some (⟨.varName "Red", []⟩, "Red".toList)), 0) ∧
      parseParameters (fun _ => none) Literal.standard "7 Red".toList =
        .ok ⟨[.int 7, .varName "Red"], []⟩ ∧
      (∃ vs, ({} : Variables).set "Red" (.varName "Red") = .ok vs) ∧
      VariableName.error? "red".toList = some (.reserved "red" .color) ∧
      ({} : Variables).setIfValid "red" (.int 1) = {} := by
  intro counting
  obtain ⟨-, apart, typed, -⟩ := variable_names_agree "Red"
  obtain ⟨-, -, -, refused⟩ := variable_names_agree "red"
  have valid : VariableName.isValid "Red".toList = true := by decide
  obtain ⟨vs, stored⟩ : ∃ vs, ({} : Variables).set "Red" (.int 1) = .ok vs :=
    Variables.exists_set_of_isValid valid (.int 1)
  obtain ⟨alone, read⟩ := apart {} vs (.int 1) stored " red".toList (by decide)
  have asked := congrArg (StateT.run · 0) (read (StateM Nat) counting)
  have parsed : parseParameters (fun _ => none) Literal.standard "7 Red".toList =
      .ok ⟨[.int 7, .varName "Red"], []⟩ := by
    have text : "7 Red".toList = ['7', ' ', 'R', 'e', 'd'] := by decide
    rw [text, parseParameters_eq,
      readAll_of_token (l := .int) (t := ['7']) (r := [' ', 'R', 'e', 'd']) rfl (by decide),
      readAll_of_token (l := .varName) (t := ['R', 'e', 'd']) (r := []) rfl (by decide),
      readAll_of_blank rfl]
    rfl
  have reserved : VariableName.error? "red".toList = some (.reserved "red" .color) := by decide
  refine ⟨⟨vs, stored⟩, alone .color (by decide), asked, parsed, ?_, reserved, ?_⟩
  · exact typed _ _ _ parsed (by decide) {} _
  · exact (refused _ reserved {} _).2.1

end CommandConsole
