import CommandConsole.Command.Invocation
import CommandConsole.Proofs.Resolution.Maximum
import CommandConsole.Proofs.Traversal
import CommandConsole.Value.Read

/-!
# What a picked overload receives

Scoring, binding and reading look at a value at different moments. They agree
because all three go by one kind: the kind under which a value was scored is
the kind of what the call receives in its place, and a parameter that takes a
kind can read every value of it.

A picked overload can therefore read all its arguments as they were declared,
`null` at a nullable parameter apart. Only a variable that is not set can still
stop the call, and only where `null` could have stood.
-/

namespace CommandConsole

section Parameter

variable {vs : Variables} {v b : Value} {k : Kind} {points : Nat}

/-- A value is scored at its kind, or at an unknown kind if the parameter is
nullable. -/
theorem fits_of_parameterScore? (scored : parameterScore? vs v k = some points) :
    (∃ found, effectiveKind? vs k v = some found ∧ (found = k ∨ k.accepts found = true)) ∨
      effectiveKind? vs k v = none ∧ k.isNullable = true := by
  rw [parameterScore?] at scored
  cases seen : effectiveKind? vs k v with
  | none =>
      right
      simp only [seen] at scored
      refine ⟨rfl, ?_⟩
      by_contra strict
      rw [if_neg strict] at scored
      cases scored
  | some found =>
      left
      simp only [seen] at scored
      refine ⟨found, rfl, ?_⟩
      by_contra unfit
      rw [not_or] at unfit
      rw [if_neg unfit.1, if_neg unfit.2] at scored
      cases scored

/-- Where every value is taken, none rules the overload out. -/
theorem isSome_parameterScore?_any (vs : Variables) (v : Value) :
    (parameterScore? vs v .any).isSome = true := by
  rw [parameterScore?]
  cases effectiveKind? vs .any v with
  | none => rfl
  | some k => cases k <;> rfl

/-- What stands in for a value at a call has the kind under which it was scored. -/
theorem kind?_of_bindValue (bound : bindValue vs v k = .ok b) :
    b.kind? = effectiveKind? vs k v := by
  cases v with
  | varName name =>
      by_cases itself : k = .varName
      · simp only [bindValue, if_pos itself, Except.ok.injEq] at bound
        subst bound
        simp [effectiveKind?, itself, Value.kind?]
      · simp only [bindValue, if_neg itself] at bound
        cases stored : vs.get? name with
        | none =>
            rw [stored] at bound
            cases bound
        | some value =>
            rw [stored] at bound
            obtain rfl := Except.ok.inj bound
            simp [effectiveKind?, itself, stored]
  | _ =>
      obtain rfl := Except.ok.inj bound
      rfl

/-- Only a variable that is not set cannot be replaced. -/
theorem bindValue_eq_error_iff {e : InvocationError} :
    bindValue vs v k = .error e ↔
      ∃ name, v = .varName name ∧ k ≠ .varName ∧ vs.get? name = none ∧
        e = .unboundVariable name := by
  cases v with
  | varName name =>
      by_cases itself : k = .varName
      · simp [bindValue, itself]
      · cases stored : vs.get? name with
        | none => simp [bindValue, itself, stored, eq_comm]
        | some value => simp [bindValue, itself, stored]
  | _ => simp [bindValue]

/-- What a parameter receives for a value that it was scored with can be read,
unless it is `null` where `null` is expected. -/
theorem read?_of_bindValue {t : ReadType}
    (scored : parameterScore? vs v t.kind = some points)
    (bound : bindValue vs v t.kind = .ok b) :
    b ≠ .null ∧ (t.read? b).isSome ∨ b = .null ∧ t.kind.isNullable = true := by
  have same := kind?_of_bindValue bound
  rcases fits_of_parameterScore? scored with ⟨found, seen, fits⟩ | ⟨unknown, nullable⟩
  · left
    have known : b.kind? = some found := same.trans seen
    refine ⟨?_, ReadType.isSome_read? (Kind.isSome_read? known fits)⟩
    rintro rfl
    cases known
  · right
    exact ⟨Value.kind?_eq_none_iff.mp (same.trans unknown), nullable⟩

end Parameter

namespace Overload

variable {o : Overload} {vs : Variables} {values : List Value}

/-- An overload can take values if each of its parameters can take the value in
its place. -/
theorem isSome_score?_iff :
    (o.score? vs values).isSome ↔
      o.kinds.length = values.length ∧
        ∀ (i : Nat) (v : Value) (k : Kind), values[i]? = some v → o.kinds[i]? = some k →
          (parameterScore? vs v k).isSome := by
  rw [score?]
  by_cases arity : o.kinds.length = values.length
  · rw [if_pos arity, Option.isSome_map, Traversal.isSome_mapM_iff]
    simp only [arity, true_and, List.mem_iff_getElem?, List.getElem?_zip_eq_some, Prod.forall]
    grind
  · simp [arity]

theorem isSome_score?_of_resolve {command : String} {overloads : List Overload}
    (picked : resolve command overloads vs values = .ok o) : (o.score? vs values).isSome := by
  have alone := resolve_eq_ok_iff.mp picked
  exact score?_isSome_of_mem_topOverloads (alone ▸ List.mem_singleton_self o)

end Overload

section Call

variable {vs : Variables} {values bs : List Value} {kinds : List Kind}

/-- A call receives one value for each parameter that a value was given for. -/
theorem bindValues_eq_ok_iff :
    bindValues vs values kinds = .ok bs ↔
      List.Forall₂ (fun x b => bindValue vs x.1 x.2 = .ok b) (values.zip kinds) bs :=
  Traversal.mapM_eq_ok_iff

/-- If every value is replaced whatever the kind in its place, so is the list. -/
theorem bindValues_eq_map {f : Value → Value} (arity : kinds.length = values.length)
    (each : ∀ v ∈ values, ∀ k ∈ kinds, bindValue vs v k = .ok (f v)) :
    bindValues vs values kinds = .ok (values.map f) := by
  have given : (values.zip kinds).map Prod.fst = values := List.map_fst_zip arity.ge
  rw [bindValues_eq_ok_iff, ← given, List.map_map, given, List.forall₂_map_right_iff,
    List.forall₂_same]
  rintro ⟨v, k⟩ paired
  obtain ⟨member, declared⟩ := List.of_mem_zip paired
  exact each v member k declared

/-- What a call receives in one place comes from the value in that place. -/
theorem exists_bindValue_of_bindValues (bound : bindValues vs values kinds = .ok bs) {i : Nat}
    {b : Value} {k : Kind} (received : bs[i]? = some b) (declared : kinds[i]? = some k) :
    ∃ v, values[i]? = some v ∧ bindValue vs v k = .ok b := by
  obtain ⟨length, pointwise⟩ := List.forall₂_iff_get.mp (bindValues_eq_ok_iff.mp bound)
  obtain ⟨inside, rfl⟩ := List.getElem?_eq_some_iff.mp received
  obtain ⟨below, rfl⟩ := List.getElem?_eq_some_iff.mp declared
  have given : i < (values.zip kinds).length := length ▸ inside
  have within : i < values.length := by
    rw [List.length_zip] at given
    omega
  refine ⟨values[i], List.getElem?_eq_getElem within, ?_⟩
  simpa using pointwise i given inside

/-- A variable that is not set stands at a place where its value is wanted. -/
def UnboundAt (vs : Variables) (values : List Value) (kinds : List Kind) (i : Nat)
    (name : String) : Prop :=
  ∃ k, values[i]? = some (.varName name) ∧ kinds[i]? = some k ∧ k ≠ .varName ∧
    vs.get? name = none

/-- Binding fails only for a variable that is not set, and reports the leftmost. -/
theorem bindValues_eq_error_iff {e : InvocationError} :
    bindValues vs values kinds = .error e ↔
      ∃ i name, UnboundAt vs values kinds i name ∧ e = .unboundVariable name ∧
        ∀ j < i, ∀ other, ¬ UnboundAt vs values kinds j other := by
  rw [bindValues, Traversal.mapM_eq_error_iff]
  constructor
  · rintro ⟨i, ⟨v, k⟩, place, failed, earlier⟩
    obtain ⟨value, kind⟩ := List.getElem?_zip_eq_some.mp place
    obtain ⟨name, rfl, wanted, unset, rfl⟩ := bindValue_eq_error_iff.mp failed
    refine ⟨i, name, ⟨k, value, kind, wanted, unset⟩, rfl, ?_⟩
    rintro j less other ⟨k', value', kind', wanted', unset'⟩
    obtain ⟨b, (fine : bindValue vs (.varName other) k' = .ok b)⟩ := earlier j less
      (.varName other, k') (List.getElem?_zip_eq_some.mpr ⟨value', kind'⟩)
    rw [bindValue_eq_error_iff.mpr ⟨other, rfl, wanted', unset', rfl⟩] at fine
    cases fine
  · rintro ⟨i, name, ⟨k, value, kind, wanted, unset⟩, rfl, earlier⟩
    refine ⟨i, (.varName name, k), List.getElem?_zip_eq_some.mpr ⟨value, kind⟩,
      bindValue_eq_error_iff.mpr ⟨name, rfl, wanted, unset, rfl⟩, ?_⟩
    rintro j less ⟨v, k'⟩ place
    obtain ⟨value', kind'⟩ := List.getElem?_zip_eq_some.mp place
    change ∃ b, bindValue vs v k' = .ok b
    cases bound : bindValue vs v k' with
    | ok b => exact ⟨b, rfl⟩
    | error e =>
        obtain ⟨other, rfl, wanted', unset', _⟩ := bindValue_eq_error_iff.mp bound
        exact absurd ⟨k', value', kind', wanted', unset'⟩ (earlier j less other)

/-- Where a picked overload wants the value of a variable that is not set, its
parameter is nullable. -/
theorem isNullable_of_unboundAt {o : Overload} (viable : (o.score? vs values).isSome) {i : Nat}
    {name : String} {k : Kind} (unbound : UnboundAt vs values o.kinds i name)
    (kind : o.kinds[i]? = some k) : k.isNullable = true := by
  obtain ⟨k', value, kind', wanted, unset⟩ := unbound
  obtain rfl : k' = k := Option.some.inj (kind'.symm.trans kind)
  obtain ⟨points, scored⟩ := Option.isSome_iff_exists.mp
    ((Overload.isSome_score?_iff.mp viable).2 i _ k' value kind)
  have unknown : effectiveKind? vs k' (.varName name) = none := by
    simp [effectiveKind?, wanted, unset]
  rcases fits_of_parameterScore? scored with ⟨found, seen, _⟩ | ⟨_, nullable⟩
  · rw [unknown] at seen
    cases seen
  · exact nullable

/-- The values of a call are one for each parameter, and each can be read as
its parameter was declared, whether or not as optional. Only `null` at a
nullable parameter is read as nothing, and only there reading can fail. The
call itself can fail only for a variable that is not set and stands at a
nullable parameter, and the leftmost such variable is named. -/
theorem bindValues_sound_of_resolve {command : String} {overloads : List Overload} {d : Overload}
    (picked : resolve command overloads vs values = .ok d) :
    (∀ bs, bindValues vs values d.kinds = .ok bs →
      bs.length = d.parameters.length ∧
      ∀ (i : Nat) (b : Value) (t : ReadType), bs[i]? = some b → d.kinds[i]? = some t.kind →
        (t.optional.read? b).isSome ∧
        (t.optional.read? b = some none → b = .null ∧ t.kind.isNullable = true) ∧
        (t.read? b = none → b = .null ∧ t.kind.isNullable = true)) ∧
    (∀ e, bindValues vs values d.kinds = .error e →
      ∃ i name k, values[i]? = some (.varName name) ∧ d.kinds[i]? = some k ∧
        k ≠ .varName ∧ k.isNullable = true ∧ vs.get? name = none ∧
        e = .unboundVariable name ∧
        ∀ j < i, ∀ other, ¬ UnboundAt vs values d.kinds j other) := by
  have viable := Overload.isSome_score?_of_resolve picked
  obtain ⟨arity, taken⟩ := Overload.isSome_score?_iff.mp viable
  constructor
  · intro bs bound
    have length := (bindValues_eq_ok_iff.mp bound).length_eq
    refine ⟨?_, ?_⟩
    · rw [← length, List.length_zip, ← arity, Nat.min_self, Overload.kinds, List.length_map]
    · intro i b t received declared
      obtain ⟨v, given, stands⟩ := exists_bindValue_of_bindValues bound received declared
      obtain ⟨points, scored⟩ := Option.isSome_iff_exists.mp (taken i v t.kind given declared)
      rcases read?_of_bindValue scored stands with ⟨present, readable⟩ | ⟨rfl, nullable⟩
      · refine ⟨?_, ?_, ?_⟩
        · rw [ReadType.read?_optional_of_ne_null present]
          exact Option.isSome_map.trans readable
        · intro nothing
          exact absurd (ReadType.read?_optional_eq_nothing_iff.mp nothing) present
        · intro unreadable
          rw [unreadable] at readable
          cases readable
      · exact ⟨rfl, fun _ => ⟨rfl, nullable⟩, fun _ => ⟨rfl, nullable⟩⟩
  · intro e failed
    obtain ⟨i, name, unbound, rfl, leftmost⟩ := bindValues_eq_error_iff.mp failed
    obtain ⟨k, value, kind, wanted, unset⟩ := id unbound
    exact ⟨i, name, k, value, kind, wanted, isNullable_of_unboundAt viable unbound kind, unset,
      rfl, leftmost⟩

/-- A variable that stores `null` arrives as `null`, an integer at a decimal
parameter is read as a decimal, and a variable that is asked for by name need
not be set. Of two variables that are not set the first one is named. -/
theorem bindValues_sound_of_resolve_mixed :
    let vs : Variables := ⟨(∅ : Std.TreeMap String Value).insert "t" .null⟩
    let d : Overload := ⟨0, "f", "", [⟨"x", .float⟩, ⟨"s", .string⟩, ⟨"v", .varName⟩]⟩
    let e : Overload := ⟨1, "f", "", [⟨"a", .any⟩, ⟨"o", .object⟩]⟩
    let sent : List Value := [.int 3, .varName "t", .varName "u"]
    let received : List Value := [.int 3, .null, .varName "u"]
    resolve "f" [d, e] vs sent = .ok d ∧ bindValues vs sent d.kinds = .ok received ∧
      (∀ (i : Nat) (b : Value) (t : ReadType), received[i]? = some b →
        d.kinds[i]? = some t.kind → (t.optional.read? b).isSome) ∧
      resolve "f" [d, e] vs [.varName "u", .varName "w"] = .ok e ∧
      ∃ name, bindValues vs [.varName "u", .varName "w"] e.kinds =
        .error (.unboundVariable name) ∧ vs.get? name = none := by
  intro vs d e sent received
  have picked : resolve "f" [d, e] vs sent = .ok d := by decide
  have bound : bindValues vs sent d.kinds = .ok received := by decide
  have picked' : resolve "f" [d, e] vs [.varName "u", .varName "w"] = .ok e := by decide
  have failed : bindValues vs [.varName "u", .varName "w"] e.kinds =
      .error (.unboundVariable "u") := by decide
  refine ⟨picked, bound, ?_, picked', ?_⟩
  · intro i b t place declared
    exact (((bindValues_sound_of_resolve picked).1 received bound).2 i b t place declared).1
  · obtain ⟨_, name, _, _, _, _, _, unset, named, _⟩ :=
      (bindValues_sound_of_resolve picked').2 _ failed
    exact ⟨name, failed.trans (congrArg Except.error named), unset⟩

end Call

end CommandConsole
