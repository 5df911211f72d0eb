import CommandConsole.Proofs.Resolution.Substitution

/-!
# What can be stored

Only valid names can be set, and any value can be stored under them. A store in
which no variable stands for another one stays like that as long as only plain
values are set. Values that come from written ones are plain: a variable is
replaced by what it stores, and what it stores is not a variable.
-/

namespace CommandConsole

namespace Variables

/-- Every variable has a valid name and stores a value that is no variable in turn. -/
structure Sound (vs : Variables) : Prop where
  direct : vs.Direct
  valid : ∀ name v, vs.get? name = some v → VariableName.isValid name.toList = true

section

variable {vs vs' : Variables} {name : String} {v : Value}

theorem exists_set_of_isValid (valid : VariableName.isValid name.toList = true) (v : Value) :
    ∃ vs', vs.set name v = .ok vs' := by
  have accepted := Option.isNone_iff_eq_none.mp valid
  exact ⟨_, by rw [set, accepted]⟩

theorem isValid_of_set (stored : vs.set name v = .ok vs') :
    VariableName.isValid name.toList = true := by
  rw [VariableName.isValid]
  rw [set] at stored
  cases refused : VariableName.error? name.toList with
  | none => rfl
  | some e =>
      rw [refused] at stored
      cases stored

/-- A name can be set exactly if it is valid, whatever else is set and whatever it shall store. -/
theorem exists_set_iff (vs : Variables) (name : String) (v : Value) :
    (∃ vs', vs.set name v = .ok vs') ↔ VariableName.isValid name.toList = true :=
  ⟨fun ⟨_, stored⟩ => isValid_of_set stored, fun valid => exists_set_of_isValid valid v⟩

theorem exists_unset_of_get? (stored : vs.get? name = some v) :
    ∃ vs', vs.unset name = .ok (v, vs') :=
  ⟨_, by rw [unset, stored]⟩

theorem Sound.set (sound : vs.Sound) (stored : vs.set name v = .ok vs')
    (plain : ∀ other, v ≠ .varName other) : vs'.Sound := by
  have values := get?_set stored
  refine ⟨?_, ?_⟩
  · intro other w held
    rw [values] at held
    split at held
    · obtain rfl := Option.some.inj held
      exact plain
    · exact sound.direct other w held
  · intro other w held
    rw [values] at held
    split at held
    next same => exact same ▸ isValid_of_set stored
    next => exact sound.valid other w held

theorem Sound.unset (sound : vs.Sound) (forgotten : vs.unset name = .ok (v, vs')) :
    vs'.Sound := by
  have kept : ∀ other w, vs'.get? other = some w → vs.get? other = some w := by
    intro other w held
    rw [get?_unset forgotten] at held
    split at held
    · cases held
    · exact held
  exact ⟨fun other w held => sound.direct other w (kept other w held),
    fun other w held => sound.valid other w (kept other w held)⟩

end

end Variables

section Binding

variable {vs : Variables} {v b : Value} {k : Kind} {points : Nat}

/-- In what a parameter receives, variables stand where the parameter asks for them, and only
there. -/
theorem exists_varName_of_bindValue_iff (direct : vs.Direct)
    (scored : parameterScore? vs v k = some points) (bound : bindValue vs v k = .ok b) :
    (∃ name, b = .varName name) ↔ k = .varName := by
  constructor
  · rintro ⟨name, rfl⟩
    by_contra wanted
    cases v with
    | varName other =>
        rw [bindValue, if_neg wanted] at bound
        cases stored : vs.get? other with
        | none =>
            rw [stored] at bound
            cases bound
        | some w =>
            rw [stored] at bound
            obtain rfl := Except.ok.inj bound
            exact direct other _ stored name rfl
    | _ => cases bound
  · rintro rfl
    have same := kind?_of_bindValue bound
    rcases fits_of_parameterScore? scored with ⟨found, seen, rfl | wide⟩ | ⟨-, nullable⟩
    · rw [seen] at same
      cases b <;> cases same
      exact ⟨_, rfl⟩
    · cases wide
    · cases nullable

/-- A call receives one value for each parameter, and a variable exactly where the overload asks
for one. -/
theorem bindValues_varName_iff {o : Overload} {values bs : List Value} (direct : vs.Direct)
    (viable : (o.score? vs values).isSome) (bound : bindValues vs values o.kinds = .ok bs) :
    bs.length = o.kinds.length ∧
      ∀ (i : Nat) (b : Value) (k : Kind), bs[i]? = some b → o.kinds[i]? = some k →
        ((∃ name, b = .varName name) ↔ k = .varName) := by
  obtain ⟨arity, taken⟩ := Overload.isSome_score?_iff.mp viable
  refine ⟨?_, ?_⟩
  · rw [← (bindValues_eq_ok_iff.mp bound).length_eq, List.length_zip, arity, Nat.min_self]
  · intro i b k received declared
    obtain ⟨v, given, stands⟩ := exists_bindValue_of_bindValues bound received declared
    obtain ⟨points, scored⟩ := Option.isSome_iff_exists.mp (taken i v k given declared)
    exact exists_varName_of_bindValue_iff direct scored stands

end Binding

end CommandConsole
