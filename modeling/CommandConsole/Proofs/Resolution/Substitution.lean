import CommandConsole.Proofs.Resolution.Binding

/-!
# Variables in place of what they store

A variable that is set may be written wherever its value may. Scoring sees a
variable only through the kind of what it stores, and a call receives just that,
so the same overload is picked for the values as they were written and for what
they stand for, with the same arguments, and where none is picked the reason is
the same.

Parameters that ask for a variable itself are left out, because they tell the
two apart, and so are variables that store a variable: what they store is not
looked up again.
-/

namespace CommandConsole

namespace Variables

/-- What a value stands for: a variable that is set for what it stores, anything
else for itself. -/
def valueOf (vs : Variables) : Value → Value
  | .varName name => (vs.get? name).getD (.varName name)
  | v => v

/-- Nothing that is stored is a variable in turn. -/
def Direct (vs : Variables) : Prop :=
  ∀ name v, vs.get? name = some v → ∀ other, v ≠ .varName other

/-- All variables among some values are set. -/
def Covers (vs : Variables) (values : List Value) : Prop :=
  ∀ name, Value.varName name ∈ values → ∃ v, vs.get? name = some v

theorem valueOf_of_get? {vs : Variables} {name : String} {v : Value}
    (stored : vs.get? name = some v) : vs.valueOf (.varName name) = v := by
  simp [valueOf, stored]

end Variables

section Parameter

variable {vs : Variables} {values : List Value} {v : Value} {k : Kind}

theorem effectiveKind?_valueOf (direct : vs.Direct) (covered : vs.Covers values)
    (member : v ∈ values) (wanted : k ≠ .varName) :
    effectiveKind? vs k (vs.valueOf v) = effectiveKind? vs k v := by
  cases v with
  | varName name =>
      obtain ⟨v, stored⟩ := covered name member
      rw [Variables.valueOf_of_get? stored, effectiveKind?_of_ne_varName (direct name v stored)]
      simp [effectiveKind?, wanted, stored]
  | _ => rfl

theorem parameterScore?_valueOf (direct : vs.Direct) (covered : vs.Covers values)
    (member : v ∈ values) (wanted : k ≠ .varName) :
    parameterScore? vs (vs.valueOf v) k = parameterScore? vs v k := by
  simp only [parameterScore?, effectiveKind?_valueOf direct covered member wanted]

/-- Where its value is wanted, a variable is replaced by what it stands for. -/
theorem bindValue_eq_valueOf (covered : vs.Covers values) (member : v ∈ values)
    (wanted : k ≠ .varName) : bindValue vs v k = .ok (vs.valueOf v) := by
  cases v with
  | varName name =>
      obtain ⟨v, stored⟩ := covered name member
      rw [Variables.valueOf_of_get? stored]
      simp [bindValue, wanted, stored]
  | _ => rfl

end Parameter

/-- Only the scores of the overloads in the list decide which is picked. -/
theorem resolve_congr {command : String} {overloads : List Overload} {vs vs' : Variables}
    {values values' : List Value}
    (same : ∀ o ∈ overloads, o.score? vs values = o.score? vs' values') :
    resolve command overloads vs values = resolve command overloads vs' values' := by
  have led : leaders overloads vs values = leaders overloads vs' values' := by
    apply List.foldl_ext
    intro l o member
    simp only [Leaders.add, same o member]
  rw [resolve, resolve, led]

section Call

variable {vs : Variables} {values : List Value}

theorem Overload.score?_map_valueOf {o : Overload} (direct : vs.Direct)
    (covered : vs.Covers values) (wanted : Kind.varName ∉ o.kinds) :
    o.score? vs (values.map vs.valueOf) = o.score? vs values := by
  have points : ((values.map vs.valueOf).zip o.kinds).mapM
        (fun x => parameterScore? vs x.1 x.2) =
      (values.zip o.kinds).mapM fun x => parameterScore? vs x.1 x.2 := by
    rw [List.zip_map_left, List.mapM_map]
    apply Traversal.mapM_congr
    rintro ⟨v, k⟩ paired
    obtain ⟨given, declared⟩ := List.of_mem_zip paired
    exact parameterScore?_valueOf direct covered given (ne_of_mem_of_not_mem declared wanted)
  simp only [score?, List.length_map, points]

theorem bindValues_eq_map_valueOf {kinds : List Kind} (covered : vs.Covers values)
    (wanted : Kind.varName ∉ kinds) (arity : kinds.length = values.length) :
    bindValues vs values kinds = .ok (values.map vs.valueOf) :=
  bindValues_eq_map arity fun _ member _ declared =>
    bindValue_eq_valueOf covered member (ne_of_mem_of_not_mem declared wanted)

/-- If all variables among the values are set, none of them to a variable, and
no overload asks for a variable itself, then the overload that is picked, or the
reason why none is, is the one for what the values stand for. That is also what
the call receives. -/
theorem resolve_eq_resolve_map_valueOf (command : String) {overloads : List Overload}
    (direct : vs.Direct) (wanted : ∀ o ∈ overloads, Kind.varName ∉ o.kinds)
    (covered : vs.Covers values) :
    resolve command overloads vs values =
      resolve command overloads vs (values.map vs.valueOf) ∧
    ∀ d, resolve command overloads vs values = .ok d →
      bindValues vs values d.kinds = .ok (values.map vs.valueOf) := by
  refine ⟨?_, ?_⟩
  · apply resolve_congr
    intro o member
    exact (Overload.score?_map_valueOf direct covered (wanted o member)).symm
  · intro d picked
    have member : d ∈ overloads :=
      (mem_topOverloads.mp (resolve_eq_ok_iff.mp picked ▸ List.mem_singleton_self d)).1
    have viable := Overload.isSome_score?_of_resolve picked
    exact bindValues_eq_map_valueOf covered (wanted d member)
      (Overload.isSome_score?_iff.mp viable).1

/-- A variable that stores an integer is widened like one, and one that stores
`null` fits where `null` does, so a tie is a tie for both. -/
theorem resolve_eq_resolve_map_valueOf_mixed :
    let vs : Variables := ⟨((∅ : Std.TreeMap String Value).insert "n" (.int 3)).insert "t" .null⟩
    let d : Overload := ⟨0, "f", "", [⟨"x", .float⟩, ⟨"s", .string⟩]⟩
    let e : Overload := ⟨1, "f", "", [⟨"a", .any⟩, ⟨"b", .any⟩]⟩
    let tied : List Value := [.varName "n", .varName "t"]
    let told : List Value := [.varName "n", .string "t"]
    vs.Direct ∧ (∀ o ∈ [d, e], Kind.varName ∉ o.kinds) ∧ vs.Covers tied ∧ vs.Covers told ∧
      topOverloads [d, e] vs tied = [d, e] ∧
      resolve "f" [d, e] vs tied = resolve "f" [d, e] vs [.int 3, .null] ∧
      resolve "f" [d, e] vs told = .ok d ∧
      bindValues vs told d.kinds = .ok [.int 3, .string "t"] := by
  intro vs d e tied told
  have get (name : String) : vs.get? name =
      if "t" = name then some .null else if "n" = name then some (.int 3) else none := by
    simp [vs, Variables.get?, Std.TreeMap.getElem?_insert]
  have direct : vs.Direct := by
    intro name v stored other
    rw [get] at stored
    split_ifs at stored <;> simp [← Option.some.inj stored]
  have wanted : ∀ o ∈ [d, e], Kind.varName ∉ o.kinds := by decide
  have covers : ∀ values : List Value, (∀ name, .varName name ∈ values → name = "n" ∨ name = "t") →
      vs.Covers values := by
    intro values names name member
    rcases names name member with rfl | rfl
    · exact ⟨.int 3, rfl⟩
    · exact ⟨.null, rfl⟩
  have tied_covered : vs.Covers tied := covers tied (by simp [tied])
  have told_covered : vs.Covers told := covers told (by simp [told])
  refine ⟨direct, wanted, tied_covered, told_covered, by decide, ?_, by decide, ?_⟩
  · exact (resolve_eq_resolve_map_valueOf "f" direct wanted tied_covered).1
  · exact (resolve_eq_resolve_map_valueOf "f" direct wanted told_covered).2 d (by decide)

end Call

end CommandConsole
