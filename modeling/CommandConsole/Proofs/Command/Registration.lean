import CommandConsole.Console.Basic

/-!
# What a declaration does to a registry

A declaration that is accepted has a valid name, is given the next number, and is
added behind the overloads of its name. A frozen registry accepts none. A
registry comes about by such declarations and by being frozen, and in no other
way.

A valid name is a word without blanks, which is why a line can name it.
-/

namespace CommandConsole

namespace CommandName

theorem isBlank_eq_false_of_isSegmentCharacter {c : Char} (inside : isSegmentCharacter c = true) :
    Text.isBlank c = false := by
  simp only [isSegmentCharacter, Bool.or_eq_true, decide_eq_true_eq] at inside
  rcases inside with (alphanumeric | rfl) | rfl
  · exact Text.isBlank_eq_false_of_isAlphanum alphanumeric
  · decide
  · decide

theorem isBlank_eq_false_of_hasValidSegments {atStart : Bool} {name : List Char}
    (valid : hasValidSegments atStart name = true) : ∀ c ∈ name, Text.isBlank c = false := by
  induction name generalizing atStart with
  | nil => simp
  | cons first rest ih =>
      rw [List.forall_mem_cons]
      cases atStart with
      | true =>
          obtain ⟨letter, later⟩ := (Bool.and_eq_true _ _).mp valid
          exact ⟨Text.isBlank_eq_false_of_isAlpha letter, ih later⟩
      | false =>
          rw [hasValidSegments] at valid
          split at valid
          next point =>
            subst point
            exact ⟨by decide, ih valid⟩
          next =>
            obtain ⟨inside, later⟩ := (Bool.and_eq_true _ _).mp valid
            exact ⟨isBlank_eq_false_of_isSegmentCharacter inside, ih later⟩

theorem isBlank_eq_false_of_isValid {name : List Char} (valid : isValid name = true) :
    ∀ c ∈ name, Text.isBlank c = false :=
  isBlank_eq_false_of_hasValidSegments valid

theorem ne_nil_of_isValid {name : List Char} (valid : isValid name = true) : name ≠ [] := by
  rintro rfl
  cases valid

end CommandName

namespace Registry

/-- Registries that come about by declaring commands. -/
inductive Built : Registry → Prop where
  | empty : Built {}
  | register {r r' : Registry} {d : Declaration} {o : Overload} :
    Built r → r.register d = .ok (o, r') → Built r'
  | freeze {r : Registry} : Built r → Built r.freeze

section

variable {r r' : Registry} {d : Declaration} {o : Overload}

/-- An accepted declaration has a valid name and is given the next number. It changes only the
list of its name and the number that is next. -/
theorem register_eq_ok (accepted : r.register d = .ok (o, r')) :
    CommandName.isValid d.fullName.toList = true ∧
      o = ⟨r.nextId, d.fullName, d.help, d.parameters⟩ ∧
      r' = { r with
        byName := r.byName.insert d.fullName (r.overloads d.fullName ++ [o])
        nextId := r.nextId + 1 } := by
  rw [register] at accepted
  split at accepted
  · cases accepted
  · split at accepted
    next valid =>
      obtain ⟨rfl, rfl⟩ := Prod.mk.inj (Except.ok.inj accepted)
      exact ⟨valid, rfl, rfl⟩
    next => cases accepted

theorem register_of_isFrozen (frozen : r.isFrozen = true) (d : Declaration) :
    r.register d = .error (.frozen d.fullName) := by
  rw [register, if_pos frozen]

theorem register_ne_ok_of_isFrozen (frozen : r.isFrozen = true) :
    r.register d ≠ .ok (o, r') := by
  rw [register_of_isFrozen frozen]
  simp

theorem freeze_of_isFrozen (frozen : r.isFrozen = true) : r.freeze = r := by
  rw [freeze, ← frozen]

/-- A declared overload is added behind those of its name. -/
theorem overloads_register (accepted : r.register d = .ok (o, r')) (name : String) :
    r'.overloads name =
      if d.fullName = name then r.overloads name ++ [o] else r.overloads name := by
  obtain ⟨-, -, rfl⟩ := register_eq_ok accepted
  simp only [overloads, Std.TreeMap.getElem?_insert, Std.LawfulEqCmp.compare_eq_iff_eq]
  split
  next same => simp [same]
  next => rfl

theorem contains_of_mem_overloads {name : String} (listed : o ∈ r.overloads name) :
    r.contains name = true := by
  rw [contains, Std.TreeMap.contains_eq_isSome_getElem?]
  cases found : r.byName[name]? with
  | none =>
      rw [overloads, found] at listed
      cases listed
  | some os => rfl

end

end Registry

/-- Declaring commands is how the registry of a console comes about. -/
theorem Console.built_declare {c : Console} (built : c.registry.Built) (d : Declaration)
    (h : Handler) : (c.declare d h).1.registry.Built := by
  rw [declare]
  cases accepted : c.registry.register d with
  | error e => exact built
  | ok x => exact built.register accepted

end CommandConsole
