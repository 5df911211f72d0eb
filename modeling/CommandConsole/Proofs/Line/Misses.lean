import CommandConsole.Command.Line

/-!
# The warnings of a text

An object reference that finds nothing raises a warning, whether or not the text
behind it can be read. The warnings that are raised are therefore not a part of
the result: they are what a lookup leaves behind that takes note of every miss.
Such a lookup does not change what is read, and of a text that is read to its end
it leaves exactly the warnings that come with the values.
-/

namespace CommandConsole

/-- Look an object up, and raise a warning if there is none. -/
def raising (find : ObjectLookup) (name : String) : StateM (List Warning) (Option Entity) := do
  match find name with
  | some object => return some object
  | none =>
    modify (· ++ [.unknownObject name])
    return none

/-- The warnings that are raised while parameters are read, up to the place where
reading stops. -/
def raisedWarnings (find : ObjectLookup) (literals : List Literal) (s : List Char) :
    List Warning :=
  ((parseParametersM (raising find) literals s).run []).2

section

variable {find : ObjectLookup} {literals : List Literal} {s t : List Char} {l : Literal}

/-- Only an object reference has warnings. -/
theorem Literal.warnings_read {d : Meaning} (other : l ≠ .object)
    (value : l.read find t = .ok d) : d.warnings = [] := by
  cases l with
  | object => exact absurd rfl other
  | null | string | bool | varName =>
      obtain rfl := Except.ok.inj value
      rfl
  | float =>
      rw [read] at value
      cases number : finiteNumber .float t <;> rw [number] at value <;> cases value
      rfl
  | char | int | color =>
      simp only [read] at value
      split at value <;> cases value
      rfl
  | tuple shape =>
      rw [read] at value
      cases numbers : (findNumbers t).mapM (finiteNumber shape.kind) with
      | error e =>
          rw [numbers] at value
          cases value
      | ok xs =>
          rw [numbers] at value
          simp only [bind, Except.bind] at value
          split at value <;> cases value
          rfl

/-- What a token means does not depend on the note that is taken of its warnings. -/
theorem Literal.run_readM_raising (raised : List Warning) :
    (l.readM (raising find) t).run raised =
      pure (l.read find t,
        raised ++ match l.read find t with
          | .ok d => d.warnings
          | .error _ => []) := by
  by_cases asks : l = .object
  · subst asks
    simp only [readM, read, raising]
    cases find (String.ofList (innerText t)) with
    | some object => simp
    | none => simp
  · have alone : l.readM (raising find) t = pure (l.read find t) := by
      cases l <;> first | rfl | exact absurd rfl asks
    rw [alone]
    cases value : l.read find t with
    | error e => simp
    | ok d => simp [warnings_read asks value]

/-- Taking note of the misses does not change what is read, and adds to the
notes that are there. -/
theorem run_readAllM_raising (find : ObjectLookup) (literals : List Literal) (s : List Char) :
    ∃ missed, (∀ raised, (readAllM (raising find) literals s).run raised =
        pure (readAll find literals s, raised ++ missed)) ∧
      ∀ ds, readAll find literals s = .ok ds → missed = ds.flatMap (·.warnings) := by
  -- Along the tokens, as reading goes: an error ends both readings in the same place.
  induction s using readAllM.induct literals with
  | case1 s start =>
      refine ⟨[], ?_, ?_⟩
      · intro raised
        rw [readAllM_of_blank start, readAll_of_blank start, List.append_nil]
        rfl
      · intro ds value
        rw [readAll_of_blank start] at value
        cases value
        rfl
  | case2 s c cs start none =>
      rw [readAllM_of_unrecognized start none, readAll_of_unrecognized start none]
      refine ⟨[], ?_, by simp⟩
      intro raised
      rw [List.append_nil]
      rfl
  | case3 s c cs start l t rest found ih =>
      obtain ⟨missed, notes, complete⟩ := ih
      rw [readAllM_of_token start found, readAll_of_token start found]
      have first := @Literal.run_readM_raising find t l
      cases value : l.read find t with
      | error e =>
          simp only [value, List.append_nil] at first
          refine ⟨[], ?_, by simp⟩
          intro raised
          simp [first]
      | ok d =>
          simp only [value] at first
          refine ⟨d.warnings ++ missed, ?_, ?_⟩
          · intro raised
            simp only [StateT.run_bind, first, pure_bind, notes]
            cases readAll find literals rest <;> simp
          · intro ds whole
            cases later : readAll find literals rest with
            | error e =>
                rw [later] at whole
                cases whole
            | ok es =>
                rw [later] at whole
                obtain rfl := Except.ok.inj whole
                rw [List.flatMap_cons, complete es later]

/-- Of parameters that are read to their end the warnings that were raised are
those that come with the values. -/
theorem raisedWarnings_of_ok {p : Parameters}
    (read : parseParameters find literals s = .ok p) :
    raisedWarnings find literals s = p.warnings := by
  obtain ⟨missed, notes, complete⟩ := run_readAllM_raising find literals s
  rw [parseParameters_eq] at read
  cases value : readAll find literals s with
  | error e =>
      rw [value] at read
      cases read
  | ok ds =>
      rw [value] at read
      obtain rfl := Except.ok.inj read
      rw [raisedWarnings, parseParametersM]
      simp [notes, complete ds value, Parameters.ofMeanings]
      rfl

end

end CommandConsole
