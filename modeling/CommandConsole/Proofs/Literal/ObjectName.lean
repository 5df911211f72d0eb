import CommandConsole.Proofs.Line.Composition
import CommandConsole.Proofs.Literal.Reference

/-!
# Objects that references can name

An object is referred to by its name between braces. Any name will do that has
at least one character, stays on one line, and has no closing brace with a blank
behind it: other braces, blanks and quotes stand for themselves. Whatever is
behind the reference, as long as it is kept apart, the name that is looked up is
the one between the braces, and it is looked up once.
-/

namespace CommandConsole

open Text

/-- A reference to the object with a name. -/
def referenceText (name : List Char) : List Char := '{' :: (name ++ ['}'])

/-- What a reference to a name stands for, when this is what was found. -/
def Meaning.ofFound (name : String) : Option Entity → Meaning
  | some e => ⟨.object e, []⟩
  | none => ⟨.null, [.unknownObject name]⟩

section

variable {name r : List Char}

@[simp] theorem innerText_referenceText (name : List Char) :
    innerText (referenceText name) = name := by
  rw [innerText, referenceText, List.tail_cons, List.dropLast_concat]

/-- A name that does not close its reference early is recognized as far as it goes. -/
theorem recognize_referenceText (nonempty : name ≠ []) (line : '\n' ∉ name)
    (closes : NeverCloses name) (boundary : atBoundary r = true) :
    Literal.object.recognize (referenceText name ++ r) = some (referenceText name, r) := by
  obtain ⟨c, u, rfl⟩ := List.exists_cons_of_ne_nil nonempty
  have inner : '\n' ∉ u ∧ NeverCloses u :=
    ⟨fun inside => line (List.mem_cons_of_mem c inside), (neverCloses_cons_iff.mp closes).2⟩
  exact recognize_object_eq_some_iff.mpr
    ⟨rfl, ⟨c, u, rfl, inner.1, inner.2⟩, atBoundary_iff.mp boundary⟩

theorem read_referenceText (find : ObjectLookup) (name : List Char) :
    Literal.object.read find (referenceText name) =
      .ok (.ofFound (String.ofList name) (find (String.ofList name))) := by
  simp only [Literal.read, innerText_referenceText]
  cases find (String.ofList name) <;> rfl

section Effects

variable {m : Type → Type} [Monad m] (ask : String → m (Option Entity))

/-- The lookup is asked for the name and for nothing else, and what it answers is the value. -/
theorem readM_referenceText (name : List Char) :
    Literal.object.readM ask (referenceText name) = (do
      let found ← ask (String.ofList name)
      return .ok (.ofFound (String.ofList name) found)) := by
  simp only [Literal.readM, read_referenceText, innerText_referenceText]

theorem readFirstM_referenceText [LawfulMonad m] (nonempty : name ≠ []) (line : '\n' ∉ name)
    (closes : NeverCloses name) (boundary : atBoundary r = true) :
    readFirstM ask Literal.standard (referenceText name ++ r) = (do
      let found ← ask (String.ofList name)
      return .ok (some (.ofFound (String.ofList name) found, referenceText name))) := by
  have found : firstToken Literal.standard (referenceText name ++ r) =
      some (.object, referenceText name, r) :=
    firstToken_eq_some_iff.mpr
      ⟨Literal.mem_standard _, recognize_referenceText nonempty line closes boundary⟩
  rw [readFirstM, found]
  simp only [readM_referenceText, bind_assoc, pure_bind, Except.map]

end Effects

end

/-- A name between braces is recognized up to the closing one behind it, and by no other literal,
if the name is not empty, has no line break in it and no closing brace with a blank behind it, and
a boundary follows. Reading it, alone or among the standard literals, asks the lookup for exactly
this name, once, whatever else the lookup does. An object that was found is the value, without a
warning. Otherwise the value is `null`, with one warning, and that quotes the name. -/
theorem object_names_referenced {name r : List Char} (nonempty : name ≠ []) (line : '\n' ∉ name)
    (closes : NeverCloses name) (boundary : r = [] ∨ ∃ c u, r = c :: u ∧ isBlank c = true) :
    Literal.object.recognize (referenceText name ++ r) = some (referenceText name, r) ∧
    (∀ l ≠ Literal.object, l.recognize (referenceText name ++ r) = none) ∧
    (∀ (m : Type → Type) [Monad m] [LawfulMonad m] (ask : String → m (Option Entity)),
      Literal.object.readM ask (referenceText name) = (do
        let found ← ask (String.ofList name)
        return .ok (.ofFound (String.ofList name) found)) ∧
      readFirstM ask Literal.standard (referenceText name ++ r) = (do
        let found ← ask (String.ofList name)
        return .ok (some (.ofFound (String.ofList name) found, referenceText name)))) ∧
    (∀ (find : ObjectLookup) (e : Entity), find (String.ofList name) = some e →
      Literal.object.read find (referenceText name) = .ok ⟨.object e, []⟩) ∧
    ∀ find : ObjectLookup, find (String.ofList name) = none →
      ∃ w, Literal.object.read find (referenceText name) = .ok ⟨.null, [w]⟩ ∧
        w.message = "No object named '" ++ String.ofList name ++ "' could be found" := by
  rw [← atBoundary_iff] at boundary
  have recognized := recognize_referenceText nonempty line closes boundary
  refine ⟨recognized, ?_, ?_, ?_, ?_⟩
  · intro l other
    exact Literal.recognize_eq_none_of_recognize recognized other
  · intro m _ _ ask
    exact ⟨readM_referenceText ask name,
      readFirstM_referenceText ask nonempty line closes boundary⟩
  · intro find e found
    rw [read_referenceText, found]
    rfl
  · intro find missed
    refine ⟨.unknownObject (String.ofList name), ?_, rfl⟩
    rw [read_referenceText, missed]
    rfl

/-- Braces at both ends of a name, and a quote and a blank inside. Behind the reference is another
closing brace that a blank follows. The lookup notes what it is asked for. -/
theorem object_names_referenced_outer_braces :
    let name := ['}', '{', ' ', '"', 'é', '}', 'x', '}']
    let noting : String → StateM (List String) (Option Entity) :=
      fun asked names => (none, names ++ [asked])
    Literal.object.recognize (referenceText name ++ ['\t', '}', ' ']) =
        some (referenceText name, ['\t', '}', ' ']) ∧
      Literal.string.recognize (referenceText name ++ ['\t', '}', ' ']) = none ∧
      (readFirstM noting Literal.standard (referenceText name ++ ['\t', '}', ' '])).run [] =
        (.ok (some (⟨.null, [.unknownObject (String.ofList name)]⟩, referenceText name)),
          [String.ofList name]) ∧
      Literal.object.read (fun asked => if asked = String.ofList name then some ⟨7, 1⟩ else none)
        (referenceText name) = .ok ⟨.object ⟨7, 1⟩, []⟩ := by
  intro name noting
  have closes : NeverCloses name := by
    simp [name, neverCloses_cons_iff, neverCloses_nil, isBlank]
  obtain ⟨recognized, alone, read, found, -⟩ :=
    object_names_referenced (r := ['\t', '}', ' ']) (List.cons_ne_nil _ _)
      (by decide : '\n' ∉ name) closes (.inr ⟨'\t', ['}', ' '], rfl, by decide⟩)
  refine ⟨recognized, alone .string (by decide), ?_, found _ _ (if_pos rfl)⟩
  exact congrArg (StateT.run · []) (read (StateM (List String)) noting).2

end CommandConsole
