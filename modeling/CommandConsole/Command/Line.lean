import CommandConsole.Literal.Meaning

/-!
# Reading a command line

A line is a command name and parameters. The parameters are read literal by
literal: blanks are skipped, the first literal of the list that recognizes a
token reads it, and the next one starts behind it. Reading stops at the first
text that no literal recognizes and at the first token without a value, and
then nothing of what was read before is kept.
-/

namespace CommandConsole

open Text

/-- Why parameters could not be read. -/
inductive ParseError where
  | unrecognized (rest : String)
  | conversion (error : ConversionError)
  deriving DecidableEq, Repr

def ParseError.message : ParseError → String
  | unrecognized rest =>
    "'" ++ rest ++
      "' could not be resolved to a value, one of the parameters may be malformed"
  | conversion error => error.message

/-- The command name and the text of the parameters, blanks in front included. -/
def splitLine (line : List Char) : List Char × List Char := splitWord (trimStart line)

/-- The first literal of a list that recognizes a token, with the token and
what is left behind it. -/
def firstToken (literals : List Literal) (s : List Char) :
    Option (Literal × List Char × List Char) :=
  literals.findSome? fun l => (l.recognize s).map fun x => (l, x)

theorem recognize_of_firstToken {literals : List Literal} {s t r : List Char} {l : Literal}
    (h : firstToken literals s = some (l, t, r)) : l.recognize s = some (t, r) := by
  obtain ⟨l', _, h⟩ := List.exists_of_findSome?_eq_some h
  obtain ⟨x, hx, e⟩ := Option.map_eq_some_iff.1 h
  obtain ⟨rfl, rfl⟩ := Prod.mk.inj e
  exact hx

section Effects

variable {m : Type → Type} [Monad m] {ask : String → m (Option Entity)}
variable {literals : List Literal} {s : List Char}

/-- The value at the start of a text and the token it was read from, if any
literal recognizes one. -/
def readFirstM (ask : String → m (Option Entity)) (literals : List Literal) (s : List Char) :
    m (Except ConversionError (Option (Meaning × List Char))) :=
  match firstToken literals s with
  | none => return .ok none
  | some (l, t, _) => do
    let d ← l.readM ask t
    return d.map fun d => some (d, t)

/-- All values of a text, each with its warnings. What an object lookup answers
may depend on everything it was asked before. -/
def readAllM (ask : String → m (Option Entity)) (literals : List Literal) (s : List Char) :
    m (Except ParseError (List Meaning)) :=
  match _hs : trimStart s with
  | [] => return .ok []
  | c :: cs =>
    match _h : firstToken literals (c :: cs) with
    | none => return .error (.unrecognized (String.ofList (c :: cs)))
    | some (l, t, r) => do
      match ← l.readM ask t with
      | .error e => return .error (.conversion e)
      | .ok d =>
        match ← readAllM ask literals r with
        | .error e => return .error e
        | .ok ds => return .ok (d :: ds)
termination_by s.length
decreasing_by
  have := Literal.length_rest_lt_of_recognize (recognize_of_firstToken _h)
  have := length_trimStart_le s
  rw [_hs] at this
  omega

theorem readAllM_of_blank (start : trimStart s = []) :
    readAllM ask literals s = pure (.ok []) := by
  rw [readAllM]
  split
  next => rfl
  next start' => cases start'.symm.trans start

theorem readAllM_of_unrecognized {c : Char} {cs : List Char} (start : trimStart s = c :: cs)
    (none : firstToken literals (c :: cs) = none) :
    readAllM ask literals s = pure (.error (.unrecognized (String.ofList (c :: cs)))) := by
  rw [readAllM]
  split
  next start' => cases start'.symm.trans start
  next start' =>
    obtain ⟨rfl, rfl⟩ := List.cons.inj (start'.symm.trans start)
    split
    next => rfl
    next found => cases found.symm.trans none

theorem readAllM_of_token {c : Char} {cs t r : List Char} {l : Literal}
    (start : trimStart s = c :: cs) (found : firstToken literals (c :: cs) = some (l, t, r)) :
    readAllM ask literals s = (do
      match ← l.readM ask t with
      | .error e => return .error (.conversion e)
      | .ok d =>
        match ← readAllM ask literals r with
        | .error e => return .error e
        | .ok ds => return .ok (d :: ds)) := by
  rw [readAllM]
  split
  next start' => cases start'.symm.trans start
  next start' =>
    obtain ⟨rfl, rfl⟩ := List.cons.inj (start'.symm.trans start)
    split
    next none => cases none.symm.trans found
    next found' =>
      cases found'.symm.trans found
      rfl

end Effects

/-- The value at the start of a text, with a lookup that never changes its mind. -/
def readFirst (find : ObjectLookup) (literals : List Literal) (s : List Char) :
    Except ConversionError (Option (Meaning × List Char)) :=
  (readFirstM (m := Id) find literals s).run

/-- All values of a text, with a lookup that never changes its mind. -/
def readAll (find : ObjectLookup) (literals : List Literal) (s : List Char) :
    Except ParseError (List Meaning) :=
  (readAllM (m := Id) find literals s).run

section

variable {find : ObjectLookup} {literals : List Literal} {s : List Char}

theorem readAll_of_blank (start : trimStart s = []) : readAll find literals s = .ok [] :=
  readAllM_of_blank start

theorem readAll_of_unrecognized {c : Char} {cs : List Char} (start : trimStart s = c :: cs)
    (none : firstToken literals (c :: cs) = none) :
    readAll find literals s = .error (.unrecognized (String.ofList (c :: cs))) :=
  readAllM_of_unrecognized start none

theorem readAll_of_token {c : Char} {cs t r : List Char} {l : Literal}
    (start : trimStart s = c :: cs) (found : firstToken literals (c :: cs) = some (l, t, r)) :
    readAll find literals s =
      match l.read find t with
      | .error e => .error (.conversion e)
      | .ok d =>
        match readAll find literals r with
        | .error e => .error e
        | .ok ds => .ok (d :: ds) := by
  rw [← l.readM_id find t]
  exact readAllM_of_token start found

end

/-- The parameters of a line: their values, and all warnings in order. -/
structure Parameters where
  values : List Value
  warnings : List Warning
  deriving DecidableEq, Repr

def Parameters.ofMeanings (ds : List Meaning) : Parameters :=
  ⟨ds.map (·.value), ds.flatMap (·.warnings)⟩

/-- Read parameters while asking for objects has effects. -/
def parseParametersM {m : Type → Type} [Monad m] (ask : String → m (Option Entity))
    (literals : List Literal) (s : List Char) : m (Except ParseError Parameters) := do
  let ds ← readAllM ask literals s
  return ds.map .ofMeanings

/-- Read parameters. -/
def parseParameters (find : ObjectLookup) (literals : List Literal) (s : List Char) :
    Except ParseError Parameters :=
  (parseParametersM (m := Id) find literals s).run

theorem parseParameters_eq (find : ObjectLookup) (literals : List Literal) (s : List Char) :
    parseParameters find literals s = (readAll find literals s).map .ofMeanings :=
  rfl

end CommandConsole
