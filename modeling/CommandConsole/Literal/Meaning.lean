import CommandConsole.Number.Decimal
import CommandConsole.Literal.Token

/-!
# What tokens mean

Reading a token gives a value, or says that a number in it is out of range or
that it is no token of its literal at all. Tokens that were recognized are
never malformed; other texts may be.

An object reference that finds nothing is no error: it denotes `null`, and a
warning says so.
-/

namespace CommandConsole

/-- Why a token has no value. -/
inductive ConversionError where
  | outOfRange (token : String) (kind : Kind)
  | malformed (token : String) (kind : Kind)
  deriving DecidableEq, Repr

def ConversionError.message : ConversionError → String
  | outOfRange token kind => "'" ++ token ++ "' is out of range for " ++ kind.name
  | malformed token kind => "'" ++ token ++ "' is not a valid " ++ kind.name

/-- What is worth telling about a token although it has a value. -/
inductive Warning where
  | unknownObject (name : String)
  deriving DecidableEq, Repr

def Warning.message : Warning → String
  | unknownObject name => "No object named '" ++ name ++ "' could be found"

/-- Finds the object that a reference names. -/
abbrev ObjectLookup := String → Option Entity

/-- The value of a token, and what there is to say about it. -/
structure Meaning where
  value : Value
  warnings : List Warning := []
  deriving DecidableEq, Repr

/-- The text between the first and the last character. -/
def innerText (token : List Char) : List Char := token.tail.dropLast

/-- A backslash is dropped in front of a quote or a backslash and kept in front
of anything else. -/
def unescape : List Char → List Char
  | [] => []
  | ['\\'] => ['\\']
  | '\\' :: c :: r => if c = '"' || c = '\\' then c :: unescape r else '\\' :: c :: unescape r
  | c :: r => c :: unescape r

/-- A number of a token, as long as it is finite. -/
def finiteNumber (kind : Kind) (token : List Char) : Except ConversionError Binary32 :=
  match Binary32.ofText? token with
  | none => .error (.malformed (String.ofList token) kind)
  | some x =>
    if x.isFinite then .ok x else .error (.outOfRange (String.ofList token) kind)

/-- All numbers of a text, from left to right. What is between them does not
matter. -/
def findNumbers (s : List Char) : List (List Char) :=
  match s with
  | [] => []
  | c :: r =>
    match _h : numberScanner (c :: r) with
    | some (t, u) => t :: findNumbers u
    | none => findNumbers r
termination_by s.length
decreasing_by
  · exact Text.Scanner.length_rest_lt Text.Scanner.splits_numberScanner
      (Text.Scanner.advances_seq (a := .some1 Char.isDigit) (by simp)
        (Text.Scanner.advances_some1 _)) _h
  · simp

/-- A 32-bit integer with an optional sign. -/
def int32OfText? (token : List Char) : Option Int32 :=
  (intOfText? token).bind fun i =>
    if Int32.minValue.toInt ≤ i ∧ i ≤ Int32.maxValue.toInt then some (Int32.ofInt i) else none

namespace Literal

/-- The value of a token of a literal. The token need not be one that was
recognized. -/
def read (find : ObjectLookup) (l : Literal) (token : List Char) :
    Except ConversionError Meaning :=
  match l with
  | null => .ok ⟨.null, []⟩
  | float => (finiteNumber .float token).map fun x => ⟨.float x, []⟩
  | string => .ok ⟨.string (String.ofList (unescape (innerText token))), []⟩
  | bool => .ok ⟨.bool (token.map Char.toLower = "true".toList), []⟩
  | char =>
    match token[1]? with
    | some c => .ok ⟨.char c, []⟩
    | none => .error (.malformed (String.ofList token) .char)
  | int =>
    match int32OfText? token with
    | some i => .ok ⟨.int i, []⟩
    | none => .error (.outOfRange (String.ofList token) .int)
  | tuple shape => do
    let xs ← (findNumbers token).mapM (finiteNumber shape.kind)
    match shape.value? xs with
    | some v => .ok ⟨v, []⟩
    | none => .error (.malformed (String.ofList token) shape.kind)
  | color =>
    match Color.ofText? token with
    | some c => .ok ⟨.color c, []⟩
    | none => .error (.malformed (String.ofList token) .color)
  | object =>
    let name := String.ofList (innerText token)
    match find name with
    | some e => .ok ⟨.object e, []⟩
    | none => .ok ⟨.null, [.unknownObject name]⟩
  | varName => .ok ⟨.varName (String.ofList token), []⟩

/-- Read a token when asking for objects has effects. Only an object reference
asks, and it asks once. -/
def readM {m : Type → Type} [Monad m] (ask : String → m (Option Entity)) (l : Literal)
    (token : List Char) : m (Except ConversionError Meaning) :=
  match l with
  | object => do
    let found ← ask (String.ofList (innerText token))
    return object.read (fun _ => found) token
  | l => return l.read (fun _ => none) token

/-- A lookup without effects may as well be asked while reading. -/
theorem readM_id (find : ObjectLookup) (l : Literal) (token : List Char) :
    l.readM (m := Id) find token = l.read find token := by
  cases l <;> rfl

end Literal

end CommandConsole
