import CommandConsole.Command.Resolution

/-!
# Calling an overload

Before an overload is called, variables are replaced by what they store, except
where a parameter takes the variable itself. What a handler reports afterwards
is a fault: a message with a chain of causes, of which the first is shown.
-/

namespace CommandConsole

/-- An error with its causes, the outermost first. -/
structure Fault where
  message : String
  causes : List String := []
  deriving DecidableEq, Repr

/-- Why a call failed. -/
inductive InvocationError where
  | unboundVariable (name : String)
  | handlerFault (command message : String) (cause : Option String)
  | missingHandler (command : String)
  deriving DecidableEq, Repr

namespace InvocationError

def message : InvocationError → String
  | unboundVariable name =>
    "Variable '" ++ name ++ "' has not been set, variables cannot be used before they are set"
  | handlerFault _ message none => message
  | handlerFault _ message (some cause) => message ++ " | " ++ cause
  | missingHandler command => "No handler registered for '" ++ command ++ "'"

/-- A fault of a command's handler, with its first cause. -/
def ofFault (command : String) (f : Fault) : InvocationError :=
  handlerFault command f.message f.causes.head?

end InvocationError

/-- The value that a parameter receives. -/
def bindValue (vs : Variables) (v : Value) (declared : Kind) : Except InvocationError Value :=
  match v with
  | .varName name =>
    if declared = .varName then .ok v
    else match vs.get? name with
      | some stored => .ok stored
      | none => .error (.unboundVariable name)
  | _ => .ok v

/-- The values that the parameters receive, up to the end of the shorter list.
The first variable that is not set is reported. -/
def bindValues (vs : Variables) (values : List Value) (declared : List Kind) :
    Except InvocationError (List Value) :=
  (values.zip declared).mapM fun (v, k) => bindValue vs v k

end CommandConsole
