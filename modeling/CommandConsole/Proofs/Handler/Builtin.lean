import CommandConsole.Console.Run

/-!
# What the commands for variables do

The built-in commands `set`, `unset` and `peek` receive the name of a variable
as a variable that was not replaced, and `set` receives a value besides. Called
like that they make one request to the stored variables, and log or fail.
-/

namespace CommandConsole

namespace Builtin

open Console

variable {c : Console} {calls : Nat} {line name : String} {v : Value}

/-- What `set` tells when it has stored a value. -/
def setMessage (name : String) (v : Value) : String :=
  "Variable '" ++ name ++ "' has been set to value '" ++ v.text ++ "'"

/-- What `unset` tells when it has forgotten a value. -/
def unsetMessage (name : String) : String := "Successfully removed variable '" ++ name ++ "'"

/-- What `unset` tells when there is no value. -/
def notSetMessage (name : String) : String :=
  "Unable to remove variable '" ++ name ++ "', since it was never set"

theorem perform_set :
    perform (set calls ⟨line, [.varName name, v]⟩) c =
      match c.vars.set name v with
      | .ok vars => ({ c with vars }.say .success (setMessage name v), .succeeded)
      | .error e => (c, .failed ⟨e.message, []⟩) := by
  have value : (Arguments.mk line [.varName name, v]).get .any 1 = .ok v := by cases v <;> rfl
  have asked : set calls ⟨line, [.varName name, v]⟩ =
      .setVariable name v (Action.orFail VariableError.message fun _ =>
        .log .success (setMessage name v) .succeed) := by
    rw [set, value]
    rfl
  rw [asked, perform]
  cases c.vars.set name v <;> rfl

theorem perform_unset :
    perform (unset calls ⟨line, [.varName name]⟩) c =
      match c.vars.unset name with
      | .ok (_, vars) => ({ c with vars }.say .success (unsetMessage name), .succeeded)
      | .error _ => (c, .failed ⟨notSetMessage name, []⟩) := by
  change perform (.unsetVariable name _) c = _
  rw [perform]
  cases c.vars.unset name <;> rfl

theorem perform_peek :
    perform (peek calls ⟨line, [.varName name]⟩) c =
      match c.vars.get name with
      | .ok v => (c.say .info v.text, .succeeded)
      | .error e => (c, .failed ⟨e.message, []⟩) := by
  have asked : peek calls ⟨line, [.varName name]⟩ =
      .getVariable name (Action.orFail VariableError.message fun v =>
        .log .info v.text .succeed) := rfl
  rw [asked, perform]
  cases c.vars.get name <;> rfl

end Builtin

end CommandConsole
