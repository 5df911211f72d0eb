import CommandConsole.Handler.Action
import CommandConsole.Value.Display

/-!
# Built-in commands

`help` lists the commands, `set`, `unset` and `peek` work on variables, and
`writeconfig` saves the settings.
-/

namespace CommandConsole.Builtin

/-- List every command with its help text. -/
def help : Handler := fun _ _ =>
  .listCommands fun commands =>
    .log .success "Displaying a list of available commands" <|
      .logAll (commands.map fun o => ⟨.info, helpLine o.name o.help⟩) .succeed

/-- Store a value. The message shows the value as it was before it is stored. -/
def set : Handler := fun _ args =>
  Action.orFail ArgumentError.message (fun (name : String) =>
    Action.orFail ArgumentError.message (fun (value : Value) =>
      .setVariable name value <| Action.orFail VariableError.message fun _ =>
        .log .success
          ("Variable '" ++ name ++ "' has been set to value '" ++ value.text ++ "'") .succeed)
      (args.get .any 1))
    (args.get .varName 0)

/-- Forget a value. -/
def unset : Handler := fun _ args =>
  Action.orFail ArgumentError.message (fun (name : String) =>
    .unsetVariable name fun
      | .error _ =>
        .failWith ("Unable to remove variable '" ++ name ++ "', since it was never set")
      | .ok _ => .log .success ("Successfully removed variable '" ++ name ++ "'") .succeed)
    (args.get .varName 0)

/-- Show a value. -/
def peek : Handler := fun _ args =>
  Action.orFail ArgumentError.message (fun (name : String) =>
    .getVariable name <| Action.orFail VariableError.message fun value =>
      .log .info value.text .succeed)
    (args.get .varName 0)

/-- Save the settings. -/
def writeConfig : Handler := fun _ _ =>
  .saveSettings <| Action.orFail StorageError.message fun path =>
    .log .success ("Console settings written to '" ++ path ++ "'") .succeed

/-- The built-in commands, in the order in which they are declared. -/
def all : List (Declaration × Handler) :=
  let name : Parameter := ⟨"name", .varName⟩
  [({ name := "help", help := "Displays a list of available commands" }, help),
   ({ name := "set", help := "Set a value that can be used again later",
      parameters := [name, ⟨"value", .any⟩] }, set),
   ({ name := "unset", help := "Remove a previously set value", parameters := [name] }, unset),
   ({ name := "peek", help := "Logs the contents of a variable to the console",
      parameters := [name] }, peek),
   ({ name := "writeconfig", help := "Save console settings to the config file" },
    writeConfig)]

end CommandConsole.Builtin
