import CommandConsole.Application

/-!
# The terminal

An application whose lines are typed at a terminal. Blanks in front of a typed
line are dropped, and lines with nothing else are ignored. A question mark in
front asks what could be typed instead of running a line; the answer is printed
at once. What the console publishes is printed entry by entry, in colors if the
terminal is to use them.
-/

namespace CommandConsole

structure Terminal where
  application : Application
  colored : Bool := false

namespace Terminal

/-- The code of the color in which entries of a level are printed. -/
def colorCode : Level → String
  | .info => "0"
  | .warning => "33"
  | .error => "31"
  | .success => "32"
  | .command => "36"

/-- An entry as it is printed. -/
def print (colored : Bool) (e : LogEntry) : String :=
  if colored then "\x1b[" ++ colorCode e.level ++ "m" ++ e.message ++ "\x1b[0m" else e.message

/-- The lines of a text; the end of a line may be marked by two characters. -/
def typedLines (text : String) : List String :=
  (text.splitOn "\n").map fun line =>
    if line.toList.getLast? = some '\r' then String.ofList line.toList.dropLast else line

/-- A typed line without the blanks in front of it, unless that is all. -/
def normalize (line : String) : Option String :=
  match Text.trimStart line.toList with
  | [] => none
  | s => some (String.ofList s)

/-- Answer a query, or submit a line. -/
def enter (t : Terminal) (line : String) : List String × Terminal :=
  match line.toList with
  | '?' :: query => ((t.application.console.suggest (String.ofList query)).lines, t)
  | _ => ([], { t with application := t.application.submit line })

/-- Enter lines in order, and collect the answers to queries. -/
def enterAll (t : Terminal) : List String → List String × Terminal
  | [] => ([], t)
  | line :: lines =>
    let (answers, t) := t.enter line
    let (later, t) := t.enterAll lines
    (answers ++ later, t)

/-- Enter what was typed since the last frame, update, and print. A message
with several lines is printed as several lines. -/
def frame (t : Terminal) (typed : String) : List String × Terminal :=
  let (answers, t) := t.enterAll ((typedLines typed).filterMap normalize)
  let (entries, application) := t.application.update
  let printed := answers ++ entries.map (print t.colored)
  (printed.flatMap (·.splitOn "\n"), { t with application })

end Terminal

end CommandConsole
