/-!
# The log

What the console has to say, oldest entry first. Every entry has a level; the
lines that are run are entries, too.
-/

namespace CommandConsole

/-- What sort of message an entry is. -/
inductive Level where
  | info
  | warning
  | error
  | success
  /-- The line that is run. -/
  | command
  deriving DecidableEq, Repr

namespace Level

def all : List Level := [info, warning, error, success, command]

def name : Level → String
  | info => "info"
  | warning => "warning"
  | error => "error"
  | success => "success"
  | command => "command"

/-- The level with a given name. -/
def ofName? (s : String) : Option Level := all.find? (·.name == s)

end Level

structure LogEntry where
  level : Level
  message : String
  deriving DecidableEq, Repr

/-- Entries that have not been taken out yet. -/
structure Log where
  entries : List LogEntry := []
  deriving DecidableEq, Repr, Inhabited

namespace Log

/-- Add an entry at the end. -/
def push (l : Log) (level : Level) (message : String) : Log := ⟨l.entries ++ [⟨level, message⟩]⟩

@[simp] theorem entries_push (l : Log) (level : Level) (message : String) :
    (l.push level message).entries = l.entries ++ [⟨level, message⟩] := rfl

/-- The messages of one level, oldest first. -/
def messages (l : Log) (level : Level) : List String :=
  (l.entries.filter (·.level == level)).map (·.message)

/-- Drop all entries. -/
def clear (l : Log) : Log := { l with entries := [] }

@[simp] theorem entries_clear (l : Log) : l.clear.entries = [] := rfl

/-- Take all entries out. -/
def drain (l : Log) : List LogEntry × Log := (l.entries, l.clear)

end Log

end CommandConsole
