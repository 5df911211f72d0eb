import CommandConsole.Files
import CommandConsole.History
import CommandConsole.Settings.Text

/-!
# Settings on file

Settings are saved under a path, with the directories above it made first, and
loaded from there. The history follows the settings: when they are replaced,
its capacity becomes theirs.
-/

namespace CommandConsole

/-- Why settings could not be loaded or saved. -/
inductive StorageError where
  | file (path : String) (error : FileError)
  /-- The text of the file is not that of settings. -/
  | unreadable (path : String)
  deriving DecidableEq, Repr

def StorageError.message : StorageError → String
  | file path error => "IO error for '" ++ path ++ "': " ++ error.message
  | unreadable path => "Parse error for '" ++ path ++ "'"

namespace Settings

def load (fs : Files) (path : String) : Except StorageError Settings :=
  match fs.read path with
  | .error e => .error (.file path e)
  | .ok text =>
    match ofText? text.toList with
    | some s => .ok s
    | none => .error (.unreadable path)

/-- The settings of a file, or those that hold by default if there are none. -/
def loadOrDefault (fs : Files) (path : String) : Settings :=
  match load fs path with
  | .ok s => s
  | .error _ => default

/-- Make the directory above a path, unless it is there. -/
def prepareDirectory (fs : Files) (path : String) : Files × Except StorageError Unit :=
  match Files.parent? path with
  | none => (fs, .ok ())
  | some above =>
    if above.isEmpty || fs.exists? above then (fs, .ok ())
    else match fs.makeDirectories above (path.length + 1) with
      | (fs, .ok ()) => (fs, .ok ())
      | (fs, .error e) => (fs, .error (.file above e))

/-- Save settings. The files change also where saving fails half-way. -/
def save (s : Settings) (fs : Files) (path : String) : Files × Except StorageError Unit :=
  match prepareDirectory fs path with
  | (fs, .error e) => (fs, .error e)
  | (fs, .ok ()) =>
    match fs.write path s.text with
    | .ok fs => (fs, .ok ())
    | .error e => (fs, .error (.file path e))

/-- The history as these settings want it. -/
def resize (s : Settings) (h : History) : History := h.setCapacity s.maxHistory.toNat

end Settings

end CommandConsole
