/-!
# Files

The files that settings are read from and saved to: texts at the places of a
tree of directories. Paths are words separated by slashes and are followed
place by place from the working directory, or from the root if a slash stands
in front; `.` stays and `..` goes up. Every failure has one of a few causes.
-/

namespace CommandConsole

/-- Why a file or a directory could not be used. -/
inductive FileError where
  | notFound
  | alreadyExists
  | notDirectory
  | isDirectory
  | nameTooLong
  /-- A path cannot hold the character numbered zero. -/
  | zeroCharacter
  deriving DecidableEq, Repr

def FileError.message : FileError → String
  | notFound => "No such file or directory (os error 2)"
  | alreadyExists => "File exists (os error 17)"
  | notDirectory => "Not a directory (os error 20)"
  | isDirectory => "Is a directory (os error 21)"
  | nameTooLong => "File name too long (os error 36)"
  | zeroCharacter => "file name contained an unexpected NUL byte"

/-- A path from the root, as its words. -/
abbrev Place := List String

/-- What is at a place. -/
inductive FileNode where
  | directory
  | file (text : String)
  deriving DecidableEq, Repr

/-- The tree of files below the root. -/
structure Files where
  nodes : List (Place × FileNode) := [(["work"], .directory)]
  deriving Repr, Inhabited

/-- Where a path leads. -/
inductive Target where
  | directory (place : Place)
  | file (place : Place) (text : String)
  /-- Nothing is there yet, but the directory above it is. -/
  | vacant (place : Place)
  deriving DecidableEq, Repr

namespace Files

/-- The directory from which paths without a slash in front start. -/
def workingDirectory : Place := ["work"]

/-- The words of a path. -/
def words : List Char → List (List Char)
  | [] => []
  | c :: r =>
    if c = '/' then words r
    else match r, words r with
      | '/' :: _, rest => [c] :: rest
      | _ :: _, word :: rest => (c :: word) :: rest
      | _, rest => [c] :: rest

/-- What is at a place; the root is always a directory. -/
def node? (fs : Files) (place : Place) : Option FileNode :=
  if place.isEmpty then some .directory
  else (fs.nodes.find? (·.1 == place)).map (·.2)

/-- Put something at a place. -/
def put (fs : Files) (place : Place) (node : FileNode) : Files :=
  ⟨(place, node) :: fs.nodes.filter (·.1 != place)⟩

/-- Follow words from a directory. -/
def follow (fs : Files) : List String → Place → Except FileError Target
  | [], dir => .ok (.directory dir)
  | word :: rest, dir =>
    if word = "." then fs.follow rest dir
    else if word = ".." then fs.follow rest dir.dropLast
    else if 255 < word.utf8ByteSize then .error .nameTooLong
    else match fs.node? (dir ++ [word]) with
      | some .directory => fs.follow rest (dir ++ [word])
      | some (.file text) =>
        if rest.isEmpty then .ok (.file (dir ++ [word]) text) else .error .notDirectory
      | none => if rest.isEmpty then .ok (.vacant (dir ++ [word])) else .error .notFound

/-- Where the first word of a path is looked for. -/
def startOf (path : String) : Place :=
  if path.toList.head? = some '/' then [] else workingDirectory

/-- Follow a path. -/
def target (fs : Files) (path : String) : Except FileError Target :=
  if path.toList.contains '\x00' then .error .zeroCharacter
  else if 4096 ≤ path.utf8ByteSize then .error .nameTooLong
  else if path.isEmpty then .error .notFound
  else fs.follow ((words path.toList).map String.ofList) (startOf path)

/-- A path that ends in a slash can only be a directory. -/
def mustBeDirectory (path : String) : Bool := path.toList.getLast? = some '/'

/-- Whether a path, its last word left out, leads to a directory. -/
def hasDirectoryAbove (fs : Files) (path : String) : Bool :=
  match fs.follow ((words path.toList).dropLast.map String.ofList) (startOf path) with
  | .ok (.directory _) => true
  | _ => false

/-- The text of a file. -/
def read (fs : Files) (path : String) : Except FileError String :=
  match fs.target path with
  | .error e => .error e
  | .ok (.directory _) => .error .isDirectory
  | .ok (.vacant _) => .error .notFound
  | .ok (.file _ text) => if mustBeDirectory path then .error .notDirectory else .ok text

/-- Replace the text of a file, or make a new one. What can only be a directory
is refused before the length of its name is looked at. -/
def write (fs : Files) (path text : String) : Except FileError Files :=
  match fs.target path with
  | .error e =>
    let refused := e = .nameTooLong && path.utf8ByteSize < 4096 && mustBeDirectory path &&
      fs.hasDirectoryAbove path
    .error (if refused then .isDirectory else e)
  | .ok (.directory _) => .error .isDirectory
  | .ok (.vacant place) | .ok (.file place _) =>
    if mustBeDirectory path then .error .isDirectory else .ok (fs.put place (.file text))

def isDirectory (fs : Files) (path : String) : Bool :=
  match fs.target path with
  | .ok (.directory _) => true
  | _ => false

def exists? (fs : Files) (path : String) : Bool :=
  match fs.target path with
  | .ok (.directory _) => true
  | .ok (.file ..) => !mustBeDirectory path
  | _ => false

/-- Make a directory in one that is there. -/
def makeDirectory (fs : Files) (path : String) : Except FileError Files :=
  match fs.target path with
  | .error e => .error e
  | .ok (.directory _) | .ok (.file ..) => .error .alreadyExists
  | .ok (.vacant place) => .ok (fs.put place .directory)

/-- Drop slashes, and points between slashes, from the end of a path. -/
def trimPath : List Char → List Char
  | [] => []
  | path@(c :: r) => match trimPath r with
    | [] => if c = '/' then [] else [c]
    | ['.'] => if c = '/' then [] else path.take 2
    | rest => c :: rest

/-- The path of the directory above, if there is one. -/
def parent? (path : String) : Option String :=
  let trimmed := trimPath path.toList
  if trimmed.isEmpty then none
  else
    let above := (trimmed.reverse.dropWhile (· ≠ '/')).reverse
    let cut := trimPath above
    some (String.ofList (if cut.isEmpty then above.take 1 else cut))

/-- Make a directory and all that are missing above it. The number bounds how
many there are. What was made before something fails stays. -/
def makeDirectories (fs : Files) (path : String) : Nat → Files × Except FileError Unit
  | 0 => (fs, .error .nameTooLong)
  | fuel + 1 =>
    if path.isEmpty then (fs, .ok ())
    else match fs.makeDirectory path with
      | .ok fs => (fs, .ok ())
      | .error .notFound =>
        match parent? path with
        | none => (fs, .error .notFound)
        | some above =>
          match fs.makeDirectories above fuel with
          | (fs, .error e) => (fs, .error e)
          | (fs, .ok ()) =>
            match fs.makeDirectory path with
            | .ok fs => (fs, .ok ())
            | .error e => (fs, if fs.isDirectory path then .ok () else .error e)
      | .error e => (fs, if fs.isDirectory path then .ok () else .error e)

end Files

end CommandConsole
