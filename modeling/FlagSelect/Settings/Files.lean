import FlagSelect.Settings.Document

/-!
# Settings in files

Settings are kept in files of a directory tree, in which names and paths have a greatest length.
`save` makes the directories that are missing on the way to its file, and does so before it looks at
the settings; `load` needs a file that holds text.
-/

namespace FlagSelect

inductive FileNode where
  | directory
  | file (content : ByteArray)

/-- A directory and everything around it, by the path from it: a path may start with steps up, which
are written as two points. -/
structure FileTree where
  nodes : List (List String × FileNode) := []

/-- A path: the directories on the way, and the name of the file unless it can only be a
directory. -/
structure FilePath where
  directories : List String
  name : Option String
  /-- The whole path as it is written. -/
  text : String
  /-- The directories as they are written. -/
  directoryText : String
deriving DecidableEq

namespace FilePath

/-- Whether a part of a path leads on; the empty part and one point do not. -/
def isStep (part : String) : Bool := part != "" && part != "."

/-- Reads a path with slashes between its parts. Parts that do not lead on count for nothing; a path
that ends with such a part or with two points can only be a directory. -/
def ofString (s : String) : FilePath :=
  let raw := ((s.toList.splitOn '/').map String.ofList).reverse
  let directories := ((raw.dropWhile (!isStep ·)).drop 1).dropWhile (!isStep ·)
  { directories := (directories.filter isStep).reverse
    name := raw.head?.filter fun p => isStep p && p != ".."
    text := s
    directoryText := "/".intercalate directories.reverse }

/-- Whether a text can be given as a path: it has no NUL and is short enough. -/
def isUsable (text : String) : Bool :=
  text.utf8ByteSize < 4096 && !text.contains '\x00'

/-- Whether a name is short enough for a file or a directory. -/
def isName (s : String) : Bool := s.utf8ByteSize ≤ 255

end FilePath

namespace FileTree

/-- What is at a path. The directory itself is at the empty one. -/
def find? (t : FileTree) (path : List String) : Option FileNode :=
  if path.all (· == "..") then some .directory else t.nodes.lookup path

/-- One step up. -/
def above (path : List String) : List String :=
  if path.all (· == "..") then ".." :: path else path.dropLast

def insert (t : FileTree) (path : List String) (n : FileNode) : FileTree :=
  ⟨(path, n) :: t.nodes.filter (·.1 != path)⟩

/-- Goes down from one directory to another, or up at two points, and makes missing directories if
it may. The result is where it gets to, or none if a file is in the way, or if a directory is
missing and cannot be made. -/
def enter (t : FileTree) (create : Bool) (here : List String) :
    List String → Option (List String) × FileTree
  | [] => (some here, t)
  | name :: rest =>
    if name = ".." then t.enter create (above here) rest
    else
      let next := here ++ [name]
      match t.find? next with
      | some .directory => t.enter create next rest
      | some (.file _) => (none, t)
      | none =>
        if create ∧ FilePath.isName name then (t.insert next .directory).enter create next rest
        else (none, t)

/-- Where a path leads to, if its directories are there. -/
def target? (t : FileTree) (p : FilePath) : Option (List String) := do
  if !FilePath.isUsable p.text then none
  let here ← (t.enter false [] p.directories).1
  let name ← p.name
  if FilePath.isName name then return here ++ [name] else none

/-- Makes the directories of a path that are missing. The result tells whether they are all there
now. -/
def makeDirectories (t : FileTree) (p : FilePath) : Bool × FileTree :=
  if FilePath.isUsable p.directoryText then
    let (here, t) := t.enter true [] p.directories
    (here.isSome, t)
  else (false, t)

/-- Writes a file into a directory that is there. -/
def write? (t : FileTree) (p : FilePath) (content : ByteArray) : Option FileTree := do
  let path ← t.target? p
  match t.find? path with
  | some .directory => none
  | _ => some (t.insert path (.file content))

/-- The bytes of a file. -/
def read? (t : FileTree) (p : FilePath) : Option ByteArray := do
  match ← t.find? (← t.target? p) with
  | .file content => some content
  | .directory => none

end FileTree

/-- Why settings could not be loaded or saved. -/
inductive FileError where
  | read
  | content (e : Settings.ReadError)
  | serialize
  | write
  | createDirectory
deriving DecidableEq

namespace Settings

/-- The settings of a file. -/
def load (t : FileTree) (p : FilePath) : Except FileError Settings :=
  match (t.read? p).bind String.fromUTF8? with
  | none => .error .read
  | some text => (read text).mapError .content

/-- Writes settings, sound or not, to a file, in directories that are made if missing. -/
def save (s : Settings) (t : FileTree) (p : FilePath) : Except FileError Unit × FileTree :=
  match t.makeDirectories p with
  | (false, t) => (.error .createDirectory, t)
  | (true, t) =>
    match s.write? with
    | none => (.error .serialize, t)
    | some text =>
      match t.write? p text.toUTF8 with
      | none => (.error .write, t)
      | some t => (.ok (), t)

end Settings

end FlagSelect
