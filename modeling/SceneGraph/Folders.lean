import SceneGraph.PropertyPaths

/-!
# Files read and written by name, and folders in memory

`MonadFiles` is all that a command needs to know of files: reading and writing by name. A `Folder`
is a file system in memory, where the names of files have to be possible ones. What is written to it
is read from it again (`read_write`).
-/
namespace SceneGraph

inductive FileError
  | missing
  | isFolder
  | notFolder
  | nameTooLong
  | other (reason : String)
  deriving DecidableEq

def FileError.message : FileError → String
  | missing => "No such file or directory (os error 2)"
  | isFolder => "Is a directory (os error 21)"
  | notFolder => "Not a directory (os error 20)"
  | nameTooLong => "File name too long (os error 36)"
  | other reason => reason

/-- What commands need of their surroundings. -/
class MonadFiles (m : Type → Type) where
  readFile : (path : String) → m (Except FileError String)
  writeFile : (path text : String) → m (Except FileError Unit)

/-- The texts of a folder's files under their names. It has no folders inside. -/
abbrev Folder := Dict String

namespace Folder

/-- The parts of a path that lead somewhere. -/
def parts (path : String) : List String :=
  ((Path.segments '/' path.toList).map String.ofList).filter fun part => part ≠ "" && part ≠ "."

/-- The most bytes that a file's name may have. -/
def nameLimit : Nat := 255

/-- The name that a path gives to a file of the folder itself. -/
def fileName? (path : String) : Option String :=
  match parts path with
  | [name] =>
    if path.startsWith "/" || name = ".." || nameLimit < name.utf8ByteSize || !path.endsWith name
    then none else some name
  | _ => none

/-- Why a path leads to no file. Nothing is known of what lies outside the folder. -/
def obstacle (f : Folder) (path : String) : FileError :=
  match parts path with
  | [] => if path.isEmpty then .missing else .isFolder
  | name :: rest =>
    if nameLimit < name.utf8ByteSize then .nameTooLong
    else if path.startsWith "/" then .missing
    else if name = ".." then if rest.all (· = "..") then .isFolder else .missing
    else if f.contains name then .notFolder
    else .missing

def read (f : Folder) (path : String) : Except FileError String :=
  match fileName? path with
  | none => .error (f.obstacle path)
  | some name =>
    match f.find? name with
    | some text => .ok text
    | none => .error .missing

/-- A name with a slash after it is that of a folder to be made, which writing does not do. -/
def write (f : Folder) (path text : String) : Except FileError Folder :=
  match fileName? path with
  | none =>
    .error (if (parts path).length = 1 && path.endsWith "/" then .isFolder else f.obstacle path)
  | some name => .ok (Dict.insert f name text)

theorem read_write {f g : Folder} {path text : String} (h : f.write path text = .ok g) :
    g.read path = .ok text := by
  unfold write at h
  split at h
  · contradiction
  · cases h
    simp [read, *]

end Folder

instance : MonadFiles (StateM Folder) where
  readFile path := do return Folder.read (← get) path
  writeFile path text := do
    match Folder.write (← get) path text with
    | .ok f => set f; return .ok ()
    | .error e => return .error e

end SceneGraph
