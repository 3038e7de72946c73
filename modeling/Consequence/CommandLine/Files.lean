/-!
# Files

Reading and writing whole files, for any monad that can do so. A `Directory` holds files in memory
and is one such place.
-/

set_option autoImplicit false

namespace Consequence

/-- Why a file cannot be read or written. -/
inductive FileProblem where
  | missing
  | notDirectory
  | isDirectory
  | notText
  deriving DecidableEq, Repr

/-- The problem in words. -/
def FileProblem.text : FileProblem → String
  | missing => "No such file or directory (os error 2)"
  | notDirectory => "Not a directory (os error 20)"
  | isDirectory => "Is a directory (os error 21)"
  | notText => "stream did not contain valid UTF-8"

/-- Access to files by their paths. -/
structure Files (m : Type → Type) where
  read : String → m (Except FileProblem String)
  write : String → String → m (Except FileProblem Unit)

/-! ## Paths -/

/-- The names on a path, in order. A path from the root starts with the name of the root, a slash. -/
def pathNames (path : String) : List String :=
  let names := (path.splitOn "/").filter (· ≠ "")
  if path.startsWith "/" then "/" :: names else names

/-- A file or directory by the names that lead there from the root or from the working directory.
Only `..` at the front leads up. -/
abbrev Place := List String

/-- The place one level up. The root is above itself. -/
def Place.above (place : Place) : Place :=
  if place = ["/"] then place
  else if place.all (· = "..") then ".." :: place
  else place.dropLast

/-- The place that a name leads to. -/
def Place.step (place : Place) (name : String) : Place :=
  if name = "." then place
  else if name = ".." then place.above
  else place ++ [name]

/-! ## Directories in memory -/

/-- The files of a directory and of those below it, by place. -/
structure Directory where
  files : List (Place × ByteArray) := []

namespace Directory

/-- The directory that holds the given files. -/
def ofList (files : List (String × ByteArray)) : Directory where
  files := files.map fun (path, content) => ((pathNames path).foldl Place.step [], content)

/-- The bytes of a file. -/
def find? (directory : Directory) (place : Place) : Option ByteArray :=
  (directory.files.find? (·.1 = place)).map (·.2)

/-- A directory is at the place: this one, one above it or one below it. -/
def isDirectory (directory : Directory) (place : Place) : Bool :=
  place = ["/"] || place.all (· = "..")
    || directory.files.any fun (file, _) => place.isPrefixOf file && place ≠ file

/-- Follows names from a place. Each of them starts at a directory. -/
def follow (directory : Directory) (place : Place) : List String → Except FileProblem Place
  | [] => .ok place
  | name :: others =>
    if directory.isDirectory place then directory.follow (place.step name) others
    else if (directory.find? place).isSome then .error .notDirectory
    else .error .missing

/-- The place that a path leads to. The empty path leads nowhere. -/
def resolve (directory : Directory) (path : String) : Except FileProblem Place :=
  match pathNames path with
  | [] => .error .missing
  | names => directory.follow [] names

/-- The directory with a file of the given content. -/
def put (directory : Directory) (place : Place) (content : ByteArray) : Directory where
  files := (place, content) :: directory.files.filter (·.1 ≠ place)

/-- The text of a file. A slash at the end asks for a directory. -/
def read (directory : Directory) (path : String) : Except FileProblem String := do
  let place ← directory.resolve path
  if directory.isDirectory place then throw .isDirectory
  match directory.find? place with
  | none => throw .missing
  | some content =>
    if path.endsWith "/" then throw .notDirectory
    match String.fromUTF8? content with
    | some text => return text
    | none => throw .notText

/-- Writes a file into a directory that exists, in place of an earlier one of the same path. A slash
at the end names a directory, whether there is one or not. -/
def write (directory : Directory) (path text : String) : Except FileProblem Directory := do
  let place ← directory.resolve path
  if directory.isDirectory place || path.endsWith "/" then throw .isDirectory
  return directory.put place text.toUTF8

/-- Access to the files of a directory that is kept as state. -/
def access : Files (StateM Directory) where
  read path := return (← get).read path
  write path text := do
    match (← get).write path text with
    | .ok after => set after; return .ok ()
    | .error problem => return .error problem

end Directory

end Consequence
