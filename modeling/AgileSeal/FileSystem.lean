import AgileSeal.Text.Utf8

set_option autoImplicit false

/-! # Files

Key files and configurations are read from and written to a small file system: directories
and files below one root, and a working directory from which paths start that do not start
at the root. A path is followed name by name, and every name but the last has to lead to a
directory. A write changes no other place (`node?_replace`).

A path that ends in a slash can only name a directory. Reading notices that when it finds a
file there; writing refuses such a path before it looks at the last name.
-/

namespace AgileSeal

/-- What stands at a place. -/
inductive Node
  | file (content : Bytes)
  | directory

/-- A place below the root: the names on the way to it. -/
abbrev Place := List String

/-- The nodes below the root and the working directory; of two nodes at one place the first
counts. -/
structure FileSystem where
  nodes : List (Place × Node)
  workingDirectory : Place

/-- Why a path could not be read or written. -/
inductive FileError
  | notFound
  | notDirectory
  | isDirectory
  | nameTooLong
  | nulByte
  | notText
deriving DecidableEq

/-- The wording of an error. -/
def FileError.message : FileError → String
  | .notFound => "No such file or directory (os error 2)"
  | .notDirectory => "Not a directory (os error 20)"
  | .isDirectory => "Is a directory (os error 21)"
  | .nameTooLong => "File name too long (os error 36)"
  | .nulByte => "file name contained an unexpected NUL byte"
  | .notText => "stream did not contain valid UTF-8"

namespace FileSystem

/-- What stands at a place; the root itself is a directory. -/
def node? (fs : FileSystem) (place : Place) : Option Node :=
  if place = [] then some .directory
  else (fs.nodes.find? fun n => n.1 = place).map (·.2)

/-- Puts a node at a place, over the one that was there. -/
def replace (fs : FileSystem) (place : Place) (node : Node) : FileSystem :=
  { fs with nodes := (place, node) :: fs.nodes }

theorem node?_replace (fs : FileSystem) (place other : Place) (node : Node) (h : place ≠ []) :
    (fs.replace place node).node? other = if other = place then some node else fs.node? other := by
  by_cases eq : other = place
  · subst eq
    simp [node?, replace, h]
  · by_cases root : other = []
    · simp [node?, root, Ne.symm h]
    · simp [node?, replace, root, eq, Ne.symm eq]

/-- Makes a directory at a place where nothing stands. -/
def makeDirectory (fs : FileSystem) (place : Place) : FileSystem :=
  match fs.node? place with
  | some _ => fs
  | none => fs.replace place .directory

/-- An empty working directory at a place, with nothing else on the way to it. -/
def emptyAt (workingDirectory : Place) : FileSystem :=
  (List.range workingDirectory.length).foldl
    (fun fs i => fs.makeDirectory (workingDirectory.take (i + 1))) ⟨[], workingDirectory⟩

/-! ## Paths -/

/-- A text cut at its slashes. -/
def cutAtSlashes : List Char → List (List Char)
  | [] => [[]]
  | '/' :: rest => [] :: cutAtSlashes rest
  | c :: rest =>
    match cutAtSlashes rest with
    | [] => [[c]]
    | name :: names => (c :: name) :: names

/-- The names in a path. Slashes in a row count as one. -/
def names (path : String) : List String :=
  ((cutAtSlashes path.toList).filter (· ≠ [])).map String.ofList

/-- Whether a path starts with a slash. -/
def isAbsolute (path : String) : Bool := path.toList.head? == some '/'

/-- Whether a path ends in a slash. -/
def endsInSlash (path : String) : Bool := path.toList.getLast? == some '/'

/-- The directory from which a path is followed. -/
def start (fs : FileSystem) (path : String) : Place :=
  if isAbsolute path then [] else fs.workingDirectory

/-- The place a name leads to from a directory, whether or not something stands there. The
root is its own parent. -/
def step (directory : Place) (name : String) : Except FileError Place :=
  if name = "." then .ok directory
  else if name = ".." then .ok directory.dropLast
  else if 255 < (Text.utf8 name).length then .error .nameTooLong
  else .ok (directory ++ [name])

/-- The directory to which names lead from a directory. -/
def enter (fs : FileSystem) : Place → List String → Except FileError Place
  | directory, [] => .ok directory
  | directory, name :: rest =>
    match step directory name with
    | .error e => .error e
    | .ok next =>
      match fs.node? next with
      | some .directory => fs.enter next rest
      | some (.file _) => .error .notDirectory
      | none => .error .notFound

/-- The directory in which the last name of a path stands. -/
def parent (fs : FileSystem) (path : String) : Except FileError Place :=
  if path.toList.contains '\x00' then .error .nulByte
  else if path = "" then .error .notFound
  else if 4095 < (Text.utf8 path).length then .error .nameTooLong
  else fs.enter (fs.start path) (names path).dropLast

/-- The place to which the last name of a path leads from its parent. A path without names is
the root. -/
def lastStep (path : String) (directory : Place) : Except FileError Place :=
  match (names path).getLast? with
  | some name => step directory name
  | none => .ok directory

/-! ## Reading and writing -/

/-- The content of the file at a path. -/
def read (fs : FileSystem) (path : String) : Except FileError Bytes := do
  let place ← lastStep path (← fs.parent path)
  match fs.node? place with
  | none => throw .notFound
  | some .directory => throw .isDirectory
  | some (.file content) => if endsInSlash path then throw .notDirectory else return content

/-- The text of the file at a path. -/
def readText (fs : FileSystem) (path : String) : Except FileError String := do
  match Text.ofUtf8? (← fs.read path) with
  | some text => return text
  | none => throw .notText

/-- The file system after a file has been written, over the one that was there. -/
def write (fs : FileSystem) (path : String) (content : Bytes) : Except FileError FileSystem := do
  let directory ← fs.parent path
  -- nothing is looked up behind this point for a path that cannot name a file
  if endsInSlash path then throw .isDirectory
  let place ← lastStep path directory
  match fs.node? place with
  | some .directory => throw .isDirectory
  | _ => return fs.replace place (.file content)

/-- The file system after all directories on a path have been made. -/
def makeDirectories (fs : FileSystem) (path : String) : Except FileError FileSystem := do
  let (fs, _) ← (names path).foldlM (fun (fs, directory) name => do
    let next ← step directory name
    return (fs.makeDirectory next, next)) (fs, fs.start path)
  return fs

end FileSystem

end AgileSeal
