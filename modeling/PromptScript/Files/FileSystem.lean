import PromptScript.Files.Path

/-!
A file system as a value: directories and files by their location, and a working directory.
-/
namespace PromptScript

/-- Why an operation on a file is refused. -/
inductive FileError
  | notFound
  | busy
  | exists
  | notDirectory
  | isDirectory
  | nameTooLong
  /-- A path with a character that no name can have. -/
  | nulInName
  | notUtf8
deriving DecidableEq, Repr, Inhabited

def FileError.message : FileError → String
  | .notFound => "No such file or directory (os error 2)"
  | .busy => "Device or resource busy (os error 16)"
  | .exists => "File exists (os error 17)"
  | .notDirectory => "Not a directory (os error 20)"
  | .isDirectory => "Is a directory (os error 21)"
  | .nameTooLong => "File name too long (os error 36)"
  | .nulInName => "file name contained an unexpected NUL byte"
  | .notUtf8 => "stream did not contain valid UTF-8"

/-- The names on the way from the root to a file or directory. -/
abbrev Location := List String

inductive Entry
  | file (content : ByteArray)
  | directory
deriving Inhabited

structure FileSystem where
  current : Location
  entries : List (Location × Entry)
deriving Inhabited

namespace FileSystem

def pathOf (location : Location) : String :=
  "/" ++ "/".intercalate location

/-- What is at a location; the root is always a directory. -/
def get? (fs : FileSystem) (location : Location) : Option Entry :=
  if location.isEmpty then some .directory
  else (fs.entries.find? fun (l, _) => l == location).map (·.2)

def filePaths (fs : FileSystem) : List String :=
  fs.entries.filterMap fun
    | (location, .file _) => some (pathOf location)
    | _ => none

/-- Puts an entry at a location, in place of what is there. -/
def put (fs : FileSystem) (location : Location) (entry : Entry) : FileSystem :=
  if fs.entries.any fun (l, _) => l == location then
    { fs with entries := fs.entries.map fun (l, e) => if l == location then (l, entry) else (l, e) }
  else { fs with entries := fs.entries ++ [(location, entry)] }

def delete (fs : FileSystem) (location : Location) : FileSystem :=
  { fs with entries := fs.entries.filter fun (l, _) => l != location }

def maxName : Nat := 255

/-- The longest path that an operation takes as it is, in bytes. -/
def maxPath : Nat := 4095

/-- Follows names from a location. Only a directory leads further. -/
def walk (fs : FileSystem) (location : Location) : List (List Char) → Except FileError Location
  | [] => .ok location
  | name :: rest =>
    match fs.get? location with
    | none => .error .notFound
    | some (.file _) => .error .notDirectory
    | some .directory =>
      if Path.isIdle name then fs.walk location rest
      else if name = ['.', '.'] then fs.walk location.dropLast rest
      else
        let next := location ++ [String.ofList name]
        if maxName < (String.ofList name).utf8ByteSize then .error .nameTooLong
        else if (fs.get? next).isSome then fs.walk next rest
        else .error .notFound

/-- Where the names of a path start. -/
def origin (fs : FileSystem) (path : String) : Location :=
  if Path.isAbsolute path then [] else fs.current

/-- Whether a path can be followed step by step: it holds something, and no character that no name
can have. -/
def checkNames (path : String) : Except FileError Unit :=
  if path.contains '\x00' then .error .nulInName
  else if path.isEmpty then .error .notFound
  else .ok ()

/-- Whether a path can be handed to the system as it is. -/
def checkPath (path : String) : Except FileError Unit := do
  checkNames path
  if maxPath < path.utf8ByteSize then .error .nameTooLong else .ok ()

/-- The location that a path of any length leads to. -/
def trace (fs : FileSystem) (path : String) : Except FileError Location := do
  checkNames path
  fs.walk (fs.origin path) (Path.pieces path)

/-- The location that a path leads to. -/
def resolve (fs : FileSystem) (path : String) : Except FileError Location := do
  checkPath path
  fs.trace path

/-- The absolute path without detours of what a path of any length leads to. -/
def canonicalize (fs : FileSystem) (path : String) : Except FileError String :=
  (fs.trace path).map pathOf

abbrev FilePath (fs : FileSystem) := { path : String // path ∈ fs.filePaths }

/-- The canonical path of the file that a path of any length leads to, if it does lead to a file. -/
def canonicalFile? (fs : FileSystem) (path : String) : Option String :=
  match fs.trace path with
  | .ok location =>
    match fs.get? location with
    | some (.file _) => some (pathOf location)
    | _ => none
  | .error _ => none

theorem mem_filePaths_of_canonicalFile? {fs : FileSystem} {path canonical : String}
    (h : fs.canonicalFile? path = some canonical) : canonical ∈ fs.filePaths := by
  simp only [canonicalFile?] at h
  split at h
  · next location _ =>
    split at h
    · next content found =>
      simp only [Option.some.injEq] at h
      subst h
      simp only [get?] at found
      split at found
      · simp at found
      · rw [Option.map_eq_some_iff] at found
        obtain ⟨⟨l, e⟩, member, rfl⟩ := found
        have same := List.find?_some member
        simp only [beq_iff_eq] at same
        subst same
        simp only [filePaths, List.mem_filterMap]
        exact ⟨_, List.mem_of_find?_eq_some member, rfl⟩
    · contradiction
  · contradiction

def isDirectory (fs : FileSystem) (path : String) : Bool :=
  match fs.resolve path with
  | .ok location =>
    match fs.get? location with
    | some .directory => true
    | _ => false
  | .error _ => false

def pathExists (fs : FileSystem) (path : String) : Bool :=
  (fs.resolve path).toOption.isSome

def readBytes (fs : FileSystem) (path : String) : Except FileError ByteArray := do
  match fs.get? (← fs.resolve path) with
  | some (.file content) => return content
  | some .directory => .error .isDirectory
  | none => .error .notFound

def readText (fs : FileSystem) (path : String) : Except FileError String := do
  match String.fromUTF8? (← fs.readBytes path) with
  | some text => return text
  | none => .error .notUtf8

inductive PathEnd
  | name (name : String)
  /-- A name with a slash behind it. -/
  | slashed (name : String)
  /-- The root, or a step that stays or goes upwards. -/
  | step
deriving DecidableEq, Repr

/-- The location of the directory that holds what a path names, and how the path ends. -/
def resolveEnd (fs : FileSystem) (path : String) : Except FileError (Location × PathEnd) := do
  checkPath path
  let parts := (Path.pieces path).reverse
  -- Slashes at the end leave empty parts behind the last name.
  let named := parts.dropWhile (· = [])
  match named with
  | [] => return ([], .step)
  | last :: rest =>
    -- The step that stays makes sure that a directory is reached.
    let dir ← fs.walk (fs.origin path) (rest.reverse ++ [['.']])
    if Path.isIdle last ∨ last = ['.', '.'] then return (dir, .step)
    else if maxName < (String.ofList last).utf8ByteSize then .error .nameTooLong
    else if parts.length = named.length then return (dir, .name (.ofList last))
    else return (dir, .slashed (.ofList last))

def makeDirectory (fs : FileSystem) (path : String) : Except FileError FileSystem := do
  match ← fs.resolveEnd path with
  | (_, .step) => .error .exists
  | (dir, .name name) | (dir, .slashed name) =>
    let location := dir ++ [name]
    if (fs.get? location).isSome then .error .exists else return fs.put location .directory

/-- Makes the first of some directories; the others lead to it and are made only if missing. -/
def makeLineage (fs : FileSystem) : List String → Except FileError FileSystem
  | [] => .ok fs
  | path :: up =>
    match fs.makeDirectory path with
    | .ok fs => .ok fs
    | .error .notFound => do
      let fs ← fs.makeLineage up
      match fs.makeDirectory path with
      | .ok fs => return fs
      | .error e => if fs.isDirectory path then return fs else .error e
    | .error e => if fs.isDirectory path then .ok fs else .error e

/-- Makes a directory and those above it. -/
def makeDirectories (fs : FileSystem) (path : String) : Except FileError FileSystem :=
  fs.makeLineage (Path.lineage path)

/-- Opens a file for writing: where it is, and its content if it exists. -/
def openForWriting (fs : FileSystem) (path : String) :
    Except FileError (Location × Option ByteArray) := do
  match ← fs.resolveEnd path with
  | (_, .step) | (_, .slashed _) => .error .isDirectory
  | (dir, .name name) =>
    match fs.get? (dir ++ [name]) with
    | some .directory => .error .isDirectory
    | some (.file content) => return (dir ++ [name], some content)
    | none => return (dir ++ [name], none)

/-- Writes a file, in place of one that exists. -/
def write (fs : FileSystem) (path : String) (content : ByteArray) :
    Except FileError FileSystem := do
  let (location, _) ← fs.openForWriting path
  return fs.put location (.file content)

/-- Adds to the end of a file, which is made if it does not exist. -/
def append (fs : FileSystem) (path : String) (content : ByteArray) :
    Except FileError FileSystem := do
  let (location, old) ← fs.openForWriting path
  return fs.put location (.file (old.getD .empty ++ content))

/-- Moves a file to another path, in place of a file that is there. -/
def rename (fs : FileSystem) (source target : String) : Except FileError FileSystem := do
  let location ← fs.resolve source
  let content ← fs.readBytes source
  match ← fs.resolveEnd target with
  | (_, .step) => .error .busy
  | (_, .slashed _) => .error .notDirectory
  | (dir, .name name) =>
    match fs.get? (dir ++ [name]) with
    | some .directory => .error .isDirectory
    | _ =>
      if dir ++ [name] = location then return fs
      else return (fs.delete location).put (dir ++ [name]) (.file content)

def remove (fs : FileSystem) (path : String) : Except FileError FileSystem := do
  let location ← fs.resolve path
  match fs.get? location with
  | some (.file _) => return fs.delete location
  | _ => .error .isDirectory

end FileSystem

end PromptScript
