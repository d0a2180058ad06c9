import PromptScript.Files.FileSystem

/-!
Replacing a file as a whole: the new content is written to a temporary file beside it, which is then
moved over it. Directories above it are made when they are missing.
-/
namespace PromptScript

/-- Why a file could not be replaced. -/
inductive ReplaceError
  | parent (path : String) (cause : FileError)
  /-- The path ends in no name. -/
  | invalidPath (path : String)
  | temporary (path : String) (cause : FileError)
  | move (path : String) (cause : FileError)
deriving DecidableEq, Repr, Inhabited

def ReplaceError.message : ReplaceError → String
  | .parent path cause =>
    "failed to create parent directory '" ++ path ++ "': " ++ cause.message
  | .invalidPath path => "invalid file path '" ++ path ++ "'"
  | .temporary path cause =>
    "failed to create temporary file '" ++ path ++ "': " ++ cause.message
  | .move path cause => "failed to atomically replace '" ++ path ++ "': " ++ cause.message

namespace FileSystem

/-- Makes the directory that is to hold what a path names, unless it exists. A failure comes with
the path of the directory. -/
def makeParent (fs : FileSystem) (path : String) : Except (String × FileError) FileSystem :=
  match Path.parent? path with
  | some up =>
    if up.isEmpty || fs.pathExists up then .ok fs
    else (fs.makeDirectories up).mapError fun cause => (up, cause)
  | none => .ok fs

/-- The temporary file for what a path names. -/
def temporaryPath? (path : String) : Option String :=
  (Path.fileName? path).map fun name =>
    Path.join ((Path.parent? path).getD ".") ("." ++ .ofList name ++ ".tmp")

/-- Replaces a file, and says what is left behind. -/
def replace (fs : FileSystem) (path : String) (content : ByteArray) :
    Except ReplaceError Unit × FileSystem :=
  match fs.makeParent path with
  | .error (up, cause) => (.error (.parent up cause), fs)
  | .ok fs =>
    match temporaryPath? path with
    | none => (.error (.invalidPath path), fs)
    | some temporary =>
      match fs.write temporary content with
      | .error cause => (.error (.temporary temporary cause), fs)
      | .ok written =>
        match written.rename temporary path with
        | .ok moved => (.ok (), moved)
        | .error cause =>
          (.error (.move path cause), (written.remove temporary).toOption.getD written)

end FileSystem

end PromptScript
