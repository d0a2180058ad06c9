import PromptScript.CommandLine.Perform
import Std.Time.Format

/-!
The program on the files of the system. It works on an image that holds what the system has at the
paths that an invocation names. Included templates are added to the image when they turn out to be
missing in it, and the work starts over; at the end, what differs from the image is written.
-/
namespace PromptScript

namespace FileSystem

/-- What the system has at a location. -/
def entryOnSystem? (location : Location) : IO (Option Entry) := do
  try
    return some (.file (← IO.FS.readBinFile (pathOf location)))
  catch _ =>
    try
      let _ ← IO.FS.realPath (pathOf location)
      return some .directory
    catch _ => return none

/-- The image with what the system has on the way along a path. -/
def addPath (fs : FileSystem) (path : String) : IO FileSystem := do
  let mut image := fs
  let mut location := fs.origin path
  for piece in Path.pieces path do
    if Path.isIdle piece then continue
    if piece = ['.', '.'] then
      location := location.dropLast
    else
      location := location ++ [.ofList piece]
      if (image.get? location).isNone then
        if let some entry ← entryOnSystem? location then
          image := image.put location entry
  return image

def ofSystem : IO FileSystem := do
  let here := toString (← IO.FS.realPath ".")
  let current := (Path.pieces here).filterMap fun piece =>
    if Path.isIdle piece then none else some (String.ofList piece)
  addPath ⟨current, []⟩ here

/-- Writes an entry that the image did not have. A file is replaced as a whole. -/
def writeEntry (before : FileSystem) (location : Location) (entry : Entry) : IO Unit := do
  let path := pathOf location
  match entry, before.get? location with
  | .directory, some .directory => return
  | .directory, _ => IO.FS.createDirAll path
  | .file content, some (.file known) =>
    if content != known then replaceFile path content
  | .file content, _ => replaceFile path content
where
  replaceFile (path : String) (content : ByteArray) : IO Unit := do
    let temporary := (temporaryPath? path).getD path
    IO.FS.writeBinFile temporary content
    IO.FS.rename temporary path

end FileSystem

/-- Meets a request on an image, to which missing includes are added as long as the system has
them. -/
partial def Outcome.onSystem (surroundings : Surroundings) (request : Request) (fs : FileSystem) :
    IO (Outcome × FileSystem) := do
  let outcome := Outcome.ofRequest surroundings request fs
  match outcome.failure.bind (·.cause.missing?) with
  | none => return (outcome, fs)
  | some path =>
    let more ← fs.addPath path
    if more.entries.length = fs.entries.length then return (outcome, fs)
    onSystem surroundings request more

/-- The time, and a directory for agents that is named after it. -/
def Surroundings.ofSystem : IO Surroundings := do
  let now := Std.Time.DateTime.ofTimestampWithZone (← Std.Time.Timestamp.now) Std.Time.TimeZone.UTC
  let temporary := (← IO.getEnv "TMPDIR").getD "/tmp"
  return {
    now := now.format "uuuu-MM-dd'T'HH:mm:ss.SSSSSSSSS'Z'"
    sessionDir := Path.join temporary (programName ++ "-" ++ now.format "uuuuMMdd-HHmmss-SSSSSSSSS") }

/-- The image that a request needs at first. -/
def Request.image (surroundings : Surroundings) : Request → IO FileSystem
  | .perform invocation => do
    (surroundings.sessionDir :: invocation.paths).foldlM FileSystem.addPath (← FileSystem.ofSystem)
  | _ => FileSystem.ofSystem

/-- Does what the arguments ask for, and gives the exit code. -/
def runProgram (arguments : List String) : IO UInt32 := do
  match Request.ofArguments? arguments with
  | none =>
    IO.eprint Help.hint
    return Outcome.misuseCode.toUInt32
  | some request =>
    let surroundings ← Surroundings.ofSystem
    let (outcome, before) ←
      Outcome.onSystem surroundings request (← request.image surroundings)
    for (location, entry) in outcome.files.entries do
      before.writeEntry location entry
    IO.print outcome.output
    IO.eprint outcome.errors
    return outcome.exitCode.toUInt32

end PromptScript

def main (arguments : List String) : IO UInt32 :=
  PromptScript.runProgram arguments
