import PromptScript.Text.Trim

/-!
Paths as text: names between slashes. Empty names, and a single point anywhere but at the start of a
relative path, do not count.
-/
namespace PromptScript.Path

/-- Whether a path starts at the root. -/
def isAbsolute (path : String) : Bool :=
  path.toList.head? = some '/'

/-- The texts between the slashes of a path, from the root if it is absolute. -/
def pieces (path : String) : List (List Char) :=
  let parts := Text.pieces (· = '/') path.toList
  if isAbsolute path then parts.drop 1 else parts

/-- Whether a piece names nothing. -/
def isIdle (piece : List Char) : Bool :=
  piece = [] || piece = ['.']

/-- The pieces without idle ones at the end; the first piece of a relative path counts. -/
def trimIdle (absolute : Bool) (parts : List (List Char)) : List (List Char) :=
  if absolute then (parts.reverse.dropWhile isIdle).reverse
  else parts.take 1 ++ ((parts.drop 1).reverse.dropWhile isIdle).reverse

def ofPieces (absolute : Bool) (parts : List (List Char)) : String :=
  .ofList ((if absolute then ['/'] else []) ++ ['/'].intercalate parts)

/-- The path of the directory that holds what a path names. The root and the empty path have
none. -/
def parent? (path : String) : Option String :=
  let absolute := isAbsolute path
  match trimIdle absolute (pieces path) with
  | [] => none
  | [[]] => none
  | parts => some (ofPieces absolute (trimIdle absolute parts.dropLast))

/-- What a path says: whether it starts at the root, and the pieces that count. -/
def components (path : String) : Bool × List (List Char) :=
  let parts := pieces path
  if isAbsolute path then (true, parts.filter (!isIdle ·))
  else (false, (parts.take 1).filter (· ≠ []) ++ (parts.drop 1).filter (!isIdle ·))

/-- Whether two paths say the same, though they may be spelled differently. -/
def same (a b : String) : Bool :=
  components a = components b

@[simp] theorem same_self (path : String) : same path path = true := by
  simp [same]

/-- The last name of a path, unless that is a step upwards. -/
def fileName? (path : String) : Option (List Char) :=
  (trimIdle (isAbsolute path) (pieces path)).getLast?.filter fun name =>
    !isIdle name && name ≠ ['.', '.']

/-- Whether a file name has an extension: a point that is not its first character. -/
def hasExtension (name : List Char) : Bool :=
  (name.drop 1).contains '.'

/-- The part of a file name behind its last point, if it has an extension. -/
def extension? (name : List Char) : Option (List Char) :=
  if hasExtension name then (Text.pieces (· = '.') name).getLast? else none

/-- The path, whose last name gets an extension if it has none. -/
def withDefaultExtension (path extension : String) : String :=
  match fileName? path with
  | some name =>
    if hasExtension name then path
    else
      let absolute := isAbsolute path
      ofPieces absolute (trimIdle absolute (pieces path)) ++ "." ++ extension
  | none => path

/-- The path that `path` is, seen from the directory `dir`. -/
def join (dir path : String) : String :=
  if isAbsolute path ∨ dir.isEmpty then path
  else if dir.toList.getLast? = some '/' then dir ++ path
  else dir ++ "/" ++ path

/-- The path, the directory that holds it, the one that holds that, and so on. -/
def ancestors : Nat → String → List String
  | 0, _ => []
  | n + 1, path =>
    match parent? path with
    | some up => path :: ancestors n up
    | none => [path]

/-- All directories above a path that have a name, the path itself first. -/
def lineage (path : String) : List String :=
  (ancestors ((pieces path).length + 1) path).takeWhile fun p => !p.isEmpty

end PromptScript.Path
