import PromptScript.Render.Error
import PromptScript.Source.Template

/-!
Parsed templates by the paths of their files, so that each file is parsed once. Paths that say the
same are one.
-/
namespace PromptScript

structure TemplateCache where
  entries : List (String × Template)
  /-- How many files have been parsed so far. -/
  parses : Nat
deriving Repr, Inhabited

/-- A computation that loads templates through a cache. -/
abbrev Loading := ExceptT RenderError (StateM TemplateCache)

/-- A result that needs no template. -/
def Loading.ofEval {α : Type} (result : Except EvalError α) : Loading α :=
  ExceptT.mk (pure (result.mapError .eval))

namespace TemplateCache

def empty : TemplateCache := ⟨[], 0⟩

def get? (cache : TemplateCache) (path : String) : Option Template :=
  (cache.entries.find? fun (p, _) => Path.same p path).map (·.2)

def size (cache : TemplateCache) : Nat :=
  cache.entries.length

def isEmpty (cache : TemplateCache) : Bool :=
  cache.entries.isEmpty

/-- Forgets all templates, but not how many have been parsed. -/
def clear (cache : TemplateCache) : TemplateCache :=
  { cache with entries := [] }

/-- The template of a file that is not in the cache. -/
def read (fs : FileSystem) (path : String) : Except RenderError Template :=
  match fs.readText path with
  | .error cause => .error (.includeRead path cause)
  | .ok source => (Template.parse source).mapError (.includeParse path)

/-- The template of a file, which is read and parsed if it is not in the cache. -/
def load (fs : FileSystem) (path : String) : Loading Template := ExceptT.mk fun cache =>
  match cache.get? path with
  | some template => (.ok template, cache)
  | none =>
    match read fs path with
    | .error e => (.error e, cache)
    | .ok template =>
      (.ok template, ⟨cache.entries ++ [(path, template)], cache.parses + 1⟩)

end TemplateCache

end PromptScript
