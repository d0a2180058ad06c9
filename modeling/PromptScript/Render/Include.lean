import PromptScript.Expr.Eval
import PromptScript.Render.Cache

/-!
What includes stand for. An include path is relative to the directory of the template that holds the
include; an include of a file that is already being expanded is an error.
-/
namespace PromptScript

structure RenderOptions where
  /-- Whether an absent variable is an error in prose. -/
  strict : Bool
  /-- The extension of include paths that have none; they stay without if it is empty. -/
  defaultExtension : String
deriving DecidableEq, Repr, Inhabited

def RenderOptions.default : RenderOptions := ⟨false, "mg"⟩

namespace IncludePath

/-- The path that an include asks for. -/
def path (ctx : Context) : IncludePath → Except EvalError String
  | .literal path => .ok path
  | .dynamic var =>
    match ctx.resolve? var with
    | some value => .ok (Value.display value)
    | none => .error (.absent var.text)

/-- The path that an include asks for, with the extension it has by default. -/
def completePath (extension : String) (ctx : Context) (target : IncludePath) :
    Except EvalError String := do
  let path ← target.path ctx
  return if extension.isEmpty then path else Path.withDefaultExtension path extension

/-- The file that an include in a template of the directory `dir` asks for. -/
def locate (fs : FileSystem) (extension : String) (ctx : Context) (dir : String)
    (target : IncludePath) : Except RenderError fs.FilePath := do
  let candidate := Path.join dir (← (target.completePath extension ctx).mapError .eval)
  match found : fs.canonicalFile? candidate with
  | some path => return ⟨path, FileSystem.mem_filePaths_of_canonicalFile? found⟩
  | none => .error (.includeNotFound candidate)

end IncludePath

structure Expansion (fs : FileSystem) (chain : List String) where
  /-- The canonical path of the included file. -/
  path : String
  isFile : path ∈ fs.filePaths
  isNew : path ∉ chain
  template : Template
  bindings : Mapping

namespace Include

/-- The values of the bindings where the include stands; what is absent becomes null. -/
def values (ctx : Context) (bindings : List (String × Expr)) : Except EvalError Mapping :=
  bindings.foldlM (fun vars (name, e) => do
    return Mapping.insert vars name ((← e.eval ctx).getD .null)) []

/-- Finds out what an include stands for while the files of `chain` are being expanded, the
outermost first. -/
def resolve (fs : FileSystem) (extension : String) (ctx : Context) (dir : String)
    (chain : List String) (target : Include) : Loading (Expansion fs chain) := do
  let ⟨path, isFile⟩ ← ExceptT.mk (pure (target.path.locate fs extension ctx dir))
  if seen : chain.any (Path.same path) then throw (.includeCycle (chain ++ [path]))
  else
    let isNew : path ∉ chain := fun known => seen (List.any_eq_true.mpr ⟨path, known, by simp⟩)
    let bindings ← Loading.ofEval (values ctx target.bindings)
    let template ← TemplateCache.load fs path
    return ⟨path, isFile, isNew, template, bindings⟩

end Include

end PromptScript
