import PromptScript.Proofs.Files.Canonical
import PromptScript.Proofs.Render.Anew
import PromptScript.Proofs.Render.Names
import PromptScript.Proofs.Render.Steps
import PromptScript.Proofs.Value.Mapping

/-!
Templates that are the same but for their includes, and includes that are the same but for the order in which
they bind variables.
-/
namespace PromptScript

open PromptScript.Computation

variable {fs fs' : FileSystem} {dir : String} {ctx ctx' : Context} {R : Include → Include → Prop}

/-! ### Nodes and files -/

mutual

/-- Nodes that are the same but for their includes, at any depth, which are related. -/
inductive Node.Matches (R : Include → Include → Prop) : Node → Node → Prop
  | text (text : String) : Node.Matches R (.text text) (.text text)
  | interpolation (path : VarPath) : Node.Matches R (.interpolation path) (.interpolation path)
  | block {body other : List Node} : NodesMatch R body other → Node.Matches R (.block body) (.block other)
  | conditional {branches others : List (Expr × List Node)} {orElse last : Option (List Node)} :
    BranchesMatch R branches others → LastMatches R orElse last →
    Node.Matches R (.conditional branches orElse) (.conditional others last)
  | loop {var : String} {iterable : Expr} {body other : List Node} : NodesMatch R body other →
    Node.Matches R (.loop var iterable body) (.loop var iterable other)
  | include {target other : Include} : R target other →
    Node.Matches R (.include target) (.include other)
  | functionImport (names : List String) (source : String) :
    Node.Matches R (.functionImport names source) (.functionImport names source)
  | effect (e : Effect) : Node.Matches R (.effect e) (.effect e)
  | stateAssign (name : String) (value : Expr) :
    Node.Matches R (.stateAssign name value) (.stateAssign name value)

inductive NodesMatch (R : Include → Include → Prop) : List Node → List Node → Prop
  | nil : NodesMatch R [] []
  | cons {node other : Node} {rest others : List Node} : Node.Matches R node other →
    NodesMatch R rest others → NodesMatch R (node :: rest) (other :: others)

inductive BranchesMatch (R : Include → Include → Prop) :
    List (Expr × List Node) → List (Expr × List Node) → Prop
  | nil : BranchesMatch R [] []
  | cons {condition : Expr} {body other : List Node} {rest others : List (Expr × List Node)} :
    NodesMatch R body other → BranchesMatch R rest others →
    BranchesMatch R ((condition, body) :: rest) ((condition, other) :: others)

inductive LastMatches (R : Include → Include → Prop) : Option (List Node) → Option (List Node) → Prop
  | none : LastMatches R none none
  | some {body other : List Node} : NodesMatch R body other → LastMatches R (some body) (some other)

end

mutual

theorem Node.Matches.refl (same : ∀ target, R target target) : (node : Node) → node.Matches R node
  | .text _ => .text _
  | .interpolation _ => .interpolation _
  | .block body => .block (.refl same body)
  | .conditional branches orElse => .conditional (.refl same branches) (.refl same orElse)
  | .loop _ _ body => .loop (.refl same body)
  | .include target => .include (same target)
  | .functionImport _ _ => .functionImport _ _
  | .effect _ => .effect _
  | .stateAssign _ _ => .stateAssign _ _

theorem NodesMatch.refl (same : ∀ target, R target target) : (nodes : List Node) → NodesMatch R nodes nodes
  | [] => .nil
  | node :: rest => .cons (.refl same node) (.refl same rest)

theorem BranchesMatch.refl (same : ∀ target, R target target) : (branches : List (Expr × List Node)) →
    BranchesMatch R branches branches
  | [] => .nil
  | (_, body) :: rest => .cons (.refl same body) (.refl same rest)

theorem LastMatches.refl (same : ∀ target, R target target) : (orElse : Option (List Node)) →
    LastMatches R orElse orElse
  | none => .none
  | some body => .some (.refl same body)

end

/-- File systems in which the same files are found, with templates that are the same but for their includes,
which are related. -/
structure FileSystem.Matches (R : Include → Include → Prop) (fs other : FileSystem) : Prop where
  found : ∀ path, fs.canonicalFile? path = other.canonicalFile? path
  failed : ∀ path e, TemplateCache.read fs path = .error e → TemplateCache.read other path = .error e
  template : ∀ path template, TemplateCache.read fs path = .ok template →
    ∃ template', TemplateCache.read other path = .ok template' ∧
      NodesMatch R template.nodes template'.nodes

theorem FileSystem.Matches.refl (same : ∀ target, R target target) (fs : FileSystem) : fs.Matches R fs where
  found _ := rfl
  failed _ _ failed := failed
  template _ template content := ⟨template, content, .refl same template.nodes⟩

/-! ### The step of an include -/

/-- The path of the file to which an include leads. -/
def IncludePath.file (fs : FileSystem) (extension : String) (ctx : Context) (dir : String)
    (target : IncludePath) : Except RenderError String :=
  match target.completePath extension ctx with
  | .error cause => .error (.eval cause)
  | .ok asked =>
    match fs.canonicalFile? (Path.join dir asked) with
    | some path => .ok path
    | none => .error (.includeNotFound (Path.join dir asked))

theorem IncludePath.map_locate (fs : FileSystem) (extension : String) (ctx : Context) (dir : String)
    (target : IncludePath) :
    (target.locate fs extension ctx dir).map (·.1) = target.file fs extension ctx dir := by
  rw [locate, file]
  cases target.completePath extension ctx with
  | error cause => rfl
  | ok asked =>
    simp only [Except.mapError, bind, Except.bind]
    split
    · next path found =>
      simp only [found]
      rfl
    · next missing =>
      simp only [missing]
      rfl

theorem IncludePath.file_congr {target : IncludePath}
    (found : ∀ path, fs.canonicalFile? path = fs'.canonicalFile? path)
    (same : ∀ name ∈ target.names, ctx.get? name = ctx'.get? name) (extension dir : String) :
    target.file fs extension ctx dir = target.file fs' extension ctx' dir := by
  simp only [file, completePath, path_congr same, found]

theorem IncludePath.file_ok_iff {extension path : String} {target : IncludePath} :
    target.file fs extension ctx dir = .ok path ↔
      ∃ found, target.locate fs extension ctx dir = .ok found ∧ found.1 = path := by
  rw [← map_locate, except_map_ok_iff]

theorem RenderState.visit_include (fs : FileSystem) (options : RenderOptions) (s : RenderState)
    (ctx : Context) (dir : String) (target : Include) :
    s.visit fs options ctx dir (.include target) =
      match target.path.file fs options.defaultExtension ctx dir with
      | .error e => .ended (.error e, s.cache)
      | .ok path =>
        if s.chain.any (Path.same path) then .ended (.error (.includeCycle (s.chain ++ [path])), s.cache)
        else
          match Include.values ctx target.bindings with
          | .error cause => .ended (.error (.eval cause), s.cache)
          | .ok vars =>
            match s.cache.shown fs path with
            | .error e => .ended (.error e, s.cache)
            | .ok template =>
              .running ({ s with cache := s.cache.keep (path, template) }.enter path template
                (ctx.child vars)) := by
  rw [visit, Include.resolve, ← IncludePath.map_locate]
  cases target.path.locate fs options.defaultExtension ctx dir with
  | error e => rfl
  | ok found =>
    obtain ⟨path, isFile⟩ := found
    have located : (ExceptT.mk (pure (.ok ⟨path, isFile⟩)) : Loading fs.FilePath) = pure ⟨path, isFile⟩ :=
      rfl
    simp only [located, pure_bind, Except.map]
    by_cases seen : s.chain.any (Path.same path)
    · simp only [dif_pos seen, if_pos seen]
      rfl
    · simp only [dif_neg seen, if_neg seen]
      cases Include.values ctx target.bindings with
      | error cause => rfl
      | ok vars =>
        have evaluated : Loading.ofEval (.ok vars) = pure vars := rfl
        rw [evaluated, pure_bind, bind_apply, TemplateCache.load_eq]
        cases s.cache.shown fs path <;> rfl

/-! ### Bindings in another order -/

/-- The same include, or one that binds variables of different names in another order. -/
inductive Include.Reordered : Include → Include → Prop
  | same (target : Include) : Reordered target target
  | permuted {target other : Include} : target.path = other.path →
    target.bindings.Perm other.bindings → (target.bindings.map (·.1)).Nodup → Reordered target other

namespace Include

/-- What a binding stands for in a scope; it is looked at only where the binding evaluates. -/
def entry (ctx : Context) (binding : String × Expr) : String × Value :=
  match binding.2.eval ctx with
  | .ok value => (binding.1, value.getD .null)
  | .error _ => (binding.1, .null)

theorem keys_entries (ctx : Context) (bindings : List (String × Expr)) :
    Mapping.keys (bindings.map (entry ctx)) = bindings.map (·.1) := by
  rw [Mapping.keys, List.map_map]
  refine List.map_congr_left fun binding _ => ?_
  rw [Function.comp_apply, entry]
  split <;> rfl

theorem values_of_evaluates {bindings : List (String × Expr)}
    (evaluates : ∀ binding ∈ bindings, ∃ value, binding.2.eval ctx = .ok value) :
    values ctx bindings = .ok (Mapping.ofEntries (bindings.map (entry ctx))) := by
  rw [values, Mapping.ofEntries, Mapping.merge]
  generalize ([] : Mapping) = vars
  induction bindings generalizing vars with
  | nil => rfl
  | cons binding rest ih =>
    obtain ⟨⟨value, evaluated⟩, later⟩ := List.forall_mem_cons.mp evaluates
    simp only [List.foldlM_cons, List.map_cons, List.foldl_cons, evaluated, entry]
    exact ih later _

/-- Bindings that are all evaluated bind the same variables to the same values in every order. -/
theorem Reordered.values_alike {target other : Include} (reordered : target.Reordered other)
    (same : ∀ name ∈ target.names, ctx.get? name = ctx'.get? name)
    (evaluates : target ≠ other → ∀ binding ∈ target.bindings, ∃ value, binding.2.eval ctx = .ok value) :
    (∃ cause, values ctx target.bindings = .error cause ∧ values ctx' other.bindings = .error cause) ∨
    ∃ vars vars', values ctx target.bindings = .ok vars ∧ values ctx' other.bindings = .ok vars' ∧
      ∀ name, Mapping.get? vars name = Mapping.get? vars' name := by
  rw [names, List.forall_mem_append] at same
  by_cases equal : target = other
  · rw [← equal, ← values_congr same.2]
    cases values ctx target.bindings with
    | error cause => exact .inl ⟨cause, rfl, rfl⟩
    | ok vars => exact .inr ⟨vars, vars, rfl, rfl, fun _ => rfl⟩
  cases reordered with
  | same => exact absurd rfl equal
  | permuted path perm distinct =>
    -- Each order gives the entries that the bindings stand for, and no key is repeated in them.
    have evaluates := evaluates equal
    have evaluates' : ∀ binding ∈ other.bindings, ∃ value, binding.2.eval ctx = .ok value :=
      fun binding known => evaluates binding (perm.mem_iff.mpr known)
    have same' : ∀ name ∈ other.bindings.flatMap (·.2.names), ctx.get? name = ctx'.get? name :=
      fun name known => same.2 name ((perm.flatMap_right _).mem_iff.mpr known)
    refine .inr ⟨_, _, values_of_evaluates evaluates,
      (values_congr same').symm.trans (values_of_evaluates evaluates'), fun name => ?_⟩
    have distinct' := (perm.map Prod.fst).nodup_iff.mp distinct
    rw [← keys_entries ctx] at distinct distinct'
    rw [Mapping.get?_ofEntries distinct, Mapping.get?_ofEntries distinct',
      Mapping.get?_perm (perm.map _) distinct]

theorem Reordered.path_eq {target other : Include} (reordered : target.Reordered other) :
    target.path = other.path := by
  cases reordered with
  | same => rfl
  | permuted path => exact path

end Include

end PromptScript
