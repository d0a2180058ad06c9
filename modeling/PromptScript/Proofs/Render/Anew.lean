import PromptScript.Proofs.Files.Canonical
import PromptScript.Proofs.Render.Correspondence

/-!
Rendering without a cache: a file is read anew each time that an include leads to it. A cache shows
the same templates and gives the same results, and keeps of all these readings the first one of each
path.
-/
namespace PromptScript

open PromptScript.Computation

/-! ### Plain paths -/

namespace FileSystem

variable {fs : FileSystem} {path other : String}

/-- A path from the root by names that count. It is spelled as every path is that says the same and
is plain too. -/
def IsPlain (path : String) : Prop :=
  ∃ location : Location, (∀ name ∈ location, '/' ∉ name.toList ∧ Path.isIdle name.toList = false) ∧
    pathOf location = path

theorem IsPlain.eq_of_same (plain : IsPlain path) (plain' : IsPlain other)
    (same : Path.same path other) : path = other := by
  obtain ⟨location, names, rfl⟩ := plain
  obtain ⟨location', names', rfl⟩ := plain'
  rw [Path.same, decide_eq_true_eq,
    components_pathOf (fun name known => (names name known).1) fun name known => (names name known).2,
    components_pathOf (fun name known => (names' name known).1) fun name known => (names' name known).2,
    Prod.mk.injEq] at same
  rw [List.map_injective_iff.mpr (fun a b => String.toList_inj.mp) same.2]

theorem Canonical.isPlain {location : Location} (canonical : Canonical fs location) :
    IsPlain (pathOf location) :=
  ⟨location, fun name known => ⟨canonical.noSlash name known, canonical.notIdle name known⟩, rfl⟩

theorem isPlain_of_canonicalize (current : fs.Canonical fs.current)
    (h : fs.canonicalize path = .ok other) : IsPlain other := by
  obtain ⟨location, traced, rfl⟩ := except_map_ok_iff.mp h
  exact (current.of_trace traced).isPlain

theorem isPlain_of_canonicalFile? (current : fs.Canonical fs.current)
    (h : fs.canonicalFile? path = some other) : IsPlain other := by
  obtain ⟨location, _, traced, _, rfl⟩ := canonicalFile?_eq_some_iff.mp h
  exact (current.of_trace traced).isPlain

end FileSystem

open FileSystem (IsPlain)

/-! ### What a cache shows and keeps -/

/-- What the reading of a file has given. -/
abbrev FileReading := String × Template

namespace TemplateCache

variable {fs : FileSystem} {cache : TemplateCache} {known : String → Except RenderError Template}

/-- The template of a file, from the cache if it is there. -/
def shown (fs : FileSystem) (cache : TemplateCache) (path : String) : Except RenderError Template :=
  match cache.get? path with
  | some template => .ok template
  | none => read fs path

/-- Keeps what a reading has given, unless a template is there already. -/
def keep (cache : TemplateCache) (reading : FileReading) : TemplateCache :=
  if (cache.get? reading.1).isSome then cache
  else ⟨cache.entries ++ [reading], cache.parses + 1⟩

def keepAll (cache : TemplateCache) (readings : List FileReading) : TemplateCache :=
  readings.foldl keep cache

@[simp] theorem keepAll_nil (cache : TemplateCache) : cache.keepAll [] = cache := rfl

@[simp] theorem keepAll_cons (cache : TemplateCache) (reading : FileReading)
    (later : List FileReading) :
    cache.keepAll (reading :: later) = (cache.keep reading).keepAll later := rfl

theorem keepAll_append (cache : TemplateCache) (readings later : List FileReading) :
    cache.keepAll (readings ++ later) = (cache.keepAll readings).keepAll later :=
  List.foldl_append

/-- Notes readings, be they the first ones or not. -/
def note (log : TemplateCache) (readings : List FileReading) : TemplateCache :=
  ⟨log.entries ++ readings, log.parses + readings.length⟩

/-- The template of a file whose content is known, each time anew. -/
def anew (known : String → Except RenderError Template) (path : String) : Loading Template :=
  ExceptT.mk fun log =>
    match known path with
    | .error e => (.error e, log)
    | .ok template => (.ok template, log.note [(path, template)])

theorem anew_result (known : String → Except RenderError Template) (path : String)
    (log : TemplateCache) : (anew known path log).1 = known path := by
  simp only [anew, ExceptT.mk]
  cases known path <;> rfl

theorem load_eq (fs : FileSystem) (path : String) (cache : TemplateCache) :
    load fs path cache = match cache.shown fs path with
      | .error e => (.error e, cache)
      | .ok template => (.ok template, cache.keep (path, template)) := by
  obtain ⟨found, here⟩ : ∃ found, cache.get? path = found := ⟨_, rfl⟩
  cases found with
  | some template => simp [load, ExceptT.mk, shown, keep, here]
  | none =>
    simp only [load, ExceptT.mk, shown, keep, here]
    cases read fs path <;> simp

theorem get?_congr {path other : String} (same : Path.same path other) :
    cache.get? path = cache.get? other := by
  rw [Path.same, decide_eq_true_eq] at same
  simp only [get?, Path.same, same]

/-- What is there already stays. -/
theorem get?_keep (cache : TemplateCache) (reading : FileReading) (path : String) :
    (cache.keep reading).get? path =
      (cache.get? path).or (if Path.same reading.1 path then some reading.2 else none) := by
  rw [keep]
  by_cases present : (cache.get? reading.1).isSome
  · rw [if_pos present]
    split_ifs with same
    · rw [← get?_congr same, Option.or_of_isSome present]
    · rw [Option.or_none]
  · rw [if_neg present, get?, get?, List.find?_append, Option.map_or]
    congr 1
    split_ifs with same <;> simp [same]

/-- Keeping what is shown anyway changes nothing that is shown. -/
theorem shown_keep {path other : String} {template : Template} (plain : IsPlain path)
    (plain' : IsPlain other) (seen : cache.shown fs path = .ok template) :
    (cache.keep (path, template)).shown fs other = cache.shown fs other := by
  rw [shown, shown, get?_keep]
  cases found : cache.get? other with
  | some kept => rfl
  | none =>
    rw [Option.none_or]
    split_ifs with same
    -- The path is the other one, of which nothing was kept before.
    · obtain rfl := plain.eq_of_same plain' same
      rw [shown, found] at seen
      exact seen.symm
    · rfl

/-- The templates of plain paths are the known ones, by the cache or by the files. -/
def Shows (fs : FileSystem) (known : String → Except RenderError Template) (cache : TemplateCache) :
    Prop :=
  ∀ path, IsPlain path → cache.shown fs path = known path

/-- Readings of plain paths that have given what is known. -/
def AreKnown (known : String → Except RenderError Template) (readings : List FileReading) : Prop :=
  ∀ reading ∈ readings, IsPlain reading.1 ∧ known reading.1 = .ok reading.2

theorem Shows.keep {path : String} {template : Template} (shows : cache.Shows fs known)
    (plain : IsPlain path) (content : known path = .ok template) :
    (cache.keep (path, template)).Shows fs known := by
  intro other plain'
  rw [shown_keep plain plain' ((shows path plain).trans content)]
  exact shows other plain'

theorem Shows.keepAll {readings : List FileReading} (shows : cache.Shows fs known)
    (given : AreKnown known readings) : (cache.keepAll readings).Shows fs known := by
  induction readings generalizing cache with
  | nil => exact shows
  | cons reading later ih =>
    obtain ⟨⟨plain, content⟩, given⟩ := List.forall_mem_cons.mp given
    exact ih (shows.keep plain content) given

theorem note_note (log : TemplateCache) (readings later : List FileReading) :
    (log.note readings).note later = log.note (readings ++ later) := by
  simp [note, Nat.add_assoc]

end TemplateCache

/-! ### Loading against reading anew -/

/-- A computation that loads through a cache does what one does that reads anew, and the cache keeps
the readings of this one. -/
def Loading.Caches (fs : FileSystem) (known : String → Except RenderError Template) {α : Type}
    (cached plain : Loading α) : Prop :=
  ∀ cache log : TemplateCache, cache.Shows fs known → ∃ result readings,
    plain log = (result, log.note readings) ∧ cached cache = (result, cache.keepAll readings) ∧
    TemplateCache.AreKnown known readings

section

variable {fs : FileSystem} {known : String → Except RenderError Template}

theorem Loading.caches_lift {α : Type} (result : Except RenderError α) :
    Loading.Caches fs known (ExceptT.mk (pure result)) (ExceptT.mk (pure result)) :=
  fun _ log _ => ⟨result, [], by simp [TemplateCache.note]; rfl, rfl, nofun⟩

theorem Loading.caches_congruence (fs : FileSystem) (known : String → Except RenderError Template) :
    Loading.Congruence (Loading.Caches fs known) where
  ofEval result := caches_lift (result.mapError .eval)
  bind := by
    intro α β first first' second second' related related' cache log shows
    obtain ⟨result, readings, plain, cached, given⟩ := related cache log shows
    cases result with
    | error e => exact ⟨.error e, readings, bind_of_error plain, bind_of_error cached, given⟩
    | ok a =>
      obtain ⟨result, later, plain', cached', given'⟩ :=
        related' a (cache.keepAll readings) (log.note readings) (shows.keepAll given)
      refine ⟨result, readings ++ later, ?_, ?_, List.forall_mem_append.mpr ⟨given, given'⟩⟩
      · rw [bind_of_ok plain, plain', TemplateCache.note_note]
      · rw [bind_of_ok cached, cached', TemplateCache.keepAll_append]

theorem TemplateCache.load_caches {path : String} (plain : IsPlain path) :
    Loading.Caches fs known (load fs path) (anew known path) := by
  intro cache log shows
  rw [load_eq, shows path plain]
  simp only [anew, ExceptT.mk]
  cases content : known path with
  | error e => exact ⟨.error e, [], by simp [note], rfl, nofun⟩
  | ok template =>
    exact ⟨.ok template, [(path, template)], rfl, rfl, by simp [AreKnown, plain, content]⟩

end

/-! ### Rendering from any source of templates -/

/-- Renders what an include stands for, with templates from a source. -/
def expandIncludeFrom (source : String → Loading Template) (fs : FileSystem)
    (options : RenderOptions) (chain : List String) (dir : String) (target : Include)
    (ctx : Context) : Loading String :=
  match target.path.locate fs options.defaultExtension ctx dir with
  | .error e => throw e
  | .ok ⟨path, isFile⟩ =>
    if seen : chain.any (Path.same path) then throw (.includeCycle (chain ++ [path]))
    else do
      have := FileSystem.countOutside_append_lt isFile fun known =>
        seen (List.any_eq_true.mpr ⟨path, known, by simp⟩)
      let bindings ← Loading.ofEval (Include.values ctx target.bindings)
      let template ← source path
      renderNodes options.strict
        (expandIncludeFrom source fs options (chain ++ [path]) ((Path.parent? path).getD ""))
        (ctx.child bindings) template.nodes
termination_by fs.countOutside chain

def renderFrom (source : String → Loading Template) (fs : FileSystem) (options : RenderOptions)
    (dir : String) (nodes : List Node) (ctx : Context) : Loading String :=
  renderNodes options.strict (expandIncludeFrom source fs options [] dir) ctx nodes

def renderFileFrom (source : String → Loading Template) (fs : FileSystem) (options : RenderOptions)
    (path : String) (ctx : Context) : Loading String :=
  match fs.canonicalize path with
  | .error _ => throw (.includeNotFound path)
  | .ok path => do
    let template ← source path
    renderNodes options.strict
      (expandIncludeFrom source fs options [path] ((Path.parent? path).getD "")) ctx template.nodes

/-- An include fails, comes back to a file that is being expanded, or leads on to the template of
another file. -/
theorem expandIncludeFrom_eq (source : String → Loading Template) (fs : FileSystem)
    (options : RenderOptions) (chain : List String) (dir : String) (target : Include) (ctx : Context) :
    expandIncludeFrom source fs options chain dir target ctx =
      match target.path.locate fs options.defaultExtension ctx dir with
      | .error e => throw e
      | .ok found =>
        if chain.any (Path.same found.1) then throw (.includeCycle (chain ++ [found.1]))
        else (do
          let bindings ← Loading.ofEval (Include.values ctx target.bindings)
          let template ← source found.1
          renderNodes options.strict
            (expandIncludeFrom source fs options (chain ++ [found.1])
              ((Path.parent? found.1).getD "")) (ctx.child bindings) template.nodes) := by
  rw [expandIncludeFrom]
  cases target.path.locate fs options.defaultExtension ctx dir with
  | error e => rfl
  | ok found => by_cases seen : chain.any (Path.same found.1) <;> simp [seen]

theorem isNew_of_not_seen {path : String} {chain : List String}
    (seen : ¬ chain.any (Path.same path)) : path ∉ chain :=
  fun known => seen (List.any_eq_true.mpr ⟨path, known, Path.same_self path⟩)

/-- Where an include leads decides what is rendered. -/
theorem expandInclude_eq (fs : FileSystem) (options : RenderOptions) (chain : List String)
    (dir : String) :
    expandInclude fs options chain dir =
      expandIncludeFrom (TemplateCache.load fs) fs options chain dir := by
  induction outside : fs.countOutside chain using Nat.strongRecOn generalizing chain dir with
  | ind n ih =>
    funext target ctx
    rw [expandInclude, expandIncludeFrom_eq, Include.resolve]
    cases located : target.path.locate fs options.defaultExtension ctx dir with
    | error e => rfl
    | ok found =>
      obtain ⟨path, isFile⟩ := found
      have lifted : (ExceptT.mk (pure (.ok ⟨path, isFile⟩)) : Loading fs.FilePath) =
          pure ⟨path, isFile⟩ := rfl
      simp only [lifted, pure_bind]
      by_cases seen : chain.any (Path.same path)
      · simp only [dif_pos seen, if_pos seen]
        rfl
      · have fewer := FileSystem.countOutside_append_lt isFile (isNew_of_not_seen seen)
        simp only [dif_neg seen, if_neg seen, bind_assoc, pure_bind]
        rw [ih _ (outside ▸ fewer) _ _ rfl]

theorem renderFile_eq (fs : FileSystem) (options : RenderOptions) (path : String) (ctx : Context) :
    renderFile fs options path ctx = renderFileFrom (TemplateCache.load fs) fs options path ctx := by
  rw [renderFile, renderFileFrom]
  cases fs.canonicalize path with
  | error cause => rfl
  | ok path => simp only [expandInclude_eq]

/-! ### The cache is not seen -/

section

variable {fs : FileSystem} {known : String → Except RenderError Template}

theorem expandInclude_caches (current : fs.Canonical fs.current) (options : RenderOptions)
    (chain : List String) (dir : String) (target : Include) (ctx : Context) :
    Loading.Caches fs known (expandIncludeFrom (TemplateCache.load fs) fs options chain dir target ctx)
      (expandIncludeFrom (TemplateCache.anew known) fs options chain dir target ctx) := by
  have congruence := Loading.caches_congruence fs known
  -- Each include adds a file to the chain, of which fewer files are left out.
  induction outside : fs.countOutside chain using Nat.strongRecOn
    generalizing chain dir target ctx with
  | ind n ih =>
    rw [expandIncludeFrom_eq, expandIncludeFrom_eq]
    cases located : target.path.locate fs options.defaultExtension ctx dir with
    | error e => exact Loading.caches_lift (.error e)
    | ok found =>
      obtain ⟨path, isFile⟩ := found
      by_cases seen : chain.any (Path.same path)
      · simp only [if_pos seen]
        exact Loading.caches_lift (.error (.includeCycle (chain ++ [path])))
      · simp only [if_neg seen]
        have fewer := FileSystem.countOutside_append_lt isFile (isNew_of_not_seen seen)
        obtain ⟨asked, _, leads⟩ := IncludePath.locate_ok_iff.mp located
        have plain := FileSystem.isPlain_of_canonicalFile? current leads
        refine congruence.bind (congruence.ofEval _) fun bindings => ?_
        refine congruence.bind (TemplateCache.load_caches plain) fun template => ?_
        exact renderNodes_related congruence template.nodes
          (fun target _ ctx => ih _ (outside ▸ fewer) _ _ target ctx rfl) _

/-- Nodes of a template of the directory `dir`, while the files of a chain are being expanded. -/
theorem renderNodes_caches (current : fs.Canonical fs.current) (options : RenderOptions)
    (chain : List String) (dir : String) (nodes : List Node) (ctx : Context) :
    Loading.Caches fs known (renderNodes options.strict (expandInclude fs options chain dir) ctx nodes)
      (renderNodes options.strict
        (expandIncludeFrom (TemplateCache.anew known) fs options chain dir) ctx nodes) := by
  rw [expandInclude_eq]
  exact renderNodes_related (Loading.caches_congruence fs known) nodes
    (fun target _ ctx => expandInclude_caches current options chain dir target ctx) ctx

theorem render_caches (current : fs.Canonical fs.current) (options : RenderOptions) (dir : String)
    (nodes : List Node) (ctx : Context) :
    Loading.Caches fs known (render fs options dir nodes ctx)
      (renderFrom (TemplateCache.anew known) fs options dir nodes ctx) :=
  renderNodes_caches current options [] dir nodes ctx

theorem renderFile_caches (current : fs.Canonical fs.current) (options : RenderOptions)
    (path : String) (ctx : Context) :
    Loading.Caches fs known (renderFile fs options path ctx)
      (renderFileFrom (TemplateCache.anew known) fs options path ctx) := by
  rw [renderFile, renderFileFrom]
  cases canonical : fs.canonicalize path with
  | error e => exact Loading.caches_lift (.error (.includeNotFound path))
  | ok path =>
    have plain := FileSystem.isPlain_of_canonicalize current canonical
    exact (Loading.caches_congruence fs known).bind (TemplateCache.load_caches plain) fun template =>
      renderNodes_caches current options [path] _ template.nodes ctx

end

end PromptScript
