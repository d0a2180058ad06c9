import Mathlib.Data.List.Chain
import PromptScript.Proofs.Render.Anew

/-!
Include cycles. What is reported as a cycle is a chain of files of which each includes the next one,
and which comes back to one of its files. Files that include each other without a cycle are never
reported, however often one is included.
-/
namespace PromptScript

open PromptScript.Computation
open FileSystem (IsPlain)
open Relation (ReflTransGen TransGen)

variable {fs : FileSystem} {options : RenderOptions} {begins : String → Prop} {chain : List String}
  {path next dir : String} {nodes : List Node}

/-! ### Which files include which -/

/-- An include of nodes of the directory `dir`, at any depth, leads to a file from some scope. -/
def IncludesFile (fs : FileSystem) (options : RenderOptions) (dir : String) (nodes : List Node)
    (path : String) : Prop :=
  ∃ target ∈ nodesIncludes nodes, ∃ ctx found,
    target.path.locate fs options.defaultExtension ctx dir = .ok found ∧ found.1 = path

/-- The template of a file includes another file. -/
def Links (fs : FileSystem) (options : RenderOptions) (path next : String) : Prop :=
  ∃ template, TemplateCache.read fs path = .ok template ∧
    IncludesFile fs options ((Path.parent? path).getD "") template.nodes next

/-- Files of which each includes the next one, from one at which a render begins. -/
structure IncludeChain (fs : FileSystem) (options : RenderOptions) (begins : String → Prop)
    (chain : List String) : Prop where
  begins : ∀ path ∈ chain.head?, begins path
  linked : chain.IsChain (Links fs options)
  canonical : ∀ path ∈ chain, fs.canonicalize path = .ok path

/-- A chain of files that are pairwise distinct, but for the last one, which is one of those before
it. -/
structure IncludeCycle (fs : FileSystem) (options : RenderOptions) (begins : String → Prop)
    (chain : List String) : Prop extends IncludeChain fs options begins chain where
  returns : ∃ front last, chain = front ++ [last] ∧ front.Nodup ∧ front.count last = 1

/-- A canonical path leads to itself. -/
theorem FileSystem.canonicalize_self (current : fs.Canonical fs.current)
    (h : fs.canonicalize path = .ok next) : fs.canonicalize next = .ok next := by
  obtain ⟨location, traced, rfl⟩ := except_map_ok_iff.mp h
  exact except_map_ok_iff.mpr ⟨location, (current.of_trace traced).trace, rfl⟩

theorem IncludePath.canonicalize_of_locate {extension : String} {ctx : Context}
    {target : IncludePath} {found : fs.FilePath} (current : fs.Canonical fs.current)
    (located : target.locate fs extension ctx dir = .ok found) :
    fs.canonicalize found.1 = .ok found.1 := by
  obtain ⟨asked, _, leads⟩ := locate_ok_iff.mp located
  obtain ⟨location, _, traced, _, same⟩ := FileSystem.canonicalFile?_eq_some_iff.mp leads
  exact FileSystem.canonicalize_self current (except_map_ok_iff.mpr ⟨location, traced, same⟩)

namespace IncludeChain

theorem single (canonical : fs.canonicalize path = .ok path) (begin : begins path) :
    IncludeChain fs options begins [path] where
  begins other first := by
    cases first
    exact begin
  linked := List.isChain_singleton path
  canonical other known := by
    rw [List.mem_singleton.mp known]
    exact canonical

theorem extend (chained : IncludeChain fs options begins (chain ++ [path]))
    (links : Links fs options path next) (canonical : fs.canonicalize next = .ok next) :
    IncludeChain fs options begins (chain ++ [path] ++ [next]) where
  begins other first := by
    refine chained.begins other ?_
    rwa [List.head?_append_of_ne_nil _ (by simp)] at first
  linked := by
    refine chained.linked.append (List.isChain_singleton next) ?_
    simpa using links
  canonical := by
    refine List.forall_mem_append.mpr ⟨chained.canonical, fun other known => ?_⟩
    rw [List.mem_singleton.mp known]
    exact canonical

end IncludeChain

/-! ### What is reported -/

/-- What fails in a computation has a property. -/
def Loading.Raises (P : RenderError → Prop) {α : Type} (f : Loading α) : Prop :=
  ∀ log e, (f log).1 = .error e → P e

theorem Loading.raises_bind {P : RenderError → Prop} {α β : Type} {first : Loading α}
    {second : α → Loading β} (raises : Raises P first)
    (raises' : ∀ a, (∃ log, (first log).1 = .ok a) → Raises P (second a)) :
    Raises P (first >>= second) := by
  intro log e failed
  rcases ended : first log with ⟨e' | a, between⟩
  · rw [bind_of_error ended] at failed
    cases failed
    exact raises log e (by rw [ended])
  · rw [bind_of_ok ended] at failed
    exact raises' a ⟨log, by rw [ended]⟩ between e failed

/-- If a cycle is reported, it is one. -/
def ReportsCycles (fs : FileSystem) (options : RenderOptions) (begins : String → Prop)
    (e : RenderError) : Prop :=
  ∀ chain, e = .includeCycle chain → IncludeCycle fs options begins chain

theorem Loading.raises_ofEval {α : Type} (result : Except EvalError α) :
    Raises (ReportsCycles fs options begins) (Loading.ofEval result) := by
  rintro log e failed chain rfl
  cases result <;> cases failed

theorem Loading.raises_congruence :
    Loading.Congruence fun f _ => Raises (ReportsCycles fs options begins) f where
  ofEval := raises_ofEval
  bind raises raises' := raises_bind raises fun a _ => raises' a

theorem Loading.raises_renderNodes {strict : Bool} {expand : Include → Context → Loading String}
    (raises : ∀ target ∈ nodesIncludes nodes, ∀ ctx,
      Raises (ReportsCycles fs options begins) (expand target ctx)) (ctx : Context) :
    Raises (ReportsCycles fs options begins) (renderNodes strict expand ctx nodes) :=
  @renderNodes_related (fun f _ => Raises (ReportsCycles fs options begins) f) strict expand expand
    raises_congruence nodes raises ctx

theorem TemplateCache.read_ne_includeCycle : read fs path ≠ .error (.includeCycle chain) := by
  rw [read]
  cases fs.readText path with
  | error cause => rintro ⟨⟩
  | ok text => cases parsed : Template.parse text <;> simp [parsed, Except.mapError]

theorem IncludePath.locate_ne_includeCycle {extension : String} {ctx : Context}
    {target : IncludePath} :
    target.locate fs extension ctx dir ≠ .error (.includeCycle chain) := by
  rw [locate]
  cases target.completePath extension ctx with
  | error cause => rintro ⟨⟩
  | ok asked =>
    simp only [Except.mapError, bind, Except.bind]
    split <;> rintro ⟨⟩

/-- What an include stands for is rendered without a report of a cycle that is none, if each file to
which the include can lead goes on with the chain of files that are being expanded. -/
theorem expandInclude_reportsCycles (current : fs.Canonical fs.current)
    (chained : ∀ path ∈ chain, fs.canonicalize path = .ok path) (distinct : chain.Nodup)
    (target : Include)
    (onward : ∀ ctx found, target.path.locate fs options.defaultExtension ctx dir = .ok found →
      IncludeChain fs options begins (chain ++ [found.1])) (ctx : Context) :
    Loading.Raises (ReportsCycles fs options begins)
      (expandIncludeFrom (TemplateCache.anew (TemplateCache.read fs)) fs options chain dir target
        ctx) := by
  -- Each include adds a file to the chain, of which fewer files are left out.
  induction outside : fs.countOutside chain using Nat.strongRecOn
    generalizing chain dir target ctx with
  | ind n ih =>
    rw [expandIncludeFrom_eq]
    cases located : target.path.locate fs options.defaultExtension ctx dir with
    | error e =>
      rintro log _ ⟨⟩ again rfl
      exact absurd located IncludePath.locate_ne_includeCycle
    | ok found =>
      have further := onward ctx found located
      obtain ⟨path, isFile⟩ := found
      have plain : ∀ other ∈ chain ++ [path], IsPlain other := fun other known =>
        FileSystem.isPlain_of_canonicalize current (further.canonical other known)
      by_cases seen : chain.any (Path.same path)
      · simp only [if_pos seen]
        rintro log _ ⟨⟩ again ⟨⟩
        obtain ⟨other, known, same⟩ := List.any_eq_true.mp seen
        obtain rfl := (plain path (by simp)).eq_of_same
          (plain other (List.mem_append_left _ known)) same
        exact ⟨further, chain, path, rfl, distinct, List.count_eq_one_of_mem distinct known⟩
      · simp only [if_neg seen]
        have isNew := isNew_of_not_seen seen
        have fewer := FileSystem.countOutside_append_lt isFile isNew
        refine Loading.raises_bind (Loading.raises_ofEval _) fun bindings _ => ?_
        refine Loading.raises_bind ?_ fun template given => ?_
        · rintro log e failed again rfl
          rw [TemplateCache.anew_result] at failed
          exact absurd failed TemplateCache.read_ne_includeCycle
        · obtain ⟨log, given⟩ := given
          rw [TemplateCache.anew_result] at given
          refine Loading.raises_renderNodes (fun target known ctx => ?_) _
          refine ih _ (outside ▸ fewer) further.canonical
            (distinct.append (List.nodup_singleton path) (by simpa using isNew)) target ?_ ctx rfl
          -- The template of the last file of the chain holds the include.
          intro ctx found located
          exact further.extend ⟨template, given, target, known, ctx, found, located, rfl⟩
            (IncludePath.canonicalize_of_locate current located)

section

variable (current : fs.Canonical fs.current)

include current

theorem renderFrom_reportsCycles (dir : String) (nodes : List Node) (ctx : Context) :
    Loading.Raises (ReportsCycles fs options (IncludesFile fs options dir nodes))
      (renderFrom (TemplateCache.anew (TemplateCache.read fs)) fs options dir nodes ctx) := by
  refine Loading.raises_renderNodes (fun target known ctx => ?_) ctx
  refine expandInclude_reportsCycles current (by nofun) List.nodup_nil target ?_ ctx
  intro ctx found located
  exact .single (IncludePath.canonicalize_of_locate current located)
    ⟨target, known, ctx, found, located, rfl⟩

theorem renderFileFrom_reportsCycles (path : String) (ctx : Context) :
    Loading.Raises (ReportsCycles fs options (fs.canonicalize path = .ok ·))
      (renderFileFrom (TemplateCache.anew (TemplateCache.read fs)) fs options path ctx) := by
  rw [renderFileFrom]
  cases canonical : fs.canonicalize path with
  | error cause =>
    rintro log _ ⟨⟩ chain ⟨⟩
  | ok first =>
    have begin : IncludeChain fs options (fs.canonicalize path = .ok ·) ([] ++ [first]) :=
      .single (FileSystem.canonicalize_self current canonical) canonical
    refine Loading.raises_bind ?_ fun template given => ?_
    · rintro log e failed again rfl
      rw [TemplateCache.anew_result] at failed
      exact absurd failed TemplateCache.read_ne_includeCycle
    · obtain ⟨log, given⟩ := given
      rw [TemplateCache.anew_result] at given
      refine Loading.raises_renderNodes (fun target known ctx => ?_) ctx
      rw [← canonical]
      refine expandInclude_reportsCycles current begin.canonical (List.nodup_singleton first) target
        ?_ ctx
      intro ctx found located
      exact begin.extend ⟨template, given, target, known, ctx, found, located, rfl⟩
        (IncludePath.canonicalize_of_locate current located)

end

/-! ### Graphs without a cycle -/

/-- The file that an include leads to from every scope. -/
def IncludePath.literalFile? (fs : FileSystem) (extension dir : String) : IncludePath → Option String
  | .literal path => fs.canonicalFile?
    (Path.join dir (if extension.isEmpty then path else Path.withDefaultExtension path extension))
  | .dynamic _ => none

/-- All includes of some nodes, at any depth, have literal paths. -/
def AllLiteral (nodes : List Node) : Prop :=
  ∀ target ∈ nodesIncludes nodes, ∃ path, target.path = .literal path

def IncludesLiterally (fs : FileSystem) (options : RenderOptions) (dir : String) (nodes : List Node)
    (path : String) : Prop :=
  ∃ target ∈ nodesIncludes nodes,
    target.path.literalFile? fs options.defaultExtension dir = some path

def LinksLiterally (fs : FileSystem) (options : RenderOptions) (path next : String) : Prop :=
  ∃ template, TemplateCache.read fs path = .ok template ∧
    IncludesLiterally fs options ((Path.parent? path).getD "") template.nodes next

/-- From the files at which a render begins, includes have literal paths and do not lead back to any
file. -/
structure NeverLeadsBack (fs : FileSystem) (options : RenderOptions) (begins : String → Prop) :
    Prop where
  literal : ∀ first path template, begins first → ReflTransGen (LinksLiterally fs options) first path →
    TemplateCache.read fs path = .ok template → AllLiteral template.nodes
  acyclic : ∀ first path, begins first → ReflTransGen (LinksLiterally fs options) first path →
    ¬ TransGen (LinksLiterally fs options) path path

theorem IncludesFile.literally (included : IncludesFile fs options dir nodes path)
    (literal : AllLiteral nodes) : IncludesLiterally fs options dir nodes path := by
  obtain ⟨target, known, ctx, found, located, rfl⟩ := included
  obtain ⟨asked, complete, leads⟩ := IncludePath.locate_ok_iff.mp located
  obtain ⟨written, literal⟩ := literal target known
  refine ⟨target, known, ?_⟩
  -- The scope is not looked at.
  rw [literal] at complete ⊢
  cases complete
  exact leads

theorem transGen_of_isChain {R : String → String → Prop} {first last : String} {between : List String}
    (chain : (first :: (between ++ [last])).IsChain R) : TransGen R first last := by
  induction between generalizing first with
  | nil => exact .single (List.isChain_cons_cons.mp chain).1
  | cons next between ih =>
    obtain ⟨step, later⟩ := List.isChain_cons_cons.mp chain
    exact .head step (ih later)

namespace NeverLeadsBack

variable (leads : NeverLeadsBack fs options begins)

include leads

theorem isChain_literally {first second : String} {later : List String} (begin : begins first)
    (reached : ReflTransGen (LinksLiterally fs options) first second)
    (chain : (second :: later).IsChain (Links fs options)) :
    (second :: later).IsChain (LinksLiterally fs options) := by
  induction later generalizing second with
  | nil => exact List.isChain_singleton second
  | cons third later ih =>
    obtain ⟨⟨template, content, included⟩, chain⟩ := List.isChain_cons_cons.mp chain
    have link : LinksLiterally fs options second third :=
      ⟨template, content, included.literally (leads.literal first second template begin reached content)⟩
    exact List.isChain_cons_cons.mpr ⟨link, ih (reached.tail link) chain⟩

theorem not_includeCycle (chain : List String) : ¬ IncludeCycle fs options begins chain := by
  rintro ⟨⟨begin, linked, -⟩, front, last, rfl, -, once⟩
  have known : last ∈ front := List.count_pos_iff.mp (by omega)
  obtain ⟨before, between, rfl⟩ := List.append_of_mem known
  rw [List.append_assoc, List.cons_append] at begin linked
  -- The chain leads from a file at which the render begins to the last file, and then around.
  have reached : ∃ first, begins first ∧ ReflTransGen (LinksLiterally fs options) first last ∧
      (last :: (between ++ [last])).IsChain (LinksLiterally fs options) := by
    cases before with
    | nil =>
      have begin := begin last rfl
      exact ⟨last, begin, .refl, leads.isChain_literally begin .refl linked⟩
    | cons first before =>
      have begin := begin first rfl
      obtain ⟨towards, around⟩ := List.isChain_cons_split.mp
        (leads.isChain_literally begin .refl linked)
      exact ⟨first, begin, (transGen_of_isChain towards).to_reflTransGen, around⟩
  obtain ⟨first, begin, reached, around⟩ := reached
  exact leads.acyclic first last begin reached (transGen_of_isChain around)

end NeverLeadsBack

/-! ### Caches of files that have not changed -/

namespace TemplateCache

variable {cache : TemplateCache}

/-- What is kept for the path of a file is the template of the file. -/
def IsFaithful (fs : FileSystem) (cache : TemplateCache) : Prop :=
  ∀ path template, IsPlain path → cache.get? path = some template → read fs path = .ok template

theorem isFaithful_empty : empty.IsFaithful fs :=
  fun _ _ _ found => nomatch found

theorem isFaithful_iff : cache.IsFaithful fs ↔ cache.Shows fs (read fs) := by
  constructor
  · intro faithful path plain
    rw [shown]
    cases found : cache.get? path with
    | none => rfl
    | some template => exact (faithful path template plain found).symm
  · intro shows path template plain found
    rw [← shows path plain, shown, found]

end TemplateCache

/-- A cache does not change what is reported. -/
theorem Loading.Caches.raises {P : RenderError → Prop} {cached plain : Loading String}
    {cache later : TemplateCache} {e : RenderError}
    (caches : Loading.Caches fs (TemplateCache.read fs) cached plain)
    (faithful : cache.IsFaithful fs) (raises : Loading.Raises P plain)
    (failed : cached cache = (.error e, later)) : P e := by
  obtain ⟨result, readings, read, loaded, -⟩ :=
    caches cache .empty (TemplateCache.isFaithful_iff.mp faithful)
  cases loaded.symm.trans failed
  exact raises .empty e (by rw [read])

/-- What a render reports as an include cycle is one: pairwise distinct canonical paths and again one
of them, each of a file that is included by the template of the file before it, the first one by the
nodes that are rendered or the file that is rendered itself. Where all includes that are reached have
literal paths and no file includes itself through others, no cycle is reported, however often a file
is included. -/
theorem render_includeCycle (fs : FileSystem) (current : fs.Canonical fs.current)
    (cache : TemplateCache) (faithful : cache.IsFaithful fs) (options : RenderOptions)
    (ctx : Context) :
    (∀ dir nodes,
      (∀ chain later, render fs options dir nodes ctx cache = (.error (.includeCycle chain), later) →
        IncludeCycle fs options (IncludesFile fs options dir nodes) chain) ∧
      (AllLiteral nodes → NeverLeadsBack fs options (IncludesLiterally fs options dir nodes) →
        ∀ chain, (render fs options dir nodes ctx cache).1 ≠ .error (.includeCycle chain))) ∧
    ∀ path,
      (∀ chain later, renderFile fs options path ctx cache = (.error (.includeCycle chain), later) →
        IncludeCycle fs options (fs.canonicalize path = .ok ·) chain) ∧
      (NeverLeadsBack fs options (fs.canonicalize path = .ok ·) →
        ∀ chain, (renderFile fs options path ctx cache).1 ≠ .error (.includeCycle chain)) := by
  have reported (dir : String) (nodes : List Node) (chain : List String) (later : TemplateCache)
      (failed : render fs options dir nodes ctx cache = (.error (.includeCycle chain), later)) :
      IncludeCycle fs options (IncludesFile fs options dir nodes) chain :=
    (render_caches current options dir nodes ctx).raises faithful
      (renderFrom_reportsCycles current dir nodes ctx) failed chain rfl
  have reportedOfFile (path : String) (chain : List String) (later : TemplateCache)
      (failed : renderFile fs options path ctx cache = (.error (.includeCycle chain), later)) :
      IncludeCycle fs options (fs.canonicalize path = .ok ·) chain :=
    (renderFile_caches current options path ctx).raises faithful
      (renderFileFrom_reportsCycles current path ctx) failed chain rfl
  constructor
  · intro dir nodes
    refine ⟨reported dir nodes, ?_⟩
    intro literal leads chain failed
    obtain ⟨chained, returns⟩ := reported dir nodes chain _ (Prod.ext failed rfl)
    -- Includes with literal paths lead to one file, so that the chain begins literally too.
    have begin : ∀ first ∈ chain.head?, IncludesLiterally fs options dir nodes first :=
      fun first here => (chained.begins first here).literally literal
    exact leads.not_includeCycle chain ⟨⟨begin, chained.linked, chained.canonical⟩, returns⟩
  · intro path
    refine ⟨reportedOfFile path, ?_⟩
    intro leads chain failed
    exact leads.not_includeCycle chain (reportedOfFile path chain _ (Prod.ext failed rfl))

set_option maxRecDepth 20000 in
/-- A file that includes itself. -/
theorem render_includeCycle_selfIncluding :
    let fs : FileSystem := ⟨[], [(["a"], .file "[[ a ]]".toUTF8)]⟩
    fs.Canonical fs.current ∧ TemplateCache.empty.IsFaithful fs ∧
      IncludeCycle fs ⟨false, ""⟩ (fs.canonicalize "/a" = .ok ·) ["/a", "/a"] := by
  intro fs
  have current : fs.Canonical fs.current := FileSystem.canonical_root
  have faithful : TemplateCache.empty.IsFaithful fs := TemplateCache.isFaithful_empty
  have canonical : fs.canonicalize "/a" = .ok "/a" := by cbv
  have loaded : TemplateCache.load fs "/a" .empty =
      (.ok ⟨.empty, [.include ⟨.literal "a", []⟩]⟩,
        ⟨[("/a", ⟨.empty, [.include ⟨.literal "a", []⟩]⟩)], 1⟩) := by cbv
  have leads : fs.canonicalFile? "/a" = some "/a" := by cbv
  have located (ctx : Context) : (IncludePath.literal "a").locate fs "" ctx "/" =
      .ok ⟨"/a", FileSystem.mem_filePaths_of_canonicalFile? leads⟩ :=
    IncludePath.locate_ok_iff.mpr ⟨"a", rfl, leads⟩
  have failed : (renderFile fs ⟨false, ""⟩ "/a" .empty .empty).1 =
      .error (.includeCycle ["/a", "/a"]) := by
    have dir : (Path.parent? "/a").getD "" = "/" := by cbv
    rw [renderFile_eq, renderFileFrom]
    simp only [canonical, bind_of_ok loaded, renderNodes, Node.render, dir]
    rw [bind_apply, expandIncludeFrom_eq]
    simp only [located, List.any_cons, Path.same_self, Bool.true_or, if_true]
    rfl
  exact ⟨current, faithful, ((render_includeCycle fs current .empty faithful ⟨false, ""⟩ .empty).2
    "/a").1 _ _ (Prod.ext failed rfl)⟩

end PromptScript
