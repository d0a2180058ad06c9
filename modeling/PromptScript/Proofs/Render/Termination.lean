import Mathlib
import PromptScript.Proofs.Files.Canonical
import PromptScript.Proofs.Render.Steps

/-!
A render ends after finitely many steps, with what it renders, whatever files include. Includes cannot
nest without end, since the files being expanded are existing files and pairwise distinct.
-/
namespace PromptScript

open PromptScript.Computation

variable {fs : FileSystem} {options : RenderOptions} {chain : List String} {dir : String}

/-! ### The steps of a task -/

/-- Finitely many steps lead from one stage to another. -/
def Reaches (fs : FileSystem) (options : RenderOptions) (a b : RenderStage) : Prop :=
  ∃ n, (RenderStage.next fs options)^[n] a = b

theorem Reaches.refl (a : RenderStage) : Reaches fs options a a :=
  ⟨0, rfl⟩

theorem Reaches.trans {a b c : RenderStage} (first : Reaches fs options a b)
    (second : Reaches fs options b c) : Reaches fs options a c := by
  obtain ⟨n, rfl⟩ := first
  obtain ⟨m, rfl⟩ := second
  exact ⟨m + n, Function.iterate_add_apply _ m n a⟩

theorem Reaches.task {s : RenderState} {task : RenderWork} {b : RenderStage}
    (h : Reaches fs options (s.perform fs options task) b) :
    Reaches fs options (.running (s.push task)) b :=
  .trans ⟨1, rfl⟩ h

theorem RenderStage.isFixedPt_ended (outcome : Except RenderError String × TemplateCache) :
    Function.IsFixedPt (RenderStage.next fs options) (.ended outcome) :=
  rfl

theorem Reaches.ended_unique {a : RenderStage} {outcome other : Except RenderError String × TemplateCache}
    (ends : Reaches fs options a (.ended outcome)) (ends' : Reaches fs options a (.ended other)) :
    outcome = other :=
  RenderStage.ended.inj (ends_unique (RenderStage.isFixedPt_ended _) (RenderStage.isFixedPt_ended _) ends ends')

/-- Where a task ends that has rendered to a text, or has failed. -/
def RenderState.settled (s : RenderState) : Except RenderError String × TemplateCache → RenderStage
  | (.ok text, cache) => .running { s.write text with cache }
  | (.error e, cache) => .ended (.error e, cache)

/-- The first task of a stack does what a computation does, and leaves the others alone. -/
def Performs (fs : FileSystem) (options : RenderOptions) (chain : List String) (task : RenderWork)
    (computation : Loading String) : Prop :=
  ∀ s : RenderState, s.chain = chain →
    Reaches fs options (.running (s.push task)) (s.settled (computation s.cache))

/-- A node is visited as a computation renders it. -/
def Visits (fs : FileSystem) (options : RenderOptions) (chain : List String) (dir : String)
    (ctx : Context) (node : Node) (computation : Loading String) : Prop :=
  ∀ s : RenderState, s.chain = chain →
    Reaches fs options (s.visit fs options ctx dir node) (s.settled (computation s.cache))

theorem RenderState.settled_pure (s : RenderState) (text : String) :
    s.settled ((pure text : Loading String) s.cache) = .running (s.write text) :=
  rfl

@[simp] theorem RenderState.write_empty (s : RenderState) : s.write "" = s := by
  simp [write]

/-- Where nothing is to be rendered, no step is needed. -/
theorem reaches_empty (s : RenderState) :
    Reaches fs options (.running s) (s.settled ((pure "" : Loading String) s.cache)) := by
  rw [s.settled_pure, s.write_empty]
  exact .refl _

/-- What is evaluated first comes first, and its failure ends the walk. -/
theorem reaches_evaluated {α : Type} {s : RenderState} {result : Except EvalError α}
    {go : α → RenderState} {computation : α → Loading String}
    (goes : ∀ a, Reaches fs options (.running (go a)) (s.settled (computation a s.cache))) :
    Reaches fs options (s.evaluated go result)
      (s.settled ((Loading.ofEval result >>= computation) s.cache)) := by
  cases result with
  | error cause => exact .refl _
  | ok a => exact goes a

/-- A task behind another one does what is left. -/
theorem Performs.after {task : RenderWork} {first second : Loading String} {s : RenderState}
    {start : RenderStage} (same : s.chain = chain) (performs : Performs fs options chain task second)
    (leads : Reaches fs options start ((s.push task).settled (first s.cache))) :
    Reaches fs options start
      (s.settled ((do let text ← first; return text ++ (← second)) s.cache)) := by
  refine leads.trans ?_
  rw [bind_apply]
  rcases first s.cache with ⟨_ | text, cache⟩
  · exact .refl _
  · refine (performs { s.write text with cache } same).trans ?_
    simp only [bind_apply]
    rcases second cache with ⟨_ | more, cache⟩
    · exact .refl _
    · simp only [RenderState.settled, RenderState.write, String.append_assoc]
      exact .refl _

theorem performs_nodes_nil (ctx : Context) :
    Performs fs options chain (.nodes [] ctx dir) (pure "") :=
  fun s _ => .task (reaches_empty s)

theorem performs_nodes_cons {ctx : Context} {node : Node} {rest : List Node}
    {first second : Loading String} (visits : Visits fs options chain dir ctx node first)
    (performs : Performs fs options chain (.nodes rest ctx dir) second) :
    Performs fs options chain (.nodes (node :: rest) ctx dir)
      (do let text ← first; return text ++ (← second)) :=
  fun s same => .task (performs.after same (visits (s.push (.nodes rest ctx dir)) same))

/-- The items of a loop come one after the other, each with a round through the body. -/
theorem performs_items {var : String} {body : List Node} {ctx : Context}
    {text : Value → Loading String}
    (performs : ∀ value,
      Performs fs options chain (.nodes body (ctx.child [(var, value)]) dir) (text value))
    (items : LoopItems) :
    Performs fs options chain (.items var items body ctx dir) (items.collect text) := by
  suffices rounds : ∀ (s : RenderState) (before : String), s.chain = chain →
      Reaches fs options (.running ((s.write before).push (.items var items body ctx dir)))
        (s.settled (items.collectFrom before text s.cache)) by
    intro s same
    simpa [LoopItems.collect] using rounds s "" same
  -- Of each item that is taken, fewer are left.
  induction bound : items.bound using Nat.strongRecOn generalizing items with
  | ind n ih =>
    intro s before same
    refine .task ?_
    rw [RenderState.perform]
    cases found : items.next? with
    | none =>
      rw [LoopItems.collectFrom_of_next?_none found]
      exact .refl _
    | some next =>
      obtain ⟨value, rest⟩ := next
      have fewer := LoopItems.bound_next_lt found
      have round := performs value ((s.write before).push (.items var rest body ctx dir)) same
      rw [LoopItems.collectFrom_of_next?_some found, bind_apply]
      refine round.trans ?_
      simp only [RenderState.push, RenderState.write]
      rcases text value s.cache with ⟨_ | more, cache⟩
      · exact .refl _
      · have later := ih _ (bound ▸ fewer) rest rfl { s with cache } (before ++ more) same
        simpa only [RenderState.settled, RenderState.push, RenderState.write,
          String.append_assoc] using later

/-- What includes stand for is rendered while the files of the chain are being expanded. -/
def Expands (fs : FileSystem) (options : RenderOptions) (chain : List String) (dir : String)
    (expand : Include → Context → Loading String) : Prop :=
  ∀ target ctx, Visits fs options chain dir ctx (.include target) (expand target ctx)

section

variable {expand : Include → Context → Loading String}

mutual

theorem Node.visits (expands : Expands fs options chain dir expand) :
    (node : Node) → ∀ ctx : Context,
      Visits fs options chain dir ctx node (node.render options.strict expand ctx)
  | .text text, ctx => by
    rw [Node.render]
    exact fun s _ => .refl _
  | .interpolation path, ctx => by
    rw [Node.render]
    intro s _
    rw [RenderState.visit]
    cases interpolate options.strict ctx path with
    | error cause => exact .refl _
    | ok text => exact .refl _
  | .block body, ctx => by
    rw [Node.render]
    exact renderNodes_performs expands body ctx
  | .conditional branches orElse, ctx => by
    rw [Node.render]
    exact renderBranches_performs expands branches orElse ctx
      (renderLast_performs expands orElse ctx)
  | .loop var iterable body, ctx => by
    rw [Node.render]
    intro s same
    exact reaches_evaluated fun items => performs_items
      (fun value => renderNodes_performs expands body (ctx.child [(var, value)])) items s same
  | .include target, ctx => by
    rw [Node.render]
    exact expands target ctx
  | .functionImport .., ctx | .effect _, ctx | .stateAssign .., ctx => by
    rw [Node.render]
    exact fun s _ => reaches_empty s

theorem renderNodes_performs (expands : Expands fs options chain dir expand) :
    (nodes : List Node) → ∀ ctx : Context,
      Performs fs options chain (.nodes nodes ctx dir)
        (renderNodes options.strict expand ctx nodes)
  | [], ctx => by
    rw [renderNodes]
    exact performs_nodes_nil ctx
  | node :: rest, ctx => by
    rw [renderNodes]
    exact performs_nodes_cons (node.visits expands ctx) (renderNodes_performs expands rest ctx)

theorem renderBranches_performs (expands : Expands fs options chain dir expand) :
    (branches : List (Expr × List Node)) → ∀ (orElse : Option (List Node)) (ctx : Context),
      Performs fs options chain (.branches [] orElse ctx dir)
        (renderLast options.strict expand ctx orElse) →
      Performs fs options chain (.branches branches orElse ctx dir) (do
        match ← renderBranches options.strict expand ctx branches with
        | some text => return text
        | none => renderLast options.strict expand ctx orElse)
  | [], orElse, ctx, last => by
    rw [renderBranches, pure_bind]
    exact last
  | (condition, body) :: rest, orElse, ctx, last => by
    intro s same
    rw [renderBranches, bind_assoc]
    refine .task (reaches_evaluated fun holds => ?_)
    cases holds with
    | true => simpa using renderNodes_performs expands body ctx s same
    | false => simpa using renderBranches_performs expands rest orElse ctx last s same

theorem renderLast_performs (expands : Expands fs options chain dir expand) :
    (orElse : Option (List Node)) → ∀ ctx : Context,
      Performs fs options chain (.branches [] orElse ctx dir)
        (renderLast options.strict expand ctx orElse)
  | none, _ => fun s _ => .task (reaches_empty s)
  | some body, ctx => fun s same => .task (renderNodes_performs expands body ctx s same)

end

end

/-- An include of a file that is not being expanded puts one more file on the chain, and takes it
off again. -/
theorem expandInclude_expands (fs : FileSystem) (options : RenderOptions) (chain : List String)
    (dir : String) : Expands fs options chain dir (expandInclude fs options chain dir) := by
  -- Each include leaves one file fewer outside of the chain.
  induction outside : fs.countOutside chain using Nat.strongRecOn generalizing chain dir with
  | ind n ih =>
    rintro target ctx s rfl
    rw [expandInclude, bind_apply, RenderState.visit]
    rcases target.resolve fs options.defaultExtension ctx dir s.chain s.cache with
      ⟨_ | ⟨path, isFile, isNew, template, bindings⟩, cache⟩
    · exact .refl _
    have fewer := FileSystem.countOutside_append_lt isFile isNew
    refine (renderNodes_performs (ih _ (outside ▸ fewer) _ _ rfl) template.nodes
      (ctx.child bindings) { s.push .leave with chain := s.chain ++ [path], cache } rfl).trans ?_
    simp only []
    rcases renderNodes options.strict _ (ctx.child bindings) template.nodes cache with
      ⟨_ | text, cache⟩
    · exact .refl _
    · -- The chain is again what it was before the include.
      refine .task (s := { s.write text with chain := s.chain ++ [path], cache }) ?_
      simp only [RenderState.perform, RenderState.leave, List.dropLast_concat]
      exact .refl _

/-- Nodes that nothing comes behind are rendered to the end. -/
theorem reaches_ended (fs : FileSystem) (options : RenderOptions) (chain : List String) (dir : String)
    (nodes : List Node) (ctx : Context) (cache : TemplateCache) :
    Reaches fs options (.running ⟨[.nodes nodes ctx dir], chain, "", cache⟩)
      (.ended (renderNodes options.strict (expandInclude fs options chain dir) ctx nodes cache)) := by
  have performs := renderNodes_performs (expandInclude_expands fs options chain dir) nodes ctx
    ⟨[], chain, "", cache⟩ rfl
  refine performs.trans ?_
  rcases renderNodes options.strict (expandInclude fs options chain dir) ctx nodes cache with
    ⟨_ | text, later⟩
  · exact .refl _
  · exact ⟨1, by simp [RenderState.settled, RenderState.write, RenderStage.next]⟩

theorem startFile_reaches (fs : FileSystem) (options : RenderOptions) (path : String) (ctx : Context)
    (cache : TemplateCache) :
    Reaches fs options (.startFile fs path ctx cache)
      (.ended (renderFile fs options path ctx cache)) := by
  rw [RenderStage.startFile, renderFile]
  cases fs.canonicalize path with
  | error cause => exact .refl _
  | ok root =>
    simp only [bind_apply]
    rcases TemplateCache.load fs root cache with ⟨_ | template, later⟩
    · exact .refl _
    · exact reaches_ended fs options [root] _ template.nodes ctx later

/-! ### The chain -/

/-- What holds of the files being expanded, as long as a render is going on. -/
def RenderStage.Chained (holds : List String → Prop) : RenderStage → Prop
  | .running s => holds s.chain
  | .ended _ => True

section

variable {holds : List String → Prop}
  (enters : ∀ chain path, holds chain → path ∉ chain → fs.IsCanonicalFile path →
    holds (chain ++ [path]))

theorem chained_evaluated {α : Type} {s : RenderState} {go : α → RenderState}
    {result : Except EvalError α} (goes : ∀ a, holds (go a).chain) :
    (s.evaluated go result).Chained holds := by
  cases result with
  | error cause => trivial
  | ok a => exact goes a

include enters

theorem chained_visit {s : RenderState} (start : holds s.chain) (ctx : Context) (dir : String)
    (node : Node) : (s.visit fs options ctx dir node).Chained holds := by
  cases node with
  | text | block | conditional | functionImport | effect | stateAssign => exact start
  | interpolation | loop => exact chained_evaluated fun _ => start
  | «include» target =>
    rw [RenderState.visit]
    split
    · next found cache resolved =>
      exact enters s.chain found.path start found.isNew (Include.isCanonicalFile_of_resolve resolved)
    · trivial

theorem chained_next (leaves : ∀ chain, holds chain → holds chain.dropLast) {stage : RenderStage}
    (start : stage.Chained holds) : (stage.next fs options).Chained holds := by
  cases stage with
  | ended => trivial
  | running s =>
    obtain ⟨_ | ⟨task, later⟩, chain, text, cache⟩ := s
    · trivial
    cases task with
    | leave => exact leaves chain start
    | nodes nodes ctx dir =>
      cases nodes with
      | nil => exact start
      | cons node rest =>
        exact chained_visit enters (s := ⟨.nodes rest ctx dir :: later, chain, text, cache⟩) start
          ctx dir node
    | branches branches orElse ctx dir =>
      rcases branches with _ | ⟨⟨condition, body⟩, rest⟩
      · cases orElse <;> exact start
      · exact chained_evaluated fun truth => by cases truth <;> exact start
    | items var items body ctx dir =>
      simp only [RenderStage.next, RenderState.perform]
      split <;> exact start

theorem chained_iterate (leaves : ∀ chain, holds chain → holds chain.dropLast) {stage : RenderStage}
    (start : stage.Chained holds) (n : Nat) :
    ((RenderStage.next fs options)^[n] stage).Chained holds := by
  induction n with
  | zero => exact start
  | succ n ih =>
    rw [Function.iterate_succ_apply']
    exact chained_next enters leaves ih

end

/-- The files being expanded are existing files, pairwise distinct; of some at the start it may not
be known that they exist. -/
structure ExpandsFiles (fs : FileSystem) (known : Nat) (chain : List String) : Prop where
  distinct : chain.Nodup
  exist : ∀ path ∈ chain.drop known, fs.IsCanonicalFile path

theorem ExpandsFiles.enter {known : Nat} {path : String} (expands : ExpandsFiles fs known chain)
    (isNew : path ∉ chain) (isFile : fs.IsCanonicalFile path) :
    ExpandsFiles fs known (chain ++ [path]) := by
  refine ⟨?_, fun other member => ?_⟩
  · exact List.nodup_append.mpr ⟨expands.distinct, List.nodup_singleton path,
      fun a known b same => by
        rw [List.mem_singleton.mp same]
        exact fun equal => isNew (equal ▸ known)⟩
  · rw [List.drop_append] at member
    rcases List.mem_append.mp member with old | new
    · exact expands.exist other old
    · rw [List.mem_singleton.mp (List.mem_of_mem_drop new)]
      exact isFile

theorem ExpandsFiles.leave {known : Nat} (expands : ExpandsFiles fs known chain) :
    ExpandsFiles fs known chain.dropLast := by
  refine ⟨expands.distinct.sublist (List.dropLast_sublist chain), fun path member => ?_⟩
  exact expands.exist path (((List.dropLast_prefix chain).drop known).subset member)

theorem chained_start (known : Nat) (dir : String) (nodes : List Node) (ctx : Context)
    (cache : TemplateCache) :
    (RenderStage.start dir nodes ctx cache).Chained (ExpandsFiles fs known) :=
  ⟨List.nodup_nil, by simp⟩

theorem chained_startFile (path : String) (ctx : Context) (cache : TemplateCache) :
    (RenderStage.startFile fs path ctx cache).Chained (ExpandsFiles fs 1) := by
  rw [RenderStage.startFile]
  split
  · trivial
  · split
    · exact ⟨List.nodup_singleton _, by simp⟩
    · trivial

/-- A file that a template could be loaded from exists. -/
theorem chained_startFile_of_isReadable (path : String) (ctx : Context) {cache : TemplateCache}
    (current : fs.Canonical fs.current) (readable : cache.IsReadable fs) :
    (RenderStage.startFile fs path ctx cache).Chained (ExpandsFiles fs 0) := by
  rw [RenderStage.startFile]
  split
  · trivial
  · next root canonical =>
    split
    · next template later loaded =>
      obtain ⟨location, traced, rfl⟩ := except_map_ok_iff.mp canonical
      have isFile := readable.isCanonicalFile (current.of_trace traced) loaded
      exact ⟨List.nodup_singleton _, by simpa using isFile⟩
    · trivial

/-- A render ends after finitely many steps, with what it renders to, and the chain is at every point
made of pairwise distinct canonical paths of existing files. Of a file that the render starts with,
a cache may know a template although there is no such file. -/
theorem render_ends (fs : FileSystem) (options : RenderOptions) :
    (∀ dir nodes ctx cache,
      (∃ n, (RenderStage.next fs options)^[n] (.start dir nodes ctx cache) =
        .ended (render fs options dir nodes ctx cache)) ∧
      ∀ n s, (RenderStage.next fs options)^[n] (.start dir nodes ctx cache) = .running s →
        s.chain.Nodup ∧ ∀ path ∈ s.chain, fs.IsCanonicalFile path) ∧
    (∀ path ctx cache,
      (∃ n, (RenderStage.next fs options)^[n] (.startFile fs path ctx cache) =
        .ended (renderFile fs options path ctx cache)) ∧
      ∀ n s, (RenderStage.next fs options)^[n] (.startFile fs path ctx cache) = .running s →
        s.chain.Nodup ∧ (∀ path ∈ s.chain.tail, fs.IsCanonicalFile path) ∧
        (fs.Canonical fs.current → cache.IsReadable fs →
          ∀ path ∈ s.chain, fs.IsCanonicalFile path)) := by
  have point : ∀ known start, start.Chained (ExpandsFiles fs known) → ∀ n s,
      (RenderStage.next fs options)^[n] start = .running s → ExpandsFiles fs known s.chain := by
    intro known start chained n s reached
    have there : ((RenderStage.next fs options)^[n] start).Chained (ExpandsFiles fs known) :=
      chained_iterate (fun _ _ => ExpandsFiles.enter) (fun _ => ExpandsFiles.leave) chained n
    rwa [reached] at there
  refine ⟨fun dir nodes ctx cache => ⟨reaches_ended fs options [] dir nodes ctx cache, ?_⟩,
    fun path ctx cache => ⟨startFile_reaches fs options path ctx cache, ?_⟩⟩
  · intro n s reached
    have expands := point 0 _ (chained_start 0 dir nodes ctx cache) n s reached
    exact ⟨expands.distinct, expands.exist⟩
  · intro n s reached
    have expands := point 1 _ (chained_startFile path ctx cache) n s reached
    refine ⟨expands.distinct, by simpa using expands.exist, fun current readable => ?_⟩
    exact (point 0 _ (chained_startFile_of_isReadable path ctx current readable) n s reached).exist

set_option maxRecDepth 20000 in
/-- A file that includes itself is rendered to the end. -/
theorem render_ends_selfIncluding :
    let fs : FileSystem := ⟨[], [(["a"], .file "[[ a ]]".toUTF8)]⟩
    (∃ n, (RenderStage.next fs ⟨false, ""⟩)^[n] (.startFile fs "/a" .empty .empty) =
      .ended (renderFile fs ⟨false, ""⟩ "/a" .empty .empty)) ∧ fs.IsCanonicalFile "/a" := by
  intro fs
  have ends := (render_ends fs ⟨false, ""⟩).2 "/a" .empty .empty
  have start : RenderStage.startFile fs "/a" .empty .empty = .running
      ⟨[.nodes [.include ⟨.literal "a", []⟩] .empty "/"], ["/a"], "",
        ⟨[("/a", ⟨.empty, [.include ⟨.literal "a", []⟩]⟩)], 1⟩⟩ := by
    cbv
  exact ⟨ends.1, (ends.2 0 _ start).2.2 FileSystem.canonical_root TemplateCache.isReadable_empty "/a"
    List.mem_cons_self⟩

end PromptScript
