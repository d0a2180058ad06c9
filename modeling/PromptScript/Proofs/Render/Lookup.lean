import PromptScript.Proofs.Render.Agreement
import PromptScript.Proofs.Render.Cycle
import PromptScript.Proofs.Render.Matching
import PromptScript.Proofs.Render.Termination

/-!
What a render looks up. Two renders stay in step as long as their contexts give the same values to the
variables that are mentioned by what is rendered, or by what can be included from there. The order in which an
include binds its variables is not seen.
-/
namespace PromptScript

open PromptScript.Computation
open Relation (ReflTransGen)

variable {fs fs' : FileSystem} {options : RenderOptions} {dir : String} {nodes others : List Node}
  {ctx ctx' : Context} {R : Include → Include → Prop}

/-! ### What is mentioned -/

/-- A variable that nodes of the directory `dir` mention, or the template of a file to which their includes
can lead. -/
def Mentions (fs : FileSystem) (options : RenderOptions) (dir : String) (nodes : List Node)
    (name : String) : Prop :=
  name ∈ nodesNames nodes ∨ ∃ first path template, IncludesFile fs options dir nodes first ∧
    ReflTransGen (Links fs options) first path ∧ TemplateCache.read fs path = .ok template ∧
    name ∈ nodesNames template.nodes

/-- Two contexts give the same values to all variables that are mentioned. -/
def Context.AgreesFor (fs : FileSystem) (options : RenderOptions) (dir : String) (nodes : List Node)
    (ctx other : Context) : Prop :=
  ∀ name, Mentions fs options dir nodes name → ctx.get? name = other.get? name

namespace Context.AgreesFor

theorem mono (agrees : ctx.AgreesFor fs options dir others ctx')
    (names : ∀ name ∈ nodesNames nodes, name ∈ nodesNames others)
    (includes : ∀ target ∈ nodesIncludes nodes, target ∈ nodesIncludes others) :
    ctx.AgreesFor fs options dir nodes ctx' := by
  refine fun name mentioned => agrees name ?_
  rcases mentioned with here | ⟨first, path, template, ⟨target, known, leads⟩, later⟩
  · exact .inl (names name here)
  · exact .inr ⟨first, path, template, ⟨target, includes target known, leads⟩, later⟩

theorem head {node : Node} {rest : List Node} (agrees : ctx.AgreesFor fs options dir (node :: rest) ctx') :
    ctx.AgreesFor fs options dir [node] ctx' :=
  agrees.mono (by simp +contextual [nodesNames]) (by simp +contextual [nodesIncludes])

theorem tail {node : Node} {rest : List Node} (agrees : ctx.AgreesFor fs options dir (node :: rest) ctx') :
    ctx.AgreesFor fs options dir rest ctx' :=
  agrees.mono (by simp +contextual [nodesNames]) (by simp +contextual [nodesIncludes])

theorem names {node : Node} (agrees : ctx.AgreesFor fs options dir [node] ctx') :
    ∀ name ∈ node.names, ctx.get? name = ctx'.get? name :=
  fun name known => agrees name (.inl (by simp [nodesNames, known]))

theorem child (agrees : ctx.AgreesFor fs options dir nodes ctx') {vars vars' : Mapping}
    (same : ∀ name, Mapping.get? vars name = Mapping.get? vars' name) :
    (ctx.child vars).AgreesFor fs options dir nodes (ctx'.child vars') := by
  intro name mentioned
  rw [get?_child, get?_child, same, agrees name mentioned]

/-- What an included template mentions is mentioned by the nodes that include it. -/
theorem template (agrees : ctx.AgreesFor fs options dir nodes ctx') {path : String} {template : Template}
    (included : IncludesFile fs options dir nodes path)
    (content : TemplateCache.read fs path = .ok template) :
    ctx.AgreesFor fs options ((Path.parent? path).getD "") template.nodes ctx' := by
  refine fun name mentioned => agrees name (.inr ?_)
  rcases mentioned with here | ⟨next, last, _, included', linked, content', here⟩
  · exact ⟨path, path, template, included, .refl, content, here⟩
  · exact ⟨path, last, _, included, .head ⟨template, content, included'⟩ linked, content', here⟩

end Context.AgreesFor

/-! ### Two renders in step -/

/-- Tasks that differ in their includes, which are related, and in variables that they do not mention. -/
inductive RenderWork.InStep (R : Include → Include → Prop) (fs : FileSystem) (options : RenderOptions) :
    RenderWork → RenderWork → Prop
  | nodes {nodes others : List Node} {ctx other : Context} {dir : String} :
    NodesMatch R nodes others → ctx.AgreesFor fs options dir nodes other →
    InStep R fs options (.nodes nodes ctx dir) (.nodes others other dir)
  | branches {branches others : List (Expr × List Node)} {orElse last : Option (List Node)}
      {ctx other : Context} {dir : String} :
    BranchesMatch R branches others → LastMatches R orElse last →
    ctx.AgreesFor fs options dir [.conditional branches orElse] other →
    InStep R fs options (.branches branches orElse ctx dir) (.branches others last other dir)
  | items {var : String} {items : LoopItems} {body others : List Node} {ctx other : Context}
      {dir : String} :
    NodesMatch R body others → ctx.AgreesFor fs options dir body other →
    InStep R fs options (.items var items body ctx dir) (.items var items others other dir)
  | leave : InStep R fs options .leave .leave

structure RenderState.InStep (R : Include → Include → Prop) (fs fs' : FileSystem) (options : RenderOptions)
    (s s' : RenderState) : Prop where
  tasks : List.Forall₂ (RenderWork.InStep R fs options) s.tasks s'.tasks
  chain : s.chain = s'.chain
  text : s.text = s'.text
  shows : s.cache.Shows fs (TemplateCache.read fs)
  shows' : s'.cache.Shows fs' (TemplateCache.read fs')

inductive RenderStage.InStep (R : Include → Include → Prop) (fs fs' : FileSystem)
    (options : RenderOptions) : RenderStage → RenderStage → Prop
  | running {s s' : RenderState} : s.InStep R fs fs' options s' →
    InStep R fs fs' options (.running s) (.running s')
  | ended (result : Except RenderError String) (cache cache' : TemplateCache) :
    InStep R fs fs' options (.ended (result, cache)) (.ended (result, cache'))

/-- If two renders come to includes that are related but differ, the bindings of the first one all have
values. -/
def RenderStage.Evaluates (R : Include → Include → Prop) (stage stage' : RenderStage) : Prop :=
  ∀ target other ctx ctx', stage.IsAt (.include target) ctx → stage'.IsAt (.include other) ctx' →
    R target other → target ≠ other → ∀ binding ∈ target.bindings, ∃ value, binding.2.eval ctx = .ok value

theorem RenderStage.InStep.evaluated {s s' : RenderState} {α : Type} {go go' : α → RenderState}
    {result result' : Except EvalError α} (same : result = result')
    (goes : ∀ a, (go a).InStep R fs fs' options (go' a)) :
    (s.evaluated go result).InStep R fs fs' options (s'.evaluated go' result') := by
  subst same
  cases result with
  | error cause => exact .ended _ _ _
  | ok a => exact .running (goes a)

namespace RenderState.InStep

variable {s s' : RenderState}

theorem push (inStep : s.InStep R fs fs' options s') {task task' : RenderWork}
    (h : task.InStep R fs options task') : (s.push task).InStep R fs fs' options (s'.push task') :=
  { inStep with tasks := .cons h inStep.tasks }

theorem write (inStep : s.InStep R fs fs' options s') (text : String) :
    (s.write text).InStep R fs fs' options (s'.write text) :=
  { inStep with text := congrArg (· ++ text) inStep.text }

theorem leave (inStep : s.InStep R fs fs' options s') : s.leave.InStep R fs fs' options s'.leave :=
  { inStep with chain := congrArg List.dropLast inStep.chain }

section

variable (current : fs.Canonical fs.current) (files : fs.Matches R fs')
  (reorders : ∀ target other, R target other → target.Reordered other)

include current files

/-- An include fails alike in both, or leads to templates that differ in the order of bindings only. -/
theorem visit_include (inStep : s.InStep R fs fs' options s')
    {target other : Include} (reordered : target.Reordered other)
    (agrees : ctx.AgreesFor fs options dir [.include target] ctx')
    (evaluates : target ≠ other → ∀ binding ∈ target.bindings, ∃ value, binding.2.eval ctx = .ok value) :
    (s.visit fs options ctx dir (.include target)).InStep R fs fs' options
      (s'.visit fs' options ctx' dir (.include other)) := by
  have same : ∀ name ∈ target.names, ctx.get? name = ctx'.get? name := agrees.names
  have file : other.path.file fs' options.defaultExtension ctx' dir =
      target.path.file fs options.defaultExtension ctx dir := by
    rw [← reordered.path_eq, IncludePath.file_congr files.found fun name known =>
      same name (List.mem_append_left _ known)]
  rw [RenderState.visit_include, RenderState.visit_include, file, ← inStep.chain]
  cases located : target.path.file fs options.defaultExtension ctx dir with
  | error e => exact .ended _ _ _
  | ok path =>
    dsimp only
    split
    · exact .ended _ _ _
    -- The chains are the same, so that neither of the includes is a cycle.
    rcases reordered.values_alike same evaluates with ⟨cause, failed, failed'⟩ |
      ⟨vars, vars', bound, bound', alike⟩
    · rw [failed, failed']
      exact .ended _ _ _
    obtain ⟨found, leads, rfl⟩ := IncludePath.file_ok_iff.mp located
    have included : IncludesFile fs options dir [.include target] found.1 :=
      ⟨target, by simp [nodesIncludes, Node.includes], ctx, found, leads, rfl⟩
    obtain ⟨asked, _, leads⟩ := IncludePath.locate_ok_iff.mp leads
    have plain := FileSystem.isPlain_of_canonicalFile? current leads
    -- What a cache shows is what is read, whether or not the file is there already.
    rw [bound, bound']
    dsimp only
    rw [inStep.shows _ plain, inStep.shows' _ plain]
    cases content : TemplateCache.read fs found.1 with
    | error e =>
      rw [files.failed _ e content]
      exact .ended _ _ _
    | ok template =>
      obtain ⟨template', content', nodes⟩ := files.template _ template content
      rw [content']
      exact .running ⟨.cons (.nodes nodes ((agrees.template included content).child alike))
        (.cons .leave inStep.tasks), rfl, inStep.text, inStep.shows.keep plain content,
        inStep.shows'.keep plain content'⟩

include reorders

theorem visit (inStep : s.InStep R fs fs' options s') {node other : Node} (alike : node.Matches R other)
    (agrees : ctx.AgreesFor fs options dir [node] ctx')
    (evaluates : ∀ target target', node = .include target → other = .include target' →
      R target target' → target ≠ target' →
        ∀ binding ∈ target.bindings, ∃ value, binding.2.eval ctx = .ok value) :
    (s.visit fs options ctx dir node).InStep R fs fs' options (s'.visit fs' options ctx' dir other) := by
  cases alike with
  | text text => exact .running (inStep.write text)
  | interpolation path =>
    exact .evaluated (interpolate_congr (agrees.names path.root (by simp [Node.names])) _) inStep.write
  | block body =>
    refine .running (inStep.push (.nodes body (agrees.mono ?_ ?_)))
    · simp [nodesNames, Node.names]
    · simp [nodesIncludes, Node.includes]
  | conditional branches last => exact .running (inStep.push (.branches branches last agrees))
  | @loop _ iterable _ _ body =>
    have same : iterable.items ctx = iterable.items ctx' :=
      Expr.items_congr fun name known => agrees.names name (by simp [Node.names, known])
    refine .evaluated same fun items => inStep.push (.items body (agrees.mono ?_ ?_))
    · simp +contextual [nodesNames, Node.names]
    · simp [nodesIncludes, Node.includes]
  | «include» related =>
    exact visit_include current files inStep (reorders _ _ related) agrees (evaluates _ _ rfl rfl related)
  | functionImport | effect | stateAssign => exact .running inStep

theorem perform (inStep : s.InStep R fs fs' options s') {task task' : RenderWork}
    (alike : task.InStep R fs options task')
    (evaluates : RenderStage.Evaluates R (.running (s.push task)) (.running (s'.push task'))) :
    (s.perform fs options task).InStep R fs fs' options (s'.perform fs' options task') := by
  cases alike with
  | leave => exact .running inStep.leave
  | nodes alike agrees =>
    cases alike with
    | nil => exact .running inStep
    | cons first later =>
      refine visit current files reorders (inStep.push (.nodes later agrees.tail)) first agrees.head ?_
      -- The node that is visited is the one that the stages are at.
      rintro target target' rfl rfl
      exact evaluates target target' _ _ ⟨_, _, _, rfl⟩ ⟨_, _, _, rfl⟩
  | @branches _ _ _ _ ctx ctx' _ branches last agrees =>
    cases branches with
    | nil =>
      cases last with
      | none => exact .running inStep
      | some body =>
        refine .running (inStep.push (.nodes body (agrees.mono ?_ ?_)))
        · simp [nodesNames, Node.names, orElseNames, branchesNames]
        · simp [nodesIncludes, Node.includes, orElseIncludes, branchesIncludes]
    | @cons condition _ _ _ _ body rest =>
      have same : condition.holds ctx = condition.holds ctx' := Expr.holds_congr fun name known =>
        agrees.names name (by simp [Node.names, branchesNames, known])
      refine .evaluated same fun truth => ?_
      cases truth with
      | true =>
        refine inStep.push (.nodes body (agrees.mono ?_ ?_))
        · simp +contextual [nodesNames, Node.names, branchesNames]
        · simp +contextual [nodesIncludes, Node.includes, branchesIncludes]
      | false =>
        refine inStep.push (.branches rest last (agrees.mono ?_ ?_))
        · simp +contextual only [nodesNames, Node.names, branchesNames, List.mem_append]
          grind
        · simp +contextual [nodesIncludes, Node.includes, branchesIncludes]
  | @items var items body _ _ _ _ alike agrees =>
    simp only [RenderState.perform]
    cases items.next? with
    | none => exact .running inStep
    | some next =>
      exact .running ((inStep.push (.items alike agrees)).push
        (.nodes alike (agrees.child fun _ => rfl)))

end

end RenderState.InStep

namespace RenderStage.InStep

variable {stage stage' : RenderStage}

theorem ended_eq {outcome : Except RenderError String × TemplateCache}
    (inStep : RenderStage.InStep R fs fs' options (.ended outcome) stage') :
    ∃ cache', stage' = .ended (outcome.1, cache') := by
  cases inStep with
  | ended result cache cache' => exact ⟨cache', rfl⟩

variable (current : fs.Canonical fs.current) (files : fs.Matches R fs')
  (reorders : ∀ target other, R target other → target.Reordered other)

include current files reorders

theorem next (inStep : stage.InStep R fs fs' options stage') (evaluates : stage.Evaluates R stage') :
    (stage.next fs options).InStep R fs fs' options (stage'.next fs' options) := by
  cases inStep with
  | ended => exact .ended _ _ _
  | @running s s' inStep =>
    obtain ⟨tasks, chain, text, cache⟩ := s
    obtain ⟨tasks', chain', text', cache'⟩ := s'
    obtain ⟨alike, sameChain, sameText, shows, shows'⟩ := inStep
    cases alike with
    | nil =>
      cases sameText
      exact .ended _ _ _
    | @cons task task' later later' first rest =>
      have behind : RenderState.InStep R fs fs' options ⟨later, chain, text, cache⟩
          ⟨later', chain', text', cache'⟩ := ⟨rest, sameChain, sameText, shows, shows'⟩
      exact behind.perform current files reorders first evaluates

theorem iterate (inStep : stage.InStep R fs fs' options stage')
    (evaluates : ∀ n, ((RenderStage.next fs options)^[n] stage).Evaluates R
      ((RenderStage.next fs' options)^[n] stage')) (n : ℕ) :
    ((RenderStage.next fs options)^[n] stage).InStep R fs fs' options
      ((RenderStage.next fs' options)^[n] stage') := by
  induction n with
  | zero => exact inStep
  | succ n ih =>
    rw [Function.iterate_succ_apply', Function.iterate_succ_apply']
    exact ih.next current files reorders (evaluates n)

end RenderStage.InStep

/-- Renders that start in step give the same. -/
theorem render_inStep (current : fs.Canonical fs.current) (files : fs.Matches R fs')
    (reorders : ∀ target other, R target other → target.Reordered other)
    {cache cache' : TemplateCache} (faithful : cache.IsFaithful fs) (faithful' : cache'.IsFaithful fs')
    (alike : NodesMatch R nodes others) (agrees : ctx.AgreesFor fs options dir nodes ctx')
    (evaluates : ∀ n, ((RenderStage.next fs options)^[n] (.start dir nodes ctx cache)).Evaluates R
      ((RenderStage.next fs' options)^[n] (.start dir others ctx' cache'))) :
    (render fs options dir nodes ctx cache).1 = (render fs' options dir others ctx' cache').1 := by
  have start : RenderStage.InStep R fs fs' options (.start dir nodes ctx cache)
      (.start dir others ctx' cache') :=
    .running ⟨.cons (.nodes alike agrees) .nil, rfl, rfl, TemplateCache.isFaithful_iff.mp faithful,
      TemplateCache.isFaithful_iff.mp faithful'⟩
  -- The first render ends, and the second one ends with the same.
  have ends : Reaches fs options (.start dir nodes ctx cache)
      (.ended (render fs options dir nodes ctx cache)) := reaches_ended fs options [] dir nodes ctx cache
  have ends' : Reaches fs' options (.start dir others ctx' cache')
      (.ended (render fs' options dir others ctx' cache')) :=
    reaches_ended fs' options [] dir others ctx' cache'
  obtain ⟨n, last⟩ := ends
  obtain ⟨later, last'⟩ := (last ▸ start.iterate current files reorders evaluates n).ended_eq
  rw [ends'.ended_unique ⟨n, last'⟩]

/-- What a render gives depends on no other variables than those that are mentioned by what is rendered or can
be included from there. So it is the same in the one scope into which a context is flattened. It is also the
same in whatever order includes bind variables of different names, if wherever the render comes to such an
include all its bindings have values. -/
theorem render_reads_mentioned (current : fs.Canonical fs.current) {cache cache' : TemplateCache}
    (faithful : cache.IsFaithful fs) (faithful' : cache'.IsFaithful fs) (options : RenderOptions)
    (dir : String) (nodes : List Node) (ctx : Context) :
    (∀ other, (∀ name, Mentions fs options dir nodes name → ctx.get? name = other.get? name) →
      (render fs options dir nodes ctx cache).1 = (render fs options dir nodes other cache').1) ∧
    (ctx.Distinct → (render fs options dir nodes ctx cache).1 =
      (render fs options dir nodes (.ofMapping ctx.flatten) cache').1) ∧
    ∀ fs' others cache', fs.Matches Include.Reordered fs' → cache'.IsFaithful fs' →
      NodesMatch Include.Reordered nodes others →
      (∀ n, ((RenderStage.next fs options)^[n] (.start dir nodes ctx cache)).Evaluates Include.Reordered
        ((RenderStage.next fs' options)^[n] (.start dir others ctx cache'))) →
      (render fs options dir nodes ctx cache).1 = (render fs' options dir others ctx cache').1 := by
  have reads (other : Context) (agrees : ctx.AgreesFor fs options dir nodes other) :
      (render fs options dir nodes ctx cache).1 = (render fs options dir nodes other cache').1 := by
    have same (target : Include) : target = target := rfl
    refine render_inStep current (.refl same fs) ?_ faithful faithful' (.refl same nodes) agrees ?_
    · rintro target _ rfl
      exact .same target
    -- The includes are the same, so that it does not matter whether their bindings have values.
    · exact fun _ _ _ _ _ _ _ same differ => absurd same differ
  refine ⟨reads, fun distinct => reads _ fun name _ => ?_, ?_⟩
  · rw [Context.get?_ofMapping, Context.get?_flatten distinct]
  · intro fs' others cache' files faithful' alike evaluates
    exact render_inStep current files (fun _ _ => id) faithful faithful' alike (fun _ _ => rfl) evaluates

set_option maxRecDepth 20000 in
/-- A variable with two values in a chain of scopes, of which the inner one is shown, and an include with two
bindings. -/
theorem render_reads_mentioned_shadowed :
    let fs : FileSystem := ⟨[], [(["b"], .file "<<x>>".toUTF8)]⟩
    let ctx : Context := ⟨[[("x", .str "1")], [("y", .null), ("x", .str "2")]]⟩
    let render (nodes : List Node) ctx := (render fs ⟨true, ""⟩ "/" nodes ctx .empty).1
    let shown : List Node := [.interpolation ⟨"x", []⟩]
    let included (bindings : List (String × Expr)) : List Node := [.include ⟨.literal "b", bindings⟩]
    render shown ctx = .ok "1" ∧ render shown (.ofMapping [("x", .str "1")]) = .ok "1" ∧
      render shown (.ofMapping ctx.flatten) = .ok "1" ∧
      render (included [("x", .literal .null), ("z", .literal .null)]) ctx =
        render (included [("z", .literal .null), ("x", .literal .null)]) ctx := by
  intro fs ctx render shown included
  have current : fs.Canonical fs.current := FileSystem.canonical_root
  have faithful : TemplateCache.empty.IsFaithful fs := TemplateCache.isFaithful_empty
  have reads (nodes : List Node) := render_reads_mentioned current faithful faithful ⟨true, ""⟩ "/" nodes ctx
  have first : render shown ctx = .ok "1" := by rfl
  have agrees : ∀ name, Mentions fs ⟨true, ""⟩ "/" shown name →
      ctx.get? name = (Context.ofMapping [("x", .str "1")]).get? name := by
    rintro name (here | ⟨_, _, _, ⟨target, known, _⟩, _⟩)
    · rw [List.mem_singleton.mp here]
      rfl
    · cases known
  have located (ctx : Context) : (IncludePath.literal "b").file fs "" ctx "/" = .ok "/b" := by cbv
  have loaded : TemplateCache.empty.shown fs "/b" = .ok ⟨.empty, [.block [.text "x\n"]]⟩ := by cbv
  have step : RenderStage.next fs ⟨true, ""⟩
      (.start "/" (included [("x", .literal .null), ("z", .literal .null)]) ctx .empty) =
      .running ⟨[.nodes [.block [.text "x\n"]] (ctx.child [("x", .null), ("z", .null)]) "/", .leave,
        .nodes [] ctx "/"], ["/b"], "", ⟨[("/b", ⟨.empty, [.block [.text "x\n"]]⟩)], 1⟩⟩ := by
    have visits := RenderState.visit_include fs ⟨true, ""⟩ ⟨[.nodes [] ctx "/"], [], "", .empty⟩ ctx "/"
      ⟨.literal "b", [("x", .literal .null), ("z", .literal .null)]⟩
    simp only [located, loaded] at visits
    exact visits
  refine ⟨first, ((reads shown).1 _ agrees).symm.trans first,
    ((reads shown).2.1 (by decide)).symm.trans first, ?_⟩
  refine (reads _).2.2 fs _ _ (.refl .same fs) faithful ?_ ?_
  · exact .cons (.include (.permuted rfl (.swap _ _ _) (by decide))) .nil
  · rintro (_ | n) target other scope scope' here there related differ binding known
    · obtain ⟨rest, dir, later, same⟩ := here
      cases same
      rcases List.mem_pair.mp known with rfl | rfl <;> exact ⟨_, rfl⟩
    · -- No include is left behind the first one.
      rw [Function.iterate_succ_apply, step] at here
      rcases Nat.lt_or_ge n 7 with early | late
      · interval_cases n <;> obtain ⟨_, _, _, same⟩ := here <;> cases same
      · obtain ⟨m, rfl⟩ := Nat.exists_eq_add_of_le' late
        let last : Except RenderError String × TemplateCache :=
          (.ok "x\n", ⟨[("/b", ⟨.empty, [.block [.text "x\n"]]⟩)], 1⟩)
        have ended : (RenderStage.next fs ⟨true, ""⟩)^[m] (.ended last) = .ended last :=
          (RenderStage.isFixedPt_ended last).iterate m
        rw [Function.iterate_add_apply] at here
        have after : RenderStage.IsAt (.include target) scope (.ended last) := ended ▸ here
        exact after.elim

end PromptScript
