import PromptScript.Proofs.Render.Agreement
import PromptScript.Proofs.Session.Interpretation

/-!
Prose that is walked through as a script comes out as it is rendered. Where rendering fails, the walk
fails alike, and has written what is rendered before the segment that fails.
-/
namespace PromptScript

variable {σ : Type}

def renderItems (text : Value → Loading String) : List Value → Loading String
  | [] => return ""
  | value :: rest => do
    let first ← text value
    return first ++ (← renderItems text rest)

theorem LoopItems.collectFrom_eq (items : LoopItems) (before : String)
    (text : Value → Loading String) :
    items.collectFrom before text =
      (do return before ++ (← renderItems text items.toList)) := by
  induction bound : items.bound using Nat.strongRecOn generalizing items before with
  | ind n ih =>
    cases found : items.next? with
    | none => simp [collectFrom_of_next?_none found, toList_of_next?_none found, renderItems]
    | some next =>
      have fewer := bound_next_lt found
      simp [collectFrom_of_next?_some found, toList_of_next?_some found, renderItems,
        ih _ (bound ▸ fewer) next.2 _ rfl, String.append_assoc]

theorem LoopItems.collect_eq (items : LoopItems) (text : Value → Loading String) :
    items.collect text = renderItems text items.toList := by
  simp [collect, collectFrom_eq]

def itemsBefore (text : Value → Loading String) (before : Value → TemplateCache → String) :
    List Value → TemplateCache → String
  | [], _ => ""
  | value :: rest, cache =>
    match text value cache with
    | (.ok first, later) => first ++ itemsBefore text before rest later
    | (.error _, _) => before value cache

mutual

/-- What is rendered for a node before the segment that fails. Conditions, iterables, and prose of
one node are segments of their own. -/
def Node.textBefore (strict : Bool) (expand : Include → Context → Loading String) (ctx : Context) :
    Node → TemplateCache → String
  | .conditional branches orElse, cache =>
    match branchesBefore strict expand ctx branches cache with
    | some text => text
    | none => lastBefore strict expand ctx orElse cache
  | .loop var iterable body, cache =>
    match iterable.items ctx with
    | .ok items =>
      itemsBefore (fun value => renderNodes strict expand (ctx.child [(var, value)]) body)
        (fun value => nodesBefore strict expand (ctx.child [(var, value)]) body) items.toList cache
    | .error _ => ""
  | _, _ => ""

def nodesBefore (strict : Bool) (expand : Include → Context → Loading String) (ctx : Context) :
    List Node → TemplateCache → String
  | [], _ => ""
  | node :: rest, cache =>
    match node.render strict expand ctx cache with
    | (.ok text, later) => text ++ nodesBefore strict expand ctx rest later
    | (.error _, _) => node.textBefore strict expand ctx cache

def branchesBefore (strict : Bool) (expand : Include → Context → Loading String) (ctx : Context) :
    List (Expr × List Node) → TemplateCache → Option String
  | [], _ => none
  | (condition, body) :: rest, cache =>
    match condition.holds ctx with
    | .ok true => some (nodesBefore strict expand ctx body cache)
    | .ok false => branchesBefore strict expand ctx rest cache
    | .error _ => some ""

def lastBefore (strict : Bool) (expand : Include → Context → Loading String) (ctx : Context) :
    Option (List Node) → TemplateCache → String
  | none, _ => ""
  | some body, cache => nodesBefore strict expand ctx body cache

end

theorem Node.textBefore_of_isProse {strict : Bool} {expand : Include → Context → Loading String}
    {ctx : Context} {node : Node} (prose : node.isProse) (cache : TemplateCache) :
    node.textBefore strict expand ctx cache = "" := by
  cases node with
  | text | interpolation | block | «include» => rw [Node.textBefore] <;> nofun
  | _ => cases prose

theorem Context.Agrees.choose {ctx other : Context} (agrees : ctx.Agrees other)
    (orElse : Option (List Node)) (branches : List (Expr × List Node)) :
    Session.choose ctx orElse branches = Session.choose other orElse branches := by
  induction branches with
  | nil => rfl
  | cons branch rest ih => simp only [Session.choose, agrees.holds, ih]

section

variable {strict : Bool} {expand : Include → Context → Loading String} {ctx : Context}

theorem render_conditional (branches : List (Expr × List Node)) (orElse : Option (List Node)) :
    (Node.conditional branches orElse).render strict expand ctx =
      match Session.choose ctx orElse branches with
      | .error cause => throw (.eval cause)
      | .ok last => renderLast strict expand ctx last := by
  rw [Node.render]
  induction branches with
  | nil => simp [renderBranches, Session.choose]
  | cons branch rest ih =>
    obtain ⟨condition, body⟩ := branch
    simp only [renderBranches, Session.choose_cons]
    cases holds : condition.holds ctx with
    | error cause => rfl
    | ok truth =>
      have evaluated : (Loading.ofEval (.ok truth) : Loading Bool) = pure truth := rfl
      rw [evaluated, pure_bind]
      cases truth with
      | true => simp [renderLast]
      | false => exact ih

theorem textBefore_conditional (branches : List (Expr × List Node)) (orElse : Option (List Node))
    (cache : TemplateCache) :
    (Node.conditional branches orElse).textBefore strict expand ctx cache =
      match Session.choose ctx orElse branches with
      | .error _ => ""
      | .ok last => lastBefore strict expand ctx last cache := by
  rw [Node.textBefore]
  induction branches with
  | nil => rfl
  | cons branch rest ih =>
    obtain ⟨condition, body⟩ := branch
    simp only [branchesBefore, Session.choose_cons]
    cases holds : condition.holds ctx with
    | error cause => rfl
    | ok truth =>
      cases truth with
      | true => rfl
      | false => exact ih

end

/-- How an error of rendering comes out of a script: what a condition or an iterable of the script
itself raises is not an error of prose. -/
inductive EffectError.Wraps : EffectError → RenderError → Prop
  | render {cause : RenderError} : Wraps (.render cause) cause
  | eval {cause : EvalError} : Wraps (.eval cause) (.eval cause)

namespace Scene

/-- A walk has put a text into the buffer, and has loaded templates. -/
def Wrote (scene : Scene σ) (text : String) (cache : TemplateCache) (after : Scene σ) : Prop :=
  ∃ buffer effects, String.join buffer = String.join scene.state.buffer ++ text ∧
    after = { scene with
      state := { scene.state with buffer }
      effects
      world := { scene.world with cache } }

/-- A walk writes what rendering gives; where rendering fails, it fails alike, and has written what
comes before. -/
def Writes (scene : Scene σ) (walked : Except Halt Unit × Scene σ) (before : String) :
    Except RenderError String × TemplateCache → Prop
  | (.ok text, cache) => ∃ after, walked = (.ok (), after) ∧ scene.Wrote text cache after
  | (.error cause, cache) => ∃ e after, walked = (.error (.failed e), after) ∧ e.Wraps cause ∧
      scene.Wrote before cache after

theorem Wrote.refl (scene : Scene σ) : scene.Wrote "" scene.world.cache scene :=
  ⟨scene.state.buffer, scene.effects, by simp, rfl⟩

theorem Wrote.trans {scene between after : Scene σ} {text later : String}
    {cache last : TemplateCache} (h : scene.Wrote text cache between)
    (h' : between.Wrote later last after) : scene.Wrote (text ++ later) last after := by
  obtain ⟨buffer, _, joined, rfl⟩ := h
  obtain ⟨buffer', effects, joined', rfl⟩ := h'
  exact ⟨buffer', effects, by rw [joined', joined, String.append_assoc], rfl⟩

theorem Wrote.cache_eq {scene after : Scene σ} {text : String} {cache : TemplateCache}
    (h : scene.Wrote text cache after) : after.world.cache = cache := by
  obtain ⟨_, _, _, rfl⟩ := h
  rfl

/-- What is in sight of a scene is what a context gives. -/
structure Shows (setup : Setup σ) (fs : FileSystem) (ctx : Context) (bindings : Mapping)
    (scene : Scene σ) : Prop where
  files : scene.world.files = fs
  agrees : (scene.scope setup bindings).Agrees ctx
  distinct : (Mapping.keys bindings).Nodup

namespace Shows

variable {setup : Setup σ} {fs : FileSystem} {ctx : Context} {bindings : Mapping} {scene : Scene σ}

theorem wrote {after : Scene σ} {text : String} {cache : TemplateCache}
    (sight : scene.Shows setup fs ctx bindings) (h : scene.Wrote text cache after) :
    after.Shows setup fs ctx bindings := by
  obtain ⟨_, _, _, rfl⟩ := h
  exact ⟨sight.files, sight.agrees, sight.distinct⟩

/-- A loop variable comes into sight before all others. -/
theorem bind (sight : scene.Shows setup fs ctx bindings) (var : String) (value : Value) :
    scene.Shows setup fs (ctx.child [(var, value)]) (Mapping.insert bindings var value) where
  files := sight.files
  agrees name := by
    -- The new binding hides both an earlier one of the same name and the variables.
    have outer := sight.agrees name
    rw [Scene.scope, Context.get?_ofMapping, Mapping.get?_merge sight.distinct] at outer
    rw [Scene.scope, Context.get?_ofMapping,
      Mapping.get?_merge (Mapping.keys_insert_nodup sight.distinct var value),
      Mapping.get?_insert, Context.get?_child, ← outer]
    by_cases same : var = name <;> simp [Mapping.get?, same]
  distinct := Mapping.keys_insert_nodup sight.distinct var value

end Shows

end Scene

/-- Wherever a context is in sight, a walk writes what a text gives. -/
def Follows (setup : Setup σ) (fs : FileSystem) (ctx : Context) (bindings : Mapping)
    (walk : Walking σ Unit) (text : Loading String) (before : TemplateCache → String) : Prop :=
  ∀ scene : Scene σ, scene.Shows setup fs ctx bindings →
    scene.Writes (walk scene) (before scene.world.cache) (text scene.world.cache)

namespace Follows

variable {setup : Setup σ} {fs : FileSystem} {ctx : Context} {bindings : Mapping}

theorem nothing (before : TemplateCache → String) :
    Follows setup fs ctx bindings (pure ()) (pure "") before :=
  fun scene _ => ⟨scene, rfl, .refl scene⟩

theorem seq {first second : Walking σ Unit} {text later : Loading String}
    {before laterBefore : TemplateCache → String}
    (here : Follows setup fs ctx bindings first text before)
    (there : Follows setup fs ctx bindings second later laterBefore) :
    Follows setup fs ctx bindings (do first; second) (do let done ← text; return done ++ (← later))
      fun cache => match text cache with
        | (.ok done, cache) => done ++ laterBefore cache
        | (.error _, _) => before cache := by
  intro scene sight
  have written := here scene sight
  rcases rendered : text scene.world.cache with ⟨cause | done, cache⟩ <;> rw [rendered] at written
  -- The first part fails, and so does the whole.
  · obtain ⟨e, after, walked, wraps, wrote⟩ := written
    rw [Computation.bind_of_error walked, Computation.bind_of_error rendered]
    exact ⟨e, after, rfl, wraps, by simpa only [rendered] using wrote⟩
  · obtain ⟨between, walked, wrote⟩ := written
    rw [Computation.bind_of_ok walked, Computation.bind_of_ok rendered]
    -- What the first part writes leaves the second part in sight of the same context.
    have rest := there between (sight.wrote wrote)
    rw [wrote.cache_eq] at rest
    rcases renderedLater : later cache with ⟨cause | more, last⟩ <;> rw [renderedLater] at rest
    · obtain ⟨e, after, walked, wraps, wrote'⟩ := rest
      rw [Computation.bind_of_error renderedLater]
      exact ⟨e, after, walked, wraps, by simpa only [rendered] using wrote.trans wrote'⟩
    · obtain ⟨after, walked, wrote'⟩ := rest
      rw [Computation.bind_of_ok renderedLater]
      exact ⟨after, walked, wrote.trans wrote'⟩

theorem items {walk : Value → Walking σ Unit} {text : Value → Loading String}
    {before : Value → TemplateCache → String}
    (each : ∀ value, Follows setup fs ctx bindings (walk value) (text value) (before value))
    (values : List Value) :
    Follows setup fs ctx bindings (forM values walk) (renderItems text values)
      (itemsBefore text before values) := by
  induction values with
  | nil => exact nothing _
  | cons value rest ih =>
    rw [List.forM_cons]
    exact (each value).seq ih

theorem enter {walk : Walking σ Unit} {text : Loading String} {before : TemplateCache → String}
    (var : String) (value : Value)
    (h : Follows setup fs (ctx.child [(var, value)]) (Mapping.insert bindings var value) walk text
      before) : Follows setup fs ctx bindings walk text before :=
  fun scene sight => h scene (sight.bind var value)

end Follows

/-- How the includes of a script come out. -/
abbrev Setup.expand (setup : Setup σ) (fs : FileSystem) : Include → Context → Loading String :=
  expandInclude fs setup.options [] setup.baseDir

abbrev Node.Follows (setup : Setup σ) (fs : FileSystem) (ctx : Context) (bindings : Mapping)
    (node : Node) : Prop :=
  PromptScript.Follows setup fs ctx bindings (node.walk setup bindings)
    (node.render setup.options.strict (setup.expand fs) ctx)
    (node.textBefore setup.options.strict (setup.expand fs) ctx)

abbrev NodesFollow (setup : Setup σ) (fs : FileSystem) (ctx : Context) (bindings : Mapping)
    (nodes : List Node) : Prop :=
  Follows setup fs ctx bindings (walkNodes setup bindings nodes)
    (renderNodes setup.options.strict (setup.expand fs) ctx nodes)
    (nodesBefore setup.options.strict (setup.expand fs) ctx nodes)

namespace Follows

variable {setup : Setup σ} {fs : FileSystem} {ctx : Context} {bindings : Mapping}

theorem prose {node : Node} (prose : node.isProse) : node.Follows setup fs ctx bindings := by
  intro scene sight
  -- A session renders the node on its own, in one scope with all that is in sight.
  have single : render scene.world.files setup.options setup.baseDir [node]
      (scene.scope setup bindings) =
        node.render setup.options.strict (setup.expand fs) ctx := by
    rw [render_uniform sight.agrees, sight.files]
    simp [render, renderNodes]
  rw [Node.walk_of_isProse prose, Walking.prose]
  rcases rendered : node.render setup.options.strict (setup.expand fs) ctx scene.world.cache with
    ⟨cause | text, cache⟩
  · rw [Computation.bind_of_error (Walking.ofActing_of_error (Acting.ofLoading_error_iff.mpr
      ⟨cause, cache, (congrFun single _).trans rendered, rfl, rfl⟩))]
    exact ⟨_, _, rfl, .render, scene.state.buffer, scene.effects,
      by simp [Node.textBefore_of_isProse prose], rfl⟩
  · rw [Computation.bind_of_ok (Walking.ofActing_of_ok (Acting.ofLoading_ok_iff.mpr
      ⟨cache, (congrFun single _).trans rendered, rfl⟩))]
    refine ⟨_, rfl, ?_⟩
    -- Empty prose does not become an entry of the buffer, which makes no difference to its text.
    cases silent : text.isEmpty with
    | true =>
      obtain rfl := String.isEmpty_iff.mp silent
      exact ⟨scene.state.buffer, _, by simp, rfl⟩
    | false =>
      exact ⟨scene.state.buffer ++ [text], _, by simp [String.join], by simp [SessionState.push]; rfl⟩

theorem conditional {branches : List (Expr × List Node)} {orElse : Option (List Node)}
    (bodies : ∀ body ∈ branches.map (·.2) ++ orElse.toList, NodesFollow setup fs ctx bindings body) :
    (Node.conditional branches orElse).Follows setup fs ctx bindings := by
  intro scene sight
  rw [Walking.walk_conditional, sight.agrees.choose, render_conditional, textBefore_conditional]
  cases chosen : Session.choose ctx orElse branches with
  | error cause => exact ⟨.eval cause, scene, rfl, .eval, .refl scene⟩
  | ok last =>
    cases last with
    | none => exact nothing (fun _ => "") scene sight
    | some body => exact bodies body (Session.choose_mem chosen) scene sight

theorem loop {var : String} {iterable : Expr} {body : List Node}
    (each : ∀ value, NodesFollow setup fs (ctx.child [(var, value)])
      (Mapping.insert bindings var value) body) :
    (Node.loop var iterable body).Follows setup fs ctx bindings := by
  intro scene sight
  have same := sight.agrees.items iterable
  rw [Node.walk, Node.render, Node.textBefore]
  cases found : iterable.items ctx with
  | error cause =>
    rw [Computation.bind_of_error (Walking.eval_of_error (same.trans found))]
    exact ⟨.eval cause, scene, rfl, .eval, .refl scene⟩
  | ok items =>
    rw [Computation.bind_of_ok (Walking.eval_of_ok (same.trans found))]
    have evaluated : (Loading.ofEval (.ok items) : Loading LoopItems) = pure items := rfl
    rw [evaluated, pure_bind, LoopItems.collect_eq]
    exact Follows.items (fun value => (each value).enter var value) items.toList scene sight

end Follows

variable {setup : Setup σ} {fs : FileSystem}

mutual

theorem Node.follows : (node : Node) → node.isScript = false → ∀ ctx bindings,
    node.Follows setup fs ctx bindings
  | .conditional branches orElse, prose, ctx, bindings => by
    obtain ⟨first, last⟩ := Bool.or_eq_false_iff.mp prose
    refine .conditional fun body inside => ?_
    rcases List.mem_append.mp inside with branch | inLast
    · exact branches_follow branches first body branch ctx bindings
    · exact last_follows orElse last body inLast ctx bindings
  | .loop _ _ body, prose, _, _ => .loop fun _ => nodes_follow body prose _ _
  | .text _, _, _, _ | .interpolation _, _, _, _ | .include _, _, _, _ | .block _, _, _, _ =>
    .prose rfl
  | .functionImport .., prose, _, _ | .effect _, prose, _, _ | .stateAssign .., prose, _, _ =>
    nomatch prose

theorem nodes_follow : (nodes : List Node) → nodesAreScript nodes = false → ∀ ctx bindings,
    NodesFollow setup fs ctx bindings nodes
  | [], _, _, _ => .nothing _
  | node :: rest, prose, ctx, bindings => by
    obtain ⟨first, later⟩ := Bool.or_eq_false_iff.mp prose
    exact (node.follows first ctx bindings).seq (nodes_follow rest later ctx bindings)

theorem branches_follow : (branches : List (Expr × List Node)) →
    branchesAreScript branches = false → ∀ body ∈ branches.map (·.2), ∀ ctx bindings,
      NodesFollow setup fs ctx bindings body
  | [], _, _, inside, _, _ => nomatch inside
  | (_, first) :: rest, prose, body, inside, ctx, bindings => by
    obtain ⟨here, later⟩ := Bool.or_eq_false_iff.mp prose
    rcases List.mem_cons.mp inside with same | inRest
    · exact same ▸ nodes_follow first here ctx bindings
    · exact branches_follow rest later body inRest ctx bindings

theorem last_follows : (orElse : Option (List Node)) → orElseIsScript orElse = false →
    ∀ body ∈ orElse.toList, ∀ ctx bindings, NodesFollow setup fs ctx bindings body
  | none, _, _, inside, _, _ => nomatch inside
  | some last, prose, body, inside, ctx, bindings => by
    rw [Option.toList_some, List.mem_singleton] at inside
    exact inside ▸ nodes_follow last prose ctx bindings

end

end PromptScript
