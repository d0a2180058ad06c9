import PromptScript.Proofs.Session.Mirror
import PromptScript.Proofs.Session.Rendering

/-!
A script without imports, assignments and effects runs as it is rendered: to the same text, or to the
same error, where the buffer then holds what is rendered before the segment that failed.
-/
namespace PromptScript

variable {σ : Type}

/-- Whether a frame holds a node, at any depth, that only scripts use. -/
def Frame.isScript : Frame → Bool
  | .nodes rest _ => nodesAreScript rest
  | .loop _ body _ _ => nodesAreScript body

theorem Node.bodies_areScript {node : Node} {body : List Node} (prose : node.isScript = false)
    (inside : body ∈ node.bodies) : nodesAreScript body = false := by
  cases node with
  | conditional branches orElse =>
    obtain ⟨first, last⟩ := Bool.or_eq_false_iff.mp prose
    rcases List.mem_append.mp inside with branch | inLast
    · clear prose inside
      induction branches with
      | nil => cases branch
      | cons branch rest ih =>
        obtain ⟨here, later⟩ := Bool.or_eq_false_iff.mp first
        rcases List.mem_cons.mp branch with same | inRest
        · exact same ▸ here
        · exact ih later inRest
    · cases orElse with
      | none => cases inLast
      | some body => cases List.mem_singleton.mp inLast; exact last
  | loop var iterable body => cases List.mem_singleton.mp inside; exact prose
  | _ => cases inside

namespace Stack

def IsProse (stack : Stack) : Prop :=
  ∀ frame ∈ stack, frame.isScript = false

theorem isProse_cons {frame : Frame} {stack : Stack} :
    IsProse (frame :: stack) ↔ frame.isScript = false ∧ IsProse stack :=
  List.forall_mem_cons

theorem IsProse.next? {stack rest : Stack} {segment : Segment} (prose : IsProse stack)
    (found : stack.next? = some (segment, rest)) :
    segment.node.isScript = false ∧ IsProse rest := by
  fun_induction Stack.next? stack with
  | case1 => cases found
  | case2 bindings outer ih => exact ih (isProse_cons.mp prose).2 found
  | case3 node later bindings outer =>
    cases found
    obtain ⟨here, outside⟩ := isProse_cons.mp prose
    obtain ⟨first, last⟩ := Bool.or_eq_false_iff.mp here
    exact ⟨first, isProse_cons.mpr ⟨last, outside⟩⟩
  | case4 var body items bindings outer done ih => exact ih (isProse_cons.mp prose).2 found
  -- The body is unrolled above its loop, and is prose as the loop is.
  | case5 var body items bindings outer value later step ih =>
    obtain ⟨here, outside⟩ := isProse_cons.mp prose
    exact ih (isProse_cons.mpr ⟨here, isProse_cons.mpr ⟨here, outside⟩⟩) found

theorem Opens.isProse {segment : Segment} {frames : Stack} (opens : Opens segment frames)
    (prose : segment.node.isScript = false) : IsProse frames := by
  cases opens with
  | nothing => exact nofun
  | body inside | loop inside =>
    exact isProse_cons.mpr ⟨Node.bodies_areScript prose inside, nofun⟩

end Stack

namespace Session

variable {setup : Setup σ} {s next : Session} {world world' : World σ}

theorem isProse_of_execute {segment : Segment} (prose : Stack.IsProse s.stack)
    (segmentProse : segment.node.isScript = false)
    (h : s.execute setup segment world = (.ok next, world')) : Stack.IsProse next.stack := by
  obtain ⟨frames, acted, opens, _, rfl⟩ := execute_ok_iff.mp h
  intro frame known
  rcases List.mem_append.mp known with inside | outside
  · exact (opens_of_opened opens).isProse segmentProse frame inside
  · exact prose frame outside

/-- Prose fails at a condition or an iterable of the script itself, or where it is rendered. -/
theorem error_of_execute {segment : Segment} {e : EffectError}
    (prose : segment.node.isScript = false)
    (h : s.execute setup segment world = (.error e, world')) :
    (segment.node.isControl = true ∧ ∃ cause, e = .eval cause) ∨
      (segment.node.isControl = false ∧ ∃ cause, e = .render cause) := by
  obtain ⟨node, bindings⟩ := segment
  rcases execute_error_iff.mp h with ⟨cause, opens, rfl, _⟩ | ⟨frames, _, fails⟩
  · cases node with
    | conditional | loop => exact .inl ⟨rfl, cause, rfl⟩
    | _ => cases opens
  · cases node with
    | text | interpolation | block | «include» =>
      cases fails
      exact .inr ⟨rfl, _, rfl⟩
    | conditional | loop => cases fails with | renders prose => cases prose
    | _ => cases prose

theorem isProse_of_advance {progress : Progress} (active : s.phase.isActive)
    (prose : Stack.IsProse s.stack)
    (h : s.advance setup world = ((.ok progress, next), world')) : Stack.IsProse next.stack := by
  rcases advance_cases setup s world active with ⟨_, advanced⟩ |
    ⟨segment, stack, after, last, found, executed, advanced⟩ | ⟨_, _, _, _, _, _, advanced⟩
  · cases advanced.symm.trans h
    exact nofun
  · have taken := prose.next? found
    cases advanced.symm.trans h
    exact isProse_of_execute (s := s.taking stack) taken.2 taken.1 executed
  · cases advanced.symm.trans h

theorem failed_of_runOn {e : EffectError} (active : s.phase.isActive)
    (prose : Stack.IsProse s.stack)
    (h : s.runOn setup world = ((.failed e, next), world')) :
    ∃ segment, next.phase = .failed (.segment segment) ∧
      ((segment.node.isControl = true ∧ ∃ cause, e = .eval cause) ∨
        (segment.node.isControl = false ∧ ∃ cause, e = .render cause)) := by
  fun_induction runOn setup s world with
  | case1 s world after later advanced _ ih =>
    exact ih (isActive_of_advance active advanced) (isProse_of_advance active prose advanced) h
  | case2 | case3 => cases h
  | case4 s world e after later advanced =>
    cases h
    rcases advance_cases setup s world active with ⟨_, done⟩ | ⟨_, _, _, _, _, _, done⟩ |
      ⟨segment, stack, _, _, found, executed, done⟩
    · cases done.symm.trans advanced
    · cases done.symm.trans advanced
    · cases done.symm.trans advanced
      exact ⟨segment, rfl, error_of_execute (prose.next? found).1 executed⟩

end Session

namespace Reply

variable {setup : Setup σ} {s : Session} {world : World σ} {requests : List RunRequest}
  {outcome : StepOutcome} {last : Scene σ}

theorem rest_of_suspended (setup : Setup σ) (world : World σ) (requests : List RunRequest)
    {request : RunRequest} (describes : (Reply.stopped (.suspended request)).Describes s) :
    ∃ scene, (Reply.stopped (.suspended request)).rest setup (fun _ => false) s world [] requests =
      (.error (.unanswered s.state.request), scene) := by
  rw [rest, Session.walk_of_suspended describes.1]
  · exact ⟨_, rfl⟩
  · intro _ same
    cases same
  · intro _ same
    cases same

theorem completed_of_rest (describes : (Reply.stopped outcome).Describes s)
    (h : (Reply.stopped outcome).rest setup (fun _ => false) s world [] requests = (.ok (), last)) :
    outcome = .completed s.state ∧ s.scene world [] requests = last := by
  cases outcome with
  | suspended request =>
    obtain ⟨scene, waits⟩ := rest_of_suspended setup world requests describes
    cases waits.symm.trans h
  | completed state =>
    obtain rfl : state = s.state := describes
    cases h
    exact ⟨rfl, rfl⟩
  | failed => cases h

theorem failed_of_rest {e : EffectError} (describes : (Reply.stopped outcome).Describes s)
    (h : (Reply.stopped outcome).rest setup (fun _ => false) s world [] requests =
      (.error (.failed e), last)) :
    outcome = .failed e ∧ s.scene world [] requests = last := by
  cases outcome with
  | suspended request =>
    obtain ⟨scene, waits⟩ := rest_of_suspended setup world requests describes
    cases waits.symm.trans h
  | completed => cases h
  | failed => cases h; exact ⟨rfl, rfl⟩

end Reply

theorem Scene.Wrote.bufferText_eq {nodes : List Node} {s : Session} {world after : World σ}
    {text : String} {cache : TemplateCache}
    (wrote : ((Session.start nodes .empty).scene world [] []).Wrote text cache
      (s.scene after [] [])) :
    s.state.bufferText = text ∧ after = { world with cache } := by
  obtain ⟨buffer, _, joined, same⟩ := wrote
  have state := congrArg Scene.state same
  have left := congrArg Scene.world same
  refine ⟨?_, left⟩
  rw [SessionState.bufferText, show s.state.buffer = buffer from congrArg SessionState.buffer state]
  exact joined.trans (String.empty_append)

theorem Scene.shows_start {ctx : Context} (distinct : ctx.Distinct) (setup : Setup σ)
    (base : setup.base = ctx.flatten) (nodes : List Node) (world : World σ) :
    ((Session.start nodes .empty).scene world [] []).Shows setup world.files ctx [] where
  files := rfl
  agrees name := by
    rw [Scene.scope, base, Context.get?_ofMapping]
    exact Context.get?_flatten distinct name
  distinct := List.nodup_nil

/-- A script without imports, assignments and effects completes if and only if it can be rendered,
with the same text. Where rendering fails, the session fails with the same error, which is wrapped by
where it was raised, and its buffer holds what is rendered before the segment that failed. -/
theorem step_start_iff_render (registry : Registry σ) (options : RenderOptions)
    (baseDir lastResult : String) (ctx : Context) (distinct : ctx.Distinct) (nodes : List Node)
    (prose : nodesAreScript nodes = false) (world : World σ) :
    let setup : Setup σ := ⟨registry, options, ctx.flatten, baseDir, lastResult⟩
    let ((outcome, s), after) := (Session.start nodes .empty).step setup none world
    match render world.files options baseDir nodes ctx world.cache with
    | (.ok text, cache) =>
      outcome = .completed s.state ∧ s.state.bufferText = text ∧ after = { world with cache }
    | (.error cause, cache) => ∃ e segment,
      outcome = .failed e ∧ s.phase = .failed (.segment segment) ∧
      (segment.node.isControl = true → ∃ evalError, cause = .eval evalError ∧ e = .eval evalError) ∧
      (segment.node.isControl = false → e = .render cause) ∧
      s.state.bufferText = nodesBefore options.strict (expandInclude world.files options [] baseDir)
        ctx nodes world.cache ∧
      after = { world with cache } := by
  intro setup
  -- The walk writes what is rendered, and a session that runs on comes to the end of its walk.
  have written : ((Session.start nodes .empty).scene world [] []).Writes
      (walkNodes setup [] nodes _) (nodesBefore _ (setup.expand world.files) ctx nodes world.cache)
      (render world.files options baseDir nodes ctx world.cache) :=
    nodes_follow nodes prose ctx [] _ (Scene.shows_start distinct setup rfl nodes world)
  have reached := (Mirror.refl setup).leads_of_runOn (s := Session.start nodes .empty) world rfl
  rw [Session.step_of_isActive setup world rfl]
  have isProse : Stack.IsProse (Session.start nodes .empty).stack :=
    Stack.isProse_cons.mpr ⟨prose, nofun⟩
  have failed {e next last}
      (h : (Session.start nodes .empty).runOn setup world = ((.failed e, next), last)) :=
    Session.failed_of_runOn rfl isProse h
  -- From here on, only what is known of the end of the run is used.
  revert reached failed
  generalize (Session.start nodes .empty).runOn setup world = ran
  obtain ⟨⟨outcome, s⟩, after⟩ := ran
  rintro ⟨describes, led⟩ failed
  obtain ⟨_, rfl, walked⟩ := led _ rfl
  have describes : (Reply.stopped outcome).Describes s := describes
  have walked : (Reply.stopped outcome).rest setup (fun _ => false) s after [] [] = _ := walked [] []
  rw [Session.walk_start] at walked
  rw [← walked] at written
  generalize render world.files options baseDir nodes ctx world.cache = result at written ⊢
  obtain ⟨cause | text, cache⟩ := result
  · obtain ⟨e, last, walked, wraps, wrote⟩ := written
    obtain ⟨rfl, rfl⟩ := Reply.failed_of_rest describes walked
    obtain ⟨buffer, left⟩ := wrote.bufferText_eq
    -- The kind of the failed segment decides how the error of rendering is wrapped.
    obtain ⟨segment, phase, ⟨control, evalError, rfl⟩ | ⟨control, renderError, rfl⟩⟩ :=
      failed rfl
    · cases wraps
      refine ⟨_, segment, rfl, phase, fun _ => ⟨evalError, rfl, rfl⟩, fun rendering => ?_, buffer,
        left⟩
      rw [control] at rendering
      cases rendering
    · cases wraps
      refine ⟨_, segment, rfl, phase, fun script => ?_, fun _ => rfl, buffer, left⟩
      rw [control] at script
      cases script
  · obtain ⟨last, walked, wrote⟩ := written
    obtain ⟨rfl, rfl⟩ := Reply.completed_of_rest describes walked
    exact ⟨rfl, wrote.bufferText_eq⟩

/-- The inner scope of the context hides the outer one, in the session as in the rendered text. -/
theorem step_start_greeting :
    let ctx : Context := ⟨[[("name", .str "Ada")], [("name", .str "Bob"), ("ready", .bool true)]]⟩
    let nodes : List Node := [.text "Hello ", .interpolation ⟨"name", []⟩,
      .conditional [(.path ⟨"ready", []⟩, [.text "!"])] none]
    let setup : Setup Unit := ⟨.empty, .default, ctx.flatten, "", defaultLastResult⟩
    let ran := (Session.start nodes .empty).step setup none default
    ctx.Distinct ∧ nodesAreScript nodes = false ∧
      ran.1.1 = .completed ran.1.2.state ∧ ran.1.2.state.bufferText = "Hello Ada!" := by
  intro ctx nodes setup ran
  have distinct : ctx.Distinct := by decide
  have agree := step_start_iff_render (.empty : Registry Unit) .default "" defaultLastResult ctx
    distinct nodes rfl default
  have rendered : render (default : World Unit).files .default "" nodes ctx
      (default : World Unit).cache = (.ok "Hello Ada!", (default : World Unit).cache) := rfl
  simp only [rendered] at agree
  exact ⟨distinct, rfl, agree.1, agree.2.1⟩

end PromptScript
