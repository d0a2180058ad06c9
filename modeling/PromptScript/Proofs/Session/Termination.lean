import PromptScript.Proofs.Render.Termination
import PromptScript.Proofs.Session.Transition

/-!
A step of a session ends. What a session does is told here as a sequence of small steps, none of which
loops: one frame is left, one item is taken, one segment is executed, or one step is made on the prose
that is being rendered. Finitely many of them lead to where the session is suspended, completed or
failed, although how often a loop goes round depends on what the script has computed by then.
-/
namespace PromptScript

variable {σ : Type}

/-- What a session is about to do. -/
inductive Execution (σ : Type)
  /-- It looks for the next segment on its stack. -/
  | seeking (s : Session) (world : World σ)
  /-- It renders a segment that is prose. -/
  | rendering (s : Session) (segment : Segment) (world : World σ) (stage : RenderStage)
  | ended (last : (StepOutcome × Session) × World σ)

namespace Execution

variable (setup : Setup σ)

/-- After a segment that has been executed. -/
def after : (Except EffectError Progress × Session) × World σ → Execution σ
  | ((.ok .advanced, s), world) => .seeking s world
  | ((.ok (.suspended request), s), world) => .ended ((.suspended request, s), world)
  | ((.ok .completed, s), world) => .ended ((.completed s.state, s), world)
  | ((.error e, s), world) => .ended ((.failed e, s), world)

/-- Prose is rendered step by step, and any other segment is executed at once. -/
def enter (s : Session) (segment : Segment) (world : World σ) : Execution σ :=
  if segment.node.isProse then
    .rendering s segment world
      (.start setup.baseDir [segment.node] (s.scope setup segment.bindings) world.cache)
  else after (s.attempt setup segment world)

def next : Execution σ → Execution σ
  | .seeking s world =>
    match s.stack with
    | [] => .ended ((.completed s.state, s.complete), world)
    | .nodes [] _ :: outer => .seeking { s with stack := outer } world
    | .nodes (node :: later) bindings :: outer =>
      enter setup (s.taking (.nodes later bindings :: outer)) ⟨node, bindings⟩ world
    | .loop var body items bindings :: outer =>
      match items.next? with
      | none => .seeking { s with stack := outer } world
      | some (value, items) =>
        let round : Frame := .nodes body (Mapping.insert bindings var value)
        .seeking { s with stack := round :: .loop var body items bindings :: outer } world
  | .rendering s segment world stage =>
    match stage with
    | .running _ => .rendering s segment world (stage.next world.files setup.options)
    | .ended (.ok text, cache) => .seeking (s.addProse text) { world with cache }
    | .ended (.error e, cache) =>
      .ended ((.failed (.render e), s.fail (.render e) (.segment segment)), { world with cache })
  | .ended last => .ended last

/-- Before a step of a session. Only a session that is active, or whose run has been answered, has
anything left to do. -/
def ofStep (s : Session) (answer : Option RunAnswer) (world : World σ) : Execution σ :=
  match s.phase, answer with
  | .suspended _, some (.response text) => .seeking (s.answered setup text) world
  | .suspended request, some (.failed message) =>
    .ended ((.failed (.runFailed message), s.fail (.runFailed message) (.run request)), world)
  | .suspended request, some .cancelled =>
    .ended ((.failed .cancelled, s.fail .cancelled (.run request)), world)
  | .suspended _, none => .ended ((.failed (.invalidStep .responseRequired), s), world)
  | .ready, none | .running, none => .seeking s world
  | .ready, some _ | .running, some _ => .ended ((.failed (.invalidStep .noRunPending), s), world)
  | .completed, _ | .failed _, _ =>
    .ended ((.failed (.invalidStep (.over s.phase.name)), s), world)

/-- Before what has failed is tried again. -/
def ofRetry (s : Session) (world : World σ) : Execution σ :=
  match s.phase with
  | .failed (.run request) =>
    .ended ((.suspended request, { s with phase := .suspended request }.record .retry
      [("segment", .str (RetryPoint.run request).name)]), world)
  | .failed (.segment segment) => enter setup (s.retrying segment) segment world
  | phase => .ended ((.failed (.invalidStep (.notFailed phase.name)), s), world)

/-- Finitely many steps lead from one point of an execution to another. -/
def Leads (a b : Execution σ) : Prop :=
  ∃ n, (next setup)^[n] a = b

variable {setup} {a b c : Execution σ}

theorem Leads.refl (a : Execution σ) : Leads setup a a :=
  ⟨0, rfl⟩

theorem Leads.trans (first : Leads setup a b) (second : Leads setup b c) : Leads setup a c := by
  obtain ⟨n, rfl⟩ := first
  obtain ⟨m, rfl⟩ := second
  exact ⟨m + n, Function.iterate_add_apply _ m n a⟩

theorem Leads.next (h : Leads setup (a.next setup) b) : Leads setup a b :=
  .trans ⟨1, rfl⟩ h

/-! ### One segment -/

variable {s : Session} {segment : Segment} {world : World σ}

/-- The steps of a render are steps of the session that renders. -/
theorem leads_of_reaches {start stage : RenderStage}
    (reaches : Reaches world.files setup.options start stage) :
    Leads setup (.rendering s segment world start) (.rendering s segment world stage) := by
  obtain ⟨n, rfl⟩ := reaches
  induction n generalizing start with
  | zero => exact .refl _
  | succ n ih =>
    rw [Function.iterate_succ_apply]
    cases start with
    | running state => exact .next ih
    | ended outcome => exact ih

theorem opened_of_isProse (prose : segment.node.isProse) (ctx : Context) :
    Session.opened ctx segment = .ok [] := by
  obtain ⟨node, bindings⟩ := segment
  cases node with
  | conditional | loop => cases prose
  | _ => rfl

/-- Prose that has been rendered is treated as when it is executed at once. -/
theorem attempt_of_isProse (prose : segment.node.isProse) (active : s.phase.isActive) :
    after (s.attempt setup segment world) = next setup (.rendering s segment world (.ended
      (render world.files setup.options setup.baseDir [segment.node]
        (s.scope setup segment.bindings) world.cache))) := by
  have opens := opened_of_isProse prose (s.scope setup segment.bindings)
  rw [Session.attempt_eq]
  rcases rendered : render world.files setup.options setup.baseDir [segment.node]
    (s.scope setup segment.bindings) world.cache with ⟨e | text, cache⟩
  · have executed : s.execute setup segment world = (.error (.render e), { world with cache }) :=
      Session.execute_error_iff.mpr (.inr ⟨[], opens, .renders prose rendered⟩)
    rw [executed]
    rfl
  · have executed : s.execute setup segment world = (.ok (s.addProse text), { world with cache }) :=
      Session.execute_ok_iff.mpr ⟨[], _, opens, .renders prose rendered, rfl⟩
    have goesOn : (s.addProse text).progress = .advanced := Session.progress_of_isActive active
    simp only [executed, goesOn]
    rfl

theorem enter_leads (segment : Segment) (world : World σ) (active : s.phase.isActive) :
    Leads setup (enter setup s segment world) (after (s.attempt setup segment world)) := by
  rw [enter]
  split
  case isFalse => exact .refl _
  case isTrue prose =>
    rw [attempt_of_isProse prose active]
    exact (leads_of_reaches (reaches_ended ..)).trans (.next (.refl _))

/-! ### Segment after segment -/

/-- Whatever stands on its stack, a session finds its next segment, or that there is none. -/
theorem seeking_leads (world : World σ) (active : s.phase.isActive) :
    Leads setup (.seeking s world) (after (s.advance setup world)) := by
  rw [Session.advance_of_isActive setup world active]
  obtain ⟨state, phase, stack, imports, events⟩ := s
  -- Each frame that is left, and each item that is taken, leads to a stack that comes after.
  fun_induction Stack.next? stack with
  | case1 => exact .next (.refl _)
  | case2 bindings outer ih => exact .next (ih active)
  | case3 node later bindings outer => exact .next (enter_leads _ world rfl)
  | case4 var body items bindings outer done ih =>
    refine .next ?_
    simp only [next, done]
    exact ih active
  | case5 var body items bindings outer value later found ih =>
    refine .next ?_
    simp only [next, found]
    exact ih active

theorem leads_runOn (world : World σ) (active : s.phase.isActive) :
    Leads setup (.seeking s world) (.ended (s.runOn setup world)) := by
  have advances {s : Session} {world : World σ} {advanced} (active : s.phase.isActive)
      (h : s.advance setup world = advanced) : Leads setup (.seeking s world) (after advanced) :=
    h ▸ seeking_leads world active
  fun_induction Session.runOn setup s world with
  | case1 s world next world' advanced _ ih =>
    exact (advances active advanced).trans (ih (Session.isActive_of_advance active advanced))
  | case2 s world request next world' advanced | case3 s world next world' advanced
  | case4 s world e next world' advanced => exact advances active advanced

theorem leads_step (s : Session) (answer : Option RunAnswer) (world : World σ) :
    Leads setup (ofStep setup s answer world) (.ended (s.step setup answer world)) := by
  cases phase : s.phase with
  | ready | running =>
    cases answer with
    | none =>
      simp only [ofStep, Session.step, phase]
      exact leads_runOn world (by rw [phase]; rfl)
    | some answer =>
      simp only [ofStep, Session.step, phase]
      exact .refl _
  | suspended request =>
    rcases answer with _ | text | message | _
    case some.response =>
      simp only [ofStep, Session.step, phase]
      exact leads_runOn world rfl
    all_goals
      simp only [ofStep, Session.step, phase]
      exact .refl _
  | completed | failed =>
    simp only [ofStep, Session.step, phase]
    exact .refl _

theorem leads_retry (s : Session) (world : World σ) :
    Leads setup (ofRetry setup s world) (.ended (s.retry setup world)) := by
  cases phase : s.phase with
  | ready | running | suspended | completed =>
    simp only [ofRetry, Session.retry, phase]
    exact .refl _
  | failed point =>
    cases point with
    | run request =>
      simp only [ofRetry, Session.retry, phase]
      exact .refl _
    | segment segment =>
      have again : Leads setup (enter setup (s.retrying segment) segment world) _ :=
        enter_leads segment world rfl
      rw [Session.attempt_eq] at again
      simp only [ofRetry, phase]
      rcases Session.retry_cases setup world phase with
        ⟨next, world', executed, ⟨going, retried⟩ | ⟨waiting, retried⟩⟩ |
        ⟨e, world', executed, retried⟩
      · simp only [executed, Session.progress_of_isActive going] at again
        rw [retried]
        exact again.trans (leads_runOn world' going)
      · simp only [executed, Session.progress, waiting] at again
        rw [retried]
        exact again
      · simp only [executed] at again
        rw [retried]
        exact again

end Execution

/-! ### Where a session comes to stand -/

namespace Session

variable {setup : Setup σ} {s next : Session} {world world' : World σ}

theorem stands_of_advance {progress : Except EffectError Progress}
    (h : s.advance setup world = ((progress, next), world')) (stops : progress ≠ .ok .advanced) :
    next.phase.isActive = false := by
  cases active : s.phase.isActive with
  | false =>
    obtain ⟨cause, refused⟩ := advance_of_not_isActive setup world active
    cases refused.symm.trans h
    exact active
  | true =>
    rcases advance_cases setup s world active with ⟨_, advanced⟩ |
      ⟨_, _, _, _, _, executed, advanced⟩ | ⟨_, _, _, _, _, _, advanced⟩
    · cases advanced.symm.trans h
      rfl
    · rcases phase_of_execute_ok rfl executed with going | waiting
      · rw [progress_of_isActive going] at advanced
        cases advanced.symm.trans h
        exact absurd rfl stops
      · cases advanced.symm.trans h
        rw [waiting]
        rfl
    · cases advanced.symm.trans h
      rfl

/-- A session that runs on has nothing left to execute until it is answered or tried again. -/
theorem stands_runOn (setup : Setup σ) (s : Session) (world : World σ) :
    (s.runOn setup world).1.2.phase.isActive = false := by
  fun_induction runOn setup s world with
  | case1 s world next world' advanced _ ih => exact ih
  | case2 s world request next world' advanced | case3 s world next world' advanced
  | case4 s world e next world' advanced => exact stands_of_advance advanced (by simp)

end Session

/-- A step of a session, and so trying it again, comes to its end after finitely many small steps,
whatever the script computes meanwhile. The session is suspended, completed or failed then, unless it
was not to be stepped and is left alone. -/
theorem step_ends (setup : Setup σ) (s : Session) (world : World σ) :
    (∀ answer,
      (∃ n, (Execution.next setup)^[n] (.ofStep setup s answer world) =
        .ended (s.step setup answer world)) ∧
      ((s.step setup answer world).1.2.phase.isActive = false ∨
        ∃ cause, s.step setup answer world = ((.failed (.invalidStep cause), s), world))) ∧
    (∃ n, (Execution.next setup)^[n] (.ofRetry setup s world) = .ended (s.retry setup world)) ∧
    ((s.retry setup world).1.2.phase.isActive = false ∨
      ∃ cause, s.retry setup world = ((.failed (.invalidStep cause), s), world)) := by
  refine ⟨fun answer => ⟨Execution.leads_step s answer world, ?_⟩,
    Execution.leads_retry s world, ?_⟩
  · unfold Session.step
    split
    case h_1 | h_5 | h_6 => exact .inl (Session.stands_runOn ..)
    case h_2 | h_3 => exact .inl rfl
    all_goals exact .inr ⟨_, rfl⟩
  · cases phase : s.phase with
    | ready | running | suspended | completed =>
      refine .inr ⟨.notFailed s.phase.name, ?_⟩
      simp only [Session.retry, phase]
    | failed point =>
      cases point with
      | run request => exact .inl (by simp only [Session.retry, phase]; rfl)
      | segment segment =>
        rcases Session.retry_cases setup world phase with
          ⟨next, world', executed, ⟨going, retried⟩ | ⟨waiting, retried⟩⟩ |
          ⟨e, world', executed, retried⟩
        · exact .inl (retried ▸ Session.stands_runOn ..)
        · exact .inl (by rw [retried, waiting]; rfl)
        · exact .inl (retried ▸ rfl)

end PromptScript
