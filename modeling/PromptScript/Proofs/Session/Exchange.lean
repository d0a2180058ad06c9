import Mathlib.Data.List.Chain
import PromptScript.Proofs.Session.Play
import PromptScript.Proofs.Session.Script
import PromptScript.Session.Drive

/-!
What is said between a session that is driven to its end and the agent: how the turns are counted, when
the conversation breaks off, and what the agent gets to see of it.
-/
namespace PromptScript

variable {σ : Type}

/-- A run that is handed to a channel, and how the channel answers it. -/
structure Exchange where
  request : RunRequest
  answer : RunAnswer
deriving DecidableEq, Repr

theorem RunAnswer.response_or_error (answer : RunAnswer) :
    (∃ text, answer = .response text) ∨ ∃ e, answer.error? = some e := by
  cases answer with
  | response text => exact .inl ⟨text, rfl⟩
  | failed message => exact .inr ⟨_, rfl⟩
  | cancelled => exact .inr ⟨_, rfl⟩

/-- What an exchange makes of the buffer is in front of what the next one shows of it. -/
def Exchange.LeadsTo (exchange next : Exchange) : Prop :=
  ∃ text, exchange.answer = .response text ∧ exchange.request.buffer ++ [text] <+: next.request.buffer

namespace Session

/-- The runs that are handed to a channel from a step on, each with its answer. -/
def exchangesFrom (setup : Setup σ) (channel : Channel σ) (s : Session) (answer : Option RunAnswer)
    (world : World σ) : List Exchange :=
  match h : s.step setup answer world with
  | ((.suspended request, next), world) =>
    have := after_of_step h
    let (answer, world) := channel request world
    ⟨request, answer⟩ :: exchangesFrom setup channel next (some answer) world
  | _ => []
termination_by s.stack

/-- The runs that are handed to a channel while a session is driven. -/
def exchanges (setup : Setup σ) (channel : Channel σ) (s : Session) (world : World σ) :
    List Exchange :=
  s.exchangesFrom setup channel none world

/-- How driving an active session comes to its end, exchange by exchange. -/
inductive Drives (setup : Setup σ) (channel : Channel σ) : Session → World σ → List Exchange →
    (Except EffectError SessionState × Session) × World σ → Prop
  | completes {s last : Session} {world after : World σ} :
    s.runOn setup world = ((.completed last.state, last), after) → last.phase = .completed →
    Drives setup channel s world [] ((.ok last.state, last), after)
  | fails {s last : Session} {e : EffectError} {world after : World σ} :
    s.runOn setup world = ((.failed e, last), after) →
    Drives setup channel s world [] ((.error e, last), after)
  | breaksOff {s next : Session} {answer : RunAnswer} {e : EffectError}
      {world between after : World σ} :
    s.runOn setup world = ((.suspended next.state.request, next), between) →
    channel next.state.request between = (answer, after) → answer.error? = some e →
    Drives setup channel s world [⟨next.state.request, answer⟩]
      ((.error e, next.fail e (.run next.state.request)), after)
  | goesOn {s next : Session} {text : String} {later : List Exchange}
      {world between after : World σ}
      {result : (Except EffectError SessionState × Session) × World σ} :
    s.runOn setup world = ((.suspended next.state.request, next), between) →
    channel next.state.request between = (.response text, after) →
    Drives setup channel (next.answered setup text) after later result →
    Drives setup channel s world (⟨next.state.request, .response text⟩ :: later) result

variable {setup : Setup σ} {channel : Channel σ} {s next last : Session}
  {world world' : World σ} {script : List Node}

/-! ### What a driven session does -/

theorem suspended_of_advance {request : RunRequest} (active : s.phase.isActive)
    (h : s.advance setup world = ((.ok (.suspended request), next), world')) :
    next.phase = .suspended request ∧ request = next.state.request := by
  rcases advance_cases setup s world active with ⟨_, advanced⟩ |
    ⟨_, _, after, _, _, executed, advanced⟩ | ⟨_, _, _, _, _, _, advanced⟩
  · cases advanced.symm.trans h
  · rcases phase_of_execute_ok rfl executed with going | waiting
    · rw [progress_of_isActive going] at advanced
      cases advanced.symm.trans h
    · rw [progress, waiting] at advanced
      cases advanced.symm.trans h
      exact ⟨waiting, rfl⟩
  · cases advanced.symm.trans h

theorem completed_of_advance (active : s.phase.isActive)
    (h : s.advance setup world = ((.ok .completed, next), world')) : next.phase = .completed := by
  rcases advance_cases setup s world active with ⟨_, advanced⟩ |
    ⟨_, _, after, _, _, executed, advanced⟩ | ⟨_, _, _, _, _, _, advanced⟩
  · cases advanced.symm.trans h
    rfl
  · rcases phase_of_execute_ok rfl executed with going | waiting
    · rw [progress_of_isActive going] at advanced
      cases advanced.symm.trans h
    · rw [progress, waiting] at advanced
      cases advanced.symm.trans h
  · cases advanced.symm.trans h

/-- An active session that runs on comes to wait for what its state asks, or to its end, or fails. -/
theorem runOn_cases (setup : Setup σ) (world : World σ) (active : s.phase.isActive) :
    (∃ next after, s.runOn setup world = ((.suspended next.state.request, next), after) ∧
      next.phase = .suspended next.state.request) ∨
    (∃ last after, s.runOn setup world = ((.completed last.state, last), after) ∧
      last.phase = .completed) ∨
    ∃ e last after, s.runOn setup world = ((.failed e, last), after) := by
  fun_induction runOn setup s world with
  | case1 s world next world' advanced _ ih => exact ih (isActive_of_advance active advanced)
  | case2 s world request next world' advanced =>
    obtain ⟨waiting, rfl⟩ := suspended_of_advance active advanced
    exact .inl ⟨next, world', rfl, waiting⟩
  | case3 s world next world' advanced =>
    exact .inr (.inl ⟨next, world', rfl, completed_of_advance active advanced⟩)
  | case4 s world e next world' advanced => exact .inr (.inr ⟨e, next, world', rfl⟩)

section Unfolding

variable {answer : Option RunAnswer}

theorem driveFrom_of_step (channel : Channel σ) {outcome : StepOutcome}
    (h : s.step setup answer world = ((outcome, next), world')) :
    s.driveFrom setup channel answer world = match outcome with
      | .suspended request =>
        next.driveFrom setup channel (some (channel request world').1) (channel request world').2
      | .completed state => ((.ok state, next), world')
      | .failed e => ((.error e, next), world') := by
  rw [driveFrom]
  split <;> next stepped => cases stepped.symm.trans h; rfl

theorem exchangesFrom_of_step (channel : Channel σ) {outcome : StepOutcome}
    (h : s.step setup answer world = ((outcome, next), world')) :
    s.exchangesFrom setup channel answer world = match outcome with
      | .suspended request => ⟨request, (channel request world').1⟩ ::
        next.exchangesFrom setup channel (some (channel request world').1) (channel request world').2
      | _ => [] := by
  rw [exchangesFrom]
  split
  · next stepped => cases stepped.symm.trans h; rfl
  · next other =>
    cases outcome with
    | suspended request => exact absurd h (other _ _ _)
    | completed | failed => rfl

/-- Only what the next step does counts for what follows. -/
theorem driveFrom_congr (channel : Channel σ) {other : Session} {answer' : Option RunAnswer}
    (h : s.step setup answer world = other.step setup answer' world') :
    s.driveFrom setup channel answer world = other.driveFrom setup channel answer' world' ∧
      s.exchangesFrom setup channel answer world =
        other.exchangesFrom setup channel answer' world' := by
  rcases stepped : other.step setup answer' world' with ⟨⟨outcome, next⟩, after⟩
  rw [stepped] at h
  rw [driveFrom_of_step channel h, driveFrom_of_step channel stepped,
    exchangesFrom_of_step channel h, exchangesFrom_of_step channel stepped]
  cases outcome <;> exact ⟨rfl, rfl⟩

end Unfolding

theorem step_response {request : RunRequest} (setup : Setup σ) (world : World σ)
    (suspended : s.phase = .suspended request) (text : String) :
    s.step setup (some (.response text)) world = (s.answered setup text).step setup none world := by
  rw [step_of_isActive (s := s.answered setup text) setup world rfl]
  simp only [step, suspended]

theorem step_of_error? {request : RunRequest} {answer : RunAnswer} {e : EffectError}
    (setup : Setup σ) (world : World σ) (suspended : s.phase = .suspended request)
    (broken : answer.error? = some e) :
    s.step setup (some answer) world = ((.failed e, s.fail e (.run request)), world) := by
  cases answer with
  | response text => cases broken
  | failed message | cancelled => cases broken; simp only [step, suspended]

theorem drives_driveFrom (setup : Setup σ) (channel : Channel σ) (s : Session) (world : World σ)
    (active : s.phase.isActive) : Drives setup channel s world
      (s.exchangesFrom setup channel none world) (s.driveFrom setup channel none world) := by
  -- Whatever the agent answers, the script gets on between two of its runs.
  induction stack : s.stack using Stack.after_wellFounded.induction generalizing s world with
  | _ _ ih =>
  subst stack
  have stepped := step_of_isActive setup world active
  rcases runOn_cases setup world active with ⟨next, between, ran, waiting⟩ |
    ⟨last, after, ran, completed⟩ | ⟨e, last, after, ran⟩
  · rw [driveFrom_of_step channel (stepped.trans ran), exchangesFrom_of_step channel (stepped.trans ran)]
    rcases asked : channel next.state.request between with ⟨answer, after⟩
    rcases answer.response_or_error with ⟨text, rfl⟩ | ⟨e, broken⟩
    · obtain ⟨drives, exchanges⟩ := driveFrom_congr channel (step_response setup after waiting text)
      simp only [asked, drives, exchanges]
      exact .goesOn ran asked (ih _ (after_of_runOn ran) _ _ rfl rfl)
    · have failed := step_of_error? setup after waiting broken
      simp only [asked, driveFrom_of_step channel failed, exchangesFrom_of_step channel failed]
      exact .breaksOff ran asked broken
  · rw [driveFrom_of_step channel (stepped.trans ran), exchangesFrom_of_step channel (stepped.trans ran)]
    exact .completes ran completed
  · rw [driveFrom_of_step channel (stepped.trans ran), exchangesFrom_of_step channel (stepped.trans ran)]
    exact .fails ran

/-! ### Turns -/

theorem turn_of_ran {outcome : StepOutcome}
    (ran : s.runOn setup world = ((outcome, next), world')) : next.state.turn = s.state.turn := by
  have kept := turn_of_runOn setup s world
  rwa [ran] at kept

theorem turn_answered {outcome : StepOutcome} (text : String)
    (ran : s.runOn setup world = ((outcome, next), world')) :
    (next.answered setup text).state.turn = s.state.turn + 1 :=
  congrArg (· + 1) (turn_of_ran ran)

namespace Drives

variable {exchanges : List Exchange}
  {result : (Except EffectError SessionState × Session) × World σ}

/-- The runs are numbered one by one, from the turn of the state on. -/
theorem turns (drives : Drives setup channel s world exchanges result) :
    exchanges.map (·.request.turn) = List.range' s.state.turn exchanges.length := by
  induction drives with
  | completes | fails => rfl
  | breaksOff ran => exact congrArg (fun turn => [turn]) (turn_of_ran ran)
  | @goesOn s next text later world _ _ _ ran _ _ ih =>
    rw [turn_answered text ran] at ih
    rw [List.map_cons, ih, List.length_cons, List.range'_succ]
    exact congrArg (· :: List.range' _ _) (turn_of_ran ran)

/-- A session is completed once every run has been answered with a response. -/
theorem completed (drives : Drives setup channel s world exchanges result)
    {state : SessionState} (ok : result.1.1 = .ok state) :
    (∀ exchange ∈ exchanges, ∃ text, exchange.answer = .response text) ∧
      state.turn = s.state.turn + exchanges.length ∧
      result.1.2.state = state ∧ result.1.2.phase = .completed := by
  induction drives with
  | completes ran completed =>
    cases ok
    exact ⟨nofun, turn_of_ran ran, rfl, completed⟩
  | fails | breaksOff => cases ok
  | @goesOn s next text later _ _ _ _ ran _ _ ih =>
    obtain ⟨responses, turn, same, completed⟩ := ih ok
    refine ⟨List.forall_mem_cons.mpr ⟨⟨text, rfl⟩, responses⟩, ?_, same, completed⟩
    rw [turn, turn_answered text ran, List.length_cons]
    omega

/-- An answer that is not a response is the last one, and what the session fails with. -/
theorem brokenOff (drives : Drives setup channel s world exchanges result)
    {front later : List Exchange} {exchange : Exchange} {e : EffectError}
    (split : exchanges = front ++ exchange :: later) (broken : exchange.answer.error? = some e) :
    later = [] ∧ result.1.1 = .error e ∧
      result.1.2.state.turn + 1 = s.state.turn + exchanges.length := by
  induction drives generalizing front with
  | completes | fails => simp at split
  | breaksOff ran _ failed =>
    cases front with
    | nil =>
      cases split
      cases failed.symm.trans broken
      have kept := turn_of_ran ran
      exact ⟨rfl, rfl, congrArg (· + 1) kept⟩
    | cons first front => simp at split
  | @goesOn s next text _ _ _ _ _ ran _ _ ih =>
    cases front with
    | nil => cases split; cases broken
    | cons first front =>
      obtain ⟨last, failed, turn⟩ := ih (List.cons_eq_cons.mp split).2
      refine ⟨last, failed, ?_⟩
      rw [turn, turn_answered text ran, List.length_cons]
      omega

end Drives

/-! ### The buffer -/

theorem Acts.buffer {ctx : Context} {node : Node} (acts : Acts setup s ctx world node next world')
    (keeps : node ≠ .effect .clearContext) : s.state.buffer <+: next.state.buffer := by
  cases acts with
  | @imports names source =>
    obtain ⟨imports, folded, _⟩ := foldl_addImport s names source
    rw [folded]
    exact List.prefix_refl _
  | @calls _ _ target => cases target <;> exact List.prefix_refl _
  | @registers names =>
    obtain ⟨tools, folded, _⟩ := SessionState.foldl_registerTool s.state names
    rw [folded]
    exact List.prefix_refl _
  | clearsContext => exact absurd rfl keeps
  | @renders _ text =>
    simp only [addProse, record]
    split
    · exact List.prefix_refl _
    · exact List.prefix_append _ _
  | _ => exact List.prefix_refl _

/-- Unless its script clears the buffer, a session that runs on only adds to it. -/
theorem buffer_of_ran {outcome : StepOutcome} (comes : s.stack.ComesFrom script)
    (keeps : ¬ (Node.effect .clearContext).StandsIn script)
    (ran : s.runOn setup world = ((outcome, next), world')) :
    next.stack.ComesFrom script ∧ s.state.buffer <+: next.state.buffer := by
  have kept := runOn_of_comesFrom setup (P := fun state => s.state.buffer <+: state.buffer)
    (fun within acts grown => grown.trans (acts.buffer fun same => keeps (same ▸ within)))
    comes (List.prefix_refl _) world
  rwa [ran] at kept

theorem Drives.buffers {exchanges : List Exchange}
    {result : (Except EffectError SessionState × Session) × World σ}
    (drives : Drives setup channel s world exchanges result) (comes : s.stack.ComesFrom script)
    (keeps : ¬ (Node.effect .clearContext).StandsIn script) :
    (∀ exchange ∈ exchanges.head?, s.state.buffer <+: exchange.request.buffer) ∧
      exchanges.IsChain Exchange.LeadsTo ∧ s.state.buffer <+: result.1.2.state.buffer ∧
      ∀ exchange ∈ exchanges, ∀ text, exchange.answer = .response text →
        exchange.request.buffer ++ [text] <+: result.1.2.state.buffer := by
  induction drives with
  | completes ran | fails ran => exact ⟨nofun, .nil, (buffer_of_ran comes keeps ran).2, nofun⟩
  | breaksOff ran _ broken =>
    have grown := (buffer_of_ran comes keeps ran).2
    refine ⟨fun _ here => by cases here; exact grown, .singleton _, grown, ?_⟩
    rintro _ here text answer
    cases List.mem_singleton.mp here
    cases answer
    cases broken
  | @goesOn s next text later _ _ _ _ ran _ _ ih =>
    obtain ⟨comes, grown⟩ := buffer_of_ran comes keeps ran
    obtain ⟨first, chain, onward, kept⟩ := ih comes
    refine ⟨fun _ here => by cases here; exact grown, ?_, ?_, ?_⟩
    · exact List.isChain_cons.mpr ⟨fun exchange here => ⟨text, rfl, first exchange here⟩, chain⟩
    · exact (grown.trans (List.prefix_append _ _)).trans onward
    · refine List.forall_mem_cons.mpr ⟨fun _ answer => ?_, kept⟩
      cases answer
      exact onward

/-- A run is asked for as soon as it is reached. -/
theorem runOn_run {bindings : Mapping} {stack : Stack} (setup : Setup σ) (world : World σ)
    (active : s.phase.isActive)
    (found : s.stack.next? = some (⟨.effect .run, bindings⟩, stack)) :
    s.runOn setup world = ((.suspended s.state.request,
      { s with phase := .suspended s.state.request, stack }.record .run
        [("tools", .list (s.state.tools.map .str))]), world) := by
  rw [runOn_of_advance (advance_of_next?_some setup world active found)]
  rfl

end Session

end PromptScript
