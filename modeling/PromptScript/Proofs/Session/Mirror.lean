import PromptScript.Proofs.Session.Play

/-!
What a session does with one host, it has left to do on a walk with another host, as long as this one
does what the first one does. Every call of a play goes some way along this walk.
-/
namespace PromptScript

variable {σ τ : Type}

/-- Whether a session is in the phase that a reply tells of. -/
def Reply.Describes (s : Session) : Reply → Prop
  | .advanced => s.phase.isActive
  | .stopped (.suspended request) => s.phase = .suspended request ∧ request = s.state.request
  | .stopped (.completed state) => state = s.state
  | .stopped (.failed _) => ∃ point, s.phase = .failed point ∧
    ∀ request, point = .run request → request = s.state.request
  | _ => False

/-- The rest of the walk through a script after a reply. -/
def Reply.rest (setup : Setup σ) (again : EffectError → Bool) (s : Session) (world : World σ)
    (answers : List String) (requests : List RunRequest) : Reply → Except Halt Unit × Scene σ
  | .stopped (.completed _) => (.ok (), s.scene world answers requests)
  | .stopped (.failed e) =>
    if again e then s.walk setup (s.scene world answers requests)
    else (.error (.failed e), s.scene world answers requests)
  | _ => s.walk setup (s.scene world answers requests)

/-- One host does what another one does, but for what is tried again. Their worlds are related as
they are left: it is told from what follows where the other host starts. -/
structure Mirror (setup : Setup σ) (other : Setup τ) (again : EffectError → Bool)
    (Related : World σ → World τ → Prop) : Prop where
  lastResult : other.lastResult = setup.lastResult
  executes : ∀ {s next : Session} {segment : Segment} {world world' : World σ} {image' : World τ},
    s.execute setup segment world = (.ok next, world') → Related world' image' →
    ∃ image, Related world image ∧ s.execute other segment image = (.ok next, image')
  fails : ∀ {s : Session} {segment : Segment} {e : EffectError} {world world' : World σ}
    {image' : World τ}, s.execute setup segment world = (.error e, world') →
    Related world' image' →
    if again e then Related world image'
    else ∃ image, Related world image ∧ s.execute other segment image = (.error e, image')

theorem Mirror.refl (setup : Setup σ) : Mirror setup setup (fun _ => false) (· = ·) where
  lastResult := rfl
  executes executed related := ⟨_, rfl, related ▸ executed⟩
  fails executed related := ⟨_, rfl, related ▸ executed⟩

/-- What a call comes to is on the way of the walk that a session has left, in the mirror. -/
def Leads (other : Setup τ) (again : EffectError → Bool) (Related : World σ → World τ → Prop)
    (s : Session) (world : World σ) (result : (Reply × Session) × World σ) : Prop :=
  result.1.1.Describes result.1.2 ∧
    ∀ image', Related result.2 image' → ∃ image, Related world image ∧ ∀ answers requests,
      result.1.1.rest other again result.1.2 image' answers requests =
        s.walk other (s.scene image answers requests)

namespace Mirror

variable {setup : Setup σ} {other : Setup τ} {again : EffectError → Bool}
  {Related : World σ → World τ → Prop} {s : Session}

/-- A segment that is executed goes some way of the walk of a session that has this segment left
before the rest of its stack. -/
theorem leads_of_attempt (mirror : Mirror setup other again Related) {before : Session}
    {segment : Segment} (active : s.phase.isActive) (world : World σ)
    (left : ∀ image answers requests,
      (do segment.node.walk other segment.bindings; Stack.walk other s.stack)
        (s.scene image answers requests) = before.walk other (before.scene image answers requests)) :
    let ((result, next), world') := s.attempt setup segment world
    Leads other again Related before world ((.ofProgress next.state result, next), world') := by
  rw [Session.attempt_eq]
  rcases executed : s.execute setup segment world with ⟨e | next, world'⟩
  -- A failure leaves an event, which is not seen on a walk.
  · refine ⟨⟨_, rfl, nofun⟩, fun image' related => ?_⟩
    have failed := mirror.fails executed related
    have unseen : ∀ answers requests,
        (s.fail e (.segment segment)).scene image' answers requests =
          s.scene image' answers requests :=
      fun _ _ => Session.scene_record_of_not_isEffect rfl
    cases passing : again e with
    | true =>
      -- The other host knows of no failure: the whole walk is still to be done.
      rw [passing, if_pos rfl] at failed
      refine ⟨image', failed, fun answers requests => ?_⟩
      rw [← left, ← unseen]
      simp only [Reply.ofProgress, Reply.rest, passing]
      rfl
    | false =>
      simp only [passing, Bool.false_eq_true, if_false] at failed
      obtain ⟨image, related, mirrored⟩ := failed
      refine ⟨image, related, fun answers requests => ?_⟩
      have walked := Session.walk_of_execute_error mirrored answers requests
      rw [← left, Computation.bind_of_error walked, ← unseen]
      simp only [Reply.ofProgress, Reply.rest, passing]
      rfl
  · have following : ∀ image', Related world' image' → ∃ image, Related world image ∧
        ∀ answers requests, next.walk other (next.scene image' answers requests) =
          before.walk other (before.scene image answers requests) := by
      intro image' related
      obtain ⟨image, related, mirrored⟩ := mirror.executes executed related
      refine ⟨image, related, fun answers requests => ?_⟩
      rw [← left, Session.walk_of_execute_ok active mirrored answers requests]
    rcases Session.phase_of_execute_ok active executed with going | waiting
    · simp only [Session.progress_of_isActive going]
      exact ⟨going, following⟩
    · simp only [Session.progress, waiting]
      exact ⟨⟨waiting, rfl⟩, following⟩

theorem leads_of_advance (mirror : Mirror setup other again Related) (world : World σ)
    (active : s.phase.isActive) :
    let ((result, next), world') := s.advance setup world
    Leads other again Related s world ((.ofProgress next.state result, next), world') := by
  rw [Session.advance_of_isActive setup world active]
  cases found : s.stack.next? with
  | none =>
    refine ⟨rfl, fun image' related => ⟨image', related, fun answers requests => ?_⟩⟩
    rw [Session.walk_of_isActive active, Stack.walk_of_next?_none found]
    exact congrArg _ (Session.scene_record_of_not_isEffect rfl)
  | some taken =>
    obtain ⟨segment, stack⟩ := taken
    refine mirror.leads_of_attempt (s := s.taking stack) rfl world fun image answers requests => ?_
    rw [Session.walk_of_isActive active, Stack.walk_of_next?_some found]
    rfl

theorem Leads.trans {next : Session} {world between : World σ}
    {result : (Reply × Session) × World σ}
    (first : Leads other again Related s world ((.advanced, next), between))
    (later : Leads other again Related next between result) :
    Leads other again Related s world result := by
  refine ⟨later.1, fun image' related => ?_⟩
  obtain ⟨middle, related, walked⟩ := later.2 image' related
  obtain ⟨image, related, walked'⟩ := first.2 middle related
  exact ⟨image, related, fun answers requests =>
    (walked answers requests).trans (walked' answers requests)⟩

/-- Running on goes along the walk as far as there are no runs. -/
theorem leads_of_runOn (mirror : Mirror setup other again Related) (world : World σ)
    (active : s.phase.isActive) :
    let ((outcome, next), world') := s.runOn setup world
    Leads other again Related s world ((.stopped outcome, next), world') := by
  fun_induction Session.runOn setup s world with
  -- One step along the walk, and then the steps that follow.
  | case1 s world next world' advanced _ ih =>
    have one := mirror.leads_of_advance world active
    rw [advanced] at one
    exact Leads.trans one (ih one.1)
  | case2 s world request next world' advanced | case3 s world next world' advanced
  | case4 s world e next world' advanced =>
    have one := mirror.leads_of_advance world active
    rwa [advanced] at one

theorem leads_of_onward (mirror : Mirror setup other again Related) {call : Call}
    (onward : call = .advance ∨ call = .step none) (world : World σ) (active : s.phase.isActive) :
    Leads other again Related s world (s.handle setup world call) := by
  rcases onward with rfl | rfl
  · exact mirror.leads_of_advance world active
  · simp only [Session.handle, Session.step_of_isActive setup world active]
    exact mirror.leads_of_runOn world active

theorem leads_of_error {request : RunRequest} {answer : RunAnswer} {e : EffectError}
    (describes : (Reply.stopped (.suspended request)).Describes s) (failing : answer.error? = some e)
    (tried : again e = true) (world : World σ) :
    s.handle setup world (.step (some answer)) =
        ((.stopped (.failed e), s.fail e (.run request)), world) ∧
      Leads other again Related s world
        ((.stopped (.failed e), s.fail e (.run request)), world) := by
  obtain ⟨suspended, asked⟩ := describes
  constructor
  · cases answer with
    | response => cases failing
    | failed | cancelled => cases failing; simp only [Session.handle, Session.step, suspended]
  · refine ⟨⟨_, rfl, fun _ same => by cases same; exact asked⟩, fun image related =>
      ⟨image, related, fun answers requests => ?_⟩⟩
    have unseen : (s.fail e (.run request)).scene image answers requests =
        s.scene image answers requests := Session.scene_record_of_not_isEffect rfl
    rw [Session.walk_of_suspended suspended, ← unseen]
    simp only [Reply.rest, tried]
    rfl

theorem leads_of_retry (mirror : Mirror setup other again Related) {point : RetryPoint}
    (failed : s.phase = .failed point) (world : World σ)
    (asked : ∀ request, point = .run request → request = s.state.request) :
    Leads other again Related s world (s.handle setup world .retry) := by
  cases point with
  | run request =>
    simp only [Session.handle, Session.retry, failed]
    refine ⟨⟨rfl, asked request rfl⟩, fun image related => ⟨image, related, fun answers requests => ?_⟩⟩
    have unseen : ({ s with phase := .suspended request }.record .retry
        [("segment", .str (RetryPoint.run request).name)]).scene image answers requests =
          s.scene image answers requests := Session.scene_record_of_not_isEffect rfl
    simp only [Session.walk, failed, ← unseen]
    rfl
  | segment segment =>
    -- The stack is the one that was left when the segment failed, so that the walk still starts
    -- with the segment.
    have left : ∀ image answers requests,
        (do segment.node.walk other segment.bindings; Stack.walk other (s.retrying segment).stack)
          ((s.retrying segment).scene image answers requests) =
            s.walk other (s.scene image answers requests) := fun image answers requests => by
      have unseen : (s.retrying segment).scene image answers requests =
          s.scene image answers requests := Session.scene_record_of_not_isEffect rfl
      simp only [Session.walk, failed, ← unseen]
      rfl
    have one := mirror.leads_of_attempt rfl world left
    rw [Session.attempt_eq] at one
    rcases Session.retry_cases setup world failed with
      ⟨next, world', executed, ⟨going, retried⟩ | ⟨waiting, retried⟩⟩ | ⟨e, world', executed, retried⟩
    · simp only [executed, Session.progress_of_isActive going] at one
      simp only [Session.handle, retried]
      exact Leads.trans one (mirror.leads_of_runOn world' going)
    · simp only [executed, Session.progress, waiting] at one
      simp only [Session.handle, retried]
      exact one
    · simp only [executed] at one
      simp only [Session.handle, retried]
      exact one

theorem handle_response (mirror : Mirror setup other again Related) {request : RunRequest}
    (describes : (Reply.stopped (.suspended request)).Describes s) (text : String) (world : World σ) :
    let result := s.handle setup world (.step (some (.response text)))
    result.1.1.Describes result.1.2 ∧
      ∀ image', Related result.2 image' → ∃ image, Related world image ∧ ∀ answers requests,
        result.1.1.rest other again result.1.2 image' answers (requests ++ [request]) =
          s.walk other (s.scene image (text :: answers) requests) := by
  obtain ⟨suspended, rfl⟩ := describes
  have led := mirror.leads_of_runOn (s := s.answered setup text) world rfl
  rw [Session.handle_response setup text world suspended]
  refine ⟨led.1, fun image' related => ?_⟩
  obtain ⟨image, related, walked⟩ := led.2 image' related
  refine ⟨image, related, fun answers requests => ?_⟩
  have unseen : (s.answered setup text).scene image answers (requests ++ [s.state.request]) =
      { s.scene image answers (requests ++ [s.state.request]) with
        state := Walking.answered other text s.state } := by
    simp only [Walking.answered, mirror.lastResult]
    exact Session.scene_record_of_not_isEffect rfl
  refine (walked answers (requests ++ [s.state.request])).trans ?_
  rw [Session.walk_of_suspended suspended, unseen]
  rfl

end Mirror

end PromptScript
