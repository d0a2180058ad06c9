import Mathlib.Data.List.Destutter
import PromptScript.Proofs.Session.Mirror

/-!
However a host plays a script, it comes to what reading the script from its first node to its last
comes to.
-/
namespace PromptScript

variable {σ τ : Type}

namespace Plays

variable {setup : Setup σ} {other : Setup τ} {again : EffectError → Bool}
  {Related : World σ → World τ → Prop} {first : (Reply × Session) × World σ}
  {answers : List RunAnswer} {requests : List RunRequest}
  {last : (StepOutcome × Session) × World σ}

/-- The first request to come is made in the present turn. -/
theorem turn_of_head? (plays : Plays setup again first answers requests last)
    (describes : first.1.1.Describes first.1.2) :
    ∀ request ∈ requests.head?, request.turn = first.1.2.state.turn := by
  induction plays with
  | @onward call s world answers requests last onward _ ih =>
    have next := ((Mirror.refl setup).leads_of_onward onward world describes).1
    intro request here
    rw [ih next request here]
    rcases onward with rfl | rfl
    · exact Session.turn_of_advance setup s world
    · simp only [Session.handle, Session.step_of_isActive setup world describes]
      exact Session.turn_of_runOn setup s world
  | @answered s world request answer later requests last _ _ | @unanswered s world request =>
    intro other here
    obtain rfl : request = other := by simpa using here
    exact congrArg RunRequest.turn describes.2
  | completed | failed =>
    intro request here
    cases here
  | @retried s world e answers requests last _ _ ih =>
    obtain ⟨point, failed, asked⟩ := describes
    have next := ((Mirror.refl setup).leads_of_retry failed world asked).1
    intro request here
    exact (ih next request here).trans (Session.turn_of_retry setup s world)

theorem ne_of_response {s : Session} {world : World σ} {request : RunRequest} {text : String}
    (plays : Plays setup again (s.handle setup world (.step (some (.response text)))) answers requests
      last)
    (describes : (Reply.stopped (.suspended request)).Describes s)
    (next : (s.handle setup world (.step (some (.response text)))).1.1.Describes
      (s.handle setup world (.step (some (.response text)))).1.2) :
    ∀ later ∈ requests.head?, later ≠ request := by
  rintro later here rfl
  -- A request carries the turn of the state, and the response has begun a new turn.
  have turned : (s.handle setup world (.step (some (.response text)))).1.2.state.turn =
      s.state.turn + 1 := Session.turn_of_response setup text world describes.1
  have same := (plays.turn_of_head? next later here).trans turned
  rw [describes.2] at same
  exact absurd same (by simp [SessionState.request])

theorem head?_of_failed_run {s : Session} {world : World σ} {e : EffectError} {request : RunRequest}
    (failed : s.phase = .failed (.run request)) (tried : again e = true)
    (plays : Plays setup again ((.stopped (.failed e), s), world) answers requests last) :
    requests.head? = some request := by
  cases plays with
  | failed untried => rw [tried] at untried; cases untried
  | retried _ later =>
    have asked : s.handle setup world .retry = ((.stopped (.suspended request),
        { s with phase := .suspended request }.record .retry
          [("segment", .str (RetryPoint.run request).name)]), world) := by
      simp only [Session.handle, Session.retry, failed]
    -- Whatever the host does then, the play begins with this request.
    rw [asked] at later
    cases later <;> rfl

end Plays

theorem destutter_cons_of_head? {request : RunRequest} {requests : List RunRequest}
    (new : ∀ next ∈ requests.head?, next ≠ request) :
    (request :: requests).destutter (· ≠ ·) = request :: requests.destutter (· ≠ ·) := by
  cases requests with
  | nil => rfl
  | cons next later =>
    have differs : request ≠ next := Ne.symm (new next rfl)
    rw [List.destutter_cons_cons, if_pos differs, List.destutter_cons']

theorem destutter_cons_of_head?_eq {request : RunRequest} {requests : List RunRequest}
    (same : requests.head? = some request) :
    (request :: requests).destutter (· ≠ ·) = requests.destutter (· ≠ ·) := by
  cases requests with
  | nil => cases same
  | cons next later =>
    cases same
    rw [List.destutter_cons_cons, if_neg (by simp), List.destutter_cons']

/-- The walk that a reply leaves comes to what a play has come to, with a host that does what the host
of the play does. Requests that are handed out again count once. -/
def Foretells (other : Setup τ) (again : EffectError → Bool) (Related : World σ → World τ → Prop)
    (first : (Reply × Session) × World σ) (answers : List String) (requests : List RunRequest)
    (last : (StepOutcome × Session) × World σ) : Prop :=
  ∀ image', Related last.2 image' → ∃ image, Related first.2 image ∧ ∀ before,
    Walking.ending (first.1.1.rest other again first.1.2 image answers before) =
      ⟨before ++ requests.destutter (· ≠ ·), last.1.1, last.1.2.state, last.1.2.effects, image'⟩

section

variable {setup : Setup σ} {other : Setup τ} {again : EffectError → Bool}
  {Related : World σ → World τ → Prop} {requests : List RunRequest}
  {last : (StepOutcome × Session) × World σ}

theorem Leads.foretells {s : Session} {world : World σ} {reply : Reply}
    {next : (Reply × Session) × World σ} {answers : List String}
    (led : Leads other again Related s world next)
    (later : Foretells other again Related next answers requests last)
    (left : ∀ image before, reply.rest other again s image answers before =
      s.walk other (s.scene image answers before)) :
    Foretells other again Related ((reply, s), world) answers requests last := by
  intro image' related
  obtain ⟨middle, related, ended⟩ := later image' related
  obtain ⟨image, related, walked⟩ := led.2 middle related
  refine ⟨image, related, fun before => ?_⟩
  rw [left, ← walked, ended]

theorem Foretells.answered {s : Session} {world : World σ} {request : RunRequest} {text : String}
    {later : List String} (mirror : Mirror setup other again Related)
    (describes : (Reply.stopped (.suspended request)).Describes s)
    (ended : Foretells other again Related (s.handle setup world (.step (some (.response text)))) later
      requests last) (new : ∀ next ∈ requests.head?, next ≠ request) :
    Foretells other again Related ((.stopped (.suspended request), s), world) (text :: later)
      (request :: requests) last := by
  intro image' related
  obtain ⟨middle, related, ended⟩ := ended image' related
  obtain ⟨image, related, walked⟩ := (mirror.handle_response describes text world).2 middle related
  refine ⟨image, related, fun before => ?_⟩
  have ended := ended (before ++ [request])
  rw [walked, List.append_assoc] at ended
  rw [destutter_cons_of_head? new]
  exact ended

/-- What a play comes to is foretold by the walk that is left where it begins. -/
theorem Plays.foretold {first : (Reply × Session) × World σ} {answers : List RunAnswer}
    (mirror : Mirror setup other again Related)
    (plays : Plays setup again first answers requests last)
    (describes : first.1.1.Describes first.1.2)
    (tried : ∀ answer ∈ answers, ∀ e, answer.error? = some e → again e = true) :
    Foretells other again Related first (answers.filterMap RunAnswer.text?) requests last := by
  -- The induction follows the play; the image of each world is found from the image of the world
  -- after it, from the last world backwards.
  induction plays with
  | @onward call s world answers requests last onward _ ih =>
    have led := mirror.leads_of_onward onward world describes
    exact led.foretells (ih led.1 tried) fun _ _ => rfl
  | @answered s world request answer later requests last plays ih =>
    have triedLater := fun answer known => tried answer (List.mem_cons_of_mem _ known)
    cases failing : answer.error? with
    | some e =>
      have again_e := tried answer List.mem_cons_self e failing
      obtain ⟨failed, led⟩ : _ ∧ Leads other again Related s world _ :=
        Mirror.leads_of_error describes failing again_e world
      rw [failed] at plays ih
      -- The answer is not a response, and the same request is handed out next: neither counts.
      have silent : answer.text? = none := by cases answer <;> first | rfl | cases failing
      have same := plays.head?_of_failed_run rfl again_e
      rw [Foretells, destutter_cons_of_head?_eq same, List.filterMap_cons_none silent]
      exact led.foretells (ih led.1 triedLater) fun _ _ => rfl
    | none =>
      cases answer with
      | failed | cancelled => cases failing
      | response text =>
        have next := (mirror.handle_response describes text world).1
        exact .answered mirror describes (ih next triedLater) (plays.ne_of_response describes next)
  | @unanswered s world request =>
    obtain ⟨suspended, asked⟩ := describes
    refine fun image' related => ⟨image', related, fun before => ?_⟩
    have asked : request = s.state.request := asked
    simp only [Reply.rest, Session.walk_of_suspended suspended, asked]
    rfl
  | @completed s world state answers =>
    have same : state = s.state := describes
    refine fun image' related => ⟨image', related, fun before => ?_⟩
    rw [same]
    simp [Reply.rest, Walking.ending, Session.scene]
  | @failed s world e answers untried =>
    refine fun image' related => ⟨image', related, fun before => ?_⟩
    simp [Reply.rest, Walking.ending, Session.scene, untried]
  | @retried s world e answers requests last again_e _ ih =>
    obtain ⟨point, failed, asked⟩ := describes
    have led := mirror.leads_of_retry failed world asked
    exact led.foretells (ih led.1 tried) fun _ _ => by simp only [Reply.rest, again_e, if_true]

end

namespace Plays

variable {setup : Setup σ} {s : Session} {answers : List RunAnswer} {requests : List RunRequest}

theorem destutter_eq {first : (Reply × Session) × World σ}
    {last : (StepOutcome × Session) × World σ}
    (plays : Plays setup (fun _ => false) first answers requests last)
    (describes : first.1.1.Describes first.1.2) (responses : ∀ answer ∈ answers, answer.error? = none) :
    requests.destutter (· ≠ ·) = requests := by
  induction plays with
  | @onward call s world answers requests last onward _ ih =>
    exact ih ((Mirror.refl setup).leads_of_onward onward world describes).1 responses
  | @answered s world request answer later requests last plays ih =>
    cases answer with
    | failed | cancelled => cases responses _ List.mem_cons_self
    | response text =>
      have next := ((Mirror.refl setup).handle_response describes text world).1
      have new := plays.ne_of_response describes next
      rw [destutter_cons_of_head? new, ih next fun answer known =>
        responses answer (List.mem_cons_of_mem _ known)]
  | unanswered | completed | failed => rfl
  | retried again => cases again

theorem exists_of_stopped (setup : Setup σ) {outcome : StepOutcome}
    (describes : (Reply.stopped outcome).Describes s) (world : World σ) (responses : List String) :
    ∃ requests last, Plays setup (fun _ => false) ((.stopped outcome, s), world)
      (responses.map .response) requests last := by
  -- Each stop at a run takes one response; without responses, or at any other stop, the play is
  -- over.
  induction responses generalizing outcome s world with
  | nil =>
    cases outcome with
    | suspended request => exact ⟨_, _, .unanswered⟩
    | completed state => exact ⟨_, _, .completed⟩
    | failed e => exact ⟨_, _, .failed rfl⟩
  | cons text later ih =>
    cases outcome with
    | suspended request =>
      have next := ((Mirror.refl setup).handle_response describes text world).1
      obtain ⟨requests, last, plays⟩ := ih next (s.step setup (some (.response text)) world).2
      exact ⟨_, last, .answered plays⟩
    | completed state => exact ⟨_, _, .completed⟩
    | failed e => exact ⟨_, _, .failed rfl⟩

theorem exists_of_isActive (setup : Setup σ) (active : s.phase.isActive) (world : World σ)
    (responses : List String) :
    ∃ requests last, Plays setup (fun _ => false) ((.advanced, s), world) (responses.map .response)
      requests last := by
  have next := ((Mirror.refl setup).leads_of_onward (.inr rfl) world active).1
  obtain ⟨requests, last, plays⟩ :=
    exists_of_stopped setup next (s.step setup none world).2 responses
  exact ⟨requests, last, .onward (.inr rfl) plays⟩

end Plays

/-- A script that is played from its start comes to what it is read to. -/
theorem Plays.readScript_eq {setup : Setup σ} {other : Setup τ} {again : EffectError → Bool}
    {Related : World σ → World τ → Prop} {nodes : List Node} {state : SessionState}
    {world : World σ} {answers : List RunAnswer} {requests : List RunRequest}
    {last : (StepOutcome × Session) × World σ} (mirror : Mirror setup other again Related)
    (plays : Plays setup again ((.advanced, Session.start nodes state), world) answers requests last)
    (tried : ∀ answer ∈ answers, ∀ e, answer.error? = some e → again e = true) (image' : World τ)
    (related : Related last.2 image') :
    ∃ image, Related world image ∧
      readScript other nodes state image (answers.filterMap RunAnswer.text?) =
        ⟨requests.destutter (· ≠ ·), last.1.1, last.1.2.state, last.1.2.effects, image'⟩ := by
  obtain ⟨image, related, ended⟩ := plays.foretold mirror rfl tried image' related
  have ended := ended []
  simp only [Reply.rest, Session.walk_start] at ended
  exact ⟨image, related, ended⟩

theorem RunAnswer.filterMap_text? (responses : List String) :
    (responses.map RunAnswer.response).filterMap RunAnswer.text? = responses := by
  induction responses with
  | nil => rfl
  | cons text later ih => exact congrArg (text :: ·) ih

theorem RunAnswer.error?_of_mem {responses : List String} {answer : RunAnswer}
    (known : answer ∈ responses.map RunAnswer.response) : answer.error? = none := by
  obtain ⟨text, _, rfl⟩ := List.mem_map.mp known
  rfl

/-- However a host plays a script, the requests, the outcome, the state, the segments that have taken
effect and the world are those of the script read from its first node to its last. There is a play
for all responses. -/
theorem plays_iff_readScript (setup : Setup σ) (nodes : List Node) (state : SessionState)
    (world : World σ) (responses : List String) (ending : ScriptEnding σ) :
    (∃ s, Plays setup (fun _ => false) ((.advanced, Session.start nodes state), world)
        (responses.map .response) ending.requests ((ending.outcome, s), ending.world) ∧
        s.state = ending.state ∧ s.effects = ending.effects) ↔
      readScript setup nodes state world responses = ending := by
  -- Every play comes to what is read, and there is a play that does.
  have read {requests last} (plays : Plays setup (fun _ => false)
      ((.advanced, Session.start nodes state), world) (responses.map .response) requests last) :
      readScript setup nodes state world responses =
        ⟨requests, last.1.1, last.1.2.state, last.1.2.effects, last.2⟩ := by
    obtain ⟨_, rfl, ended⟩ := plays.readScript_eq (Mirror.refl setup)
      (fun answer known e failing => by cases (RunAnswer.error?_of_mem known).symm.trans failing)
      last.2 rfl
    rwa [RunAnswer.filterMap_text?, plays.destutter_eq rfl fun _ => RunAnswer.error?_of_mem] at ended
  constructor
  · rintro ⟨s, plays, same, sameEffects⟩
    rw [read plays, same, sameEffects]
  · rintro rfl
    obtain ⟨requests, ⟨⟨outcome, s⟩, last⟩, plays⟩ :=
      Plays.exists_of_isActive setup (s := Session.start nodes state) rfl world responses
    rw [read plays]
    exact ⟨s, plays, rfl, rfl⟩

end PromptScript
