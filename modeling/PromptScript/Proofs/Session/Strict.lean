import PromptScript.Proofs.Render.Strict
import PromptScript.Proofs.Session.Termination

/-!
Sessions in strict mode. Prose is all that the mode makes a difference to, so that a session does the same
in both modes up to the first variable in prose that is absent. In strict mode it fails there.
-/
namespace PromptScript

open PromptScript.Computation

variable {σ : Type}

/-- The setup with strict mode on or off. -/
def Setup.inMode (setup : Setup σ) (strict : Bool) : Setup σ :=
  { setup with options := { setup.options with strict } }

/-! ### One step -/

namespace Session

theorem act_inMode (setup : Setup σ) (s : Session) (ctx : Context) {node : Node}
    (other : node.isProse = false) (strict strict' : Bool) :
    s.act (setup.inMode strict) ctx node = s.act (setup.inMode strict') ctx node := by
  cases node with
  | text | interpolation | block | «include» => cases other
  | effect e => cases e <;> rfl
  | _ => rfl

theorem attempt_inMode (setup : Setup σ) (s : Session) {segment : Segment} (world : World σ)
    (other : segment.node.isProse = false) (strict strict' : Bool) :
    s.attempt (setup.inMode strict) segment world = s.attempt (setup.inMode strict') segment world := by
  have scope : s.scope (setup.inMode strict) = s.scope (setup.inMode strict') := rfl
  simp only [attempt_eq, execute_eq, scope]
  rw [act_inMode setup s _ other strict strict']

end Session

namespace Execution

/-- A segment of prose is being rendered, and comes to a variable that the scope in force does not
resolve. -/
def MeetsAbsent (path : VarPath) : Execution σ → Prop
  | .rendering _ _ _ stage => stage.MeetsAbsent path
  | .seeking .. | .ended _ => False

/-- A session in strict mode and one that is not come to the same point, where a variable is absent. -/
def ComesToAbsent (setup : Setup σ) (start : Execution σ) (path : VarPath) : Prop :=
  ∃ point, Leads (setup.inMode true) start point ∧ Leads (setup.inMode false) start point ∧
    point.MeetsAbsent path

theorem enter_inMode (setup : Setup σ) (s : Session) (segment : Segment) (world : World σ)
    (strict strict' : Bool) :
    enter (setup.inMode strict) s segment world = enter (setup.inMode strict') s segment world := by
  rw [enter, enter]
  split
  · rfl
  · next other => rw [s.attempt_inMode setup world (by simpa using other) strict strict']

theorem isFixedPt_ended {setup : Setup σ} (last : (StepOutcome × Session) × World σ) :
    Function.IsFixedPt (next setup) (.ended last) :=
  rfl

/-- A point at which the modes part: a variable is absent, and from there strict mode leads to a failure. -/
def FailsInStrict (setup : Setup σ) (point : Execution σ) : Prop :=
  ∃ path, point.MeetsAbsent path ∧ ∃ s world,
    Leads (setup.inMode true) point (.ended ((.failed (.render (.eval (.absent path.text))), s), world))

theorem next_inMode (setup : Setup σ) (point : Execution σ) :
    point.next (setup.inMode true) = point.next (setup.inMode false) ∨ FailsInStrict setup point := by
  cases point with
  | seeking s world =>
    left
    simp only [next, enter_inMode setup _ _ _ true false]
  | ended last => exact .inl rfl
  | rendering s segment world stage =>
    cases stage with
    | ended outcome =>
      obtain ⟨_ | _, _⟩ := outcome <;> exact .inl rfl
    | running state =>
      rcases next_strict world.files setup.options.defaultExtension (.running state) with
        same | ⟨path, absent, cache, fails⟩
      · exact .inl (congrArg (rendering s segment world) same)
      · have ends : next (setup.inMode true) (.rendering s segment world (.running state)) =
            .rendering s segment world (.ended (.error (.eval (.absent path.text)), cache)) :=
          congrArg (rendering s segment world) fails
        -- First the render ends, and then the segment fails.
        exact .inr ⟨path, absent, s.fail (.render (.eval (.absent path.text))) (.segment segment),
          { world with cache }, .next (ends ▸ .next (.refl _))⟩

theorem step_inMode (setup : Setup σ) (s : Session) (answer : Option RunAnswer) (world : World σ) :
    s.step (setup.inMode true) answer world = s.step (setup.inMode false) answer world ∨
      ∃ path, (s.step (setup.inMode true) answer world).1.1 =
          .failed (.render (.eval (.absent path.text))) ∧
        ComesToAbsent setup (.ofStep setup s answer world) path := by
  have ends (strict : Bool) : Leads (setup.inMode strict) (.ofStep setup s answer world)
      (.ended (s.step (setup.inMode strict) answer world)) := leads_step s answer world
  rcases ends_alike_or_parts (next_inMode setup) (isFixedPt_ended _) (isFixedPt_ended _) (ends true)
    (ends false) with same | ⟨point, leads, leads', path, absent, last, after, fails⟩
  · exact .inl (Execution.ended.inj same)
  · have same := ends_unique (isFixedPt_ended _) (isFixedPt_ended _) (ends true)
      (Leads.trans leads fails)
    exact .inr ⟨path, congrArg (fun last => last.1.1) (Execution.ended.inj same), point, leads, leads',
      absent⟩

end Execution

/-! ### Step after step -/

namespace Session

/-- Steps a session with some answers, one for each run of the agent, until the session ends or no
answer is left. -/
def stepThrough (setup : Setup σ) (s : Session) (answer : Option RunAnswer) (world : World σ) :
    List RunAnswer → (StepOutcome × Session) × World σ
  | [] => s.step setup answer world
  | next :: later =>
    match s.step setup answer world with
    | ((.suspended _, waiting), world) => waiting.stepThrough setup (some next) world later
    | last => last

/-- Both modes come to the same step, in which a variable is absent. -/
inductive ComesToAbsent (setup : Setup σ) (path : VarPath) :
    Session → Option RunAnswer → World σ → List RunAnswer → Prop
  | here {s : Session} {answer : Option RunAnswer} {world : World σ} {answers : List RunAnswer} :
    Execution.ComesToAbsent setup (.ofStep setup s answer world) path →
    ComesToAbsent setup path s answer world answers
  | later {s waiting : Session} {answer : Option RunAnswer} {world world' : World σ}
      {request : RunRequest} {next : RunAnswer} {answers : List RunAnswer} :
    (∀ strict, s.step (setup.inMode strict) answer world = ((.suspended request, waiting), world')) →
    ComesToAbsent setup path waiting (some next) world' answers →
    ComesToAbsent setup path s answer world (next :: answers)

theorem stepThrough_inMode (setup : Setup σ) (s : Session) (answer : Option RunAnswer)
    (world : World σ) (answers : List RunAnswer) :
    s.stepThrough (setup.inMode true) answer world answers =
        s.stepThrough (setup.inMode false) answer world answers ∨
      ∃ path, (s.stepThrough (setup.inMode true) answer world answers).1.1 =
          .failed (.render (.eval (.absent path.text))) ∧
        ComesToAbsent setup path s answer world answers := by
  induction answers generalizing s answer world with
  | nil =>
    rcases Execution.step_inMode setup s answer world with same | ⟨path, fails, absent⟩
    · exact .inl same
    · exact .inr ⟨path, fails, .here absent⟩
  | cons next later ih =>
    rcases Execution.step_inMode setup s answer world with same | ⟨path, fails, absent⟩
    · rcases stepped : s.step (setup.inMode false) answer world with ⟨⟨request | _ | _, waiting⟩, world'⟩
      case suspended =>
        simp only [stepThrough, same, stepped]
        rcases ih waiting (some next) world' with alike | ⟨path, fails, absent⟩
        · exact .inl alike
        · exact .inr ⟨path, fails, .later (Bool.forall_bool.mpr ⟨stepped, same.trans stepped⟩) absent⟩
      all_goals
        left
        simp only [stepThrough, same, stepped]
    · -- A failed session takes no more answers.
      refine .inr ⟨path, ?_, .here absent⟩
      rcases stepped : s.step (setup.inMode true) answer world with ⟨⟨outcome, last⟩, world'⟩
      rw [stepped] at fails
      cases fails
      simp only [stepThrough, stepped]

end Session

/-! ### Both modes -/

def Loading.failure? {α : Type} (last : Except RenderError α × TemplateCache) : Option RenderError :=
  match last.1 with
  | .error e => some e
  | .ok _ => none

def StepOutcome.failure? : StepOutcome → Option EffectError
  | .failed e => some e
  | .suspended _ | .completed _ => none

/-- Strict mode comes to the same end, unless it fails because of a variable. If it alone fails, then at
a variable that both modes meet and that is absent. -/
structure Conservative {ω ε : Type} (failure? : ω → Option ε) (absent : VarPath → ε)
    (meets : VarPath → Prop) (strict other : ω) : Prop where
  succeeds : failure? strict = none → other = strict
  fails : ∀ e, failure? other = some e →
    failure? strict = some e ∨ ∃ path, failure? strict = some (absent path)
  failsAlone : ∀ e, failure? other = none → failure? strict = some e →
    ∃ path, e = absent path ∧ meets path

theorem Conservative.of_same_or_absent {ω ε : Type} {failure? : ω → Option ε} {absent : VarPath → ε}
    {meets : VarPath → Prop} {strict other : ω}
    (same : strict = other ∨ ∃ path, failure? strict = some (absent path) ∧ meets path) :
    Conservative failure? absent meets strict other := by
  rcases same with rfl | ⟨path, failed, here⟩
  · exact ⟨fun _ => rfl, fun e failed => .inl failed, fun e none failed => by simp [none] at failed⟩
  · refine ⟨fun none => by simp [none] at failed, fun _ _ => .inr ⟨path, failed⟩, fun e _ failed' => ?_⟩
    exact ⟨path, Option.some.inj (failed'.symm.trans failed), here⟩

/-- Strict mode changes nothing but that a variable that is absent from prose is an error: neither what a
template or a file renders to, nor what a session does that is stepped with the same answers. -/
theorem strict_conservative :
    (∀ fs extension dir nodes ctx cache,
      Conservative Loading.failure? (fun path => .eval (.absent path.text))
        (ComesToAbsent fs extension (.start dir nodes ctx cache))
        (render fs ⟨true, extension⟩ dir nodes ctx cache)
        (render fs ⟨false, extension⟩ dir nodes ctx cache)) ∧
    (∀ fs extension file ctx cache,
      Conservative Loading.failure? (fun path => .eval (.absent path.text))
        (ComesToAbsent fs extension (.startFile fs file ctx cache))
        (renderFile fs ⟨true, extension⟩ file ctx cache)
        (renderFile fs ⟨false, extension⟩ file ctx cache)) ∧
    ∀ {σ : Type} (setup : Setup σ) (s : Session) answer world answers,
      Conservative (fun last => last.1.1.failure?) (fun path => .render (.eval (.absent path.text)))
        (fun path => s.ComesToAbsent setup path answer world answers)
        (s.stepThrough (setup.inMode true) answer world answers)
        (s.stepThrough (setup.inMode false) answer world answers) := by
  refine ⟨fun fs extension dir nodes ctx cache => .of_same_or_absent ?_,
    fun fs extension file ctx cache => .of_same_or_absent ?_,
    fun setup s answer world answers => .of_same_or_absent ?_⟩
  · refine (render_strict fs extension dir nodes ctx cache).imp_right fun ⟨path, failed, meets⟩ => ?_
    exact ⟨path, by rw [Loading.failure?, failed], meets⟩
  · refine (renderFile_strict fs extension file ctx cache).imp_right fun ⟨path, failed, meets⟩ => ?_
    exact ⟨path, by rw [Loading.failure?, failed], meets⟩
  · refine (s.stepThrough_inMode setup answer world answers).imp_right fun ⟨path, failed, meets⟩ => ?_
    exact ⟨path, by rw [failed]; rfl, meets⟩

/-- A variable that is not set comes out as nothing, and in strict mode it is an error. -/
theorem strict_conservative_unset :
    let nodes : List Node := [.interpolation ⟨"x", []⟩]
    let render strict := render ⟨[], []⟩ ⟨strict, ""⟩ "/" nodes .empty .empty
    (render false).1 = .ok "" ∧ ∃ path : VarPath, (render true).1 = .error (.eval (.absent path.text)) ∧
      ComesToAbsent ⟨[], []⟩ "" (.start "/" nodes .empty .empty) path := by
  intro nodes render
  have conservative := strict_conservative.1 ⟨[], []⟩ "" "/" nodes .empty .empty
  have failed : (render true).1 = .error (.eval (.absent "x")) := by rfl
  obtain ⟨path, same, meets⟩ := conservative.failsAlone (.eval (.absent "x")) rfl rfl
  exact ⟨rfl, path, failed.trans (congrArg _ same), meets⟩

end PromptScript
