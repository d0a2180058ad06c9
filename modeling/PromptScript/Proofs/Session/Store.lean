import PromptScript.Proofs.Session.Failure
import PromptScript.Proofs.Session.Lifecycle
import PromptScript.Proofs.Session.Play
import PromptScript.Proofs.Session.Script
import PromptScript.Proofs.Value.Mapping

/-!
The variables of a session. They change where the script stores a value, where the agent answers, and
where the agent or the host sets one, and nowhere else: what a loop, the context or an include binds
never comes among them, and no variable is ever lost.
-/
namespace PromptScript

variable {σ : Type}

/-- The variable in which a node stores a value. -/
def Node.storedName? : Node → Option String
  | .stateAssign name _ => some name
  | .effect (.call _ _ target) => target
  | _ => none

/-- A node of the script, at some depth, stores a value in a variable. -/
def StoredBy (script : List Node) (name : String) : Prop :=
  ∃ node : Node, node.StandsIn script ∧ node.storedName? = some name

/-- The ways in which a name comes among the variables of a session that executes a script, while its
host makes some calls: with a node of the script, with an accepted answer of the agent, and with a
value that the agent or the host sets. -/
inductive PutDuring (setup : Setup σ) (script : List Node) (history : List (Call × Reply))
    (name : String) : Prop
  | script : StoredBy script name → PutDuring setup script history name
  | answer {text : String} {reply : Reply} : (.step (some (.response text)), reply) ∈ history →
    reply.isRefusal = false → setup.lastResult = name → PutDuring setup script history name
  | agent {args : List Value} {result : Value} :
    (.invokeTool "set_variable" args, .tool (.ok result)) ∈ history →
    args.head? = some (.str name) → PutDuring setup script history name
  | host {value : Value} {reply : Reply} : (.setVariable name value, reply) ∈ history →
    PutDuring setup script history name

theorem PutDuring.mono {setup : Setup σ} {script : List Node} {history more : List (Call × Reply)}
    {name : String} (put : PutDuring setup script history name) (sub : history ⊆ more) :
    PutDuring setup script more name := by
  cases put with
  | script stored => exact .script stored
  | answer member accepted same => exact .answer (sub member) accepted same
  | agent member first => exact .agent (sub member) first
  | host member => exact .host (sub member)

namespace Session

open Mapping (Puts)

variable {setup : Setup σ} {s next : Session} {world world' : World σ} {script : List Node}

/-! ### One segment -/

/-- A node puts nothing among the variables but the value that it stores. -/
theorem Acts.puts {ctx : Context} {node : Node}
    (acts : Acts setup s ctx world node next world') :
    Puts (fun name => node.storedName? = some name) s.state.vars next.state.vars := by
  cases acts with
  | @imports names source =>
    obtain ⟨imports, folded, _⟩ := foldl_addImport s names source
    rw [folded]
    exact .nothing
  | assigns => exact .single _ rfl
  | @calls _ _ target _ _ result =>
    cases target with
    | none => exact .nothing
    | some target => exact .single result rfl
  | @registers names =>
    obtain ⟨tools, folded, _⟩ := SessionState.foldl_registerTool s.state names
    rw [folded]
    exact .nothing
  | @renders _ text =>
    simp only [addProse, record]
    split <;> exact .nothing
  | controls | runs | clearsContext | clearsTools => exact .nothing

/-- An advance puts what the segment stores that it takes from the stack. -/
theorem puts_of_advance (setup : Setup σ) (world : World σ) {segment : Segment} {stack : Stack}
    (found : s.stack.next? = some (segment, stack)) :
    Puts (fun name => segment.node.storedName? = some name) s.state.vars
      (s.advance setup world).1.2.state.vars := by
  cases active : s.phase.isActive with
  | false =>
    obtain ⟨cause, refused⟩ := advance_of_not_isActive setup world active
    rw [refused]
    exact .nothing
  | true =>
    rcases advance_cases setup s world active with ⟨done, _⟩ |
      ⟨_, _, next, world', found', executed, advanced⟩ | ⟨_, _, _, _, _, _, advanced⟩
    · cases found.symm.trans done
    · cases found.symm.trans found'
      obtain ⟨frames, acted, _, acts, rfl⟩ := execute_ok_iff.mp executed
      rw [advanced]
      exact acts.puts
    · rw [advanced]
      exact .nothing

/-! ### A whole script -/

/-- All that a session may still execute, also when it is tried again, comes from a script. -/
structure Follows (script : List Node) (s : Session) : Prop where
  stack : s.stack.ComesFrom script
  tried : ∀ segment, s.phase = .failed (.segment segment) → segment.node.StandsIn script

theorem Follows.of_isActive (comes : s.stack.ComesFrom script) (active : s.phase.isActive) :
    s.Follows script where
  stack := comes
  tried segment failed := by
    rw [failed] at active
    cases active

/-- What is executed of a script puts only what the script stores. -/
theorem puts_of_execute {segment : Segment} (within : segment.node.StandsIn script)
    (h : s.execute setup segment world = (.ok next, world')) :
    Puts (StoredBy script) s.state.vars next.state.vars := by
  obtain ⟨frames, acted, _, acts, rfl⟩ := execute_ok_iff.mp h
  exact acts.puts.mono fun name stores => ⟨_, within, stores⟩

theorem follows_of_execute {segment : Segment} (active : s.phase.isActive)
    (comes : s.stack.ComesFrom script) (within : segment.node.StandsIn script)
    (h : s.execute setup segment world = (.ok next, world')) : next.Follows script where
  stack := comesFrom_execute comes within h
  tried other failed := by
    rcases phase_of_execute_ok active h with going | waiting
    · rw [failed] at going
      cases going
    · cases waiting.symm.trans failed

namespace Follows

theorem advance (follows : s.Follows script) (setup : Setup σ) (world : World σ) :
    (s.advance setup world).1.2.Follows script ∧
      Puts (StoredBy script) s.state.vars (s.advance setup world).1.2.state.vars := by
  cases active : s.phase.isActive with
  | false =>
    obtain ⟨cause, refused⟩ := advance_of_not_isActive setup world active
    rw [refused]
    exact ⟨follows, .nothing⟩
  | true =>
    rcases advance_cases setup s world active with ⟨_, advanced⟩ |
      ⟨segment, stack, next, world', found, executed, advanced⟩ |
      ⟨segment, stack, e, world', found, _, advanced⟩
    · rw [advanced]
      exact ⟨⟨nofun, nofun⟩, .nothing⟩
    · obtain ⟨within, rest⟩ := follows.stack.next? found
      rw [advanced]
      exact ⟨follows_of_execute (s := s.taking stack) rfl rest within executed,
        puts_of_execute (s := s.taking stack) within executed⟩
    · obtain ⟨within, rest⟩ := follows.stack.next? found
      rw [advanced]
      refine ⟨⟨rest, fun other failed => ?_⟩, .nothing⟩
      cases failed
      exact within

theorem runOn (follows : s.Follows script) (setup : Setup σ) (world : World σ) :
    (s.runOn setup world).1.2.Follows script ∧
      Puts (StoredBy script) s.state.vars (s.runOn setup world).1.2.state.vars := by
  refine runOn_invariant (P := fun next _ => next.Follows script ∧
    Puts (StoredBy script) s.state.vars next.state.vars) ?_ ⟨follows, .nothing⟩
  intro next world ⟨follows, puts⟩
  obtain ⟨later, more⟩ := follows.advance setup world
  exact ⟨later, puts.trans more⟩

theorem retry (follows : s.Follows script) (setup : Setup σ) (world : World σ) :
    (s.retry setup world).1.2.Follows script ∧
      Puts (StoredBy script) s.state.vars (s.retry setup world).1.2.state.vars := by
  cases phase : s.phase with
  | ready | running | suspended | completed =>
    simp only [Session.retry, phase]
    exact ⟨follows, .nothing⟩
  | failed point =>
    cases point with
    | run request =>
      simp only [Session.retry, phase]
      refine ⟨⟨follows.stack, fun other failed => ?_⟩, .nothing⟩
      cases failed
    | segment segment =>
      have within := follows.tried segment phase
      rcases retry_cases setup world phase with ⟨next, world', executed, on⟩ | ⟨e, world', _, retried⟩
      · have later := follows_of_execute (s := s.retrying segment) rfl follows.stack within executed
        have puts := puts_of_execute (s := s.retrying segment) within executed
        rcases on with ⟨_, retried⟩ | ⟨_, retried⟩
        · obtain ⟨last, more⟩ := later.runOn setup world'
          rw [retried]
          exact ⟨last, puts.trans more⟩
        · rw [retried]
          exact ⟨later, puts⟩
      · rw [retried]
        refine ⟨⟨follows.stack, fun other failed => ?_⟩, .nothing⟩
        cases failed
        exact within

/-- A step puts what the script stores, behind the answer that it accepts. -/
theorem step (follows : s.Follows script) (setup : Setup σ) (answer : Option RunAnswer)
    (world : World σ) :
    (s.step setup answer world).1.2.Follows script ∧
      Puts (PutDuring setup script [(.step answer, .stopped (s.step setup answer world).1.1)])
        s.state.vars (s.step setup answer world).1.2.state.vars := by
  rcases step_cases setup s answer world with ⟨cause, refused⟩ | ⟨e, request, _, _, failed⟩ |
    ⟨active, stepped⟩
  · rw [refused]
    exact ⟨follows, .nothing⟩
  · rw [failed]
    exact ⟨⟨follows.stack, nofun⟩, .nothing⟩
  · have accepted : (Reply.stopped (s.step setup answer world).1.1).isRefusal = false :=
      stepped ▸ runOn_isRefusal active
    have entering : (s.entered setup (.step answer)).Follows script ∧
        Puts (PutDuring setup script [(.step answer, .stopped (s.step setup answer world).1.1)])
          s.state.vars (s.entered setup (.step answer)).state.vars := by
      rcases answer with _ | text | message | _
      · exact ⟨follows, .nothing⟩
      · exact ⟨of_isActive follows.stack rfl,
          .single _ (.answer (List.mem_singleton.mpr rfl) accepted rfl)⟩
      · exact ⟨follows, .nothing⟩
      · exact ⟨follows, .nothing⟩
    obtain ⟨entered, puts⟩ := entering
    obtain ⟨later, more⟩ := entered.runOn setup world
    have all := puts.trans (more.mono fun name stored => PutDuring.script stored)
    rw [stepped] at all ⊢
    exact ⟨later, all⟩

/-- What a call puts among the variables. -/
theorem handle (follows : s.Follows script) (setup : Setup σ) (world : World σ) (call : Call) :
    (s.handle setup world call).1.2.Follows script ∧
      Puts (PutDuring setup script [(call, (s.handle setup world call).1.1)]) s.state.vars
        (s.handle setup world call).1.2.state.vars := by
  cases call with
  | advance =>
    obtain ⟨later, puts⟩ := follows.advance setup world
    exact ⟨later, puts.mono fun name stored => .script stored⟩
  | step answer => exact follows.step setup answer world
  | retry =>
    obtain ⟨later, puts⟩ := follows.retry setup world
    exact ⟨later, puts.mono fun name stored => .script stored⟩
  | invokeTool name args =>
    rcases invoked : s.invokeTool setup name args world with ⟨e | ⟨value, next⟩, world'⟩ <;>
      simp only [Session.handle, invoked]
    · exact ⟨follows, .nothing⟩
    · obtain ⟨request, vars, suspended, used, rfl⟩ := invokeTool_ok invoked
      refine ⟨⟨follows.stack, fun segment failed => ?_⟩, ?_⟩
      · cases suspended.symm.trans failed
      · rcases used with rfl | ⟨rfl, var, stored, first, rfl⟩
        · exact .nothing
        · exact .single stored (.agent (List.mem_singleton.mpr rfl) first)
  | setVariable name value =>
    exact ⟨⟨follows.stack, follows.tried⟩, .single value (.host (List.mem_singleton.mpr rfl))⟩
  | takeEvents => exact ⟨⟨follows.stack, follows.tried⟩, .nothing⟩

theorem start (nodes : List Node) (state : SessionState) :
    (Session.start nodes state).Follows nodes :=
  of_isActive (comesFrom_start nodes state) rfl

theorem handleAll (follows : s.Follows script) (setup : Setup σ) (world : World σ)
    (calls : List Call) :
    (s.handleAll setup world calls).1.2.Follows script ∧
      Puts (PutDuring setup script (s.handleAll setup world calls).1.1) s.state.vars
        (s.handleAll setup world calls).1.2.state.vars := by
  refine handleAll_invariant (P := fun history next => next.Follows script ∧
    Puts (PutDuring setup script history) s.state.vars next.state.vars)
    (fun history next world call ⟨follows, puts⟩ => ?_) [] ⟨follows, .nothing⟩ world calls
  obtain ⟨later, more⟩ := follows.handle setup world call
  refine ⟨later, (puts.mono fun name put => ?_).trans (more.mono fun name put => ?_)⟩
  · exact put.mono (List.subset_append_left _ _)
  · exact put.mono (List.subset_append_right _ _)

end Follows

/-! ### What leaves the variables alone -/

/-- An advance that fails stores nothing. -/
theorem vars_of_advance_error (setup : Setup σ) (world : World σ) {e : EffectError}
    (failed : (s.advance setup world).1.1 = .error e) :
    (s.advance setup world).1.2.state.vars = s.state.vars := by
  cases active : s.phase.isActive with
  | false =>
    obtain ⟨cause, refused⟩ := advance_of_not_isActive setup world active
    rw [refused]
  | true =>
    rcases advance_cases setup s world active with ⟨_, advanced⟩ | ⟨_, _, _, _, _, _, advanced⟩ |
      ⟨_, _, _, _, _, _, advanced⟩
    · rw [advanced]
      rfl
    · rw [advanced] at failed
      cases failed
    · rw [advanced]
      rfl

/-- An answer that is not a response stores nothing, whether it is accepted or refused. -/
theorem vars_of_step_error (setup : Setup σ) (s : Session) (world : World σ) {answer : RunAnswer}
    (broken : answer.error?.isSome) :
    (s.step setup (some answer) world).1.2.state.vars = s.state.vars := by
  cases phase : s.phase with
  | suspended request =>
    cases answer with
    | response text => cases broken
    | failed | cancelled => simp only [Session.step, phase]; rfl
  | ready | running | completed | failed => simp only [Session.step, phase]

end Session

/-- Whatever its host has done with a session and goes on to do, the variables that it had stay in
front, in their order. Each new one was put there meanwhile: by a node of the script that stores a
value, by an answer of the agent, or by the agent or the host setting it; all others have the value
that they had. A segment that stores nothing, as one that clears the context or the tools, leaves the
variables as they are, and so do a segment and a run that fail. -/
theorem variables_as_put (setup : Setup σ) (nodes : List Node) (state : SessionState)
    (world : World σ) (earlier later : List Call) :
    let ((_, s), between) := (Session.start nodes state).handleAll setup world earlier
    let ((history, last), after) := s.handleAll setup between later
    (∃ added, Mapping.keys last.state.vars = Mapping.keys s.state.vars ++ added ∧
      ∀ name ∈ added, PutDuring setup nodes history name) ∧
    (∀ name, ¬ PutDuring setup nodes history name →
      Mapping.get? last.state.vars name = Mapping.get? s.state.vars name) ∧
    (∀ segment stack, last.stack.next? = some (segment, stack) →
      segment.node.storedName? = none ∨ (∃ e, (last.advance setup after).1.1 = .error e) →
      (last.advance setup after).1.2.state.vars = last.state.vars) ∧
    ∀ answer : RunAnswer, answer.error?.isSome →
      (last.step setup (some answer) after).1.2.state.vars = last.state.vars := by
  have follows := ((Session.Follows.start nodes state).handleAll setup world earlier).1
  revert follows
  generalize (Session.start nodes state).handleAll setup world earlier = reached
  obtain ⟨⟨_, s⟩, between⟩ := reached
  intro follows
  dsimp only
  obtain ⟨_, puts⟩ := follows.handleAll setup between later
  revert puts
  generalize s.handleAll setup between later = reached
  obtain ⟨⟨history, last⟩, after⟩ := reached
  intro puts
  refine ⟨puts.keys_eq, fun name unused => puts.get?_eq unused, fun segment stack found quiet => ?_,
    fun answer broken => Session.vars_of_step_error setup last after broken⟩
  rcases quiet with stores | ⟨e, failed⟩
  · have stored := Session.puts_of_advance setup after found
    refine stored.eq_of_forall_not fun name same => ?_
    rw [stores] at same
    cases same
  · exact Session.vars_of_advance_error setup after failed

end PromptScript
