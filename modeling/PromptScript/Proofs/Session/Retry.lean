import PromptScript.Proofs.Session.Host
import PromptScript.Proofs.Session.Reading

/-!
Trying again is transparent: a script whose host functions and runs fail now and then, and which is
tried again each time until it completes, does what it does when nothing fails.

The calls that succeed are noted by the host. A host that replays what was noted, and knows of no
failure, is what both plays are compared with.
-/
namespace PromptScript

variable {σ τ : Type}

/-- A call of a host function that has succeeded. -/
structure HostCall where
  name : String
  args : List Value
  result : Value
deriving DecidableEq, Repr, Inhabited

namespace HostFunction

/-- The same function, with a note of each call that succeeds. -/
def watched (name : String) (f : HostFunction σ) : HostFunction (σ × List HostCall) :=
  fun args (host, calls) =>
    match f args host with
    | (.ok value, host) => (.ok value, (host, calls ++ [⟨name, args, value⟩]))
    | (.error message, host) => (.error message, (host, calls))

/-- Gives the results of calls that were noted, to the same calls in the same order. -/
def replayed (name : String) : HostFunction (List HostCall) := fun args calls =>
  match calls with
  | [] => (.error "no call is left", [])
  | call :: later =>
    if call.name = name ∧ call.args = args then (.ok call.result, later)
    else (.error "another call was made", call :: later)

/-- Of all calls, those that are not noted yet are left to be replayed. Calls that fail leave no
note. -/
theorem mirrors_replayed (all : List HostCall) (name : String) (f : HostFunction σ) :
    Mirrors true (fun host left => host.2 ++ left = all) (watched name f) (replayed name) where
  succeeds {args value host host' left} called noted := by
    simp only [watched] at called
    split at called
    · cases called
      exact ⟨⟨name, args, value⟩ :: left, by simpa using noted, by simp [replayed]⟩
    · cases called
  fails {args message host host' left} called noted := by
    simp only [watched] at called
    split at called
    · cases called
    · cases called
      exact noted

/-- A host that replays calls notes them once more. -/
theorem watched_replayed_mirrors (all : List HostCall) (name : String) :
    Mirrors false (fun host left => left = host.1 ∧ host.2 ++ left = all)
      (watched name (replayed name)) (replayed name) where
  succeeds {args value host host' left} called related := by
    obtain ⟨calls, notes⟩ := host
    cases calls with
    | nil => cases called
    | cons call later =>
      by_cases same : call.name = name ∧ call.args = args
      · simp only [watched, replayed, if_pos same] at called
        cases called
        obtain ⟨rfl, noted⟩ := related
        obtain ⟨rfl, rfl⟩ := same
        exact ⟨call :: left, ⟨rfl, by simpa using noted⟩, by simp [replayed]⟩
      · simp only [watched, replayed, if_neg same] at called
        cases called
  fails {args message host host' left} called related := by
    obtain ⟨calls, notes⟩ := host
    cases calls with
    | nil =>
      cases called
      obtain ⟨rfl, noted⟩ := related
      exact ⟨[], ⟨rfl, noted⟩, rfl⟩
    | cons call later =>
      by_cases same : call.name = name ∧ call.args = args
      · simp only [watched, replayed, if_pos same] at called
        cases called
      · simp only [watched, replayed, if_neg same] at called
        cases called
        obtain ⟨rfl, noted⟩ := related
        exact ⟨call :: later, ⟨rfl, noted⟩, by simp [replayed, same]⟩

end HostFunction

namespace Setup

def watched (setup : Setup σ) : Setup (σ × List HostCall) :=
  setup.mapFunctions HostFunction.watched

def replayed (setup : Setup σ) : Setup (List HostCall) :=
  setup.mapFunctions fun name _ => HostFunction.replayed name

/-- The setups differ only in what the functions of the host do. -/
structure Alike (setup : Setup σ) (other : Setup τ) : Prop where
  names : other.registry.functions.map (·.1) = setup.registry.functions.map (·.1)
  options : other.options = setup.options
  base : other.base = setup.base
  baseDir : other.baseDir = setup.baseDir
  lastResult : other.lastResult = setup.lastResult

theorem Alike.replayed_eq {setup : Setup σ} {other : Setup τ} (alike : setup.Alike other) :
    other.replayed = setup.replayed := by
  have named {υ : Type} (s : Setup υ) : s.replayed =
      ⟨⟨(s.registry.functions.map (·.1)).map fun name => (name, HostFunction.replayed name)⟩,
        s.options, s.base, s.baseDir, s.lastResult⟩ := by
    simp [replayed, mapFunctions, Registry.mapFunctions, Function.comp_def]
  rw [named, named, alike.names, alike.options, alike.base, alike.baseDir, alike.lastResult]

theorem alike_replayed (setup : Setup σ) : setup.Alike setup.replayed :=
  ⟨by simp [replayed, mapFunctions, Registry.mapFunctions, Function.comp_def], rfl, rfl, rfl, rfl⟩

theorem watched_replayed (setup : Setup σ) : setup.replayed.watched =
    setup.mapFunctions fun name _ => HostFunction.watched name (HostFunction.replayed name) := by
  simp [watched, replayed, mapFunctions, Registry.mapFunctions, Function.comp_def]

end Setup

def World.watched (world : World σ) : World (σ × List HostCall) :=
  ⟨world.files, world.cache, (world.host, [])⟩

/-- A play of the script without any failure that is tried again, in which every call that succeeds
and every response is the same, in the same order. The host may do otherwise what it likes. -/
structure PlaysStraight (setup : Setup σ) (nodes : List Node) (state : SessionState)
    (world : World σ) (answers : List RunAnswer) (calls : List HostCall) (other : Setup τ) (host : τ)
    (requests : List RunRequest) (last : (StepOutcome × Session) × World (τ × List HostCall)) :
    Prop where
  alike : setup.Alike other
  plays : Plays other.watched (fun _ => false) ((.advanced, Session.start nodes state),
    World.watched ⟨world.files, world.cache, host⟩)
    ((answers.filterMap RunAnswer.text?).map .response) requests last
  noFailure : ∀ e, last.1.1 = .failed e → e.isPassing = false
  sameCalls : last.2.host.2 = calls

theorem RunAnswer.isPassing_of_error? {answer : RunAnswer} {e : EffectError}
    (failing : answer.error? = some e) : e.isPassing = true := by
  cases answer with
  | response => cases failing
  | failed | cancelled => cases failing; rfl

namespace Plays

variable {setup : Setup σ} {again : EffectError → Bool} {answers : List RunAnswer}
  {requests : List RunRequest}

theorem of_noFailure {first : (Reply × Session) × World σ}
    {last : (StepOutcome × Session) × World σ}
    (plays : Plays setup (fun _ => false) first answers requests last)
    (noFailure : ∀ e, last.1.1 = .failed e → again e = false) :
    Plays setup again first answers requests last := by
  induction plays with
  | onward call _ ih => exact .onward call (ih noFailure)
  | answered _ ih => exact .answered (ih noFailure)
  | unanswered => exact .unanswered
  | completed => exact .completed
  | failed => exact .failed (noFailure _ rfl)
  | retried tried => cases tried

/-- A play with second tries comes to what the script is read to where the calls that succeeded are
replayed. -/
theorem readScript_replayed {nodes : List Node} {state : SessionState} {world : World σ}
    {last : (StepOutcome × Session) × World (σ × List HostCall)}
    (plays : Plays setup.watched EffectError.isPassing
      ((.advanced, Session.start nodes state), world.watched) answers requests last) :
    readScript setup.replayed nodes state ⟨world.files, world.cache, last.2.host.2⟩
        (answers.filterMap RunAnswer.text?) =
      ⟨requests.destutter (· ≠ ·), last.1.1, last.1.2.state, last.1.2.effects,
        ⟨last.2.files, last.2.cache, []⟩⟩ := by
  have mirror := Mirror.mapFunctions setup (HostFunction.mirrors_replayed last.2.host.2)
    (fun _ lasting => lasting) fun _ _ => rfl
  obtain ⟨⟨files, cache, calls⟩, ⟨rfl, rfl, rfl⟩, read⟩ := plays.readScript_eq mirror
    (fun _ _ _ => RunAnswer.isPassing_of_error?) ⟨last.2.files, last.2.cache, []⟩
    ⟨rfl, rfl, List.append_nil _⟩
  exact read

/-- A play from noted calls comes to what the script is read to from them; the calls that it makes are
noted again. -/
theorem readScript_watched_replayed {nodes : List Node} {state : SessionState}
    {world : World (List HostCall)} {responses : List String}
    {last : (StepOutcome × Session) × World (List HostCall × List HostCall)}
    (plays : Plays setup.replayed.watched (fun _ => false)
      ((.advanced, Session.start nodes state), world.watched) (responses.map .response) requests last) :
    readScript setup.replayed nodes state world responses =
        ⟨requests.destutter (· ≠ ·), last.1.1, last.1.2.state, last.1.2.effects,
          ⟨last.2.files, last.2.cache, last.2.host.1⟩⟩ ∧
      last.2.host.2 ++ last.2.host.1 = world.host := by
  rw [Setup.watched_replayed] at plays
  have mirror : Mirror _ setup.replayed (fun _ => false) _ := Mirror.mapFunctions setup
    (fun name _ => HostFunction.watched_replayed_mirrors (last.2.host.2 ++ last.2.host.1) name)
    (fun _ _ => rfl) fun _ _ => rfl
  obtain ⟨⟨files, cache, calls⟩, ⟨rfl, rfl, rfl, all⟩, read⟩ := plays.readScript_eq mirror
    (fun answer known e failing => by cases (RunAnswer.error?_of_mem known).symm.trans failing)
    ⟨last.2.files, last.2.cache, last.2.host.1⟩ ⟨rfl, rfl, rfl, rfl⟩
  rw [RunAnswer.filterMap_text?] at read
  exact ⟨read, all.symm⟩

end Plays

section

variable {setup : Setup σ} {nodes : List Node} {state last : SessionState} {world : World σ}
  {answers : List RunAnswer} {requests : List RunRequest} {s : Session}
  {after : World (σ × List HostCall)}

/-- A script that completes with second tries completes without them, from the calls that
succeeded. -/
theorem exists_playsStraight
    (tried : Plays setup.watched EffectError.isPassing
      ((.advanced, Session.start nodes state), world.watched) answers requests
      ((.completed last, s), after)) :
    ∃ requests' last', PlaysStraight setup nodes state world answers after.host.2 setup.replayed
      after.host.2 requests' last' := by
  -- Some play from the noted calls exists, and comes to what the script is read to from them. That
  -- is what the play with second tries comes to, so that it completes and leaves no call over.
  have read := tried.readScript_replayed
  obtain ⟨requests', ⟨⟨outcome, s'⟩, last'⟩, plays⟩ :=
    Plays.exists_of_isActive setup.replayed.watched (s := Session.start nodes state) rfl
      (World.watched ⟨world.files, world.cache, after.host.2⟩)
      (answers.filterMap RunAnswer.text?)
  obtain ⟨read', noted⟩ := plays.readScript_watched_replayed
  have same := read.symm.trans read'
  have completed : .completed last = outcome := congrArg ScriptEnding.outcome same
  have none_left : [] = last'.host.1 := congrArg (·.world.host) same
  refine ⟨requests', ((outcome, s'), last'), setup.alike_replayed, plays, ?_, ?_⟩
  · rintro e rfl
    cases completed
  · rwa [← none_left, List.append_nil] at noted

theorem PlaysStraight.same_ending {other : Setup τ} {host : τ} {requests' : List RunRequest}
    {last' : (StepOutcome × Session) × World (τ × List HostCall)}
    (straight : PlaysStraight setup nodes state world answers after.host.2 other host requests' last')
    (tried : Plays setup.watched EffectError.isPassing
      ((.advanced, Session.start nodes state), world.watched) answers requests
      ((.completed last, s), after)) :
    last'.1.1 = .completed last ∧ last'.1.2.state = s.state ∧
      requests' = requests.destutter (· ≠ ·) ∧ last'.1.2.effects = s.effects := by
  -- Both plays come to what the script is read to where the same calls are replayed.
  have read := tried.readScript_replayed
  have read' := (straight.plays.of_noFailure straight.noFailure).readScript_replayed
  rw [straight.alike.replayed_eq, straight.sameCalls, RunAnswer.filterMap_text?,
    straight.plays.destutter_eq rfl fun _ => RunAnswer.error?_of_mem] at read'
  have same := read'.symm.trans read
  exact ⟨congrArg ScriptEnding.outcome same, congrArg ScriptEnding.state same,
    congrArg ScriptEnding.requests same, congrArg ScriptEnding.effects same⟩

end

/-- A script that completes though calls of the host and runs of the agent fail, each of which is
tried again, can be played without these failures, and every play of that kind completes in the same
state, hands out the same requests, of which it repeats none, and has each segment take effect as
often and in the same order. -/
theorem retry_transparent (setup : Setup σ) (nodes : List Node) (state : SessionState)
    (world : World σ) (answers : List RunAnswer) (requests : List RunRequest) (last : SessionState)
    (s : Session) (after : World (σ × List HostCall))
    (tried : Plays setup.watched EffectError.isPassing
      ((.advanced, Session.start nodes state), world.watched) answers requests
      ((.completed last, s), after)) :
    (∃ requests' last', PlaysStraight setup nodes state world answers after.host.2 setup.replayed
      after.host.2 requests' last') ∧
    ∀ {τ : Type} (other : Setup τ) (host : τ) (requests' : List RunRequest)
      (last' : (StepOutcome × Session) × World (τ × List HostCall)),
      PlaysStraight setup nodes state world answers after.host.2 other host requests' last' →
      last'.1.1 = .completed last ∧ last'.1.2.state = s.state ∧
        requests' = requests.destutter (· ≠ ·) ∧ last'.1.2.effects = s.effects :=
  ⟨exists_playsStraight tried, fun _ _ _ _ straight => straight.same_ending tried⟩

/-- A run that is cancelled once, and a host whose function is busy when it is called first. -/
theorem retry_transparent_of_busy_host :
    let busy : HostFunction Bool := fun _ called =>
      (if called then .ok (.str "red") else .error "busy", true)
    let setup : Setup Bool := ⟨⟨[("m.f", busy)]⟩, .default, [], "", defaultLastResult⟩
    let nodes : List Node :=
      [.functionImport ["f"] "m", .effect .run, .effect (.call "f" [] (some "x"))]
    ∃ requests last, PlaysStraight setup nodes .empty ⟨default, .empty, false⟩
        [.cancelled, .response "done"] [⟨"m.f", [], .str "red"⟩] setup.replayed
        [⟨"m.f", [], .str "red"⟩] requests last ∧
      last.1.1 =
        .completed ⟨[("last_result", .str "done"), ("x", .str "red")], [], ["done"], 1, []⟩ ∧
      requests = [⟨0, [], []⟩] := by
  intro busy setup nodes
  obtain ⟨s, after, tried, noted⟩ : ∃ s after, Plays setup.watched EffectError.isPassing
      ((.advanced, Session.start nodes .empty), World.watched ⟨default, .empty, false⟩)
      [.cancelled, .response "done"] [⟨0, [], []⟩, ⟨0, [], []⟩]
      ((.completed ⟨[("last_result", .str "done"), ("x", .str "red")], [], ["done"], 1, []⟩, s),
        after) ∧ after.host.2 = [⟨"m.f", [], .str "red"⟩] := by
    apply Exists.intro
    apply Exists.intro
    constructor
    · refine .onward (.inl (rfl : Call.advance = _)) ?_
      rw [Session.handle_advance rfl (Stack.next?_nodes_cons ..) rfl]
      refine .onward (.inl (rfl : Call.advance = _)) ?_
      rw [Session.handle_advance rfl (Stack.next?_nodes_cons ..) rfl]
      refine .answered (.retried rfl (.answered ?_))
      rw [Session.handle_response _ _ _ rfl, Session.runOn_of_advance
        (Session.advance_of_next?_some _ _ rfl (Stack.next?_nodes_cons ..))]
      refine .retried rfl ?_
      rw [Session.handle_retry rfl rfl, Session.runOn_of_advance
        (Session.advance_of_next?_none _ _ rfl ((Stack.next?_nodes_nil ..).trans Stack.next?_nil))]
      exact .completed
    · rfl
  obtain ⟨⟨requests, last, straight⟩, same⟩ :=
    retry_transparent setup nodes .empty _ _ _ _ s after tried
  rw [noted] at straight same
  obtain ⟨completed, _, once, _⟩ := same _ _ _ _ straight
  exact ⟨requests, last, straight, completed, once⟩

end PromptScript
