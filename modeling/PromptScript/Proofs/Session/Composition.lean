import PromptScript.Proofs.Session.Reading

/-!
Scripts one after the other. A script that imports nothing hands on its state and the world, and
nothing else, so that what follows it can as well be a script of its own.
-/
namespace PromptScript

variable {σ α β : Type}

mutual

/-- Whether a node, at any depth, imports functions. -/
def Node.importsFunctions : Node → Bool
  | .functionImport .. => true
  | .conditional branches orElse => branchesImportFunctions branches || orElseImportsFunctions orElse
  | .loop _ _ body | .block body => nodesImportFunctions body
  | .text _ | .interpolation _ | .include _ | .effect _ | .stateAssign .. => false

def nodesImportFunctions : List Node → Bool
  | [] => false
  | node :: rest => node.importsFunctions || nodesImportFunctions rest

def branchesImportFunctions : List (Expr × List Node) → Bool
  | [] => false
  | (_, body) :: rest => nodesImportFunctions body || branchesImportFunctions rest

def orElseImportsFunctions : Option (List Node) → Bool
  | none => false
  | some body => nodesImportFunctions body

end

/-! ### What a walk adds -/

/-- The scene with other effects and requests behind it. -/
def Scene.noted (scene : Scene σ) (effects : List Event) (requests : List RunRequest) : Scene σ :=
  { scene with effects, requests }

/-- The scene in which a script begins. -/
def Scene.begin (state : SessionState) (world : World σ) (answers : List String) : Scene σ :=
  ⟨state, [], fun _ => none, world, answers, []⟩

namespace Walking

/-- A walk adds to the effects and to the requests, whatever these were before, and does not look at
them. Each request takes an answer. Where names come from changes only by imports. -/
def Adds (imports : Bool) (walk : Walking σ α) : Prop :=
  ∀ scene : Scene σ, ∃ effects asked,
    (∀ told before, walk (scene.noted told before) =
      ((walk scene).1, (walk scene).2.noted (told ++ effects) (before ++ asked))) ∧
    (walk scene).2.answers = scene.answers.drop asked.length ∧
    (imports = false → (walk scene).2.origin? = scene.origin?)

/-- A walk that notes nothing adds nothing. -/
theorem adds_of_silent {imports : Bool} {walk : Walking σ α}
    (same : ∀ (scene : Scene σ) told before, walk (scene.noted told before) =
      ((walk scene).1, (walk scene).2.noted told before))
    (answers : ∀ scene, (walk scene).2.answers = scene.answers)
    (origin : imports = false → ∀ scene, (walk scene).2.origin? = scene.origin?) :
    Adds imports walk := by
  intro scene
  refine ⟨[], [], fun told before => ?_, answers scene, fun none => origin none scene⟩
  simpa only [List.append_nil] using same scene told before

namespace Adds

variable {imports imports' : Bool}

theorem mono {walk : Walking σ α} (adds : Adds imports walk) (fewer : imports → imports') :
    Adds imports' walk := by
  intro scene
  obtain ⟨effects, asked, same, answers, origin⟩ := adds scene
  refine ⟨effects, asked, same, answers, fun none => origin ?_⟩
  cases imports with
  | false => rfl
  | true => exact none ▸ (fewer rfl).symm

theorem pure (a : α) : Adds imports (pure a : Walking σ α) :=
  adds_of_silent (fun _ _ _ => rfl) (fun _ => rfl) fun _ _ => rfl

theorem bind {first : Walking σ α} {second : α → Walking σ β} (adds : Adds imports first)
    (adds' : ∀ a, Adds imports' (second a)) : Adds (imports || imports') (first >>= second) := by
  intro scene
  obtain ⟨effects, asked, same, answers, origin⟩ := adds scene
  rcases walked : first scene with ⟨e | a, between⟩
  · rw [walked] at same answers origin
    refine ⟨effects, asked, fun told before => ?_, ?_, fun none => ?_⟩
    · rw [Computation.bind_of_error walked]
      exact Computation.bind_of_error (same told before)
    · rw [Computation.bind_of_error walked]
      exact answers
    · rw [Computation.bind_of_error walked]
      exact origin (Bool.or_eq_false_iff.mp none).1
  · rw [walked] at same answers origin
    obtain ⟨effects', asked', same', answers', origin'⟩ := adds' a between
    refine ⟨effects ++ effects', asked ++ asked', fun told before => ?_, ?_, fun none => ?_⟩
    -- The second part finds what the first one has added, behind what was there before.
    · rw [Computation.bind_of_ok walked, Computation.bind_of_ok (same told before), same']
      simp only [List.append_assoc]
    · rw [Computation.bind_of_ok walked, answers', answers, List.drop_drop, List.length_append]
    · obtain ⟨none, none'⟩ := Bool.or_eq_false_iff.mp none
      rw [Computation.bind_of_ok walked]
      exact (origin' none').trans (origin none)

theorem seq {first : Walking σ α} {second : α → Walking σ β} (adds : Adds imports first)
    (adds' : ∀ a, Adds imports (second a)) : Adds imports (first >>= second) :=
  (adds.bind adds').mono (by simp)

theorem ofActing {act : Scene σ → Acting σ α}
    (blind : ∀ scene effects requests, act (scene.noted effects requests) = act scene) :
    Adds imports (Walking.ofActing act) := by
  refine adds_of_silent (fun scene told before => ?_) (fun _ => rfl) fun _ _ => rfl
  simp only [Walking.ofActing, ExceptT.mk, blind]
  rfl

theorem eval (setup : Setup σ) (bindings : Mapping) (f : Context → Except EvalError α) :
    Adds imports (Walking.eval setup bindings f) :=
  ofActing fun _ _ _ => rfl

theorem change (f : SessionState → SessionState) : Adds imports (Walking.change (σ := σ) f) :=
  adds_of_silent (fun _ _ _ => rfl) (fun _ => rfl) fun _ _ => rfl

theorem bring (names : List String) (source : String) :
    Adds true (Walking.bring (σ := σ) names source) :=
  adds_of_silent (fun _ _ _ => rfl) (fun _ => rfl) nofun

theorem note (kind : EventKind) (details : Mapping) :
    Adds imports (Walking.note (σ := σ) kind details) := by
  intro scene
  refine ⟨[⟨kind, scene.state.turn, .map details⟩], [], fun told before => ?_, rfl, fun _ => rfl⟩
  rw [List.append_nil]
  rfl

theorem ask (setup : Setup σ) : Adds imports (Walking.ask setup) := by
  intro scene
  obtain ⟨state, effects, origin?, world, answers, requests⟩ := scene
  refine ⟨[], [state.request], fun told before => ?_, ?_, fun _ => ?_⟩
  · rw [List.append_nil]
    cases answers <;> rfl
  · cases answers <;> rfl
  · cases answers <;> rfl

theorem forM {walk : Value → Walking σ Unit} (adds : ∀ value, Adds imports (walk value))
    (items : List Value) : Adds imports (ForM.forM items walk) := by
  induction items with
  | nil => exact pure ()
  | cons value rest ih =>
    rw [List.forM_cons]
    exact (adds value).seq fun _ => ih

theorem prose (setup : Setup σ) (bindings : Mapping) (node : Node) :
    Adds imports (Walking.prose setup bindings node) :=
  (ofActing fun _ _ _ => rfl).seq fun _ => (change _).seq fun _ => note _ _

/-- From the scene in which a script begins, all effects and requests are added ones. -/
theorem of_begin {walk : Walking σ α} (adds : Adds imports walk) {state : SessionState}
    {world : World σ} {answers : List String} {result : Except Halt α} {scene : Scene σ}
    (walked : walk (.begin state world answers) = (result, scene)) :
    (∀ told before, walk ((Scene.begin state world answers).noted told before) =
      (result, scene.noted (told ++ scene.effects) (before ++ scene.requests))) ∧
    scene.answers = answers.drop scene.requests.length ∧
    (imports = false → scene.origin? = fun _ => none) := by
  obtain ⟨effects, asked, same, taken, origin⟩ := adds (.begin state world answers)
  rw [walked] at same taken origin
  -- Nothing stands before what is added.
  have alone : scene = scene.noted effects asked :=
    congrArg Prod.snd (walked.symm.trans (same [] []))
  have effects_eq : scene.effects = effects := congrArg Scene.effects alone
  have asked_eq : scene.requests = asked := congrArg Scene.requests alone
  rw [effects_eq, asked_eq]
  exact ⟨same, taken, origin⟩

end Adds

end Walking

open Walking

theorem Effect.adds (setup : Setup σ) (bindings : Mapping) (e : Effect) :
    Adds false (e.walk setup bindings) := by
  cases e with
  | call name args target =>
    rw [Effect.walk]
    refine Adds.seq (Adds.ofActing fun _ _ _ => rfl) fun function => ?_
    refine Adds.seq (Adds.eval _ _ _) fun values => ?_
    exact Adds.seq (Adds.ofActing fun _ _ _ => rfl) fun result =>
      (Adds.change _).seq fun _ => Adds.note _ _
  | run => exact Adds.ask setup
  | registerTools | clearContext | clearTools => exact (Adds.change _).seq fun _ => Adds.note _ _

mutual

theorem Node.adds (setup : Setup σ) : (node : Node) → ∀ bindings,
    Adds node.importsFunctions (node.walk setup bindings)
  | .conditional branches orElse, bindings => by
    rw [Node.walk, Node.importsFunctions]
    refine Adds.bind (branches_add setup branches bindings) fun found => ?_
    cases found with
    | true => exact Adds.pure ()
    | false => exact orElse_adds setup orElse bindings
  | .loop var iterable body, bindings => by
    rw [Node.walk, Node.importsFunctions]
    exact Adds.seq (Adds.eval _ _ _) fun items => Adds.forM (fun _ => nodes_add setup body _) _
  | .functionImport names source, bindings => by
    rw [Node.walk, Node.importsFunctions]
    exact (Adds.bring names source).seq fun _ => Adds.note _ _
  | .stateAssign name value, bindings => by
    rw [Node.walk, Node.importsFunctions]
    exact Adds.seq (Adds.eval _ _ _) fun _ => (Adds.change _).seq fun _ => Adds.note _ _
  | .effect e, bindings => by
    rw [Node.walk, Node.importsFunctions]
    exact e.adds setup bindings
  | .text _, bindings | .interpolation _, bindings | .include _, bindings | .block _, bindings => by
    rw [Node.walk_of_isProse rfl]
    exact Adds.prose setup bindings _

theorem nodes_add (setup : Setup σ) : (nodes : List Node) → ∀ bindings,
    Adds (nodesImportFunctions nodes) (walkNodes setup bindings nodes)
  | [], _ => Adds.pure ()
  | node :: rest, bindings => by
    rw [walkNodes, nodesImportFunctions]
    exact Adds.bind (node.adds setup bindings) fun _ => nodes_add setup rest bindings

theorem branches_add (setup : Setup σ) : (branches : List (Expr × List Node)) → ∀ bindings,
    Adds (branchesImportFunctions branches) (walkBranches setup bindings branches)
  | [], _ => Adds.pure false
  | (condition, body) :: rest, bindings => by
    rw [walkBranches, branchesImportFunctions]
    refine Adds.seq (Adds.eval _ _ _) fun holds => ?_
    cases holds with
    | true =>
      refine Adds.mono (Adds.seq (nodes_add setup body bindings) fun _ => Adds.pure true) ?_
      intro brings
      rw [brings, Bool.true_or]
    | false =>
      refine Adds.mono (branches_add setup rest bindings) ?_
      intro brings
      rw [brings, Bool.or_true]

theorem orElse_adds (setup : Setup σ) : (orElse : Option (List Node)) → ∀ bindings,
    Adds (orElseImportsFunctions orElse) (walkLast setup bindings orElse)
  | none, _ => Adds.pure ()
  | some body, bindings => nodes_add setup body bindings

end

theorem walkNodes_append (setup : Setup σ) (bindings : Mapping) (first second : List Node) :
    walkNodes setup bindings (first ++ second) =
      (do walkNodes setup bindings first; walkNodes setup bindings second) := by
  induction first with
  | nil => simp [walkNodes]
  | cons node rest ih => simp only [List.cons_append, walkNodes, ih, bind_assoc]

/-! ### What a script comes to -/

/-- What comes of two scripts of which the second one begins where the first one has ended. -/
def ScriptEnding.followedBy (ending later : ScriptEnding σ) : ScriptEnding σ :=
  ⟨ending.requests ++ later.requests, later.outcome, later.state, ending.effects ++ later.effects,
    later.world⟩

theorem Walking.ending_noted (result : Except Halt Unit) (scene : Scene σ)
    {ending : ScriptEnding σ} (effects : List Event) (requests : List RunRequest)
    (told : ending.effects = effects) (asked : ending.requests = requests) :
    Walking.ending (result, scene.noted (effects ++ scene.effects) (requests ++ scene.requests)) =
      ending.followedBy (Walking.ending (result, scene)) := by
  subst told asked
  obtain (e | request) | _ := result <;> rfl

section

variable {setup : Setup σ} {first : List Node}

/-- A script that completes hands on its state, the world and the answers that are left. -/
theorem readScript_append (noImport : nodesImportFunctions first = false) (second : List Node)
    (state : SessionState) (world : World σ) (answers : List String) :
    readScript setup (first ++ second) state world answers =
      let ending := readScript setup first state world answers
      match ending.outcome with
      | .completed final =>
        ending.followedBy (readScript setup second final ending.world
          (answers.drop ending.requests.length))
      | _ => ending := by
  have begins (nodes : List Node) (state : SessionState) (world : World σ) (answers : List String) :
      readScript setup nodes state world answers =
        Walking.ending (walkNodes setup [] nodes (.begin state world answers)) := rfl
  simp only [begins, walkNodes_append]
  rcases walked : walkNodes setup [] first (.begin state world answers) with
    ⟨(e | request) | _, scene⟩
  -- A script that fails, or that has no answer left for a run, ends there.
  · rw [Computation.bind_of_error walked]
    rfl
  · rw [Computation.bind_of_error walked]
    rfl
  · rw [Computation.bind_of_ok walked]
    obtain ⟨_, left, origin⟩ := (nodes_add setup first []).of_begin walked
    -- The second script sees the scene in which it would begin, but for what is noted there.
    have same : scene = (Scene.begin scene.state scene.world
        (answers.drop scene.requests.length)).noted scene.effects scene.requests := by
      rw [← left, Scene.begin, ← origin noImport]
      rfl
    rcases walked' : walkNodes setup [] second (.begin scene.state scene.world
        (answers.drop scene.requests.length)) with ⟨result, last⟩
    have noted := ((nodes_add setup second []).of_begin walked').1 scene.effects scene.requests
    rw [← same] at noted
    rw [noted]
    simp only [Walking.ending, walked']
    exact Walking.ending_noted result last _ _ rfl rfl

end

/-! ### Playing a script and what follows it -/

/-- Played from its start with responses of the agent, a script can come to this ending. -/
def PlaysTo (setup : Setup σ) (nodes : List Node) (state : SessionState) (world : World σ)
    (responses : List String) (ending : ScriptEnding σ) : Prop :=
  ∃ s, Plays setup (fun _ => false) ((.advanced, Session.start nodes state), world)
      (responses.map .response) ending.requests ((ending.outcome, s), ending.world) ∧
    s.state = ending.state ∧ s.effects = ending.effects

section

variable {setup : Setup σ} {nodes : List Node} {state : SessionState} {world : World σ}
  {responses : List String}

theorem PlaysTo.readScript_eq {ending : ScriptEnding σ}
    (plays : PlaysTo setup nodes state world responses ending) :
    readScript setup nodes state world responses = ending := by
  obtain ⟨s, plays, same, sameEffects⟩ := plays
  obtain ⟨_, rfl, read⟩ := plays.readScript_eq (Mirror.refl setup)
    (fun answer known e failing => by cases (RunAnswer.error?_of_mem known).symm.trans failing)
    ending.world rfl
  rw [RunAnswer.filterMap_text?, plays.destutter_eq rfl fun _ => RunAnswer.error?_of_mem, same,
    sameEffects] at read
  exact read

/-- A script comes to one ending, however it is played. -/
theorem playsTo_unique_of_readScript {ending : ScriptEnding σ}
    (read : readScript setup nodes state world responses = ending) (other : ScriptEnding σ) :
    PlaysTo setup nodes state world responses other ↔ other = ending := by
  constructor
  · intro plays
    exact plays.readScript_eq.symm.trans read
  · rintro rfl
    obtain ⟨requests, ⟨⟨outcome, s⟩, last⟩, plays⟩ := Plays.exists_of_isActive setup
      (s := Session.start nodes state) rfl world responses
    have reached : PlaysTo setup nodes state world responses
        ⟨requests, outcome, s.state, s.effects, last⟩ := ⟨s, plays, rfl, rfl⟩
    rwa [← read.symm.trans reached.readScript_eq] at reached

end

/-- Two scripts of which the first one imports nothing, played one after the other, are played as one
script: if the first one completes, the second one goes on with its state, the world that it leaves and
the responses that it has not taken, and both together hand out the requests and come to the ending
of the two scripts as one. If the first one fails, or waits for a response that is not there, then the
two scripts as one have come to the same before the second one begins. -/
theorem plays_append (setup : Setup σ) {first : List Node}
    (noImport : nodesImportFunctions first = false) (second : List Node) (state : SessionState)
    (world : World σ) (responses : List String) :
    ∃ ending, (∀ other, PlaysTo setup first state world responses other ↔ other = ending) ∧
      match ending.outcome with
      | .completed final =>
        ∃ later,
          (∀ other, PlaysTo setup second final ending.world
            (responses.drop ending.requests.length) other ↔ other = later) ∧
          ∀ whole, PlaysTo setup (first ++ second) state world responses whole ↔
            whole = ⟨ending.requests ++ later.requests, later.outcome, later.state,
              ending.effects ++ later.effects, later.world⟩
      | .failed _ | .suspended _ =>
        ∀ whole, PlaysTo setup (first ++ second) state world responses whole ↔ whole = ending := by
  have whole : readScript setup (first ++ second) state world responses = _ :=
    readScript_append noImport second state world responses
  refine ⟨_, playsTo_unique_of_readScript rfl, ?_⟩
  cases outcome : (readScript setup first state world responses).outcome with
  | completed final =>
    simp only [outcome] at whole
    exact ⟨_, playsTo_unique_of_readScript rfl, playsTo_unique_of_readScript whole⟩
  | failed | suspended =>
    simp only [outcome] at whole
    exact playsTo_unique_of_readScript whole

/-- A run in a branch, and then another run, which is told the answer of the first one. -/
theorem plays_append_of_two_runs :
    let setup : Setup Unit := ⟨.empty, .default, [], "", defaultLastResult⟩
    let world : World Unit := ⟨default, .empty, ()⟩
    let first : List Node := [.conditional [] (some [.effect .run])]
    let state : SessionState := ⟨[("last_result", .str "b")], [], ["a", "b"], 2, []⟩
    nodesImportFunctions first = false ∧
    ∀ whole, PlaysTo setup (first ++ [.effect .run]) .empty world ["a", "b"] whole ↔
      whole = ⟨[⟨0, [], []⟩, ⟨1, ["a"], []⟩], .completed state, state, [], world⟩ := by
  intro setup world first state
  have noImport : nodesImportFunctions first = false := by decide
  refine ⟨noImport, fun whole => ?_⟩
  obtain ⟨ending, unique, next⟩ := plays_append setup noImport [.effect .run] .empty world ["a", "b"]
  let between : SessionState := ⟨[("last_result", .str "a")], [], ["a"], 1, []⟩
  have one : ⟨[⟨0, [], []⟩], .completed between, between, [], world⟩ = ending :=
    (unique _).mp ((playsTo_unique_of_readScript rfl _).mpr rfl)
  subst one
  obtain ⟨later, unique, next⟩ := next
  have two : ⟨[⟨1, ["a"], []⟩], .completed state, state, [], world⟩ = later :=
    (unique _).mp ((playsTo_unique_of_readScript rfl _).mpr rfl)
  subst two
  exact next whole

end PromptScript
