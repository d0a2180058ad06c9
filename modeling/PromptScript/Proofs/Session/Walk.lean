import PromptScript.Proofs.Computation
import PromptScript.Session.Execute

/-!
A script read from its first node to its last, by recursion on its nodes. The agent's answers are
given in advance, so that a run hands out its request and goes on with the next answer. Nothing here
knows of stacks, phases or resumption: this is what a session must come to.
-/
namespace PromptScript

/-- Whether an event tells of a segment that has taken effect without the agent. -/
def EventKind.isEffect : EventKind → Bool
  | .functionImport | .state | .functionCall | .toolRegister | .contextClear | .toolClear
  | .prose => true
  | .run | .resume | .toolCall | .retry | .completed | .failed => false

/-- What a script works on while it is walked through. -/
structure Scene (σ : Type) where
  state : SessionState
  effects : List Event
  origin? : String → Option String
  world : World σ
  answers : List String
  requests : List RunRequest

def Scene.function {σ : Type} (setup : Setup σ) (scene : Scene σ) (name : String) :
    Except EffectError (HostFunction σ) :=
  match scene.origin? name with
  | none => .error (.unknownFunction name)
  | some module =>
    match setup.registry.lookup? module name with
    | some function => .ok function
    | none => .error (.notProvided name module)

/-- What is in sight: loop variables, then those of the session, then those it was given. -/
def Scene.scope {σ : Type} (setup : Setup σ) (scene : Scene σ) (bindings : Mapping) : Context :=
  .ofMapping (Mapping.merge (Mapping.merge setup.base scene.state.vars) bindings)

/-- Why a walk ends before the last node. -/
inductive Halt
  | failed (e : EffectError)
  /-- No answer is left for a run. -/
  | unanswered (request : RunRequest)

abbrev Walking (σ : Type) := ExceptT Halt (StateM (Scene σ))

namespace Walking

variable {σ α : Type}

def ofActing (f : Scene σ → Acting σ α) : Walking σ α := ExceptT.mk fun scene =>
  let (result, world) := f scene scene.world
  (result.mapError .failed, { scene with world })

def eval (setup : Setup σ) (bindings : Mapping) (f : Context → Except EvalError α) : Walking σ α :=
  ofActing fun scene => .ofEval (f (scene.scope setup bindings))

def function (setup : Setup σ) (name : String) : Walking σ (HostFunction σ) :=
  ofActing fun scene => ExceptT.mk (pure (scene.function setup name))

def change (f : SessionState → SessionState) : Walking σ Unit := ExceptT.mk fun scene =>
  (.ok (), { scene with state := f scene.state })

/-- Notes that a segment has taken effect. -/
def note (kind : EventKind) (details : Mapping) : Walking σ Unit := ExceptT.mk fun scene =>
  (.ok (), { scene with effects := scene.effects ++ [⟨kind, scene.state.turn, .map details⟩] })

/-- Notes where names come from; of two imports of a name, the later one counts. -/
def bring (names : List String) (source : String) : Walking σ Unit := ExceptT.mk fun scene =>
  (.ok (), { scene with
    origin? := fun name => if name ∈ names then some source else scene.origin? name })

def answered (setup : Setup σ) (text : String) (state : SessionState) : SessionState :=
  { state with
    vars := Mapping.insert state.vars setup.lastResult (.str text)
    buffer := state.buffer ++ [text]
    turn := state.turn + 1
    pendingCalls := [] }

/-- Hands out a request, and goes on with the next answer. -/
def ask (setup : Setup σ) : Walking σ Unit := ExceptT.mk fun scene =>
  let request := scene.state.request
  let scene := { scene with requests := scene.requests ++ [request] }
  match scene.answers with
  | [] => (.error (.unanswered request), scene)
  | text :: later => (.ok (), { scene with state := answered setup text scene.state, answers := later })

def prose (setup : Setup σ) (bindings : Mapping) (node : Node) : Walking σ Unit := do
  let text ← ofActing fun scene => .ofLoading fun files =>
    render files setup.options setup.baseDir [node] (scene.scope setup bindings)
  change fun state => if text.isEmpty then state else state.push text
  note .prose [("bytes", .int text.utf8ByteSize)]

end Walking

variable {σ : Type}

def Effect.walk (setup : Setup σ) (bindings : Mapping) : Effect → Walking σ Unit
  | .call name args target => do
    let function ← Walking.function setup name
    let values ← Walking.eval setup bindings fun ctx => args.mapM (Session.valueOf ctx)
    let result ← Walking.ofActing fun _ => Acting.call name function values
    Walking.change fun state =>
      match target with
      | some var => state.setVariable var result
      | none => state
    Walking.note .functionCall
      [("name", .str name), ("target", (target.map Value.str).getD .null)]
  | .registerTools names => do
    Walking.change fun state => names.foldl SessionState.registerTool state
    Walking.note .toolRegister [("names", .list (names.map .str))]
  | .run => Walking.ask setup
  | .clearContext => do
    Walking.change ({ · with buffer := [] })
    Walking.note .contextClear []
  | .clearTools => do
    Walking.change ({ · with tools := [] })
    Walking.note .toolClear []

mutual

def Node.walk (setup : Setup σ) (bindings : Mapping) : Node → Walking σ Unit
  | .conditional branches orElse => do
    if ← walkBranches setup bindings branches then return () else walkLast setup bindings orElse
  | .loop var iterable body => do
    let items ← Walking.eval setup bindings iterable.items
    forM items.toList fun value => walkNodes setup (Mapping.insert bindings var value) body
  | .functionImport names source => do
    Walking.bring names source
    Walking.note .functionImport [("names", .list (names.map .str)), ("source", .str source)]
  | .stateAssign name value => do
    let stored ← Walking.eval setup bindings (Session.valueOf · value)
    Walking.change (·.setVariable name stored)
    Walking.note .state [("name", .str name)]
  | .effect e => e.walk setup bindings
  | node => Walking.prose setup bindings node

def walkNodes (setup : Setup σ) (bindings : Mapping) : List Node → Walking σ Unit
  | [] => return ()
  | node :: rest => do
    node.walk setup bindings
    walkNodes setup bindings rest

/-- Walks through the body of the first branch whose condition holds, and tells whether there is
one. -/
def walkBranches (setup : Setup σ) (bindings : Mapping) : List (Expr × List Node) → Walking σ Bool
  | [] => return false
  | (condition, body) :: rest => do
    if ← Walking.eval setup bindings condition.holds then
      walkNodes setup bindings body
      return true
    else walkBranches setup bindings rest

def walkLast (setup : Setup σ) (bindings : Mapping) : Option (List Node) → Walking σ Unit
  | none => return ()
  | some body => walkNodes setup bindings body

end

end PromptScript
