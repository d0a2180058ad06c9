import PromptScript.Proofs.Session.Transition

/-!
The script of a session: whatever a session does, only nodes of the script that it was started with come
to be executed.
-/
namespace PromptScript

/-- A node stands in a sequence of nodes, at any depth. -/
inductive Node.StandsIn (node : Node) : List Node → Prop
  | here {nodes : List Node} : node ∈ nodes → StandsIn node nodes
  | inside {outer : Node} {nodes body : List Node} : outer ∈ nodes → body ∈ outer.bodies →
    StandsIn node body → StandsIn node nodes

/-- The nodes of a frame that are still to come, or to come again. -/
def Frame.script : Frame → List Node
  | .nodes rest _ => rest
  | .loop _ body _ _ => body

variable {σ : Type} {node : Node} {script : List Node}

theorem Node.StandsIn.mono {nodes more : List Node} (h : node.StandsIn nodes) (sub : nodes ⊆ more) :
    node.StandsIn more := by
  cases h with
  | here member => exact .here (sub member)
  | inside member inside within => exact .inside (sub member) inside within

/-- What stands in a body stands where the node of the body does. -/
theorem Node.StandsIn.of_body {outer : Node} {body : List Node} (within : outer.StandsIn script)
    (inside : body ∈ outer.bodies) (h : node.StandsIn body) : node.StandsIn script := by
  induction within with
  | here member => exact .inside member inside h
  | inside member inside' _ ih => exact .inside member inside' ih

namespace Stack

/-- All nodes of a stack come from a script. -/
def ComesFrom (script : List Node) (stack : Stack) : Prop :=
  ∀ frame ∈ stack, ∀ node : Node, node.StandsIn frame.script → node.StandsIn script

theorem comesFrom_cons {frame : Frame} {stack : Stack} : ComesFrom script (frame :: stack) ↔
    (∀ node : Node, node.StandsIn frame.script → node.StandsIn script) ∧ ComesFrom script stack :=
  List.forall_mem_cons

theorem ComesFrom.next? {stack rest : Stack} {segment : Segment} (comes : ComesFrom script stack)
    (found : stack.next? = some (segment, rest)) :
    segment.node.StandsIn script ∧ ComesFrom script rest := by
  fun_induction Stack.next? stack with
  | case1 => cases found
  | case2 bindings outer ih => exact ih (comesFrom_cons.mp comes).2 found
  | case3 first later bindings outer =>
    cases found
    obtain ⟨here, outside⟩ := comesFrom_cons.mp comes
    refine ⟨here first (.here List.mem_cons_self), comesFrom_cons.mpr ⟨fun node within => ?_, outside⟩⟩
    exact here node (within.mono (List.subset_cons_self first later))
  | case4 var body items bindings outer done ih => exact ih (comesFrom_cons.mp comes).2 found
  -- The body is unrolled above its loop, from the same part of the script.
  | case5 var body items bindings outer value later step ih =>
    obtain ⟨here, outside⟩ := comesFrom_cons.mp comes
    exact ih (comesFrom_cons.mpr ⟨here, comesFrom_cons.mpr ⟨here, outside⟩⟩) found

theorem Opens.comesFrom {segment : Segment} {frames : Stack} (opens : Opens segment frames)
    (within : segment.node.StandsIn script) : ComesFrom script frames := by
  cases opens with
  | nothing => exact nofun
  | body inside | loop inside =>
    exact comesFrom_cons.mpr ⟨fun _ stands => within.of_body inside stands, nofun⟩

end Stack

namespace Session

variable {setup : Setup σ} {s next : Session} {world world' : World σ}

theorem comesFrom_start (nodes : List Node) (state : SessionState) :
    (start nodes state).stack.ComesFrom nodes :=
  Stack.comesFrom_cons.mpr ⟨fun _ => id, nofun⟩

theorem comesFrom_execute {segment : Segment} (comes : s.stack.ComesFrom script)
    (within : segment.node.StandsIn script)
    (h : s.execute setup segment world = (.ok next, world')) : next.stack.ComesFrom script := by
  obtain ⟨frames, acted, opens, _, rfl⟩ := execute_ok_iff.mp h
  intro frame known
  rcases List.mem_append.mp known with inside | outside
  · exact (opens_of_opened opens).comesFrom within frame inside
  · exact comes frame outside

/-- What the segments of a script keep of a state, a session keeps while it advances. -/
theorem advance_of_comesFrom (setup : Setup σ) {P : SessionState → Prop}
    (acts : ∀ {ctx : Context} {node : Node} {s next : Session} {world world' : World σ},
      node.StandsIn script → Acts setup s ctx world node next world' → P s.state → P next.state)
    (comes : s.stack.ComesFrom script) (holds : P s.state) (world : World σ) :
    (s.advance setup world).1.2.stack.ComesFrom script ∧ P (s.advance setup world).1.2.state := by
  cases active : s.phase.isActive with
  | false =>
    obtain ⟨cause, refused⟩ := advance_of_not_isActive setup world active
    rw [refused]
    exact ⟨comes, holds⟩
  | true =>
    rcases advance_cases setup s world active with ⟨_, advanced⟩ |
      ⟨segment, stack, next, world', found, executed, advanced⟩ |
      ⟨segment, stack, e, world', found, _, advanced⟩
    · rw [advanced]
      exact ⟨nofun, holds⟩
    · obtain ⟨within, rest⟩ := comes.next? found
      rw [advanced]
      refine ⟨comesFrom_execute (s := s.taking stack) rest within executed, ?_⟩
      obtain ⟨frames, acted, _, does, rfl⟩ := execute_ok_iff.mp executed
      have kept := acts (s := s.taking stack) within does holds
      exact kept
    · rw [advanced]
      exact ⟨(comes.next? found).2, holds⟩

theorem runOn_of_comesFrom (setup : Setup σ) {P : SessionState → Prop}
    (acts : ∀ {ctx : Context} {node : Node} {s next : Session} {world world' : World σ},
      node.StandsIn script → Acts setup s ctx world node next world' → P s.state → P next.state)
    (comes : s.stack.ComesFrom script) (holds : P s.state) (world : World σ) :
    (s.runOn setup world).1.2.stack.ComesFrom script ∧ P (s.runOn setup world).1.2.state :=
  runOn_invariant (P := fun s _ => s.stack.ComesFrom script ∧ P s.state)
    (fun _ world holds => advance_of_comesFrom setup acts holds.1 holds.2 world) ⟨comes, holds⟩

end Session

end PromptScript
