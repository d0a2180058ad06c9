import PromptScript.Expr.IntRange
import PromptScript.Template.Node

/-!
Where a script is: a stack of node sequences and loops that are not finished, the innermost first.

A stack has an end: whatever branches are chosen, however many items a loop finds when it starts, and
in whatever order sequences and loops are left, only finitely many steps can follow each other.
-/
namespace PromptScript

inductive Frame
  /-- The nodes still to come, and the loop variables that they see. -/
  | nodes (rest : List Node) (bindings : Mapping)
  /-- A loop and its items still to come. -/
  | loop (var : String) (body : List Node) (items : LoopItems) (bindings : Mapping)
deriving Repr

abbrev Stack := List Frame

/-- A node to be executed, and the loop variables that it sees. -/
structure Segment where
  node : Node
  bindings : Mapping
deriving Repr, Inhabited

/-- The bodies of a node, of which at most one is entered at a time. -/
def Node.bodies : Node → List (List Node)
  | .conditional branches orElse => branches.map (·.2) ++ orElse.toList
  | .loop _ _ body => [body]
  | _ => []

namespace Stack

/-- One step of a script, as far as its stack shows it. -/
inductive Step : Stack → Stack → Prop
  /-- A finished sequence is left. -/
  | leave {bindings : Mapping} {stack : Stack} : Step (.nodes [] bindings :: stack) stack
  /-- A node is done. -/
  | pass {node : Node} {rest : List Node} {bindings : Mapping} {stack : Stack} :
    Step (.nodes (node :: rest) bindings :: stack) (.nodes rest bindings :: stack)
  /-- A body of a node is entered. -/
  | enter {node : Node} {rest body : List Node} {bindings inner : Mapping} {stack : Stack} :
    body ∈ node.bodies →
    Step (.nodes (node :: rest) bindings :: stack)
      (.nodes body inner :: .nodes rest bindings :: stack)
  /-- A loop starts, with whatever items it finds. -/
  | start {node : Node} {rest body : List Node} {bindings inner : Mapping} {stack : Stack}
      {var : String} {items : LoopItems} :
    body ∈ node.bodies →
    Step (.nodes (node :: rest) bindings :: stack)
      (.loop var body items inner :: .nodes rest bindings :: stack)
  /-- A finished loop is left. -/
  | finish {var : String} {body : List Node} {items : LoopItems} {bindings : Mapping}
      {stack : Stack} :
    Step (.loop var body items bindings :: stack) stack
  /-- A loop takes its next item. -/
  | iterate {var : String} {body : List Node} {items rest : LoopItems} {value : Value}
      {bindings inner : Mapping} {stack : Stack} :
    items.next? = some (value, rest) →
    Step (.loop var body items bindings :: stack)
      (.nodes body inner :: .loop var body rest bindings :: stack)

/-- Only finitely many steps can follow each other from a stack on. -/
def Ends (stack : Stack) : Prop :=
  Acc (fun after before => Step before after) stack

theorem Ends.step {before after : Stack} (h : Ends before) (step : Step before after) :
    Ends after :=
  h.inv step

theorem ends_nil : Ends [] :=
  Acc.intro _ fun _ step => nomatch step

/-- A loop ends if its body does, on whatever stack. -/
theorem ends_loop {body : List Node}
    (bodyEnds : ∀ (bindings : Mapping) (stack : Stack), Ends stack →
      Ends (.nodes body bindings :: stack))
    (var : String) (items : LoopItems) (bindings : Mapping) (stack : Stack) (h : Ends stack) :
    Ends (.loop var body items bindings :: stack) := by
  induction bound : items.bound using Nat.strongRecOn generalizing items with
  | ind n ih =>
    refine Acc.intro _ fun after step => ?_
    cases step with
    | finish => exact h
    | iterate found =>
      exact bodyEnds _ _ (ih _ (bound ▸ LoopItems.bound_next_lt found) _ rfl)

/-- A sequence ends if the bodies of its first node and the rest do. -/
theorem ends_cons {node : Node} {rest : List Node}
    (bodiesEnd : ∀ body ∈ node.bodies, ∀ (bindings : Mapping) (stack : Stack), Ends stack →
      Ends (.nodes body bindings :: stack))
    (restEnds : ∀ (bindings : Mapping) (stack : Stack), Ends stack →
      Ends (.nodes rest bindings :: stack))
    (bindings : Mapping) (stack : Stack) (h : Ends stack) :
    Ends (.nodes (node :: rest) bindings :: stack) := by
  refine Acc.intro _ fun after step => ?_
  have later := restEnds bindings stack h
  cases step with
  | pass => exact later
  | enter inside => exact bodiesEnd _ inside _ _ later
  | start inside => exact ends_loop (bodiesEnd _ inside) _ _ _ _ later

mutual

theorem ends_body : (node : Node) → ∀ body ∈ node.bodies, ∀ (bindings : Mapping) (stack : Stack),
    Ends stack → Ends (.nodes body bindings :: stack)
  | .conditional branches orElse, body, inside, bindings, stack, h => by
    rcases List.mem_append.mp inside with branch | last
    · exact ends_branch branches body branch bindings stack h
    · exact ends_last orElse body last bindings stack h
  | .loop _ _ body, _, inside, bindings, stack, h => by
    rw [Node.bodies, List.mem_singleton] at inside
    exact inside ▸ ends_nodes body bindings stack h
  | .text _, _, inside, _, _, _ | .interpolation _, _, inside, _, _, _
  | .include _, _, inside, _, _, _ | .functionImport .., _, inside, _, _, _
  | .effect _, _, inside, _, _, _ | .stateAssign .., _, inside, _, _, _
  | .block _, _, inside, _, _, _ => nomatch inside

theorem ends_nodes : (nodes : List Node) → ∀ (bindings : Mapping) (stack : Stack), Ends stack →
    Ends (.nodes nodes bindings :: stack)
  | [], _, _, h => Acc.intro _ fun _ step => by cases step; exact h
  | node :: rest, bindings, stack, h =>
    ends_cons (ends_body node) (ends_nodes rest) bindings stack h

theorem ends_branch : (branches : List (Expr × List Node)) → ∀ body ∈ branches.map (·.2),
    ∀ (bindings : Mapping) (stack : Stack), Ends stack → Ends (.nodes body bindings :: stack)
  | [], _, inside, _, _, _ => nomatch inside
  | (_, first) :: rest, body, inside, bindings, stack, h => by
    rcases List.mem_cons.mp inside with here | later
    · exact here ▸ ends_nodes first bindings stack h
    · exact ends_branch rest body later bindings stack h

theorem ends_last : (orElse : Option (List Node)) → ∀ body ∈ orElse.toList,
    ∀ (bindings : Mapping) (stack : Stack), Ends stack → Ends (.nodes body bindings :: stack)
  | none, _, inside, _, _, _ => nomatch inside
  | some last, body, inside, bindings, stack, h => by
    rw [Option.toList_some, List.mem_singleton] at inside
    exact inside ▸ ends_nodes last bindings stack h

end

theorem ends (stack : Stack) : Ends stack := by
  induction stack with
  | nil => exact ends_nil
  | cons frame rest ih =>
    cases frame with
    | nodes nodes bindings => exact ends_nodes nodes bindings rest ih
    | loop var body items bindings => exact ends_loop (ends_nodes body) var items bindings rest ih

/-- One stack comes after another, by one step or several. -/
def After : Stack → Stack → Prop :=
  Relation.TransGen fun after before => Step before after

theorem After.of_step {before after : Stack} (step : Step before after) : After after before :=
  .single step

theorem After.trans {first second third : Stack} (h : After second first)
    (h' : After third second) : After third first := by
  induction h with
  | single step => exact .tail h' step
  | tail _ step ih => exact .tail ih step

theorem after_wellFounded : WellFounded After :=
  WellFounded.transGen ⟨ends⟩

instance : WellFoundedRelation Stack := ⟨After, after_wellFounded⟩

/-- The next segment to be executed, and the stack that stays behind it. -/
def next? (stack : Stack) : Option (Segment × Stack) :=
  match stack with
  | [] => none
  | .nodes [] _ :: rest => next? rest
  | .nodes (node :: later) bindings :: rest =>
    some (⟨node, bindings⟩, .nodes later bindings :: rest)
  | .loop var body items bindings :: rest =>
    match _found : items.next? with
    | none => next? rest
    | some (value, items) =>
      next? (.nodes body (Mapping.insert bindings var value) :: .loop var body items bindings :: rest)
termination_by stack
decreasing_by
  · exact .of_step .leave
  · exact .of_step .finish
  · exact .of_step (.iterate ‹_›)

theorem next?_nil : next? [] = none := by
  rw [next?]

theorem next?_nodes_nil (bindings : Mapping) (rest : Stack) :
    next? (.nodes [] bindings :: rest) = next? rest := by
  rw [next?]

theorem next?_nodes_cons (node : Node) (later : List Node) (bindings : Mapping) (rest : Stack) :
    next? (.nodes (node :: later) bindings :: rest) =
      some (⟨node, bindings⟩, .nodes later bindings :: rest) := by
  rw [next?]

/-- The frames that executing a segment can put onto the stack. -/
inductive Opens (segment : Segment) : Stack → Prop
  | nothing : Opens segment []
  | body {body : List Node} {bindings : Mapping} : body ∈ segment.node.bodies →
    Opens segment [.nodes body bindings]
  | loop {var : String} {body : List Node} {items : LoopItems} {bindings : Mapping} :
    body ∈ segment.node.bodies → Opens segment [.loop var body items bindings]

theorem after_of_next? {stack rest opened : Stack} {segment : Segment}
    (found : stack.next? = some (segment, rest)) (opens : Opens segment opened) :
    After (opened ++ rest) stack := by
  fun_induction next? stack with
  | case1 => contradiction
  | case2 _ _ ih => exact (After.of_step .leave).trans (ih found)
  | case3 node later bindings below =>
    simp only [Option.some.injEq, Prod.mk.injEq] at found
    obtain ⟨rfl, rfl⟩ := found
    cases opens with
    | nothing => exact .of_step .pass
    | body inside => exact .of_step (.enter inside)
    | loop inside => exact .of_step (.start inside)
  | case4 _ _ _ _ _ _ ih => exact (After.of_step .finish).trans (ih found)
  | case5 _ _ _ _ _ _ _ step ih => exact (After.of_step (.iterate step)).trans (ih found)

end Stack

end PromptScript
