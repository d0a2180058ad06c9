import PromptScript.Session.Run

/-!
Driving a session to its end: every pending run is answered by a channel to the agent.
-/
namespace PromptScript

abbrev Channel (σ : Type) := RunRequest → StateM (World σ) RunAnswer

namespace Session

variable {σ : Type}

theorem after_of_runOn {setup : Setup σ} {s next : Session} {world world' : World σ}
    {request : RunRequest} (h : s.runOn setup world = ((.suspended request, next), world')) :
    Stack.After next.stack s.stack := by
  fun_induction runOn setup s world with
  | case1 _ _ _ _ _ onward ih => exact onward.trans (ih h)
  | case2 _ _ _ _ _ advanced =>
    simp only [Prod.mk.injEq] at h
    obtain ⟨⟨_, rfl⟩, _⟩ := h
    exact after_of_advance advanced (by simp)
  | case3 | case4 => simp at h

/-- Between two runs of the agent a script gets on. -/
theorem after_of_step {setup : Setup σ} {s next : Session} {answer : Option RunAnswer}
    {world world' : World σ} {request : RunRequest}
    (h : s.step setup answer world = ((.suspended request, next), world')) :
    Stack.After next.stack s.stack := by
  unfold step at h
  split at h
  case h_1 =>
    have later := after_of_runOn h
    exact later
  case h_5 | h_6 => exact after_of_runOn h
  all_goals cases h

/-- Goes on with a session, after an answer to its pending run if there is one. -/
def driveFrom (setup : Setup σ) (channel : Channel σ) (s : Session) (answer : Option RunAnswer)
    (world : World σ) : (Except EffectError SessionState × Session) × World σ :=
  match h : s.step setup answer world with
  | ((.suspended request, next), world) =>
    have := after_of_step h
    let (answer, world) := channel request world
    driveFrom setup channel next (some answer) world
  | ((.completed state, next), world) => ((.ok state, next), world)
  | ((.failed e, next), world) => ((.error e, next), world)
termination_by s.stack

def drive (setup : Setup σ) (channel : Channel σ) (s : Session) (world : World σ) :
    (Except EffectError SessionState × Session) × World σ :=
  s.driveFrom setup channel none world

end Session

end PromptScript
