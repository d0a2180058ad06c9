import PromptScript.Proofs.Render.Termination

/-!
Strict rendering. The mode is looked at in one place, where a variable in prose is absent. Up to the first
variable of this kind a strict render does what every render does, and there it ends.
-/
namespace PromptScript

open PromptScript.Computation

variable {fs : FileSystem} {extension : String}

/-- The next node is a variable in prose that the scope in force does not resolve. -/
def RenderStage.MeetsAbsent (path : VarPath) (stage : RenderStage) : Prop :=
  ∃ ctx, stage.IsAt (.interpolation path) ctx ∧ ctx.resolve? path = none

/-- A strict render and one that is not come to the same stage, where a variable is absent. -/
def ComesToAbsent (fs : FileSystem) (extension : String) (start : RenderStage) (path : VarPath) : Prop :=
  ∃ stage, Reaches fs ⟨true, extension⟩ start stage ∧ Reaches fs ⟨false, extension⟩ start stage ∧
    stage.MeetsAbsent path

theorem interpolate_strict (ctx : Context) (path : VarPath) :
    interpolate true ctx path = interpolate false ctx path ∨
      ctx.resolve? path = none ∧ interpolate true ctx path = .error (.absent path.text) := by
  simp only [interpolate]
  cases ctx.resolve? path with
  | none => exact .inr ⟨rfl, rfl⟩
  | some value => exact .inl rfl

theorem next_strict (fs : FileSystem) (extension : String) (stage : RenderStage) :
    stage.next fs ⟨true, extension⟩ = stage.next fs ⟨false, extension⟩ ∨
      ∃ path, stage.MeetsAbsent path ∧ ∃ cache,
        stage.next fs ⟨true, extension⟩ = .ended (.error (.eval (.absent path.text)), cache) := by
  rcases stage with ⟨⟨_ | ⟨task, later⟩, chain, text, cache⟩⟩ | outcome
  case running.nil | ended => exact .inl rfl
  cases task with
  | nodes nodes ctx dir =>
    rcases nodes with _ | ⟨node, rest⟩
    · exact .inl rfl
    cases node with
    -- No other node looks at the mode.
    | interpolation path =>
      simp only [RenderStage.next, RenderState.perform, RenderState.visit]
      rcases interpolate_strict ctx path with same | ⟨absent, fails⟩
      · exact .inl (by rw [same])
      · rw [fails]
        exact .inr ⟨path, ⟨ctx, ⟨rest, dir, later, rfl⟩, absent⟩, cache, rfl⟩
    | _ => exact .inl rfl
  | branches branches orElse ctx dir =>
    rcases branches with _ | ⟨branch, rest⟩ <;> cases orElse <;> exact .inl rfl
  | items | leave => exact .inl rfl

/-- A strict render ends as one that is not strict does, or at a variable that is absent. -/
theorem ended_strict {start : RenderStage} {strict lenient : Except RenderError String × TemplateCache}
    (ends : Reaches fs ⟨true, extension⟩ start (.ended strict))
    (ends' : Reaches fs ⟨false, extension⟩ start (.ended lenient)) :
    strict = lenient ∨ ∃ path, strict.1 = .error (.eval (.absent path.text)) ∧
      ComesToAbsent fs extension start path := by
  rcases ends_alike_or_parts (next_strict fs extension) (RenderStage.isFixedPt_ended strict)
    (RenderStage.isFixedPt_ended lenient) ends ends' with
    same | ⟨stage, leads, leads', path, absent, cache, fails⟩
  · exact .inl (RenderStage.ended.inj same)
  · -- A strict render has one end, and the step from where they part leads to one.
    have last : Reaches fs ⟨true, extension⟩ start
        (.ended (.error (.eval (.absent path.text)), cache)) := Reaches.trans leads ⟨1, fails⟩
    exact .inr ⟨path, congrArg Prod.fst (ends.ended_unique last), stage, leads, leads', absent⟩

theorem render_strict (fs : FileSystem) (extension dir : String) (nodes : List Node) (ctx : Context)
    (cache : TemplateCache) :
    render fs ⟨true, extension⟩ dir nodes ctx cache = render fs ⟨false, extension⟩ dir nodes ctx cache ∨
      ∃ path, (render fs ⟨true, extension⟩ dir nodes ctx cache).1 = .error (.eval (.absent path.text)) ∧
        ComesToAbsent fs extension (.start dir nodes ctx cache) path :=
  ended_strict (reaches_ended fs _ [] dir nodes ctx cache) (reaches_ended fs _ [] dir nodes ctx cache)

theorem renderFile_strict (fs : FileSystem) (extension file : String) (ctx : Context)
    (cache : TemplateCache) :
    renderFile fs ⟨true, extension⟩ file ctx cache = renderFile fs ⟨false, extension⟩ file ctx cache ∨
      ∃ path, (renderFile fs ⟨true, extension⟩ file ctx cache).1 = .error (.eval (.absent path.text)) ∧
        ComesToAbsent fs extension (.startFile fs file ctx cache) path :=
  ended_strict (startFile_reaches fs _ file ctx cache) (startFile_reaches fs _ file ctx cache)

end PromptScript
