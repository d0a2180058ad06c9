import PromptScript.Proofs.Session.Mirror

/-!
Hosts that provide the same names with other functions. Where each function does what the function in
its place does, so does the whole host.
-/
namespace PromptScript

variable {σ τ ρ : Type}

namespace Registry

def mapFunctions (change : String → HostFunction σ → HostFunction τ) (r : Registry σ) : Registry τ :=
  ⟨r.functions.map fun (name, f) => (name, change name f)⟩

variable {change : String → HostFunction σ → HostFunction τ} {r : Registry σ}

theorem get?_mapFunctions (name : String) :
    (r.mapFunctions change).get? name = (r.get? name).map (change name) := by
  obtain ⟨functions⟩ := r
  simp only [get?, mapFunctions]
  induction functions with
  | nil => rfl
  | cons entry rest ih =>
    obtain ⟨key, f⟩ := entry
    by_cases same : key = name
    -- The first entry of a name counts, before and after.
    · subst same
      simp
    · simpa [List.find?_cons, beq_false_of_ne same] using ih

theorem lookup?_mapFunctions (module name : String) :
    (r.mapFunctions change).lookup? module name =
      ((r.get? (module ++ "." ++ name)).map (change (module ++ "." ++ name))).or
        ((r.get? name).map (change name)) := by
  rw [lookup?, get?_mapFunctions, get?_mapFunctions]

end Registry

def Setup.mapFunctions (change : String → HostFunction σ → HostFunction τ) (setup : Setup σ) :
    Setup τ :=
  ⟨setup.registry.mapFunctions change, setup.options, setup.base, setup.baseDir, setup.lastResult⟩

/-- Whether a failure may be gone at the next try: a call of the host or a run of the agent. -/
def EffectError.isPassing : EffectError → Bool
  | .functionFailed .. | .runFailed _ | .cancelled => true
  | _ => false

/-- What a name stands for does not depend on what the functions do. -/
theorem Session.function_mapFunctions (setup : Setup σ) (s : Session) (name : String) :
    (∃ e, e.isPassing = false ∧ ∀ {τ : Type} (change : String → HostFunction σ → HostFunction τ),
      s.function (setup.mapFunctions change) name = .error e) ∨
    ∃ key f, ∀ {τ : Type} (change : String → HostFunction σ → HostFunction τ),
      s.function (setup.mapFunctions change) name = .ok (change key f) := by
  cases imported : s.module? name with
  | none => exact .inl ⟨.unknownFunction name, rfl, by simp [function, imported]⟩
  | some module =>
    simp only [function, imported, Setup.mapFunctions, Registry.lookup?_mapFunctions]
    cases setup.registry.get? (module ++ "." ++ name) with
    | some f => exact .inr ⟨_, f, fun _ => rfl⟩
    | none =>
      cases setup.registry.get? name with
      | some f => exact .inr ⟨_, f, fun _ => rfl⟩
      | none => exact .inl ⟨.notProvided name module, rfl, fun _ => rfl⟩

/-- A function does what another one does, but for calls that fail if these are tried again. -/
structure HostFunction.Mirrors (again : Bool) (Related : τ → ρ → Prop) (f : HostFunction τ)
    (g : HostFunction ρ) : Prop where
  succeeds : ∀ {args : List Value} {value : Value} {host host' : τ} {image' : ρ},
    f args host = (.ok value, host') → Related host' image' →
    ∃ image, Related host image ∧ g args image = (.ok value, image')
  fails : ∀ {args : List Value} {message : String} {host host' : τ} {image' : ρ},
    f args host = (.error message, host') → Related host' image' →
    if again then Related host image'
    else ∃ image, Related host image ∧ g args image = (.error message, image')

/-- Worlds that differ in their hosts. -/
structure World.Alike (Related : τ → ρ → Prop) (world : World τ) (image : World ρ) : Prop where
  files : image.files = world.files
  cache : image.cache = world.cache
  host : Related world.host image.host

section

variable {setup : Setup σ} {change : String → HostFunction σ → HostFunction τ}
  {change' : String → HostFunction σ → HostFunction ρ} {again : EffectError → Bool} {calls : Bool}
  {Related : τ → ρ → Prop} {s next : Session} {ctx : Context} {node : Node} {world world' : World τ}
  {image' : World ρ}

theorem Session.Acts.mirrored
    (mirrors : ∀ name f, HostFunction.Mirrors calls Related (change name f) (change' name f))
    (acts : Acts (setup.mapFunctions change) s ctx world node next world')
    (related : world'.Alike Related image') :
    ∃ image, world.Alike Related image ∧
      Acts (setup.mapFunctions change') s ctx image node next image' := by
  cases acts with
  | controls control => exact ⟨image', related, .controls control⟩
  | imports => exact ⟨image', related, .imports⟩
  | assigns evaluated => exact ⟨image', related, .assigns evaluated⟩
  | registers => exact ⟨image', related, .registers⟩
  | runs => exact ⟨image', related, .runs⟩
  | clearsContext => exact ⟨image', related, .clearsContext⟩
  | clearsTools => exact ⟨image', related, .clearsTools⟩
  -- Rendering reads the files and the cache, which are the same in both worlds.
  | @renders _ text cache prose rendered =>
    refine ⟨{ image' with cache := world.cache }, ⟨related.files, rfl, related.host⟩, ?_⟩
    have rendered : render image'.files (setup.mapFunctions change').options
        (setup.mapFunctions change').baseDir [node] ctx world.cache = (.ok text, image'.cache) := by
      rw [related.files, related.cache]
      exact rendered
    exact .renders prose rendered
  | @calls name args target function values result host found evaluated called =>
    -- Both registries resolve the name to the same key, or neither does.
    rcases function_mapFunctions setup s name with ⟨e, _, missing⟩ | ⟨key, f, provided⟩
    · cases (missing change).symm.trans found
    · cases (provided change).symm.trans found
      obtain ⟨host', related', called'⟩ := (mirrors key f).succeeds called related.host
      exact ⟨{ image' with host := host' }, ⟨related.files, related.cache, related'⟩,
        .calls (provided change') evaluated called'⟩

/-- Only calls that fail may be tried again; any other failure is one with the other host too. -/
theorem Session.Fails.mirrored
    (mirrors : ∀ name f, HostFunction.Mirrors calls Related (change name f) (change' name f))
    (lasting : ∀ e, e.isPassing = false → again e = false)
    (passing : ∀ name message, again (.functionFailed name message) = calls) {e : EffectError}
    (fails : Fails (setup.mapFunctions change) s ctx world node e world')
    (related : world'.Alike Related image') :
    if again e then world.Alike Related image'
    else ∃ image, world.Alike Related image ∧
      Fails (setup.mapFunctions change') s ctx image node e image' := by
  cases fails with
  | assigns evaluated =>
    rw [lasting _ rfl]
    exact ⟨image', related, .assigns evaluated⟩
  | @lookup name args target e missing =>
    rcases function_mapFunctions setup s name with ⟨e', lasts, missing'⟩ | ⟨key, f, provided⟩
    · cases (missing' change).symm.trans missing
      rw [lasting _ lasts]
      exact ⟨image', related, .lookup (missing' change')⟩
    · cases (provided change).symm.trans missing
  | @arguments name args target function cause found evaluated =>
    rcases function_mapFunctions setup s name with ⟨e, _, missing⟩ | ⟨key, f, provided⟩
    · cases (missing change).symm.trans found
    · rw [lasting _ rfl]
      exact ⟨image', related, .arguments (provided change') evaluated⟩
  | @calls name args target function values message host found evaluated called =>
    rcases function_mapFunctions setup s name with ⟨e, _, missing⟩ | ⟨key, f, provided⟩
    · cases (missing change).symm.trans found
    · cases (provided change).symm.trans found
      have failed := (mirrors key f).fails called related.host
      rw [passing]
      cases calls with
      | true => exact ⟨related.files, related.cache, failed⟩
      | false =>
        obtain ⟨host', related', called'⟩ := failed
        exact ⟨{ image' with host := host' }, ⟨related.files, related.cache, related'⟩,
          .calls (provided change') evaluated called'⟩
  | @renders _ cause cache prose rendered =>
    rw [lasting _ rfl]
    refine ⟨{ image' with cache := world.cache }, ⟨related.files, rfl, related.host⟩, ?_⟩
    have rendered : render image'.files (setup.mapFunctions change').options
        (setup.mapFunctions change').baseDir [node] ctx world.cache = (.error cause, image'.cache) := by
      rw [related.files, related.cache]
      exact rendered
    exact .renders prose rendered

theorem Mirror.mapFunctions (setup : Setup σ)
    (mirrors : ∀ name f, HostFunction.Mirrors calls Related (change name f) (change' name f))
    (lasting : ∀ e, e.isPassing = false → again e = false)
    (passing : ∀ name message, again (.functionFailed name message) = calls) :
    Mirror (setup.mapFunctions change) (setup.mapFunctions change') again
      (World.Alike Related) where
  lastResult := rfl
  executes executed related := by
    obtain ⟨frames, acted, opens, acts, rfl⟩ := Session.execute_ok_iff.mp executed
    obtain ⟨image, related, acts⟩ := acts.mirrored mirrors related
    exact ⟨image, related, Session.execute_ok_iff.mpr ⟨frames, acted, opens, acts, rfl⟩⟩
  fails := by
    intro s segment e world world' image' executed related
    rcases Session.execute_error_iff.mp executed with ⟨cause, opens, rfl, rfl⟩ | ⟨frames, opens, fails⟩
    · rw [lasting _ rfl]
      exact ⟨image', related, Session.execute_error_iff.mpr (.inl ⟨cause, opens, rfl, rfl⟩)⟩
    · have failed := fails.mirrored mirrors lasting passing related
      cases tried : again e with
      | true => rwa [tried] at failed
      | false =>
        rw [tried] at failed
        obtain ⟨image, related, fails⟩ := failed
        exact ⟨image, related, Session.execute_error_iff.mpr (.inr ⟨frames, opens, fails⟩)⟩

end

end PromptScript
