import PromptScript.Proofs.Render.Cycle

/-!
The files being expanded. They are asked for one thing only, whether an include leads back to one of them:
with fewer of them a render does the same, except that it may go on where it reported a cycle.
-/
namespace PromptScript

open PromptScript.Computation

variable {fs : FileSystem} {options : RenderOptions} {chain more : List String} {path : String}

/-! ### Chains -/

/-- Every path of a chain says the same as one of another chain. -/
def ChainWithin (chain more : List String) : Prop :=
  ∀ path ∈ chain, more.any (Path.same path) = true

namespace ChainWithin

theorem nil (more : List String) : ChainWithin [] more := by
  simp [ChainWithin]

theorem any (within : ChainWithin chain more) (seen : chain.any (Path.same path) = true) :
    more.any (Path.same path) = true := by
  obtain ⟨other, known, same⟩ := List.any_eq_true.mp seen
  obtain ⟨last, known', same'⟩ := List.any_eq_true.mp (within other known)
  rw [Path.same, decide_eq_true_eq] at same same'
  refine List.any_eq_true.mpr ⟨last, known', ?_⟩
  rw [Path.same, decide_eq_true_eq, same, same']

theorem append (within : ChainWithin chain more) (path : String) :
    ChainWithin (chain ++ [path]) (more ++ [path]) := by
  intro other known
  rw [List.any_append, Bool.or_eq_true]
  rcases List.mem_append.mp known with old | new
  · exact .inl (within other old)
  · rw [List.mem_singleton.mp new]
    exact .inr (by simp)

end ChainWithin

/-! ### Up to cycles -/

/-- A computation does what another one does, unless that one reports a cycle. -/
def Loading.UpToCycles {α : Type} (more fewer : Loading α) : Prop :=
  ∀ cache, fewer cache = more cache ∨ ∃ files later, more cache = (.error (.includeCycle files), later)

theorem Loading.upToCycles_congruence : Loading.Congruence Loading.UpToCycles where
  ofEval _ _ := .inl rfl
  bind := by
    intro α β first first' second second' related related' cache
    rcases related cache with same | ⟨files, later, failed⟩
    · rw [bind_apply, bind_apply, same]
      rcases first cache with ⟨e | a, between⟩
      · exact .inl rfl
      · exact related' a between
    · exact .inr ⟨files, later, bind_of_error failed⟩

theorem expandIncludeFrom_upToCycles (source : String → Loading Template) (fs : FileSystem)
    (options : RenderOptions) (within : ChainWithin chain more) (dir : String) (target : Include)
    (ctx : Context) :
    Loading.UpToCycles (expandIncludeFrom source fs options more dir target ctx)
      (expandIncludeFrom source fs options chain dir target ctx) := by
  have congruence := Loading.upToCycles_congruence
  -- Both chains get the same files; of the longer one, fewer files are left out each time.
  induction outside : fs.countOutside more using Nat.strongRecOn
    generalizing chain more dir target ctx with
  | ind n ih =>
    rw [expandIncludeFrom_eq, expandIncludeFrom_eq]
    cases target.path.locate fs options.defaultExtension ctx dir with
    | error e => exact fun _ => .inl rfl
    | ok found =>
      obtain ⟨path, isFile⟩ := found
      by_cases seen : more.any (Path.same path)
      · simp only [if_pos seen]
        exact fun cache => .inr ⟨more ++ [path], cache, rfl⟩
      · have fewer := FileSystem.countOutside_append_lt isFile (isNew_of_not_seen seen)
        simp only [if_neg seen, if_neg (mt within.any seen)]
        refine congruence.bind (congruence.ofEval _) fun bindings => ?_
        refine congruence.bind (fun _ => .inl rfl) fun template => ?_
        exact renderNodes_related congruence template.nodes
          (fun target _ ctx => ih _ (outside ▸ fewer) (within.append path) _ target ctx rfl) _

theorem renderNodes_upToCycles (source : String → Loading Template) (fs : FileSystem)
    (options : RenderOptions) (within : ChainWithin chain more) (dir : String) (nodes : List Node)
    (ctx : Context) :
    Loading.UpToCycles
      (renderNodes options.strict (expandIncludeFrom source fs options more dir) ctx nodes)
      (renderNodes options.strict (expandIncludeFrom source fs options chain dir) ctx nodes) :=
  renderNodes_related Loading.upToCycles_congruence nodes
    (fun target _ ctx => expandIncludeFrom_upToCycles source fs options within dir target ctx) ctx

/-! ### Caches of files that have not changed -/

theorem Loading.Caches.result_eq {α : Type} {cached plain : Loading α} {cache : TemplateCache}
    (caches : Loading.Caches fs (TemplateCache.read fs) cached plain) (faithful : cache.IsFaithful fs)
    (log : TemplateCache) : (cached cache).1 = (plain log).1 := by
  obtain ⟨result, readings, read, loaded, -⟩ :=
    caches cache log (TemplateCache.isFaithful_iff.mp faithful)
  rw [read, loaded]

/-- If fewer files are being expanded, a render gives the same text, or the same error if that is no cycle.
So the template of a file that can be rendered gives the same text when its nodes are rendered from the
directory of the file, with no file being expanded. -/
theorem chain_adds_only_cycles (current : fs.Canonical fs.current) {cache fresh : TemplateCache}
    (faithful : cache.IsFaithful fs) (faithful' : fresh.IsFaithful fs) (options : RenderOptions)
    (ctx : Context) :
    (∀ chain more, ChainWithin chain more → ∀ dir nodes,
      let before := (renderNodes options.strict (expandInclude fs options more dir) ctx nodes cache).1
      let after := (renderNodes options.strict (expandInclude fs options chain dir) ctx nodes fresh).1
      (∀ text, before = .ok text → after = .ok text) ∧
      ∀ e, before = .error e → (∀ files, e ≠ .includeCycle files) → after = .error e) ∧
    ∀ path text, (renderFile fs options path ctx cache).1 = .ok text →
      ∃ file template, fs.canonicalize path = .ok file ∧ TemplateCache.read fs file = .ok template ∧
        (render fs options ((Path.parent? file).getD "") template.nodes ctx fresh).1 = .ok text := by
  constructor
  · intro chain more within dir nodes before after
    have first := (renderNodes_caches current options more dir nodes ctx).result_eq faithful .empty
    have second := (renderNodes_caches current options chain dir nodes ctx).result_eq faithful' .empty
    simp only [before, after, first, second]
    rcases renderNodes_upToCycles (TemplateCache.anew (TemplateCache.read fs)) fs options within dir nodes
      ctx .empty with same | ⟨files, later, failed⟩
    · rw [same]
      exact ⟨fun _ => id, fun _ failed _ => failed⟩
    · rw [failed]
      refine ⟨fun text ended => ?_, fun e same other => ?_⟩
      · cases ended
      · exact absurd (Except.error.inj same).symm (other files)
  · intro path text rendered
    rw [(renderFile_caches current options path ctx).result_eq faithful .empty, renderFileFrom] at rendered
    cases canonical : fs.canonicalize path with
    | error cause => rw [canonical] at rendered; cases rendered
    | ok file =>
      simp only [canonical] at rendered
      rcases loaded : TemplateCache.anew (TemplateCache.read fs) file .empty with ⟨e | template, log⟩
      · rw [bind_of_error loaded] at rendered
        cases rendered
      · rw [bind_of_ok loaded] at rendered
        have content := TemplateCache.anew_result (TemplateCache.read fs) file .empty
        rw [loaded] at content
        refine ⟨file, template, rfl, content.symm, ?_⟩
        rw [(render_caches current options _ template.nodes ctx).result_eq faithful' log, renderFrom]
        -- The file itself is the only one that is no longer being expanded.
        rcases renderNodes_upToCycles (TemplateCache.anew (TemplateCache.read fs)) fs options
          (ChainWithin.nil [file]) _ template.nodes ctx log with same | ⟨files, later, failed⟩
        · rw [same]
          exact rendered
        · rw [failed] at rendered
          cases rendered

set_option maxRecDepth 20000 in
/-- A file that includes another one: while that one is being expanded, the nodes of the file are a cycle. -/
theorem chain_adds_only_cycles_included :
    let fs : FileSystem := ⟨[], [(["a"], .file "[[ b ]]".toUTF8), (["b"], .file "<<x>>".toUTF8)]⟩
    fs.Canonical fs.current ∧ TemplateCache.empty.IsFaithful fs ∧ ChainWithin [] ["/b"] ∧
      (renderFile fs ⟨false, ""⟩ "/a" .empty .empty).1 = .ok "x\n" ∧
      ∃ file template, fs.canonicalize "/a" = .ok file ∧ TemplateCache.read fs file = .ok template ∧
        (render fs ⟨false, ""⟩ ((Path.parent? file).getD "") template.nodes .empty .empty).1 =
          .ok "x\n" := by
  intro fs
  have current : fs.Canonical fs.current := FileSystem.canonical_root
  have faithful : TemplateCache.empty.IsFaithful fs := TemplateCache.isFaithful_empty
  have canonical : fs.canonicalize "/a" = .ok "/a" := by cbv
  have loaded : TemplateCache.load fs "/a" .empty =
      (.ok ⟨.empty, [.include ⟨.literal "b", []⟩]⟩,
        ⟨[("/a", ⟨.empty, [.include ⟨.literal "b", []⟩]⟩)], 1⟩) := by cbv
  have loaded' : TemplateCache.load fs "/b" ⟨[("/a", ⟨.empty, [.include ⟨.literal "b", []⟩]⟩)], 1⟩ =
      (.ok ⟨.empty, [.block [.text "x\n"]]⟩, ⟨[("/a", ⟨.empty, [.include ⟨.literal "b", []⟩]⟩),
        ("/b", ⟨.empty, [.block [.text "x\n"]]⟩)], 2⟩) := by cbv
  have noBindings : Loading.ofEval (Include.values .empty []) = pure [] := rfl
  have leads : fs.canonicalFile? "/b" = some "/b" := by cbv
  have located (ctx : Context) : (IncludePath.literal "b").locate fs "" ctx "/" =
      .ok ⟨"/b", FileSystem.mem_filePaths_of_canonicalFile? leads⟩ :=
    IncludePath.locate_ok_iff.mpr ⟨"b", rfl, leads⟩
  have rendered : (renderFile fs ⟨false, ""⟩ "/a" .empty .empty).1 = .ok "x\n" := by
    have dir : (Path.parent? "/a").getD "" = "/" := by cbv
    have isNew : ["/a"].any (Path.same "/b") = false := by cbv
    rw [renderFile_eq, renderFileFrom]
    simp only [canonical, bind_of_ok loaded, renderNodes, Node.render, dir]
    rw [bind_apply, expandIncludeFrom_eq]
    simp only [located, isNew, Bool.false_eq_true, if_false]
    rw [noBindings, pure_bind, bind_of_ok loaded']
    rfl
  exact ⟨current, faithful, .nil _, rendered,
    (chain_adds_only_cycles current faithful faithful ⟨false, ""⟩ .empty).2 "/a" "x\n" rendered⟩

end PromptScript
