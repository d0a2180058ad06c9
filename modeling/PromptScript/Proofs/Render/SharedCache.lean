import PromptScript.Proofs.Render.Anew

/-!
One cache, shared by renderers. As long as the files do not change, no call tells whether the cache
has served before, except for one that asks what is kept. When files change, what is kept stays as it
was first read, until the cache is cleared.
-/
namespace PromptScript

open FileSystem (IsPlain)

/-! ### Calls -/

/-- A call of one of the renderers that share a cache, or of the cache itself. -/
inductive CacheCall where
  | render (options : RenderOptions) (dir : String) (nodes : List Node) (ctx : Context)
  | renderFile (options : RenderOptions) (path : String) (ctx : Context)
  | load (path : String)
  | get (path : String)
  | clear

inductive CacheReply where
  | text (result : Except RenderError String)
  | template (result : Except RenderError Template)
  | kept (template : Option Template)
  | cleared

namespace CacheCall

/-- Asks what the cache keeps. -/
def isGet : CacheCall → Bool
  | .get _ => true
  | _ => false

def isClear : CacheCall → Bool
  | .clear => true
  | _ => false

/-- A path whose template is asked for is a canonical one. -/
def LoadsPlain : CacheCall → Prop
  | .load path => IsPlain path
  | _ => True

end CacheCall

def TemplateCache.handle (fs : FileSystem) (cache : TemplateCache) :
    CacheCall → CacheReply × TemplateCache
  | .render options dir nodes ctx =>
    (PromptScript.render fs options dir nodes ctx cache).map .text id
  | .renderFile options path ctx => (PromptScript.renderFile fs options path ctx cache).map .text id
  | .load path => (load fs path cache).map .template id
  | .get path => (.kept (cache.get? path), cache)
  | .clear => (.cleared, cache.clear)

/-- A call, and the files at the time of it. -/
structure CacheStep where
  fs : FileSystem
  call : CacheCall
  current : fs.Canonical fs.current
  plain : call.LoadsPlain

/-- The cache after some calls, each on the files of its time. -/
def TemplateCache.after (cache : TemplateCache) (history : List CacheStep) : TemplateCache :=
  history.foldl (fun cache step => (cache.handle step.fs step.call).2) cache

/-! ### Calls without a cache -/

/-- What a computation gives, and what it notes. -/
def Loading.alone {α : Type} (f : Loading α) : Except RenderError α × List FileReading :=
  (f .empty).map id TemplateCache.entries

/-- What a call gives, and the files that it reads, where nothing is ever kept. -/
def CacheCall.anew (known : String → Except RenderError Template) (fs : FileSystem) :
    CacheCall → CacheReply × List FileReading
  | .render options dir nodes ctx =>
    (renderFrom (TemplateCache.anew known) fs options dir nodes ctx).alone.map .text id
  | .renderFile options path ctx =>
    (renderFileFrom (TemplateCache.anew known) fs options path ctx).alone.map .text id
  | .load path => (TemplateCache.anew known path).alone.map .template id
  | .get _ => (.kept none, [])
  | .clear => (.cleared, [])

/-- The files that a call reads and parses where nothing is ever kept. -/
def CacheStep.readings (step : CacheStep) : List FileReading :=
  (step.call.anew (TemplateCache.read step.fs) step.fs).2

/-- The files that have been read and parsed since the cache was last cleared. -/
def readingsSinceClear (history : List CacheStep) : List FileReading :=
  history.foldl (fun readings step =>
    if step.call.isClear then [] else readings ++ step.readings) []

/-- Their paths, each as often as it has been read. -/
def pathsSinceClear (history : List CacheStep) : List String :=
  (readingsSinceClear history).map (·.1)

theorem CacheStep.readings_of_isClear {step : CacheStep} (clears : step.call.isClear = true) :
    step.readings = [] := by
  obtain ⟨fs, call, current, plain⟩ := step
  cases call with
  | clear => rfl
  | _ => cases clears

theorem pathsSinceClear_concat {history : List CacheStep} {step : CacheStep}
    (keeps : step.call.isClear = false) :
    pathsSinceClear (history ++ [step]) = pathsSinceClear history ++ step.readings.map (·.1) := by
  simp [pathsSinceClear, readingsSinceClear, keeps]

namespace TemplateCache

variable {cache other : TemplateCache} {path : String}

theorem after_cons (cache : TemplateCache) (step : CacheStep) (later : List CacheStep) :
    cache.after (step :: later) = ((cache.handle step.fs step.call).2).after later := rfl

theorem after_append (cache : TemplateCache) (history later : List CacheStep) :
    cache.after (history ++ later) = (cache.after history).after later :=
  List.foldl_append

theorem after_concat (cache : TemplateCache) (history : List CacheStep) (step : CacheStep) :
    cache.after (history ++ [step]) = ((cache.after history).handle step.fs step.call).2 :=
  after_append cache history [step]

/-! ### What is kept of readings -/

/-- The paths for which something is kept. -/
def paths (cache : TemplateCache) : List String :=
  cache.entries.map (·.1)

/-- What is kept is what was there, or else the first reading. -/
theorem get?_keepAll (cache : TemplateCache) (readings : List FileReading) (path : String) :
    (cache.keepAll readings).get? path =
      (cache.get? path).or ((readings.find? fun reading => Path.same reading.1 path).map (·.2)) := by
  induction readings generalizing cache with
  | nil => simp
  | cons reading later ih =>
    have step := ih (cache.keep reading)
    rw [get?_keep, Option.or_assoc] at step
    rw [List.find?_cons]
    -- The first reading is found before the later ones, if it is one of the path.
    cases same : Path.same reading.1 path <;> simpa [same] using step

theorem keepAll_entries {readings : List FileReading} (same : cache.entries = other.entries) :
    (cache.keepAll readings).entries = (other.keepAll readings).entries := by
  induction readings generalizing cache other with
  | nil => exact same
  | cons reading later ih =>
    refine ih ?_
    simp only [keep, get?, same]
    split <;> simp [same]

theorem get?_isSome_iff : (cache.get? path).isSome ↔ ∃ kept ∈ cache.paths, Path.same kept path := by
  simp [get?, paths]

theorem paths_keep {read : List String} {reading : FileReading} (kept : cache.paths = read.eraseDups)
    (plain : ∀ path ∈ read, IsPlain path) (plain' : IsPlain reading.1) :
    (cache.keep reading).paths = (read ++ [reading.1]).eraseDups := by
  -- Plain paths are told apart by their spelling, so that looking up is membership.
  have present : (cache.get? reading.1).isSome ↔ reading.1 ∈ read := by
    rw [get?_isSome_iff, kept]
    constructor
    · rintro ⟨path, known, same⟩
      have known := List.mem_eraseDups.mp known
      rwa [← (plain path known).eq_of_same plain' same]
    · intro known
      exact ⟨reading.1, List.mem_eraseDups.mpr known, Path.same_self _⟩
  rw [List.eraseDups_append, keep]
  by_cases known : reading.1 ∈ read
  · rw [if_pos (present.mpr known), kept]
    simp [List.removeAll, known]
  · rw [if_neg (mt present.mp known)]
    simp only [paths] at kept ⊢
    simp [List.removeAll, known, kept, List.eraseDups_cons]

/-- The paths that are kept are the ones that have been read, in the order of their first readings. -/
theorem paths_keepAll {read : List String} {readings : List FileReading}
    (kept : cache.paths = read.eraseDups) (plain : ∀ path ∈ read, IsPlain path)
    (plain' : ∀ reading ∈ readings, IsPlain reading.1) :
    (cache.keepAll readings).paths = (read ++ readings.map (·.1)).eraseDups := by
  induction readings generalizing cache read with
  | nil => simpa using kept
  | cons reading later ih =>
    obtain ⟨isPlain, plain'⟩ := List.forall_mem_cons.mp plain'
    have plain : ∀ path ∈ read ++ [reading.1], IsPlain path := by
      simpa [or_imp, forall_and] using ⟨plain, isPlain⟩
    have step := paths_keep kept (fun path known => plain path (List.mem_append_left _ known)) isPlain
    simpa using ih step plain plain'

/-- Each reading that is kept has been parsed for it. -/
theorem parses_keepAll (cache : TemplateCache) (readings : List FileReading) :
    (cache.keepAll readings).parses + cache.size = cache.parses + (cache.keepAll readings).size := by
  induction readings generalizing cache with
  | nil => rfl
  | cons reading later ih =>
    have step : (cache.keep reading).parses + cache.size = cache.parses + (cache.keep reading).size := by
      rw [keep]
      split
      · rfl
      · simp [size]
        omega
    have later := ih (cache.keep reading)
    rw [keepAll_cons]
    omega

end TemplateCache

/-! ### One call -/

section

variable {fs : FileSystem} {known : String → Except RenderError Template} {cache : TemplateCache}
  {call : CacheCall}

theorem Loading.Caches.alone {α : Type} {cached plain : Loading α}
    (caches : Loading.Caches fs known cached plain) (shows : cache.Shows fs known) :
    cached cache = (plain.alone.1, cache.keepAll plain.alone.2) ∧
      TemplateCache.AreKnown known plain.alone.2 := by
  obtain ⟨result, readings, read, loaded, given⟩ := caches cache .empty shows
  have apart : plain.alone = (result, readings) := by
    rw [Loading.alone, read]
    rfl
  rw [apart]
  exact ⟨loaded, given⟩

namespace TemplateCache

/-- What a call does is what it does without a cache, except that it can ask what is kept or give
it up. -/
theorem handle_anew (current : fs.Canonical fs.current) (plain : call.LoadsPlain)
    (shows : cache.Shows fs known) :
    (call.isGet = false → (cache.handle fs call).1 = (call.anew known fs).1) ∧
    (call.isClear = false → (cache.handle fs call).2 = cache.keepAll (call.anew known fs).2) ∧
    AreKnown known (call.anew known fs).2 := by
  -- The first three calls load, each by a computation that the cache serves; the others load nothing.
  cases call with
  | render options dir nodes ctx =>
    obtain ⟨rendered, given⟩ := (render_caches current options dir nodes ctx).alone shows
    simpa only [handle, rendered] using ⟨fun _ => rfl, fun _ => rfl, given⟩
  | renderFile options path ctx =>
    obtain ⟨rendered, given⟩ := (renderFile_caches current options path ctx).alone shows
    simpa only [handle, rendered] using ⟨fun _ => rfl, fun _ => rfl, given⟩
  | load path =>
    obtain ⟨loaded, given⟩ := (load_caches plain).alone shows
    simpa only [handle, loaded] using ⟨fun _ => rfl, fun _ => rfl, given⟩
  | get path => exact ⟨nofun, fun _ => rfl, nofun⟩
  | clear => exact ⟨fun _ => rfl, nofun, nofun⟩

theorem handle_clear (clears : call.isClear = true) : (cache.handle fs call).2 = cache.clear := by
  cases call with
  | clear => rfl
  | _ => cases clears

end TemplateCache

end

/-! ### Files that do not change -/

namespace TemplateCache

variable {fs : FileSystem} {known : String → Except RenderError Template}
  {cache other : TemplateCache} {history : List CacheStep}

theorem shows_empty (fs : FileSystem) : empty.Shows fs (read fs) :=
  fun _ _ => rfl

theorem Shows.congr (shows : cache.Shows fs known) (same : other.entries = cache.entries) :
    other.Shows fs known := by
  intro path plain
  rw [← shows path plain]
  simp only [shown, get?, same]

/-- The cache keeps what has been read since it was last cleared, and nothing else. -/
theorem entries_after (unchanged : ∀ step ∈ history, step.fs = fs) :
    (empty.after history).entries = (empty.keepAll (readingsSinceClear history)).entries ∧
      AreKnown (read fs) (readingsSinceClear history) := by
  -- By induction from the last call. A clear drops what was read before; every other call adds what
  -- it reads, and what it reads is known because the cache shows no more than the files so far.
  induction history using List.reverseRecOn with
  | nil => exact ⟨rfl, nofun⟩
  | append_singleton history step ih =>
    obtain ⟨unchanged, rfl⟩ : (∀ step ∈ history, step.fs = fs) ∧ step.fs = fs := by
      simpa [or_imp, forall_and] using unchanged
    obtain ⟨same, given⟩ := ih unchanged
    rw [after_concat, readingsSinceClear, List.foldl_concat, ← readingsSinceClear]
    cases clears : step.call.isClear with
    | true =>
      rw [handle_clear clears]
      exact ⟨rfl, nofun⟩
    | false =>
      have shows := ((shows_empty step.fs).keepAll given).congr same
      obtain ⟨-, keeps, given'⟩ := handle_anew step.current step.plain shows
      rw [keeps clears, if_neg Bool.false_ne_true, keepAll_append]
      constructor
      · exact keepAll_entries same
      · exact List.forall_mem_append.mpr ⟨given, given'⟩

theorem shows_after (unchanged : ∀ step ∈ history, step.fs = fs) :
    (empty.after history).Shows fs (read fs) := by
  obtain ⟨same, given⟩ := entries_after unchanged
  exact ((shows_empty fs).keepAll given).congr same

theorem paths_after (unchanged : ∀ step ∈ history, step.fs = fs) :
    (empty.after history).paths = (pathsSinceClear history).eraseDups := by
  obtain ⟨same, given⟩ := entries_after unchanged
  have kept : (empty.keepAll (readingsSinceClear history)).paths =
      ([] ++ pathsSinceClear history).eraseDups :=
    paths_keepAll rfl nofun fun reading known => (given reading known).1
  rw [paths, same]
  exact kept

theorem size_after (unchanged : ∀ step ∈ history, step.fs = fs) :
    (empty.after history).size = (pathsSinceClear history).eraseDups.length := by
  rw [← paths_after unchanged, paths, List.length_map, size]

/-- What a call parses are the files that it reads and that have not been read since the cache was
last cleared. -/
theorem parses_after (next : CacheStep) (unchanged : ∀ step ∈ history, step.fs = next.fs) :
    ((empty.after history).handle next.fs next.call).2.parses = (empty.after history).parses +
      ((next.readings.map (·.1)).removeAll (pathsSinceClear history)).eraseDups.length := by
  cases clears : next.call.isClear with
  | true =>
    rw [handle_clear clears, CacheStep.readings_of_isClear clears]
    rfl
  | false =>
    obtain ⟨-, keeps, -⟩ := handle_anew next.current next.plain (shows_after unchanged)
    -- What is parsed is seen from the number of entries before the call and after it.
    have further : ∀ step ∈ history ++ [next], step.fs = next.fs := by
      simpa [or_imp, forall_and] using unchanged
    have before := size_after unchanged
    have after := size_after further
    rw [after_concat, pathsSinceClear_concat clears, List.eraseDups_append, List.length_append] at after
    have parsed := parses_keepAll (empty.after history) next.readings
    rw [CacheStep.readings, ← keeps clears] at parsed
    omega

/-- What is kept is what the files say that have been read since the cache was last cleared. -/
theorem get?_after (unchanged : ∀ step ∈ history, step.fs = fs) (path : String)
    (template : Template) :
    (empty.after history).get? path = some template ↔
      ∃ same ∈ pathsSinceClear history, Path.same same path ∧ read fs same = .ok template := by
  have shows := shows_after unchanged
  -- A path that has been read is known by the spelling under which it was read.
  have read_of_kept : ∀ same ∈ pathsSinceClear history, Path.same same path →
      ∀ kept, (empty.after history).get? path = some kept → read fs same = .ok kept := by
    intro same known spelled kept found
    obtain ⟨reading, noted, rfl⟩ := List.mem_map.mp known
    rw [← shows reading.1 ((entries_after unchanged).2 reading noted).1, shown, get?_congr spelled, found]
  constructor
  · intro found
    obtain ⟨same, kept, spelled⟩ := get?_isSome_iff.mp (Option.isSome_of_eq_some found)
    rw [paths_after unchanged, List.mem_eraseDups] at kept
    exact ⟨same, kept, spelled, read_of_kept same kept spelled template found⟩
  · rintro ⟨same, known, spelled, content⟩
    have isKept : ((empty.after history).get? path).isSome :=
      get?_isSome_iff.mpr ⟨same, by rwa [paths_after unchanged, List.mem_eraseDups], spelled⟩
    obtain ⟨kept, found⟩ := Option.isSome_iff_exists.mp isKept
    cases content.symm.trans (read_of_kept same known spelled kept found)
    exact found

end TemplateCache

/-! ### Files that change -/

namespace TemplateCache

variable {fs : FileSystem} {cache : TemplateCache} {history later : List CacheStep} {path : String}
  {template : Template}

theorem shows_shown (fs : FileSystem) (cache : TemplateCache) : cache.Shows fs (cache.shown fs) :=
  fun _ _ => rfl

theorem handle_keeps (step : CacheStep) (keeps : step.call.isClear = false) :
    ∃ readings, (cache.handle step.fs step.call).2 = cache.keepAll readings ∧
      AreKnown (cache.shown step.fs) readings := by
  obtain ⟨-, kept, given⟩ := handle_anew step.current step.plain (shows_shown step.fs cache)
  exact ⟨_, kept keeps, given⟩

/-- What is kept stays. -/
theorem get?_after_of_kept (found : cache.get? path = some template)
    (keeps : ∀ step ∈ later, step.call.isClear = false) :
    (cache.after later).get? path = some template := by
  induction later generalizing cache with
  | nil => exact found
  | cons step later ih =>
    obtain ⟨keep, keeps⟩ := List.forall_mem_cons.mp keeps
    obtain ⟨readings, kept, -⟩ := handle_keeps step keep
    rw [after_cons]
    refine ih ?_ keeps
    rw [kept, get?_keepAll, found]
    rfl

/-- A step of a history puts into the cache what it reads: nothing is kept before it, and the cache is
not cleared from it on. -/
def FirstReads (history : List CacheStep) (path : String) (template : Template) : Prop :=
  ∃ before step later, history = before ++ step :: later ∧
    (empty.after before).get? path = none ∧
    (∃ same, Path.same same path ∧ read step.fs same = .ok template) ∧
    (empty.after (before ++ [step])).get? path = some template ∧
    ∀ other ∈ step :: later, other.call.isClear = false

theorem firstReads_of_kept (found : (empty.after history).get? path = some template) :
    FirstReads history path template := by
  induction history using List.reverseRecOn with
  | nil => cases found
  | append_singleton history step ih =>
    have here := found
    rw [after_concat] at found
    cases clears : step.call.isClear with
    | true =>
      rw [handle_clear clears] at found
      cases found
    | false =>
      obtain ⟨readings, kept, given⟩ := handle_keeps step clears
      rw [kept, get?_keepAll] at found
      cases before : (empty.after history).get? path with
      | some earlier =>
        -- It was kept before, and this call has kept it.
        rw [before] at found
        cases found
        obtain ⟨start, first, later, rfl, isNew, content, put, keeps⟩ := ih before
        refine ⟨start, first, later ++ [step], by simp, isNew, content, put, ?_⟩
        rw [← List.cons_append]
        exact List.forall_mem_append.mpr ⟨keeps, by simpa using clears⟩
      | none =>
        rw [before, Option.none_or] at found
        obtain ⟨reading, noted, rfl⟩ := Option.map_eq_some_iff.mp found
        have spelled : Path.same reading.1 path := by simpa using List.find?_some noted
        obtain ⟨-, content⟩ := given reading (List.mem_of_find?_eq_some noted)
        -- Nothing was kept for the path, so that its file was read.
        rw [shown, get?_congr spelled, before] at content
        exact ⟨history, step, [], rfl, before, ⟨reading.1, spelled, content⟩, here,
          by simpa using clears⟩

/-- A cache that was empty first is not seen. As long as the files do not change, every call gives
what it gives with a fresh cache, except that `get`, which reads nothing, finds the templates that
have been read and parsed since the last `clear`; there are as many entries as distinct paths have
been read and parsed since then, and of the files that a call reads those are parsed whose paths are
not among them. When files change, a call gives what it gives without a cache where each path stands
for the template that is kept for it, or else for the file as it is. What is kept is what a call has
read first, and it stays until the next `clear`. -/
theorem transparent (history : List CacheStep) (next : CacheStep) :
    let cache := empty.after history
    ((∀ step ∈ history, step.fs = next.fs) →
      (next.call.isGet = false →
        (cache.handle next.fs next.call).1 = (empty.handle next.fs next.call).1) ∧
      (∀ path template, cache.get? path = some template ↔
        ∃ same ∈ pathsSinceClear history,
          Path.same same path ∧ read next.fs same = .ok template) ∧
      cache.size = (pathsSinceClear history).eraseDups.length ∧
      (cache.handle next.fs next.call).2.parses = cache.parses +
        ((next.readings.map (·.1)).removeAll (pathsSinceClear history)).eraseDups.length) ∧
    (next.call.isGet = false →
      (cache.handle next.fs next.call).1 = (next.call.anew (cache.shown next.fs) next.fs).1) ∧
    ∀ path template, cache.get? path = some template →
      FirstReads history path template ∧
      ∀ later : List CacheStep, (∀ step ∈ later, step.call.isClear = false) →
        (cache.after later).get? path = some template := by
  intro cache
  refine ⟨?_, ?_, ?_⟩
  · intro unchanged
    refine ⟨?_, get?_after unchanged, size_after unchanged, parses_after next unchanged⟩
    intro asks
    -- Both caches show what the files say.
    have shared := handle_anew next.current next.plain (shows_after unchanged)
    have fresh := handle_anew next.current next.plain (shows_empty next.fs)
    rw [shared.1 asks, fresh.1 asks]
  · intro asks
    exact (handle_anew next.current next.plain (shows_shown next.fs cache)).1 asks
  · intro path template found
    constructor
    · exact firstReads_of_kept found
    · intro later keeps
      exact get?_after_of_kept found keeps

set_option maxRecDepth 20000 in
/-- A file that is asked for twice is parsed once. -/
theorem transparent_loadedTwice :
    ∃ step : CacheStep, step.call = .load "/a" ∧
      ((empty.after [step]).handle step.fs step.call).2.parses = 1 := by
  let fs : FileSystem := ⟨[], [(["a"], .file "<<x>>".toUTF8)]⟩
  let step : CacheStep := ⟨fs, .load "/a", FileSystem.canonical_root, ⟨["a"], by decide, by cbv⟩⟩
  refine ⟨step, rfl, ?_⟩
  have parsed := ((transparent [step] step).1 (by simp)).2.2.2
  have once : (empty.after [step]).parses = 1 := by cbv
  have readings : step.readings = [("/a", ⟨.empty, [.block [.text "x\n"]]⟩)] := by cbv
  have earlier : pathsSinceClear [step] = ["/a"] := by
    rw [pathsSinceClear, readingsSinceClear, List.foldl_cons, List.foldl_nil, readings]
    rfl
  rw [parsed, once, readings, earlier]
  rfl

set_option maxRecDepth 20000 in
/-- A cache that has served finds what a fresh one does not. -/
theorem get_of_loaded :
    let fs : FileSystem := ⟨[], [(["a"], .file "<<x>>".toUTF8)]⟩
    let cache := (empty.handle fs (.load "/a")).2
    fs.canonicalize "/a" = .ok "/a" ∧
      (cache.handle fs (.get "/a")).1 ≠ (empty.handle fs (.get "/a")).1 := by
  intro fs cache
  have loaded : load fs "/a" .empty =
      (.ok ⟨.empty, [.block [.text "x\n"]]⟩, ⟨[("/a", ⟨.empty, [.block [.text "x\n"]]⟩)], 1⟩) := by cbv
  refine ⟨by cbv, ?_⟩
  have found : cache.get? "/a" = some ⟨.empty, [.block [.text "x\n"]]⟩ := by
    simp only [cache, handle, loaded]
    rfl
  simp only [handle, found]
  rintro ⟨⟩

end TemplateCache

end PromptScript
