import PromptScript.Proofs.Computation
import PromptScript.Proofs.Text.Span
import PromptScript.Render.Include

/-!
Canonical paths: what a path leads to is also where its own path leads, name by name from the root.
-/
namespace PromptScript

open PromptScript.Computation

namespace FileSystem

variable {fs : FileSystem} {location start : Location} {path name : String}

/-- What can stand between the slashes of a path that is followed. -/
def IsPiece (piece : List Char) : Prop :=
  '/' ∉ piece ∧ '\x00' ∉ piece

/-- A location that its names lead to, none of which is taken for a step in place or upwards. -/
structure Canonical (fs : FileSystem) (location : Location) : Prop where
  piece : ∀ name ∈ location, IsPiece name.toList
  notIdle : ∀ name ∈ location, Path.isIdle name.toList = false
  notUp : ∀ name ∈ location, name.toList ≠ ['.', '.']
  walked : fs.walk [] (location.map String.toList) = .ok location

/-! ### Walks -/

theorem walk_append (fs : FileSystem) (pieces more : List (List Char)) (start : Location) :
    fs.walk start (pieces ++ more) = (fs.walk start pieces >>= fun there => fs.walk there more) := by
  induction pieces generalizing start with
  | nil => rfl
  | cons name rest ih =>
    simp only [List.cons_append, walk]
    split
    · rfl
    · rfl
    · split_ifs
      · exact ih start
      · exact ih start.dropLast
      · rfl
      · exact ih _
      · rfl

/-- One piece of a path stays, leads upwards, or leads to what it names. -/
theorem walk_single {piece : List Char} (h : fs.walk start [piece] = .ok location) :
    (Path.isIdle piece = true ∧ location = start) ∨
    (piece = ['.', '.'] ∧ location = start.dropLast) ∨
    (Path.isIdle piece = false ∧ piece ≠ ['.', '.'] ∧ location = start ++ [.ofList piece]) := by
  simp only [walk] at h
  split at h
  · cases h
  · cases h
  · split_ifs at h with idle up long found
    · cases h
      exact .inl ⟨idle, rfl⟩
    · cases h
      exact .inr (.inl ⟨up, rfl⟩)
    · cases h
      exact .inr (.inr ⟨by simpa using idle, up, rfl⟩)

theorem canonical_root : Canonical fs [] :=
  ⟨nofun, nofun, nofun, rfl⟩

theorem Canonical.dropLast (canonical : Canonical fs location) :
    Canonical fs location.dropLast := by
  rcases List.eq_nil_or_concat location with rfl | ⟨init, last, rfl⟩
  · exact canonical
  rw [List.concat_eq_append] at canonical ⊢
  rw [List.dropLast_concat]
  have walked := canonical.walked
  rw [List.map_append, walk_append, except_bind_ok_iff] at walked
  obtain ⟨there, arrived, step⟩ := walked
  have member : last ∈ init ++ [last] := List.mem_append_right _ List.mem_cons_self
  rcases walk_single step with ⟨idle, -⟩ | ⟨up, -⟩ | ⟨-, -, same⟩
  · rw [canonical.notIdle last member] at idle
    cases idle
  · exact absurd up (canonical.notUp last member)
  · obtain ⟨rfl, -⟩ := List.append_inj' same rfl
    exact ⟨fun name member => canonical.piece name (List.mem_append_left _ member),
      fun name member => canonical.notIdle name (List.mem_append_left _ member),
      fun name member => canonical.notUp name (List.mem_append_left _ member), arrived⟩

theorem Canonical.walk_single {piece : List Char} (canonical : Canonical fs start)
    (isPiece : IsPiece piece) (h : fs.walk start [piece] = .ok location) :
    Canonical fs location := by
  rcases FileSystem.walk_single h with ⟨-, rfl⟩ | ⟨-, rfl⟩ | ⟨notIdle, notUp, rfl⟩
  · exact canonical
  · exact canonical.dropLast
  refine ⟨?_, ?_, ?_, ?_⟩
  · exact List.forall_mem_append.mpr ⟨canonical.piece, by simpa using isPiece⟩
  · exact List.forall_mem_append.mpr ⟨canonical.notIdle, by simpa using notIdle⟩
  · exact List.forall_mem_append.mpr ⟨canonical.notUp, by simpa using notUp⟩
  · rw [List.map_append, walk_append]
    exact except_bind_ok_iff.mpr ⟨start, canonical.walked, by simpa using h⟩

theorem Canonical.walk {pieces : List (List Char)} (canonical : Canonical fs start)
    (isPiece : ∀ piece ∈ pieces, IsPiece piece) (h : fs.walk start pieces = .ok location) :
    Canonical fs location := by
  induction pieces generalizing start with
  | nil =>
    cases h
    exact canonical
  | cons piece rest ih =>
    rw [← List.singleton_append, walk_append, except_bind_ok_iff] at h
    obtain ⟨there, step, later⟩ := h
    exact ih (canonical.walk_single (isPiece piece List.mem_cons_self) step)
      (fun other member => isPiece other (List.mem_cons_of_mem _ member)) later

/-- Pieces that name nothing lead nowhere else. -/
theorem walk_filter {pieces : List (List Char)} (h : fs.walk start pieces = .ok location) :
    fs.walk start (pieces.filter (!Path.isIdle ·)) = .ok location := by
  induction pieces generalizing start with
  | nil => exact h
  | cons piece rest ih =>
    rw [← List.singleton_append, walk_append, except_bind_ok_iff] at h
    obtain ⟨there, step, later⟩ := h
    cases idle : Path.isIdle piece with
    | true =>
      rcases FileSystem.walk_single step with ⟨-, rfl⟩ | ⟨rfl, -⟩ | ⟨notIdle, -⟩
      · rw [List.filter_cons_of_neg (by simp [idle])]
        exact ih later
      · cases idle
      · rw [notIdle] at idle
        cases idle
    | false =>
      rw [List.filter_cons_of_pos (by simp [idle]), ← List.singleton_append, walk_append, step]
      exact ih later

/-! ### Paths -/

theorem isPiece_of_mem_pieces (noNul : '\x00' ∉ path.toList) :
    ∀ piece ∈ Path.pieces path, IsPiece piece := by
  intro piece member
  have whole : piece ∈ Text.pieces (· = '/') path.toList := by
    rw [Path.pieces] at member
    split at member
    · exact List.mem_of_mem_drop member
    · exact member
  have inside := Text.of_mem_pieces whole
  exact ⟨fun slash => by simpa using (inside '/' slash).2, fun nul => noNul (inside _ nul).1⟩

theorem checkNames_ok_iff : checkNames path = .ok () ↔ '\x00' ∉ path.toList ∧ path ≠ "" := by
  rw [checkNames, String.contains_char_eq]
  split_ifs with nul empty <;> simp_all

theorem checkPath_ok_iff : checkPath path = .ok () ↔
    checkNames path = .ok () ∧ path.utf8ByteSize ≤ maxPath := by
  rw [checkPath, except_bind_ok_iff]
  refine ⟨fun ⟨_, names, size⟩ => ⟨names, ?_⟩, fun ⟨names, fits⟩ => ⟨(), names, ?_⟩⟩
  · by_contra long
    rw [if_pos (Nat.lt_of_not_le long)] at size
    cases size
  · rw [if_neg (Nat.not_lt.mpr fits)]

theorem trace_ok_iff : fs.trace path = .ok location ↔
    checkNames path = .ok () ∧ fs.walk (fs.origin path) (Path.pieces path) = .ok location := by
  rw [trace, except_bind_ok_iff]
  exact ⟨fun ⟨_, checked, walked⟩ => ⟨checked, walked⟩, fun ⟨checked, walked⟩ => ⟨(), checked, walked⟩⟩

theorem toList_pathOf (location : Location) :
    (pathOf location).toList = '/' :: ['/'].intercalate (location.map String.toList) := by
  simp [pathOf]

theorem pathOf_append (nonempty : location ≠ []) (name : String) :
    pathOf (location ++ [name]) = pathOf location ++ "/" ++ name := by
  rw [pathOf, String.intercalate_append_of_ne_nil nonempty (List.cons_ne_nil name []),
    String.intercalate_singleton, pathOf]
  simp only [String.append_assoc]

/-- The path to a name ends as the name does. -/
theorem getLast?_pathOf (location : Location) (nonempty : name.toList ≠ []) :
    (pathOf (location ++ [name])).toList.getLast? = name.toList.getLast? := by
  obtain ⟨front, split⟩ : ∃ front, pathOf (location ++ [name]) = front ++ name := by
    cases location with
    | nil => exact ⟨"/", rfl⟩
    | cons first more => exact ⟨_, pathOf_append (List.cons_ne_nil first more) name⟩
  rw [split, String.toList_append, List.getLast?_append_of_ne_nil _ nonempty]

theorem ofPieces_pathOf (location : Location) :
    Path.ofPieces true (location.map String.toList) = pathOf location := by
  rw [← String.toList_inj, toList_pathOf]
  simp [Path.ofPieces]

theorem isAbsolute_pathOf (location : Location) : Path.isAbsolute (pathOf location) = true := by
  simp [Path.isAbsolute, toList_pathOf]

theorem pieces_pathOf (noSlash : ∀ name ∈ location, '/' ∉ name.toList) (nonempty : location ≠ []) :
    Text.pieces (· = '/') (pathOf location).toList = [] :: location.map String.toList := by
  rw [toList_pathOf, Text.pieces_cons_of_separates (by simp),
    Text.pieces_intercalate (by simpa using nonempty) (by simp)]
  intro part member c inside
  obtain ⟨name, known, rfl⟩ := List.mem_map.mp member
  exact decide_eq_false fun slash => noSlash name known (slash ▸ inside)

theorem path_pieces (noSlash : ∀ name ∈ location, '/' ∉ name.toList) (nonempty : location ≠ []) :
    Path.pieces (pathOf location) = location.map String.toList := by
  rw [Path.pieces, isAbsolute_pathOf, if_pos rfl, pieces_pathOf noSlash nonempty, List.drop_one,
    List.tail_cons]

/-- What the path of a location says are the names of the location. -/
theorem components_pathOf (noSlash : ∀ name ∈ location, '/' ∉ name.toList)
    (notIdle : ∀ name ∈ location, Path.isIdle name.toList = false) :
    Path.components (pathOf location) = (true, location.map String.toList) := by
  cases location with
  | nil => rfl
  | cons name more =>
    rw [Path.components, isAbsolute_pathOf, if_pos rfl, path_pieces noSlash (List.cons_ne_nil _ _),
      List.filter_eq_self.mpr]
    intro piece member
    obtain ⟨known, inside, rfl⟩ := List.mem_map.mp member
    simp [notIdle known inside]

theorem Canonical.noSlash (canonical : Canonical fs location) :
    ∀ name ∈ location, '/' ∉ name.toList :=
  fun name known => (canonical.piece name known).1

theorem checkNames_pathOf (piece : ∀ name ∈ location, IsPiece name.toList) :
    checkNames (pathOf location) = .ok () := by
  refine checkNames_ok_iff.mpr ⟨fun nul => ?_, fun empty => ?_⟩
  · cases location with
    | nil => exact absurd nul (by decide)
    | cons name more =>
      obtain ⟨part, member, inside⟩ := Text.exists_piece (p := (· = '/')) nul (by decide)
      rw [pieces_pathOf (fun name known => (piece name known).1) (List.cons_ne_nil name more)] at member
      rcases List.mem_cons.mp member with rfl | member
      · cases inside
      · obtain ⟨known, among, rfl⟩ := List.mem_map.mp member
        exact (piece known among).2 inside
  · simpa [empty] using toList_pathOf location

theorem Canonical.checkNames (canonical : Canonical fs location) :
    checkNames (pathOf location) = .ok () :=
  checkNames_pathOf canonical.piece

theorem Canonical.trace (canonical : Canonical fs location) :
    fs.trace (pathOf location) = .ok location := by
  refine trace_ok_iff.mpr ⟨canonical.checkNames, ?_⟩
  rw [origin, isAbsolute_pathOf, if_pos rfl]
  cases location with
  | nil => rfl
  | cons name more =>
    rw [path_pieces canonical.noSlash (List.cons_ne_nil name more)]
    exact canonical.walked

/-- What a path leads to is canonical, if the working directory is. -/
theorem Canonical.of_trace (current : Canonical fs fs.current) (h : fs.trace path = .ok location) :
    Canonical fs location := by
  obtain ⟨checked, walked⟩ := trace_ok_iff.mp h
  have start : Canonical fs (fs.origin path) := by
    rw [origin]
    split
    · exact canonical_root
    · exact current
  exact start.walk (isPiece_of_mem_pieces (checkNames_ok_iff.mp checked).1) walked

theorem canonical_iff_trace : Canonical fs location ↔ fs.trace (pathOf location) = .ok location := by
  refine ⟨Canonical.trace, fun h => ?_⟩
  obtain ⟨checked, walked⟩ := trace_ok_iff.mp h
  rw [origin, isAbsolute_pathOf, if_pos rfl] at walked
  exact canonical_root.walk (isPiece_of_mem_pieces (checkNames_ok_iff.mp checked).1) walked

/-- A name that is joined to a directory is the last piece of the path. -/
theorem pieces_join (dir : String) {name : String} (noSlash : '/' ∉ name.toList) :
    ∃ front, Path.pieces (Path.join dir name) = front ++ [name.toList] := by
  have whole : Text.pieces (· = '/') name.toList = [name.toList] :=
    Text.pieces_of_forall fun c member => decide_eq_false fun slash => noSlash (slash ▸ member)
  have behindSlash (path : String) (front : List Char)
      (split : path.toList = front ++ '/' :: name.toList) :
      ∃ front, Path.pieces path = front ++ [name.toList] := by
    rw [Path.pieces, split, Text.pieces_append_of_separates (by simp), whole]
    obtain ⟨first, more, parts⟩ := List.exists_cons_of_ne_nil (Text.pieces_ne_nil (· = '/') front)
    rw [parts]
    split
    · exact ⟨more, rfl⟩
    · exact ⟨first :: more, rfl⟩
  have relative : Path.isAbsolute name = false :=
    decide_eq_false fun slash => noSlash (List.mem_of_mem_head? slash)
  rw [Path.join, relative]
  simp only [Bool.false_eq_true, false_or]
  split_ifs with direct last
  · rw [Path.pieces, relative, whole]
    exact ⟨[], rfl⟩
  · have split : dir.toList = dir.toList.dropLast ++ ['/'] :=
      (List.dropLast_append_getLast? _ last).symm
    refine behindSlash _ dir.toList.dropLast ?_
    rw [String.toList_append, split]
    simp
  · exact behindSlash _ dir.toList (by simp)

/-- A name that is joined to a directory is the last one on the way that its path leads. -/
theorem trace_join {dir name : String} (noSlash : '/' ∉ name.toList)
    (notIdle : Path.isIdle name.toList = false) (notUp : name.toList ≠ ['.', '.'])
    (h : fs.trace (Path.join dir name) = .ok location) : ∃ there, location = there ++ [name] := by
  obtain ⟨front, parts⟩ := pieces_join dir noSlash
  have walked := (trace_ok_iff.mp h).2
  rw [parts, walk_append, except_bind_ok_iff] at walked
  obtain ⟨there, -, step⟩ := walked
  rcases walk_single step with ⟨idle, -⟩ | ⟨up, -⟩ | ⟨-, -, same⟩
  · rw [notIdle] at idle
    cases idle
  · exact absurd up notUp
  · exact ⟨there, by rwa [String.ofList_toList] at same⟩

/-! ### Files -/

theorem canonicalFile?_eq_some_iff {canonical : String} :
    fs.canonicalFile? path = some canonical ↔ ∃ location content, fs.trace path = .ok location ∧
      fs.get? location = some (.file content) ∧ pathOf location = canonical := by
  rw [canonicalFile?]
  constructor
  · intro h
    split at h
    · next location traced =>
      split at h
      · next content found => exact ⟨location, content, traced, found, Option.some.inj h⟩
      · cases h
    · cases h
  · rintro ⟨location, content, traced, found, rfl⟩
    simp only [traced, found]

/-- The canonical path of a file that exists: some path leads to the file. -/
def IsCanonicalFile (fs : FileSystem) (canonical : String) : Prop :=
  ∃ path, fs.canonicalFile? path = some canonical

/-- A canonical path leads to its own file, if the working directory is canonical. -/
theorem isCanonicalFile_iff {canonical : String} (current : Canonical fs fs.current) :
    fs.IsCanonicalFile canonical ↔ fs.canonicalFile? canonical = some canonical := by
  refine ⟨fun ⟨path, h⟩ => ?_, fun h => ⟨canonical, h⟩⟩
  obtain ⟨location, content, traced, found, rfl⟩ := canonicalFile?_eq_some_iff.mp h
  exact canonicalFile?_eq_some_iff.mpr
    ⟨location, content, (current.of_trace traced).trace, found, rfl⟩

/-- What can be read is a file. -/
theorem isFile_of_readText {text : String} (h : fs.readText path = .ok text) :
    ∃ location content, fs.trace path = .ok location ∧
      fs.get? location = some (.file content) := by
  rw [readText, except_bind_ok_iff] at h
  obtain ⟨bytes, h, -⟩ := h
  rw [readBytes, except_bind_ok_iff] at h
  obtain ⟨location, resolved, h⟩ := h
  rw [resolve, except_bind_ok_iff] at resolved
  obtain ⟨-, -, traced⟩ := resolved
  split at h
  · next content found => exact ⟨location, content, traced, found⟩
  · cases h
  · cases h

/-- A path that says the same as the path of a canonical location leads to that location, if it
leads anywhere. -/
theorem Canonical.eq_of_same {other : Location} (canonical : Canonical fs location)
    (same : Path.same path (pathOf location)) (h : fs.trace path = .ok other) :
    other = location := by
  have parts : Path.components path = (true, location.map String.toList) := by
    rw [Path.same, decide_eq_true_eq] at same
    exact same.trans
      (components_pathOf canonical.noSlash canonical.notIdle)
  obtain ⟨absolute, pieces⟩ : Path.isAbsolute path = true ∧
      (Path.pieces path).filter (!Path.isIdle ·) = location.map String.toList := by
    rw [Path.components] at parts
    split at parts
    · next absolute => exact ⟨absolute, (Prod.mk.inj parts).2⟩
    · cases (Prod.mk.inj parts).1
  have walked := walk_filter (trace_ok_iff.mp h).2
  rw [origin, absolute, if_pos rfl, pieces, canonical.walked] at walked
  exact (Except.ok.inj walked).symm

end FileSystem

/-! ### Caches -/

namespace TemplateCache

variable {fs : FileSystem} {cache later : TemplateCache} {template : Template}

/-- Whether all templates of a cache are those of files that can be read. -/
def IsReadable (fs : FileSystem) (cache : TemplateCache) : Prop :=
  ∀ entry ∈ cache.entries, ∃ text, fs.readText entry.1 = .ok text

theorem isReadable_empty : empty.IsReadable fs :=
  nofun

/-- A template comes from an entry of the cache, or from a file that can be read and is noted. -/
theorem load_cases {path : String} {result : Except RenderError Template}
    (h : load fs path cache = (result, later)) :
    (later = cache ∧ ∀ template, result = .ok template →
      ∃ entry ∈ cache.entries, Path.same entry.1 path = true) ∨
    (∃ text template, fs.readText path = .ok text ∧
      later.entries = cache.entries ++ [(path, template)]) := by
  simp only [load, ExceptT.mk] at h
  split at h
  · next template found =>
    cases h
    rw [get?, Option.map_eq_some_iff] at found
    obtain ⟨entry, found, -⟩ := found
    have same : Path.same entry.1 path = true := by simpa using List.find?_some found
    exact .inl ⟨rfl, fun _ _ => ⟨entry, List.mem_of_find?_eq_some found, same⟩⟩
  · split at h
    · cases h
      exact .inl ⟨rfl, nofun⟩
    · next template parsed =>
      cases h
      rw [read] at parsed
      split at parsed
      · cases parsed
      · next text readable => exact .inr ⟨text, template, readable, rfl⟩

theorem IsReadable.load {path : String} {result : Except RenderError Template}
    (readable : cache.IsReadable fs) (h : TemplateCache.load fs path cache = (result, later)) :
    later.IsReadable fs := by
  rcases load_cases h with ⟨rfl, -⟩ | ⟨text, template, readText, entries⟩
  · exact readable
  · intro entry member
    rw [entries] at member
    rcases List.mem_append.mp member with old | new
    · exact readable entry old
    · rw [List.mem_singleton.mp new]
      exact ⟨text, readText⟩

/-- A template for a canonical path is that of a file. -/
theorem IsReadable.isCanonicalFile {location : Location} (readable : cache.IsReadable fs)
    (canonical : fs.Canonical location)
    (h : TemplateCache.load fs (FileSystem.pathOf location) cache = (.ok template, later)) :
    fs.IsCanonicalFile (FileSystem.pathOf location) := by
  obtain ⟨path, text, same, readText⟩ :
      ∃ path text, Path.same path (FileSystem.pathOf location) = true ∧
        fs.readText path = .ok text := by
    rcases load_cases h with ⟨rfl, cached⟩ | ⟨text, -, readText, -⟩
    · obtain ⟨entry, member, same⟩ := cached template rfl
      obtain ⟨text, readText⟩ := readable entry member
      exact ⟨entry.1, text, same, readText⟩
    · exact ⟨_, text, Path.same_self _, readText⟩
  obtain ⟨other, content, traced, found⟩ := FileSystem.isFile_of_readText readText
  obtain rfl := canonical.eq_of_same same traced
  exact ⟨_, FileSystem.canonicalFile?_eq_some_iff.mpr ⟨other, content, traced, found, rfl⟩⟩

end TemplateCache

/-- An include leads to the file that its path, seen from the directory of the template, leads to. -/
theorem IncludePath.locate_ok_iff {fs : FileSystem} {extension dir : String} {ctx : Context}
    {target : IncludePath} {found : fs.FilePath} :
    target.locate fs extension ctx dir = .ok found ↔
      ∃ asked, target.completePath extension ctx = .ok asked ∧
        fs.canonicalFile? (Path.join dir asked) = some found.1 := by
  rw [locate, except_bind_ok_iff]
  constructor
  · rintro ⟨asked, complete, located⟩
    refine ⟨asked, mapError_ok_iff.mp complete, ?_⟩
    simp only at located
    split at located
    · next path leads =>
      cases located
      exact leads
    · cases located
  · rintro ⟨asked, complete, leads⟩
    refine ⟨asked, mapError_ok_iff.mpr complete, ?_⟩
    simp only
    split
    · next path leads' =>
      obtain ⟨known, isFile⟩ := found
      cases leads'.symm.trans leads
      rfl
    · next missing => cases missing.symm.trans leads

namespace Include

variable {fs : FileSystem} {chain : List String} {cache later : TemplateCache}

theorem isCanonicalFile_of_resolve {extension dir : String} {ctx : Context} {target : Include}
    {found : Expansion fs chain}
    (h : target.resolve fs extension ctx dir chain cache = (.ok found, later)) :
    fs.IsCanonicalFile found.path := by
  rw [resolve, bind_ok_iff] at h
  obtain ⟨⟨path, isFile⟩, between, located, h⟩ := h
  have same : found.path = path := by
    simp only at h
    split at h
    · cases h
    · simp only [bind_ok_iff] at h
      obtain ⟨bindings, _, -, template, _, -, h⟩ := h
      cases h
      rfl
  rw [same]
  obtain ⟨asked, -, leads⟩ := IncludePath.locate_ok_iff.mp (lift_ok_iff.mp located).1
  exact ⟨_, leads⟩

end Include

end PromptScript
