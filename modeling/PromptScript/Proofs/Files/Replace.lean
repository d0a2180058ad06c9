import PromptScript.Files.Replace
import PromptScript.Proofs.Files.Canonical

/-!
Files that are replaced: what was written is what the path leads to afterwards. What is done on the way
leaves all directories in place, so that the path still leads there.
-/
namespace PromptScript

open PromptScript.Computation

namespace FileSystem

variable {fs later : FileSystem} {location other dir : Location} {path name : String}
  {content : ByteArray} {entry : Entry}

/-! ### Entries -/

theorem get?_of_ne_nil (h : location ≠ []) :
    fs.get? location = (fs.entries.find? fun (l, _) => l == location).map (·.2) := by
  rw [get?, if_neg (by simpa using h)]

theorem get?_put (h : location ≠ []) : (fs.put location entry).get? other =
    if other = location then some entry else fs.get? other := by
  by_cases root : other = []
  · rw [if_neg (root ▸ h.symm), root]
    rfl
  rw [get?_of_ne_nil root, get?_of_ne_nil root, put]
  split
  · next held =>
    have same : ((fun (l, _) => l == other) ∘
        fun (l, e) => if l == location then (l, entry) else (l, e)) =
          fun ((l, _) : Location × Entry) => l == other := by
      funext ⟨l, e⟩
      simp only [Function.comp_apply]
      split <;> rfl
    rw [List.find?_map, same, Option.map_map]
    cases found : fs.entries.find? fun (l, _) => l == other with
    | none =>
      have apart : other ≠ location := by
        rintro rfl
        obtain ⟨old, member, here⟩ := List.any_eq_true.mp held
        exact List.find?_eq_none.mp found old member here
      rw [if_neg apart]
      rfl
    | some old =>
      obtain ⟨l, e⟩ := old
      obtain rfl : l = other := by simpa using List.find?_some found
      simp only [Option.map_some, Function.comp_apply, beq_iff_eq]
      split <;> rfl
  · next free =>
    rw [List.find?_append]
    rcases eq_or_ne other location with rfl | apart
    · have absent : fs.entries.find? (fun (l, _) => l == other) = none :=
        List.find?_eq_none.mpr fun old member here =>
          free (List.any_eq_true.mpr ⟨old, member, here⟩)
      rw [absent, Option.none_or, List.find?_cons_of_pos (by simp), if_pos rfl]
      rfl
    · simp [apart, apart.symm]

theorem get?_delete (h : location ≠ []) : (fs.delete location).get? other =
    if other = location then none else fs.get? other := by
  by_cases root : other = []
  · rw [if_neg (root ▸ h.symm), root]
    rfl
  rw [get?_of_ne_nil root, get?_of_ne_nil root, delete, List.find?_filter]
  by_cases same : other = location
  · rw [if_pos same, List.find?_eq_none.mpr, Option.map_none]
    rintro ⟨l, _⟩ - both
    simp_all
  · rw [if_neg same]
    congr 2
    funext ⟨l, _⟩
    by_cases here : l = other <;> simp [here, same]

/-- Another file system with the same working directory, and with all directories of this one. -/
structure Keeps (fs later : FileSystem) : Prop where
  current : later.current = fs.current
  directory : ∀ location, fs.get? location = some .directory → later.get? location = some .directory

theorem Keeps.trans {last : FileSystem} (first : fs.Keeps later) (second : later.Keeps last) :
    fs.Keeps last :=
  ⟨second.current.trans first.current, fun location h =>
    second.directory location (first.directory location h)⟩

theorem keeps_put (named : location ≠ []) (noDirectory : fs.get? location ≠ some .directory) :
    fs.Keeps (fs.put location entry) := by
  refine ⟨?_, fun there directory => ?_⟩
  · rw [put]
    split <;> rfl
  · have apart : there ≠ location := by
      rintro rfl
      exact noDirectory directory
    rw [get?_put named, if_neg apart]
    exact directory

theorem keeps_delete (named : location ≠ []) (noDirectory : fs.get? location ≠ some .directory) :
    fs.Keeps (fs.delete location) := by
  refine ⟨rfl, fun there directory => ?_⟩
  have apart : there ≠ location := by
    rintro rfl
    exact noDirectory directory
  rw [get?_delete named, if_neg apart]
  exact directory

/-! ### Paths -/

theorem get?_of_walk {piece : List Char} {rest : List (List Char)}
    (h : fs.walk location (piece :: rest) = .ok other) : fs.get? location = some .directory := by
  rw [walk] at h
  split at h
  · cases h
  · cases h
  · assumption

/-- The way to a directory stays open. -/
theorem Keeps.walk (keeps : fs.Keeps later) {pieces : List (List Char)}
    (h : fs.walk location (pieces ++ [['.']]) = .ok dir) :
    later.walk location pieces = .ok dir ∧ fs.get? dir = some .directory := by
  induction pieces generalizing location with
  | nil =>
    have directory := get?_of_walk h
    rcases walk_single h with ⟨-, rfl⟩ | ⟨up, -⟩ | ⟨notIdle, -⟩
    · exact ⟨rfl, directory⟩
    · cases up
    · cases notIdle
  | cons piece rest ih =>
    have directory := get?_of_walk h
    simp only [List.cons_append, FileSystem.walk, directory] at h
    simp only [FileSystem.walk, keeps.directory location directory]
    split_ifs at h with idle up long found
    · rw [if_pos idle]
      exact ih h
    · rw [if_neg idle, if_pos up]
      exact ih h
    · -- What is reached leads further, so that it is a directory.
      obtain ⟨next, more, further⟩ := List.exists_cons_of_ne_nil (by simp : rest ++ [['.']] ≠ [])
      have within := keeps.directory _ (get?_of_walk (further ▸ h))
      rw [if_neg idle, if_neg up, if_neg long, within, if_pos Option.isSome_some]
      exact ih h

/-- What it takes for a path to end in a name. -/
theorem resolveEnd_name (h : fs.resolveEnd path = .ok (dir, .name name)) :
    ∃ pieces last, name = .ofList last ∧ checkPath path = .ok () ∧
      Path.pieces path = pieces ++ [last] ∧
      fs.walk (fs.origin path) (pieces ++ [['.']]) = .ok dir ∧
      Path.isIdle last = false ∧ last ≠ ['.', '.'] ∧ name.utf8ByteSize ≤ maxName := by
  rw [resolveEnd, except_bind_ok_iff] at h
  obtain ⟨_, checked, h⟩ := h
  simp only at h
  split at h
  · cases h
  · next last rest named =>
    obtain ⟨there, walked, h⟩ := except_bind_ok_iff.mp h
    split_ifs at h with step long whole <;> cases h
    obtain ⟨notIdle, notUp⟩ := not_or.mp step
    have unslashed : (Path.pieces path).reverse = last :: rest :=
      named ▸ ((List.dropWhile_suffix _).eq_of_length whole.symm).symm
    refine ⟨rest.reverse, last, rfl, checked, ?_, walked, by simpa using notIdle, notUp,
      Nat.le_of_not_lt long⟩
    rw [← List.reverse_cons, ← unslashed, List.reverse_reverse]

/-- A path that ends in a name leads there once there is something. -/
theorem Keeps.resolve (keeps : fs.Keeps later) (ends : fs.resolveEnd path = .ok (dir, .name name))
    (found : later.get? (dir ++ [name]) = some entry) : later.resolve path = .ok (dir ++ [name]) := by
  obtain ⟨pieces, last, rfl, checked, whole, walked, notIdle, notUp, short⟩ := resolveEnd_name ends
  obtain ⟨arrives, directory⟩ := keeps.walk walked
  have start : later.origin path = fs.origin path := by rw [origin, origin, keeps.current]
  have step : later.walk dir [last] = .ok (dir ++ [.ofList last]) := by
    simp only [FileSystem.walk, keeps.directory dir directory]
    rw [if_neg (by simp [notIdle]), if_neg notUp, if_neg (Nat.not_lt.mpr short), found,
      if_pos Option.isSome_some]
  have names : checkNames path = .ok () := by
    rw [checkPath, except_bind_ok_iff] at checked
    exact checked.choose_spec.1
  rw [FileSystem.resolve, checked]
  refine trace_ok_iff.mpr ⟨names, ?_⟩
  rw [start, whole, walk_append, arrives]
  exact step

theorem readBytes_ok_iff : fs.readBytes path = .ok content ↔
    ∃ location, fs.resolve path = .ok location ∧ fs.get? location = some (.file content) := by
  rw [readBytes, except_bind_ok_iff]
  refine exists_congr fun location => and_congr_right fun _ => ?_
  split <;> simp_all [except_pure_ok_iff]

theorem readText_toUTF8 {text : String} (h : fs.readBytes path = .ok text.toUTF8) :
    fs.readText path = .ok text := by
  have valid : text.toUTF8.IsValidUTF8 := text.isValidUTF8
  have decoded : String.fromUTF8? text.toUTF8 = some text := by
    rw [String.fromUTF8?, dif_pos valid]
    rfl
  rw [readText, h]
  simp only [bind, Except.bind, decoded]
  rfl

/-! ### Changes -/

theorem write_ok (h : fs.write path content = .ok later) : ∃ dir name,
    fs.resolveEnd path = .ok (dir, .name name) ∧ fs.get? (dir ++ [name]) ≠ some .directory ∧
      later = fs.put (dir ++ [name]) (.file content) := by
  rw [write, except_bind_ok_iff] at h
  obtain ⟨⟨location, old⟩, opened, h⟩ := h
  cases h
  rw [openForWriting, except_bind_ok_iff] at opened
  obtain ⟨ends, resolved, opened⟩ := opened
  split at opened
  · cases opened
  · cases opened
  · next dir name =>
    refine ⟨dir, name, resolved, ?_⟩
    split at opened <;> cases opened
    · next held => simp [held]
    · next free => simp [free]

/-- Both ends of a move: what is moved, and the place that it takes. -/
theorem rename_ok {source target : String} (h : fs.rename source target = .ok later) :
    ∃ location content dir name, fs.resolve source = .ok location ∧
      fs.get? location = some (.file content) ∧ fs.resolveEnd target = .ok (dir, .name name) ∧
      fs.get? (dir ++ [name]) ≠ some .directory ∧
      later = if dir ++ [name] = location then fs
        else (fs.delete location).put (dir ++ [name]) (.file content) := by
  rw [rename, except_bind_ok_iff] at h
  obtain ⟨location, resolved, h⟩ := h
  obtain ⟨content, held, h⟩ := except_bind_ok_iff.mp h
  obtain ⟨there, resolved', found⟩ := readBytes_ok_iff.mp held
  cases resolved.symm.trans resolved'
  obtain ⟨ends, ended, h⟩ := except_bind_ok_iff.mp h
  split at h
  · cases h
  · cases h
  · next dir name =>
    refine ⟨location, content, dir, name, resolved, found, ended, ?_⟩
    split at h
    · cases h
    · next noDirectory =>
      refine ⟨noDirectory, ?_⟩
      split_ifs at h ⊢ <;> cases h <;> rfl

/-- A file that was written can be read. -/
theorem readBytes_write (h : fs.write path content = .ok later) :
    later.readBytes path = .ok content := by
  obtain ⟨dir, name, ends, noDirectory, rfl⟩ := write_ok h
  have named : dir ++ [name] ≠ [] := by simp
  have found : (fs.put (dir ++ [name]) (.file content)).get? (dir ++ [name]) =
      some (.file content) := by
    rw [get?_put named, if_pos rfl]
  exact readBytes_ok_iff.mpr ⟨_, (keeps_put named noDirectory).resolve ends found, found⟩

/-- A file that was moved can be read at its new place. -/
theorem readBytes_rename {source target : String} (h : fs.rename source target = .ok later)
    (held : fs.readBytes source = .ok content) : later.readBytes target = .ok content := by
  obtain ⟨location, content', dir, name, resolved, found, ends, noDirectory, rfl⟩ := rename_ok h
  obtain ⟨there, resolved', found'⟩ := readBytes_ok_iff.mp held
  cases resolved.symm.trans resolved'
  cases found.symm.trans found'
  have named : dir ++ [name] ≠ [] := by simp
  split_ifs with same
  · have here : fs.get? (dir ++ [name]) = some (.file content) := same ▸ found
    exact readBytes_ok_iff.mpr ⟨_, Keeps.resolve ⟨rfl, fun _ => id⟩ ends here, here⟩
  · have inside : location ≠ [] := by
      rintro rfl
      cases found
    have deleted : fs.Keeps (fs.delete location) := keeps_delete inside (by simp [found])
    have free : (fs.delete location).get? (dir ++ [name]) ≠ some .directory := by
      rwa [get?_delete inside, if_neg same]
    have here : ((fs.delete location).put (dir ++ [name]) (.file content)).get? (dir ++ [name]) =
        some (.file content) := by
      rw [get?_put named, if_pos rfl]
    exact readBytes_ok_iff.mpr ⟨_, (deleted.trans (keeps_put named free)).resolve ends here, here⟩

/-- A file that was replaced holds what replaced it. -/
theorem readBytes_replace (h : fs.replace path content = (.ok (), later)) :
    later.readBytes path = .ok content := by
  rw [replace] at h
  split at h
  · cases h
  · split at h
    · cases h
    · split at h
      · cases h
      · next written wrote =>
        split at h
        · next moved renamed =>
          cases h
          exact readBytes_rename renamed (readBytes_write wrote)
        · cases h

end FileSystem

end PromptScript
