import PromptScript.Proofs.Files.Replace

/-!
Files in directories that are there: where there is room for a file and for the temporary one beside it,
the file can be replaced, and its path leads to it.
-/
namespace PromptScript

open PromptScript.Computation

namespace FileSystem

variable {fs later : FileSystem} {location : Location} {name other : String}

/-- A name that a file can have. -/
structure IsName (name : String) : Prop where
  piece : IsPiece name.toList
  notIdle : Path.isIdle name.toList = false
  notUp : name.toList ≠ ['.', '.']
  short : name.utf8ByteSize ≤ maxName

instance (name : String) : Decidable (IsName name) :=
  decidable_of_iff (('/' ∉ name.toList ∧ '\x00' ∉ name.toList) ∧ Path.isIdle name.toList = false ∧
    name.toList ≠ ['.', '.'] ∧ name.utf8ByteSize ≤ maxName)
    ⟨fun ⟨piece, notIdle, notUp, short⟩ => ⟨piece, notIdle, notUp, short⟩,
      fun name => ⟨name.piece, name.notIdle, name.notUp, name.short⟩⟩

/-- What it takes so that a file can be written at a name, in a directory that is there. -/
structure IsRoom (fs : FileSystem) (location : Location) (name : String) : Prop extends
    IsName name where
  canonical : Canonical fs location
  directory : fs.get? location = some .directory
  fits : (pathOf (location ++ [name])).utf8ByteSize ≤ maxPath
  free : fs.get? (location ++ [name]) ≠ some .directory

theorem ne_nil_of_notIdle (notIdle : Path.isIdle name.toList = false) : name.toList ≠ [] := by
  intro nothing
  rw [nothing] at notIdle
  cases notIdle

theorem trimIdle_of_notIdle (notIdle : ∀ name ∈ location, Path.isIdle name.toList = false) :
    Path.trimIdle true (location.map String.toList) = location.map String.toList := by
  rw [Path.trimIdle, if_pos rfl]
  rcases List.eq_nil_or_concat location with rfl | ⟨init, last, rfl⟩
  · rfl
  · have idle := notIdle last (by simp)
    simp [idle]

/-- A name that is joined to the path of a directory is the path of what it names there. -/
theorem join_pathOf (canonical : Canonical fs location) (noSlash : '/' ∉ name.toList) :
    Path.join (pathOf location) name = pathOf (location ++ [name]) := by
  have relative : Path.isAbsolute name = false :=
    decide_eq_false fun slash => noSlash (List.mem_of_mem_head? slash)
  have rooted : (pathOf location).isEmpty = false := by
    have slash := toList_pathOf location
    rw [Bool.eq_false_iff, ne_eq, String.isEmpty_iff]
    intro empty
    simp [empty] at slash
  rw [Path.join, relative, rooted, if_neg (by decide)]
  rcases List.eq_nil_or_concat location with rfl | ⟨init, last, rfl⟩
  · rw [if_pos (by decide)]
    rfl
  · rw [List.concat_eq_append] at canonical ⊢
    have member : last ∈ init ++ [last] := List.mem_append_right _ List.mem_cons_self
    rw [getLast?_pathOf init (ne_nil_of_notIdle (canonical.notIdle last member)), if_neg,
      pathOf_append (List.concat_ne_nil _ _)]
    exact fun slash => canonical.noSlash last member (List.mem_of_getLast? slash)

namespace IsRoom

variable (room : fs.IsRoom location name)
include room

theorem forall_piece : ∀ part ∈ location ++ [name], IsPiece part.toList :=
  List.forall_mem_append.mpr ⟨room.canonical.piece, by simpa using room.piece⟩

theorem forall_notIdle : ∀ part ∈ location ++ [name], Path.isIdle part.toList = false :=
  List.forall_mem_append.mpr ⟨room.canonical.notIdle, by simpa using room.notIdle⟩

theorem pieces_eq : Path.pieces (pathOf (location ++ [name])) =
    location.map String.toList ++ [name.toList] := by
  rw [path_pieces (fun part known => (room.forall_piece part known).1) (by simp), List.map_append]
  rfl

theorem trimIdle_eq : Path.trimIdle true (Path.pieces (pathOf (location ++ [name]))) =
    location.map String.toList ++ [name.toList] := by
  have whole := trimIdle_of_notIdle room.forall_notIdle
  rw [List.map_append, List.map_singleton] at whole
  rw [room.pieces_eq, whole]

theorem parent? : Path.parent? (pathOf (location ++ [name])) = some (pathOf location) := by
  rw [Path.parent?, isAbsolute_pathOf, room.trimIdle_eq]
  split
  · next nothing => simp at nothing
  · next single =>
    obtain ⟨-, last⟩ := List.append_inj' (single.trans (List.nil_append [[]]).symm) rfl
    exact absurd (List.cons.inj last).1 (ne_nil_of_notIdle room.notIdle)
  · rw [List.dropLast_concat, trimIdle_of_notIdle room.canonical.notIdle, ofPieces_pathOf]

theorem fileName? : Path.fileName? (pathOf (location ++ [name])) = some name.toList := by
  rw [Path.fileName?, isAbsolute_pathOf, room.trimIdle_eq, List.getLast?_concat]
  simp [room.notIdle, room.notUp]

/-- The directory is found as the one that holds the file. -/
theorem makeParent : fs.makeParent (pathOf (location ++ [name])) = .ok fs := by
  have fits : (pathOf location).utf8ByteSize ≤ maxPath := by
    cases location with
    | nil => decide
    | cons first more =>
      have whole := room.fits
      rw [pathOf_append (List.cons_ne_nil first more), String.utf8ByteSize_append,
        String.utf8ByteSize_append] at whole
      omega
  have found : fs.resolve (pathOf location) = .ok location := by
    rw [resolve, checkPath_ok_iff.mpr ⟨room.canonical.checkNames, fits⟩]
    exact room.canonical.trace
  rw [FileSystem.makeParent, room.parent?]
  simp [pathExists, found, Except.toOption]

theorem temporaryPath? : temporaryPath? (pathOf (location ++ [name])) =
    some (pathOf (location ++ ["." ++ name ++ ".tmp"])) := by
  rw [FileSystem.temporaryPath?, room.fileName?, room.parent?]
  simp only [Option.map_some, Option.getD_some, String.ofList_toList]
  rw [join_pathOf room.canonical (by simpa using room.piece.1)]

theorem checkPath : checkPath (pathOf (location ++ [name])) = .ok () :=
  checkPath_ok_iff.mpr ⟨checkNames_pathOf room.forall_piece, room.fits⟩

theorem walk_directory : fs.walk [] (location.map String.toList ++ [['.']]) = .ok location := by
  rw [walk_append, room.canonical.walked]
  simp [FileSystem.walk, bind, Except.bind, room.directory, Path.isIdle]

theorem resolveEnd :
    fs.resolveEnd (pathOf (location ++ [name])) = .ok (location, .name name) := by
  have named : (location.map String.toList ++ [name.toList]).reverse.dropWhile (· = []) =
      name.toList :: (location.map String.toList).reverse := by
    simp [ne_nil_of_notIdle room.notIdle]
  rw [FileSystem.resolveEnd, room.checkPath, origin, isAbsolute_pathOf, if_pos rfl, room.pieces_eq]
  simp only [bind, Except.bind, named, List.reverse_reverse, room.walk_directory]
  rw [if_neg (by simp [room.notIdle, room.notUp]), String.ofList_toList,
    if_neg (Nat.not_lt.mpr room.short), if_pos (by simp)]
  rfl

/-- A file can be written where there is room for it. -/
theorem write (content : ByteArray) : fs.write (pathOf (location ++ [name])) content =
    .ok (fs.put (location ++ [name]) (.file content)) := by
  rw [FileSystem.write, openForWriting, room.resolveEnd]
  simp only [bind, Except.bind]
  split
  · next held =>
    split at held
    · next directory => exact absurd directory room.free
    · cases held
    · cases held
  · next found =>
    split at found <;> cases found <;> rfl

/-- There is still room where files were written or removed elsewhere. -/
theorem of_keeps (keeps : fs.Keeps later)
    (free : later.get? (location ++ [name]) ≠ some .directory) : later.IsRoom location name := by
  have canonical : Canonical later location :=
    { room.canonical with walked := (keeps.walk room.walk_directory).1 }
  exact { room with canonical, directory := keeps.directory location room.directory, free }

end IsRoom

/-- There is room in a directory that is all there is. -/
theorem isRoom_only {dir : String} (inside : IsName dir) (named : IsName name)
    (fits : (pathOf [dir, name]).utf8ByteSize ≤ maxPath) :
    (⟨[], [([dir], .directory)]⟩ : FileSystem).IsRoom [dir] name := by
  have directory : (⟨[], [([dir], .directory)]⟩ : FileSystem).get? [dir] = some .directory := by
    simp [get?]
  have walked : (⟨[], [([dir], .directory)]⟩ : FileSystem).walk [] [dir.toList] = .ok [dir] := by
    have root : (⟨[], [([dir], .directory)]⟩ : FileSystem).get? [] = some .directory := rfl
    simp [FileSystem.walk, root, directory, inside.notIdle, inside.notUp, Nat.not_lt.mpr inside.short]
  exact
    { named with
      canonical := ⟨by simpa using inside.piece, by simpa using inside.notIdle,
        by simpa using inside.notUp, walked⟩
      directory
      fits
      free := by simp [get?] }

/-- A file that was written where there is room can be moved to where there is room beside it. -/
theorem IsRoom.rename_put (room : fs.IsRoom location name) (beside : fs.IsRoom location other)
    (apart : name ≠ other) (content : ByteArray) :
    ∃ later, (fs.put (location ++ [other]) (.file content)).rename (pathOf (location ++ [other]))
        (pathOf (location ++ [name])) = .ok later ∧
      fs.Keeps later ∧ later.get? (location ++ [name]) = some (.file content) := by
  have named (name : String) : location ++ [name] ≠ [] := by simp
  have apart' : location ++ [name] ≠ location ++ [other] := by simpa using apart
  let written := fs.put (location ++ [other]) (.file content)
  let moved := (written.delete (location ++ [other])).put (location ++ [name]) (.file content)
  have keeps : fs.Keeps written := keeps_put (named other) beside.free
  have held : written.get? (location ++ [other]) = some (.file content) := by
    rw [get?_put (named other), if_pos rfl]
  have room' : written.IsRoom location name := room.of_keeps keeps <| by
    rw [get?_put (named other), if_neg apart']
    exact room.free
  have deleted : written.Keeps (written.delete (location ++ [other])) :=
    keeps_delete (named other) (by simp [held])
  have free : (written.delete (location ++ [other])).get? (location ++ [name]) ≠ some .directory := by
    rw [get?_delete (named other), if_neg apart']
    exact room'.free
  have source := keeps.resolve beside.resolveEnd held
  refine ⟨moved, ?_, keeps.trans (deleted.trans (keeps_put (named name) free)), ?_⟩
  · rw [rename, source, readBytes_ok_iff.mpr ⟨_, source, held⟩, room'.resolveEnd]
    simp only [bind, Except.bind]
    split
    · next directory => exact absurd directory room'.free
    · rw [if_neg apart']
      rfl
  · rw [get?_put (named name), if_pos rfl]

theorem ne_temporary (name : String) : name ≠ "." ++ name ++ ".tmp" := by
  intro same
  have size := congrArg String.length same
  have dot : ".".length = 1 := by decide
  simp only [String.length_append] at size
  omega

/-- A file can be replaced if there is room for it and for the temporary file. -/
theorem replace_of_isRoom (room : fs.IsRoom location name)
    (beside : fs.IsRoom location ("." ++ name ++ ".tmp")) (content : ByteArray) :
    ∃ later, fs.replace (pathOf (location ++ [name])) content = (.ok (), later) ∧
      later.canonicalize (pathOf (location ++ [name])) = .ok (pathOf (location ++ [name])) := by
  obtain ⟨moved, renamed, keeps, found⟩ := room.rename_put beside (ne_temporary name) content
  have target := keeps.resolve room.resolveEnd found
  rw [resolve, except_bind_ok_iff] at target
  obtain ⟨_, -, traced⟩ := target
  refine ⟨moved, ?_, ?_⟩
  · rw [replace, room.makeParent]
    simp only [room.temporaryPath?, beside.write, renamed]
  · rw [canonicalize, traced]
    rfl

end FileSystem

end PromptScript
