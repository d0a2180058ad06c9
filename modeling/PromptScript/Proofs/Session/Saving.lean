import PromptScript.Proofs.Files.Replace
import PromptScript.Proofs.Value.Outline
import PromptScript.Session.State

/-!
Sessions that are saved and loaded again. A state is read back from its file as it was, if its text does
not nest more lists and mappings than may be read; otherwise it is not read at all.
-/
namespace PromptScript

open Value

variable {space before after : List Char} {layout : Nat → Value → List Char} {depth : Nat}

theorem mapM_of_forall₂ {α β : Type} {f : β → Option α} {fits : α → Prop} [DecidablePred fits]
    {items : List α} {texts : List β}
    (reads : List.Forall₂ (fun item text => f text = if fits item then some item else none)
      items texts) :
    texts.mapM f = if ∀ item ∈ items, fits item then some items else none := by
  induction reads with
  | nil => rfl
  | @cons item text items texts read _ ih =>
    have whole : (∀ x ∈ item :: items, fits x) ↔ fits item ∧ ∀ x ∈ items, fits x :=
      List.forall_mem_cons
    rw [List.mapM_cons, read, ih]
    by_cases here : fits item
    · by_cases later : ∀ x ∈ items, fits x
      · rw [if_pos here, if_pos later, if_pos (whole.mpr ⟨here, later⟩)]
        rfl
      · rw [if_pos here, if_neg later, if_neg fun all => later (whole.mp all).2]
        rfl
    · rw [if_neg here, if_neg fun all => here (whole.mp all).1]
      rfl

/-- The fields of a record that was written with all its names, and no others. -/
theorem Outline.fields?_fieldsOf (entries : Mapping) (distinct : (Mapping.keys entries).Nodup)
    (text : Value → List Char) :
    (Outline.record (fieldsOf text entries)).fields? (Mapping.keys entries) =
      some (fieldsOf text entries) := by
  have names : (fieldsOf text entries).map (·.1) = Mapping.keys entries := by
    rw [fieldsOf, List.map_map]
    rfl
  have all : (fieldsOf text entries).filter (fun field => (Mapping.keys entries).contains field.1) =
      fieldsOf text entries := by
    refine List.filter_eq_self.mpr fun field member => List.contains_iff_mem.mpr ?_
    exact names ▸ List.mem_map_of_mem member
  simp only [fields?, all, names, if_pos distinct]

/-- A record that was written with all its names is taken apart into its fields, and each of these is
read back unless it nests too deep. -/
theorem Outline.ofText?_fieldsOf (lays : Lays space layout) {limit : Nat} {entries : Mapping}
    (plain : Plain limit (.map entries)) (level : Nat) (blank : ∀ c ∈ before, isJsonBlank c = true)
    (blank' : ∀ c ∈ after, isJsonBlank c = true) :
    ∃ outline, Outline.ofText? (before ++ (layout level (.map entries) ++ after)) = some outline ∧
      outline.fields? (Mapping.keys entries) =
        some (fieldsOf (space ++ layout (level + 1) ·) entries) ∧
      ∀ entry ∈ entries, ∀ depth, ofTextWithin? depth (space ++ layout (level + 1) entry.2) =
        if entry.2.nesting ≤ depth then some entry.2 else none := by
  cases plain with
  | map distinct fields =>
    refine ⟨_, Outline.ofText?_map lays fields level blank blank',
      Outline.fields?_fieldsOf entries distinct _, fun entry member depth => ?_⟩
    have read := ofTextWithin?_laid lays (fields entry member) depth (level + 1) lays.blank
      (List.forall_mem_nil _)
    rwa [List.append_nil] at read

/-! ### Calls -/

namespace ToolCall

variable {call : ToolCall}

def record (call : ToolCall) : Mapping :=
  [("name", .str call.name), ("args", .list call.args), ("result", call.result)]

theorem nesting_toValue_le : call.toValue.nesting ≤ depth + 1 ↔
    (Value.list call.args).nesting ≤ depth ∧ call.result.nesting ≤ depth := by
  rw [toValue, nesting_map_le]
  simp [nesting_of_isScalar (v := .str call.name) rfl]

/-- A call is read back, wherever it stands, unless what it was given or gave back nests too deep. -/
theorem ofText?_laid (lays : Lays space layout) {limit : Nat} (plain : Plain limit call.toValue)
    (level : Nat) (blank : ∀ c ∈ before, isJsonBlank c = true) :
    ofText? depth (before ++ layout level call.toValue) =
      if call.toValue.nesting ≤ depth + 1 then some call else none := by
  have whole : Plain limit (.map call.record) := plain
  obtain ⟨outline, outlined, fields, part⟩ :=
    Outline.ofText?_fieldsOf lays whole level blank (List.forall_mem_nil _)
  rw [List.append_nil] at outlined
  have known : outline.fields? fieldNames = _ := fields
  have name := part ("name", .str call.name) (by simp [record]) depth
  have args := part ("args", .list call.args) (by simp [record]) depth
  have result := part ("result", call.result) (by simp [record]) depth
  have single : (Value.str call.name).nesting ≤ depth := Nat.zero_le depth
  rw [if_pos single] at name
  simp only [nesting_toValue_le]
  unfold ofText?
  rw [toValue, ← record, outlined]
  simp only [Option.bind_eq_bind, Option.bind_some, known]
  simp only [Outline.fieldsOf, record, List.map_cons, List.map_nil, List.lookup, String.reduceBEq,
    BEq.rfl, Option.bind_some, name, args, result]
  by_cases fits : (Value.list call.args).nesting ≤ depth
  · by_cases fits' : call.result.nesting ≤ depth
    · simp only [fits, fits', and_self, if_true]
      rfl
    · simp only [fits, fits', and_false, if_true, if_false]
      rfl
  · simp only [fits, false_and, if_false]
    rfl

end ToolCall

/-! ### States -/

theorem Value.strings?_map (strings : List String) :
    (Value.list (strings.map .str)).strings? = some strings := by
  simp only [strings?, items?, Option.bind_eq_bind, Option.bind_some]
  induction strings with
  | nil => rfl
  | cons first others ih =>
    rw [List.map_cons, List.mapM_cons, ih]
    rfl

theorem Value.nesting_strings_le (strings : List String) :
    (Value.list (strings.map .str)).nesting ≤ depth + 1 :=
  nesting_list_le.mpr (List.forall_mem_map.mpr fun _ _ => Nat.zero_le depth)

namespace SessionState

variable {s : SessionState}

def record (s : SessionState) : Mapping :=
  [("variables", .map s.vars), ("tools", .list (s.tools.map .str)),
    ("buffer", .list (s.buffer.map .str)), ("turn", .int s.turn),
    ("pending_tool_calls", .list (s.pendingCalls.map ToolCall.toValue))]

theorem calls?_laid (lays : Lays space layout) {limit : Nat} {calls : List ToolCall}
    (plain : Plain limit (.list (calls.map ToolCall.toValue))) (level : Nat)
    (blank : ∀ c ∈ before, isJsonBlank c = true) :
    calls? (before ++ layout level (.list (calls.map ToolCall.toValue))) =
      if (Value.list (calls.map ToolCall.toValue)).nesting ≤ maxDepth - 1 then some calls
      else none := by
  obtain ⟨limit, items⟩ : ∃ n, ∀ call ∈ calls, Plain n call.toValue := by
    cases plain with
    | list items => exact ⟨_, List.forall_mem_map.mp items⟩
  obtain ⟨blanks, between, outline⟩ := Outline.ofText?_list lays (List.forall_mem_map.mpr items) level
    blank (List.forall_mem_nil _)
  rw [List.append_nil] at outline
  have reads : List.Forall₂ (fun call text => ToolCall.ofText? (maxDepth - 3) text =
      if call.toValue.nesting ≤ maxDepth - 3 + 1 then some call else none) calls
      (spaced blanks (calls.map fun call => layout (level + 1) call.toValue)) :=
    forall₂_spaced
      (fun call member =>
        ToolCall.ofText?_laid lays (items call member) (level + 1) (List.forall_mem_nil _))
      fun call member => ToolCall.ofText?_laid lays (items call member) (level + 1) between
  rw [List.map_map] at outline
  have fits : (Value.list (calls.map ToolCall.toValue)).nesting ≤ maxDepth - 1 ↔
      ∀ call ∈ calls, call.toValue.nesting ≤ maxDepth - 3 + 1 :=
    nesting_list_le.trans List.forall_mem_map
  simp only [calls?, outline, Option.bind_eq_bind, Option.bind_some, fits]
  exact mapM_of_forall₂ reads

theorem nesting_toValue_le : s.toValue.nesting ≤ maxDepth ↔
    (Value.map s.vars).nesting ≤ maxDepth - 1 ∧
      (Value.list (s.pendingCalls.map ToolCall.toValue)).nesting ≤ maxDepth - 1 := by
  have split : s.toValue.nesting ≤ maxDepth ↔ ∀ field ∈ s.record, field.2.nesting ≤ maxDepth - 1 :=
    nesting_map_le
  have tools : (Value.list (s.tools.map .str)).nesting ≤ maxDepth - 1 := nesting_strings_le s.tools
  have buffer : (Value.list (s.buffer.map .str)).nesting ≤ maxDepth - 1 := nesting_strings_le s.buffer
  have turn : (Value.int s.turn).nesting ≤ maxDepth - 1 := Nat.zero_le _
  rw [split]
  simp [record, tools, buffer, turn]

/-- A state is read back from its text, unless that nests too deep. -/
theorem ofText?_toText {limit : Nat} (plain : Plain limit s.toValue) (turn : s.turn ≤ maxTurn) :
    ofText? s.toText = if s.toValue.nesting ≤ maxDepth then some s else none := by
  have whole : Plain limit (.map s.record) := plain
  obtain ⟨outline, outlined, fields, part⟩ :=
    Outline.ofText?_fieldsOf pretty_lays whole 0 (List.forall_mem_nil _)
      (List.forall_mem_singleton.mpr (rfl : isJsonBlank '\n' = true))
  have text : s.toText.toList = [] ++ (pretty 0 (.map s.record) ++ ['\n']) := by
    simp [toText, toPrettyText, toValue, record]
  have known : outline.fields? fieldNames = _ := fields
  have vars := part ("variables", .map s.vars) (by simp [record]) (maxDepth - 1)
  have tools := (part ("tools", .list (s.tools.map .str)) (by simp [record]) (maxDepth - 1)).trans
    (if_pos (nesting_strings_le s.tools))
  have buffer := (part ("buffer", .list (s.buffer.map .str)) (by simp [record]) (maxDepth - 1)).trans
    (if_pos (nesting_strings_le s.buffer))
  have count := (part ("turn", .int s.turn) (by simp [record]) (maxDepth - 1)).trans
    (if_pos (Nat.zero_le _))
  obtain ⟨_, pending⟩ : ∃ n, Plain n (.list (s.pendingCalls.map ToolCall.toValue)) := by
    cases whole with
    | map _ values => exact ⟨_, values ("pending_tool_calls", _) (by simp [record])⟩
  have calls := calls?_laid pretty_lays pending 1 pretty_lays.blank
  unfold ofText?
  rw [text, outlined]
  simp only [Option.bind_eq_bind, Option.bind_some, known, nesting_toValue_le]
  simp only [Outline.fieldsOf, record, List.map_cons, List.map_nil, List.lookup, String.reduceBEq,
    BEq.rfl, Option.bind_some, vars, tools, buffer, count, calls, Value.strings?_map]
  have small : (0 : Int) ≤ s.turn ∧ (s.turn : Int) ≤ maxTurn :=
    ⟨Int.natCast_nonneg _, Int.ofNat_le.mpr turn⟩
  simp only [Value.int, small, and_self, if_true, Int.toNat_natCast]
  by_cases fits : (Value.map s.vars).nesting ≤ maxDepth - 1
  · by_cases fits' : (Value.list (s.pendingCalls.map ToolCall.toValue)).nesting ≤ maxDepth - 1
    · simp only [fits, fits', and_self, if_true]
      rfl
    · simp only [fits, fits', and_false, if_true, if_false]
      rfl
  · simp only [fits, false_and, if_false]
    rfl

theorem load_of_readText {fs : FileSystem} {path text : String} (h : fs.readText path = .ok text) :
    load fs path = (ofText? text).elim (.error (.malformed path)) .ok := by
  rw [load, h]
  simp only [Except.mapError, bind, Except.bind]
  cases ofText? text <;> rfl

/-- A state without floating-point numbers is read back as it was, from its text and from a file that
it was saved to, if it has at most as many levels of lists and mappings as a text may have. If it has
more, nothing is read. -/
theorem load_save {limit : Nat} (plain : Plain limit s.toValue) (turn : s.turn ≤ maxTurn) :
    ofText? s.toText = (if s.toValue.nesting ≤ maxDepth then some s else none) ∧
    ∀ (fs saved : FileSystem) (path : String), s.save fs path = (.ok (), saved) →
      load saved path =
        if s.toValue.nesting ≤ maxDepth then .ok s else .error (.malformed path) := by
  have read := ofText?_toText plain turn
  refine ⟨read, fun fs saved path h => ?_⟩
  have text : saved.readText path = .ok s.toText :=
    FileSystem.readText_toUTF8 (FileSystem.readBytes_replace h)
  rw [load_of_readText text, read]
  split_ifs <;> rfl

theorem load_save_extremes :
    let s : SessionState := ⟨[("b", .list [.int (-2 ^ 63), .int (2 ^ 64 - 1)]), ("a", .map [])],
      ["search"], ["\"\\\n\t"], 3, [⟨"add", [.null], .bool true⟩]⟩
    let saved : FileSystem := ⟨[], [(["s"], .file s.toText.toUTF8)]⟩
    s.save ⟨[], []⟩ "s" = (.ok (), saved) ∧ ofText? s.toText = some s ∧ load saved "s" = .ok s := by
  intro s saved
  have numbers : Plain 2 (.list [.int (-2 ^ 63), .int (2 ^ 64 - 1)]) :=
    .list (by simpa using ⟨.int (by decide), .int (by decide)⟩)
  have vars : Plain 3 (.map s.vars) :=
    .map (by decide) (by simpa [s] using ⟨numbers, .map (by decide) (List.forall_mem_nil _)⟩)
  have strings (string : String) : Plain 3 (.list [.str string]) :=
    .list (by simpa using .str string)
  have call : Plain 2 (ToolCall.toValue ⟨"add", [.null], .bool true⟩) :=
    .map (by decide) (by simpa using ⟨.str "add", .list (by simpa using .null), .bool true⟩)
  have calls : Plain 3 (.list (s.pendingCalls.map ToolCall.toValue)) :=
    .list (by simpa [s] using call)
  have plain : Plain 4 s.toValue :=
    .map (by decide)
      (by simpa [s] using ⟨vars, strings "search", strings _, .int (by decide), calls⟩)
  have replaced (content : ByteArray) : (⟨[], []⟩ : FileSystem).replace "s" content =
      (.ok (), ⟨[], [(["s"], .file content)]⟩) := by cbv
  have shallow : s.toValue.nesting ≤ maxDepth := by decide
  obtain ⟨parsed, loaded⟩ := load_save plain (by decide : 3 ≤ maxTurn)
  rw [if_pos shallow] at parsed
  exact ⟨replaced _, parsed, (loaded ⟨[], []⟩ saved "s" (replaced _)).trans (if_pos shallow)⟩

end SessionState

end PromptScript
