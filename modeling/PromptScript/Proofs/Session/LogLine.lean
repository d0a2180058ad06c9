import PromptScript.Proofs.Session.Saving
import PromptScript.Session.Log

/-!
The lines of a log. No control character stands in compact text, so that the only newlines of a log are
those that end its lines; and each line is read back as the event that it was written for.
-/
namespace PromptScript

open Value Text

variable {c : Char} {depth : Nat} {v : Value} {time : String} {e : Event}

/-! ### Compact text is on one line -/

theorem le_of_mem_escape {d : Char} (member : d ∈ escape c) : 0x20 ≤ d.toNat := by
  have hex (n : Nat) : 0x20 ≤ (hexDigit n).toNat := by
    have small : ∀ m < 16, 0x20 ≤ ((Nat.toDigits 16 m).headD '0').toNat := by decide
    exact small (n % 16) (Nat.mod_lt n (by decide))
  unfold escape at member
  -- A character that is written as it is, is no control character; every escape is of visible ones.
  split_ifs at member with _ _ _ _ _ _ _ control
  case neg =>
    obtain rfl := List.mem_singleton.mp member
    exact Nat.le_of_not_lt control
  all_goals simp only [List.mem_cons, List.not_mem_nil, or_false] at member
  any_goals obtain rfl | rfl := member <;> simp
  obtain rfl | rfl | rfl | rfl | rfl | rfl := member
  all_goals first | exact hex _ | simp

theorem le_of_mem_quote {s : String} (member : c ∈ quote s) : 0x20 ≤ c.toNat := by
  rw [quote, List.mem_append, List.mem_cons, List.mem_singleton, List.mem_flatMap] at member
  rcases member with (rfl | ⟨_, _, escaped⟩) | rfl
  · simp
  · exact le_of_mem_escape escaped
  · simp

theorem le_of_mem_int {n : Int} (member : c ∈ (Number.int n).text.toList) : 0x20 ≤ c.toNat := by
  rw [Number.text, String.toList_ofList, List.mem_append] at member
  rcases member with sign | digits
  · split at sign
    · obtain rfl := List.mem_singleton.mp sign
      simp
    · cases sign
  · have digit := isDigit_of_mem_toDigits digits
    simp only [Char.isDigit, Bool.and_eq_true, decide_eq_true_eq] at digit
    exact Nat.le_trans (by decide) digit.1

/-- No control character stands in compact text. -/
theorem le_of_mem_compact (plain : Plain depth v) : ∀ c ∈ v.compact, 0x20 ≤ c.toNat := by
  have enclosed {opening closing : Char} {texts : List (List Char)} (opens : 0x20 ≤ opening.toNat)
      (closes : 0x20 ≤ closing.toNat) (each : ∀ text ∈ texts, ∀ c ∈ text, 0x20 ≤ c.toNat) :
      ∀ c ∈ opening :: [','].intercalate texts ++ [closing], 0x20 ≤ c.toNat := by
    have inside : ∀ c ∈ [','].intercalate texts, 0x20 ≤ c.toNat :=
      intercalate_induction (q := fun text => ∀ c ∈ text, 0x20 ≤ c.toNat) (List.forall_mem_nil _)
        (fun front back => List.forall_mem_append.mpr ⟨front, back⟩) (by simp) each
    exact List.forall_mem_append.mpr
      ⟨List.forall_mem_cons.mpr ⟨opens, inside⟩, List.forall_mem_singleton.mpr closes⟩
  induction plain with
  | null => simp [compact, scalarText]
  | bool b => cases b <;> simp [compact, scalarText]
  | int => exact fun c => le_of_mem_int
  | str s => exact fun c => le_of_mem_quote
  | list _ ih =>
    rw [compact, compactItems_eq]
    exact enclosed (by simp) (by simp) (List.forall_mem_map.mpr ih)
  | map _ _ ih =>
    rw [compact, compactEntries_eq]
    refine enclosed (by simp) (by simp) (List.forall_mem_map.mpr fun entry member => ?_)
    have value : ∀ c ∈ ':' :: ([] ++ compact entry.2), 0x20 ≤ c.toNat :=
      List.forall_mem_cons.mpr ⟨by simp, ih entry member⟩
    exact List.forall_mem_append.mpr ⟨fun c => le_of_mem_quote, value⟩

theorem not_mem_newline_compact (plain : Plain depth v) : '\n' ∉ v.compact := fun member =>
  absurd (le_of_mem_compact plain '\n' member) (by decide)

/-! ### Lines -/

theorem EventKind.ofName?_name (kind : EventKind) : ofName? kind.name = some kind := by
  cases kind <;> decide

namespace Event

def record (time : String) (e : Event) : Mapping :=
  [("ts", .str time), ("kind", .str e.kind.name), ("turn", .int e.turn), ("details", e.details)]

theorem line_eq (time : String) (e : Event) : e.line time = (Value.map (e.record time)).toText :=
  rfl

theorem toList_line (time : String) (e : Event) :
    (e.line time).toList = (Value.map (e.record time)).compact :=
  String.toList_ofList

theorem plain_record (time : String) (plain : Plain depth e.details) (turn : e.turn ≤ SessionState.maxTurn) :
    Plain (depth + 1) (.map (e.record time)) := by
  have fits : fitsInteger e.turn = true := by
    simp only [SessionState.maxTurn] at turn
    simp only [fitsInteger, Bool.and_eq_true, decide_eq_true_eq]
    omega
  refine .map (by simp [Mapping.keys, record]) ?_
  simpa [record] using ⟨.str time, .str e.kind.name, .int fits, plain⟩

/-- A line is read back as the event that it was written for. -/
theorem ofText?_line (plain : Plain (maxDepth - 1) e.details) (turn : e.turn ≤ SessionState.maxTurn) :
    ofText? (e.line time).toList = some (time, e) := by
  -- The line is outlined first; then each field is read within the levels that the line leaves to it.
  obtain ⟨outline, outlined, fields, part⟩ :=
    Outline.ofText?_fieldsOf compact_lays (plain_record time plain turn) 0
      (List.forall_mem_nil _) (List.forall_mem_nil _)
  rw [List.append_nil, List.nil_append, ← toList_line] at outlined
  have known : outline.fields? fieldNames = _ := fields
  have read (entry : String × Value) (member : entry ∈ e.record time)
      (fits : entry.2.nesting ≤ maxDepth - 1) :
      ofTextWithin? (maxDepth - 1) ([] ++ entry.2.compact) = some entry.2 :=
    (part entry member (maxDepth - 1)).trans (if_pos fits)
  have ts := read ("ts", .str time) (by simp [record]) (Nat.zero_le _)
  have kind := read ("kind", .str e.kind.name) (by simp [record]) (Nat.zero_le _)
  have count := read ("turn", .int e.turn) (by simp [record]) (Nat.zero_le _)
  have details := read ("details", e.details) (by simp [record]) (nesting_le plain)
  have small : (0 : Int) ≤ e.turn ∧ (e.turn : Int) ≤ SessionState.maxTurn :=
    ⟨Int.natCast_nonneg _, Int.ofNat_le.mpr turn⟩
  unfold ofText?
  rw [outlined]
  simp only [Option.bind_eq_bind, Option.bind_some, known]
  simp only [Outline.fieldsOf, record, List.map_cons, List.map_nil, List.lookup, String.reduceBEq,
    BEq.rfl, Option.bind_some, ts, kind, count, details, EventKind.ofName?_name]
  simp only [Value.int, small, and_self, if_true, Int.toNat_natCast]
  rfl

end Event

/-! ### Logs -/

/-- The events of a log within what can be read back: details without floating-point numbers that nest no
deeper than the line allows. -/
def IsReadableLog (events : List (String × Event)) : Prop :=
  ∀ entry ∈ events, Plain (maxDepth - 1) entry.2.details ∧ entry.2.turn ≤ SessionState.maxTurn

theorem toList_logText (events : List (String × Event)) : (logText events).toList =
    (events.map fun (time, e) => (e.line time).toList).flatMap (· ++ ['\n']) := by
  induction events with
  | nil => rfl
  | cons entry rest ih =>
    rw [List.map_cons, List.flatMap_cons, ← ih]
    simp [logText, String.join_cons]

theorem logText_append (events more : List (String × Event)) :
    logText (events ++ more) = logText events ++ logText more := by
  simp [logText, String.join_append]

theorem count_flatMap_newline {lines : List (List Char)} (single : ∀ line ∈ lines, '\n' ∉ line) :
    (lines.flatMap (· ++ ['\n'])).count '\n' = lines.length := by
  induction lines with
  | nil => rfl
  | cons line rest ih =>
    obtain ⟨here, others⟩ := List.forall_mem_cons.mp single
    simp [List.count_append, List.count_eq_zero.mpr here, ih others]

/-- A log has one line for each event: it is lines without newlines, each followed by one, of which each is
read back as its event. What is written later stands behind what was written before. -/
theorem logText_lines {events : List (String × Event)} (readable : IsReadableLog events) :
    (logText events).toList.count '\n' = events.length ∧
    (∃ lines : List (List Char), (logText events).toList = lines.flatMap (· ++ ['\n']) ∧
      (∀ line ∈ lines, '\n' ∉ line) ∧
      List.Forall₂ (fun line entry => Event.ofText? line = some entry) lines events) ∧
    ∀ more, logText (events ++ more) = logText events ++ logText more := by
  have single : ∀ line ∈ events.map fun (time, e) => (e.line time).toList, '\n' ∉ line := by
    refine List.forall_mem_map.mpr fun (time, e) member => ?_
    obtain ⟨plain, turn⟩ := readable _ member
    simp only [Event.toList_line]
    exact not_mem_newline_compact (Event.plain_record time plain turn)
  refine ⟨?_, ⟨_, toList_logText events, single, ?_⟩, logText_append events⟩
  · rw [toList_logText, count_flatMap_newline single, List.length_map]
  · refine List.forall₂_map_left_iff.mpr (List.forall₂_same.mpr fun (time, e) member => ?_)
    obtain ⟨plain, turn⟩ := readable _ member
    exact Event.ofText?_line plain turn

/-- Line breaks, quotes and control characters in the details stay within their line. -/
theorem logText_lines_breaking :
    let events : List (String × Event) :=
      [("2024-05-01T00:00:00Z", ⟨.failed, 2, .map [("error", .str "a\n\"b\"\\\x01\r\n")]⟩),
        ("2024-05-01T00:00:01Z", ⟨.toolCall, 4294967295,
          .map [("name", .str "\n"), ("args", .list [.num (.int 18446744073709551615), .list []])]⟩)]
    IsReadableLog events ∧ (logText events).toList.count '\n' = 2 ∧
    ∃ lines : List (List Char), (logText events).toList = lines.flatMap (· ++ ['\n']) ∧
      (∀ line ∈ lines, '\n' ∉ line) ∧
      List.Forall₂ (fun line entry => Event.ofText? line = some entry) lines events := by
  intro events
  have readable : IsReadableLog events := by
    refine List.forall_mem_cons.mpr ⟨⟨?_, by decide⟩, List.forall_mem_singleton.mpr ⟨?_, by decide⟩⟩
    · exact .map (by decide) (List.forall_mem_singleton.mpr (.str _))
    · refine .map (by decide) (List.forall_mem_cons.mpr ⟨.str _, List.forall_mem_singleton.mpr ?_⟩)
      exact .list (List.forall_mem_cons.mpr ⟨.int (by decide), List.forall_mem_singleton.mpr
        (.list (List.forall_mem_nil _))⟩)
  obtain ⟨count, lines, _⟩ := logText_lines readable
  exact ⟨readable, count, lines⟩

end PromptScript
