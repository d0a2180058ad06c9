import PromptScript.Proofs.Files.Room
import PromptScript.Proofs.Session.LogLine
import PromptScript.Proofs.Session.Transition
import PromptScript.Proofs.Source.Embedding
import PromptScript.Proofs.Source.Printing
import PromptScript.Proofs.Value.Bounds

/-!
Lists and mappings that a script assigns, and the file that keeps the session afterwards. An expression
may nest its literals as deep as any text is read, but in the file of a state the value of a variable
already stands two levels deep.
-/
namespace PromptScript

open Value

variable {v : Value} {x : String}

/-! ### Literals -/

namespace Source

variable {c : Char} {text rest : List Char} {ts : List Token} {taken : Nat}

theorem isScalar_of_wordToken (h : wordToken text = .literal v) : v.isScalar = true := by
  unfold wordToken at h
  extract_lets name at h
  split_ifs at h
  all_goals cases h; rfl

/-- A token that is a list or a mapping is read as a text by itself. -/
theorem ofText?_of_scanToken (h : scanToken c rest = .ok (some (.literal v), taken))
    (collection : v.isScalar = false) : ∃ text, Value.ofText? text = some v := by
  unfold scanToken at h
  -- Of all tokens, only what starts with a bracket is a list or a mapping.
  split at h
  · cases h
  split at h
  · cases h
  split at h
  · cases h
  split at h
  · cases h
  split at h
  · extract_lets equals at h
    split at h <;> cases h
  split at h
  · split at h
    · cases h
      cases collection
    · cases h
  split at h
  · obtain ⟨⟨token, length⟩, read, same⟩ := Computation.except_map_ok_iff.mp h
    cases same
    unfold bracketToken at read
    split at read
    · cases read
    · split at read
      · next found =>
        cases read
        exact ⟨_, found⟩
      · cases read
  split at h
  · extract_lets digits at h
    split at h
    · cases h
      cases collection
    · cases h
  split at h
  · extract_lets more at h
    have word : wordToken (c :: more) = .literal v := by
      injection h with h
      exact Option.some.inj (congrArg Prod.fst h)
    rw [isScalar_of_wordToken word] at collection
    cases collection
  · cases h

theorem ofText?_of_tokens (tokens : Tokens text ts) (member : .literal v ∈ ts)
    (collection : v.isScalar = false) : ∃ text, Value.ofText? text = some v := by
  induction tokens with
  | nil => cases member
  | cons scanned _ ih =>
    rcases List.mem_append.mp member with here | later
    · rw [Option.mem_toList.mp here] at scanned
      exact ofText?_of_scanToken scanned collection
    · exact ih later

/-- An expression that is a literal has it among its tokens. -/
theorem Derives.literal_mem {level : Level} (derived : Derives level ts (.literal v)) :
    .literal v ∈ ts := by
  generalize same : Expr.literal v = e at derived
  induction derived with
  | conjunction _ ih | negation _ ih | comparison _ ih | operand _ ih => exact ih same
  | parentheses _ ih => exact List.mem_append_left _ (List.mem_cons_of_mem _ (ih same))
  | literal =>
    cases same
    exact List.mem_singleton_self _
  | _ => cases same

end Source

open Source

/-- A list or a mapping without floating-point numbers that an expression consists of has no more levels
than may be read from any text. -/
theorem Expr.plain_of_parse {text : String} (read : Expr.parse text = .ok (.literal v))
    (collection : v.isScalar = false) (noFloat : v.Exact) : Plain maxDepth v := by
  obtain ⟨ts, tokens, derived⟩ := Expr.parse_ok_iff.mp read
  obtain ⟨own, found⟩ := ofText?_of_tokens tokens derived.literal_mem collection
  exact plain_of_ofTextWithin? found noFloat

theorem Expr.parse_toText (plain : Plain maxDepth v) (collection : v.isScalar = false) :
    Expr.parse v.toText = .ok (.literal v) := by
  have named : Expr.IsLiteral v := by
    refine ⟨plain, ?_⟩
    rintro n rfl
    cases collection
  have compact : Expr.literalText v = v.compact := by
    cases v with
    | str => cases collection
    | _ => rfl
  have shown := Expr.parse_print .fewest (.literal named)
  rwa [Expr.print, compact] at shown

/-! ### Sessions -/

/-- A script that consists of one assignment completes with the variable set. -/
theorem Session.step_assignment {σ : Type} (setup : Setup σ) (world : World σ) (state : SessionState)
    (x : String) (v : Value) : ∃ last,
      (Session.start [.stateAssign x (.literal v)] state).step setup none world =
        ((.completed (state.setVariable x v), last), world) := by
  let begun := Session.start [.stateAssign x (.literal v)] state
  -- The first step makes the assignment, and the second finds nothing left.
  have found : begun.stack.next? = some (⟨.stateAssign x (.literal v), []⟩, [.nodes [] []]) :=
    Stack.next?_nodes_cons ..
  have first := advance_of_next?_some setup world rfl found
  rw [attempt_eq, execute_eq] at first
  have nothing : Stack.next? [.nodes [] []] = none := by
    rw [Stack.next?_nodes_nil, Stack.next?_nil]
  rw [step_of_isActive setup world rfl, runOn_of_advance first]
  exact ⟨_, runOn_of_advance (advance_of_next?_none setup world rfl nothing)⟩

namespace SessionState

/-- The file of a state with one variable is read back unless the value nests to the last two levels. -/
theorem load_save_variable (plain : Plain maxDepth v) (x : String) {fs saved : FileSystem}
    {path : String} (h : (empty.setVariable x v).save fs path = (.ok (), saved)) :
    load saved path =
      if v.nesting ≤ maxDepth - 2 then .ok (empty.setVariable x v) else .error (.malformed path) := by
  let state := empty.setVariable x v
  -- The variables are one level of the file, and the file itself is another.
  have vars : Plain (maxDepth + 1) (.map state.vars) :=
    .map (List.nodup_singleton _) (List.forall_mem_singleton.mpr plain)
  have nothing : Plain (maxDepth + 1) (.list []) := .list (List.forall_mem_nil _)
  have whole : Plain (maxDepth + 2) state.toValue := by
    refine .map (by simp [Mapping.keys]) ?_
    simpa [state, empty, setVariable, Value.int] using ⟨vars, nothing, .int (by decide), nothing⟩
  have levels : state.toValue.nesting ≤ maxDepth ↔ v.nesting ≤ maxDepth - 2 := by
    have none : (Value.list []).nesting ≤ maxDepth - 1 := by decide
    have vars : (Value.map state.vars).nesting ≤ maxDepth - 1 ↔ v.nesting ≤ maxDepth - 2 :=
      nesting_map_le.trans List.forall_mem_singleton
    rw [nesting_toValue_le, vars]
    exact and_iff_left none
  rw [(load_save whole (Nat.zero_le _)).2 fs saved path h]
  simp only [levels]
  rfl

/-- A list or a mapping without floating-point numbers that an expression can consist of is stored by an
assignment, saved, and loaded again unless it has the last or the last but one of the levels that an
expression may have. Then the file is written and not read. -/
theorem load_assigned {text : String} (read : Expr.parse text = .ok (.literal v))
    (collection : v.isScalar = false) (noFloat : v.Exact) :
    v.nesting ≤ maxDepth ∧
    (Expr.parse v.toText = .ok (.literal v) ∧ '\n' ∉ v.toText.toList) ∧
    ∀ x : String, leadingName? x.toList = some x.toList →
      (∀ source : String, Expr.parse source = .ok (.literal v) → '\n' ∉ source.toList →
        ∃ template, Template.parse ("@state " ++ x ++ " = " ++ source) = .ok template ∧
          ∀ {σ : Type} (setup : Setup σ) (world : World σ), ∃ last,
            (Session.start template.nodes .empty).step setup none world =
              ((.completed (empty.setVariable x v), last), world)) ∧
      (∀ (fs : FileSystem) (location : Location) (name : String), fs.IsRoom location name →
        fs.IsRoom location ("." ++ name ++ ".tmp") → ∃ saved,
          (empty.setVariable x v).save fs (FileSystem.pathOf (location ++ [name])) = (.ok (), saved)) ∧
      ∀ (fs saved : FileSystem) (path : String),
        (empty.setVariable x v).save fs path = (.ok (), saved) →
        load saved path =
          if v.nesting ≤ maxDepth - 2 then .ok (empty.setVariable x v)
          else .error (.malformed path) := by
  have plain := Expr.plain_of_parse read collection noFloat
  have single : '\n' ∉ v.toText.toList := by
    rw [Value.toText, String.toList_ofList]
    exact not_mem_newline_compact plain
  refine ⟨nesting_le plain, ⟨Expr.parse_toText plain collection, single⟩, fun x named =>
    ⟨fun source read single => ?_, ?_, ?_⟩⟩
  · exact ⟨_, Template.parse_assignment named single read,
      fun setup world => Session.step_assignment setup world empty x v⟩
  · intro fs location name room beside
    obtain ⟨saved, replaced, _⟩ := FileSystem.replace_of_isRoom room beside _
    exact ⟨saved, replaced⟩
  · exact fun fs saved path h => load_save_variable plain x h

/-- Some levels of lists, with strings and integers on the way. -/
theorem load_assigned_shallow :
    let v : Value := .list [.list [.num (.int 18446744073709551615), .str "\n"], .list []]
    let state : SessionState := ⟨[("x", v)], [], [], 0, []⟩
    let saved : FileSystem := ⟨[], [(["s"], .file state.toText.toUTF8)]⟩
    Expr.parse v.toText = .ok (.literal v) ∧ v.isScalar = false ∧ v.Exact ∧
    (∃ template, Template.parse ("@state " ++ "x" ++ " = " ++ v.toText) = .ok template ∧
      ∀ (setup : Setup Unit) (world : World Unit), ∃ last,
        (Session.start template.nodes .empty).step setup none world = ((.completed state, last), world)) ∧
    state.save ⟨[], []⟩ "s" = (.ok (), saved) ∧ load saved "s" = .ok state := by
  intro v state saved
  have number : Plain 125 (.num (.int 18446744073709551615)) := .int (by decide)
  have inner : Plain 126 (.list [.num (.int 18446744073709551615), .str "\n"]) :=
    .list (by simpa using ⟨number, .str "\n"⟩)
  have plain : Plain maxDepth v := .list (by simpa using ⟨inner, .list (List.forall_mem_nil _)⟩)
  have noFloat' : Exact (.list [.num (.int 18446744073709551615), .str "\n"]) :=
    .list (by simpa using ⟨.int _, .str "\n"⟩)
  have noFloat : v.Exact := .list (by simpa using ⟨noFloat', .list (List.forall_mem_nil _)⟩)
  have read := Expr.parse_toText plain rfl
  obtain ⟨_, ⟨_, single⟩, each⟩ := load_assigned read rfl noFloat
  obtain ⟨runs, _, loads⟩ := each "x" (by decide)
  obtain ⟨template, parsed, completes⟩ := runs v.toText read single
  have replaced (content : ByteArray) : (⟨[], []⟩ : FileSystem).replace "s" content =
      (.ok (), ⟨[], [(["s"], .file content)]⟩) := by cbv
  have loaded := loads ⟨[], []⟩ saved "s" (replaced _)
  rw [if_pos (by decide)] at loaded
  exact ⟨read, rfl, noFloat, ⟨template, parsed, completes⟩, replaced _, loaded⟩

end SessionState

/-- A list in a list in a list, and so on. -/
def Value.nested : Nat → Value
  | 0 => .list []
  | levels + 1 => .list [nested levels]

theorem Value.plain_nested {levels depth : Nat} (deeper : levels < depth) :
    Plain depth (nested levels) := by
  induction levels generalizing depth with
  | zero =>
    obtain ⟨depth, rfl⟩ := Nat.exists_eq_succ_of_ne_zero deeper.ne'
    exact .list (List.forall_mem_nil _)
  | succ levels ih =>
    obtain ⟨depth, rfl⟩ := Nat.exists_eq_succ_of_ne_zero (Nat.ne_zero_of_lt deeper)
    exact .list (List.forall_mem_singleton.mpr (ih (Nat.lt_of_succ_lt_succ deeper)))

theorem Value.exact_nested (levels : Nat) : (nested levels).Exact := by
  induction levels with
  | zero => exact .list (List.forall_mem_nil _)
  | succ levels ih => exact .list (List.forall_mem_singleton.mpr ih)

theorem Value.nesting_nested (levels : Nat) : (nested levels).nesting = levels + 1 := by
  induction levels with
  | zero => rfl
  | succ levels ih => simp [nested, nesting, nestingItems, ih]

namespace SessionState

/-- A list of 126 levels is a literal and is assigned and saved, but not loaded again. -/
theorem load_assigned_deep :
    let v := nested 125
    let state : SessionState := ⟨[("x", v)], [], [], 0, []⟩
    let saved : FileSystem := ⟨[], [(["s"], .file state.toText.toUTF8)]⟩
    Expr.parse v.toText = .ok (.literal v) ∧ v.isScalar = false ∧ v.Exact ∧
    (∃ template, Template.parse ("@state " ++ "x" ++ " = " ++ v.toText) = .ok template ∧
      ∀ (setup : Setup Unit) (world : World Unit), ∃ last,
        (Session.start template.nodes .empty).step setup none world = ((.completed state, last), world)) ∧
    state.save ⟨[], []⟩ "s" = (.ok (), saved) ∧ load saved "s" = .error (.malformed "s") := by
  intro v state saved
  have plain : Plain maxDepth v := plain_nested (by decide)
  have read := Expr.parse_toText plain rfl
  have single : '\n' ∉ v.toText.toList := by
    rw [Value.toText, String.toList_ofList]
    exact not_mem_newline_compact plain
  have parsed := Template.parse_assignment (x := "x") (by decide) single read
  have replaced (content : ByteArray) : (⟨[], []⟩ : FileSystem).replace "s" content =
      (.ok (), ⟨[], [(["s"], .file content)]⟩) := by cbv
  have deep : ¬v.nesting ≤ maxDepth - 2 := by
    rw [nesting_nested]
    decide
  have refused := (load_save_variable plain "x" (replaced _)).trans (if_neg deep)
  exact ⟨read, rfl, exact_nested 125,
    ⟨_, parsed, fun setup world => Session.step_assignment setup world empty "x" v⟩, replaced _,
    refused⟩

end SessionState

end PromptScript
