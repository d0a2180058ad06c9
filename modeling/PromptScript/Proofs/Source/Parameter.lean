import PromptScript.Proofs.Source.Argument
import PromptScript.Proofs.Source.Nesting

/-!
Expressions as parameters of includes. A marker ends at the first two closing brackets outside of
strings, and is cut into words at the blanks outside of strings, by scans that know of no escapes. A
parameter is read as it is by itself exactly if neither scan stops in it, which is so if no string
escapes its own quote.
-/
namespace PromptScript

namespace Source

open Text

variable {text front rest bare target key value : List Char} {c : Char} {token : Token} {e : Expr}
  {taken : Nat}

/-! ### Words of a marker -/

/-- A character of a word, or the quote that stands for a string in the outline of a word. -/
def isFlat (c : Char) : Bool :=
  isQuote c || isSolid c

/-- A text that is one word of a marker: only its strings may hold blanks, brackets or dividers, and no
string escapes its own quote. -/
structure IsWord (text : List Char) : Prop where
  unescaped : escapesQuote none text = false
  outline : ∃ bare, Outline text bare ∧ ∀ c ∈ bare, isFlat c = true

theorem isQuote_of_isSolid (h : isSolid c = true) : isQuote c = false := by
  have plain := isPlain_of_isSolid h
  simp only [isPlain, Bool.and_eq_true, Bool.not_eq_true'] at plain
  exact plain.1.1.1.1

theorem isInert_of_isSolid (h : isSolid c = true) : isInert c = true := by
  have plain := isPlain_of_isSolid h
  have visible : c ≠ '\n' := by
    rintro rfl
    exact absurd h (by decide)
  simp only [isPlain, Bool.and_eq_true, Bool.not_eq_true', decide_eq_true_eq] at plain
  simp [isInert, visible, plain.1.1.1]

/-- Neither a blank nor a bracket nor a divider stands for itself or for a string in a word. -/
theorem not_flat_mark (h : isFlat c = true) :
    isBlank c = false ∧ isDivider c = false ∧ bracketStep c = 0 := by
  rw [isFlat, Bool.or_eq_true] at h
  rcases h with quote | solid
  · obtain ⟨_, _, noDivider, _, flat⟩ := ne_of_isQuote quote
    refine ⟨?_, noDivider, flat⟩
    rcases isQuote_iff.mp quote with rfl | rfl <;> decide
  · have plain := isPlain_of_isSolid solid
    simp only [isSolid, Bool.and_eq_true, Bool.not_eq_true'] at solid
    simp only [isPlain, Bool.and_eq_true, Bool.not_eq_true', decide_eq_true_eq] at plain
    exact ⟨solid.2, plain.1.1.2, plain.2⟩

theorem depthBehind_flat (flat : ∀ c ∈ bare, isFlat c = true) (depth : Int) :
    depthBehind depth bare = some depth := by
  induction bare with
  | nil => rfl
  | cons c more ih =>
    obtain ⟨here, others⟩ := List.forall_mem_cons.mp flat
    obtain ⟨_, noDivider, level⟩ := not_flat_mark here
    rw [depthBehind, noDivider, level, add_zero, if_neg (by simp), ih others]

namespace IsWord

theorem of_forall (solid : ∀ c ∈ text, isSolid c = true) : IsWord text := by
  have plain := fun c member => isQuote_of_isSolid (solid c member)
  refine ⟨escapesQuote_of_forall plain, text, .of_forall plain, fun c member => ?_⟩
  rw [isFlat, solid c member, Bool.or_true]

theorem partsOf_append (h : IsWord text) (rest : List Char) :
    partsOf isBlank 0 none (text ++ rest) = (partsOf isBlank 0 none rest).modifyHead (text ++ ·) := by
  obtain ⟨bare, outline, flat⟩ := h.outline
  refine partsOf_outline outline h.unescaped (depthBehind_flat flat 0) (fun c member blank => ?_) rest
  rw [(not_flat_mark (flat c member)).1] at blank
  cases blank

theorem includeEnd_append (h : IsWord text) (rest : List Char) :
    includeEnd none (text ++ rest) = (includeEnd none rest).map (· + text.length) := by
  obtain ⟨bare, outline, flat⟩ := h.outline
  refine includeEnd_outline outline h.unescaped (fun member => ?_) rest
  exact absurd (not_flat_mark (flat ']' member)).2.2 (by decide)

end IsWord

/-- Behind a marker's blank, neither the scan for the end of the marker nor that for the end of the word
stops in a text. -/
structure StandsInMarker (text : List Char) : Prop where
  ends : includeEnd none (text ++ [' ', ']', ']']) = some (text.length + 1)
  whole : partsOf isBlank 0 none text = [text]

theorem IsWord.standsInMarker (h : IsWord text) : StandsInMarker text := by
  constructor
  · have ends : includeEnd none [' ', ']', ']'] = some 1 := rfl
    rw [h.includeEnd_append, ends, Option.map_some, Nat.add_comm]
  · have whole := h.partsOf_append []
    rwa [List.append_nil, partsOf_nil, List.modifyHead_cons, List.append_nil] at whole

/-! ### Atoms -/

/-- A text that is one token, and neither a list nor a mapping. Such an expression is a string, a number,
a constant or a dotted path. -/
def IsAtom (text : List Char) : Prop :=
  ∃ (c : Char) (rest : List Char) (token : Token), text = c :: rest ∧ c ≠ '[' ∧ c ≠ '{' ∧
    scanToken c rest = .ok (some token, rest.length)

/-- An expression of one token is a word or a literal. -/
theorem isOperand_of_readExpr (scanned : scanToken c rest = .ok (some token, rest.length))
    (read : readExpr ⟨0, c :: rest⟩ = .ok e) : token.isOperand = true := by
  obtain ⟨ts, tokens, derived⟩ := readExpr_ok_iff.mp read
  obtain ⟨more, behind, rfl⟩ := (Tokens.cons_iff scanned).mp tokens
  -- The token takes up the whole text, so that there is no other one.
  rw [List.drop_length] at behind
  cases behind
  have whole := derived.whole
  have level := whole.depth 0 le_rfl
  obtain ⟨first, head, plain⟩ := whole.head
  cases head
  cases token with
  | word | literal => rfl
  | compare => cases plain
  | openParen | closeParen | comma => cases level

theorem scanToken_flat (h : scanToken c rest = .ok (some token, taken))
    (operand : token.isOperand = true) (noList : c ≠ '[') (noMap : c ≠ '{') :
    ∃ bare, Outline (c :: rest.take taken) bare ∧ ∀ d ∈ bare, isFlat d = true := by
  have solid {text : List Char} (all : ∀ d ∈ text, isSolid d = true) :
      ∃ bare, Outline text bare ∧ ∀ d ∈ bare, isFlat d = true := (IsWord.of_forall all).outline
  unfold scanToken at h
  split at h
  · cases h
  -- Neither parentheses nor commas nor comparisons are operands.
  iterate 3
    split at h
    · cases h
      cases operand
  split at h
  · simp only at h
    split at h
    · cases h
      cases operand
    · cases h
  split at h
  · next quote =>
    split at h
    · next content n read =>
      cases h
      have opens : isQuote c = true := isQuote_iff.mpr quote
      -- Of a string only its opening quote is left.
      have outline := Outline.string opens (stringContent_closes read) .nil
      rw [List.append_nil] at outline
      refine ⟨[c], outline, fun d member => ?_⟩
      rw [List.mem_singleton.mp member, isFlat, opens, Bool.true_or]
    · cases h
  split at h
  · next bracket => exact absurd bracket (not_or.mpr ⟨noList, noMap⟩)
  split at h
  · next number =>
    simp only at h
    split at h
    · cases h
      rw [take_length_takeWhile]
      exact solid (isSolid_of_number number)
    · cases h
  split at h
  · next start =>
    cases h
    rw [take_length_takeWhile]
    exact solid (isSolid_of_word start rest)
  · cases h

/-- An atom that does not escape its own quote is one word. -/
theorem IsAtom.isWord (atom : IsAtom text) (argument : IsArgument text e)
    (unescaped : escapesQuote none text = false) : IsWord text := by
  obtain ⟨c, rest, token, rfl, noList, noMap, scanned⟩ := atom
  obtain ⟨bare, outline, flat⟩ :=
    scanToken_flat scanned (isOperand_of_readExpr scanned argument.read) noList noMap
  rw [List.take_length] at outline
  exact ⟨unescaped, bare, outline, flat⟩

theorem IsAtom.ne_nil (atom : IsAtom text) : text ≠ [] := by
  obtain ⟨c, rest, _, rfl, _⟩ := atom
  exact List.cons_ne_nil c rest

/-- A token does not reach over a blank at the end. -/
theorem IsAtom.not_isBlank_last (atom : IsAtom text) : ∀ c ∈ text.getLast?, isBlank c = false := by
  obtain ⟨c, rest, token, rfl, _, _, scanned⟩ := atom
  intro last member
  refine Bool.eq_false_iff.mpr fun blank => ?_
  cases rest using List.reverseRecOn with
  | nil =>
    obtain rfl : c = last := Option.some.inj member
    rw [scanToken, if_pos blank] at scanned
    cases scanned
  | append_singleton front d =>
    rw [← List.cons_append, List.getLast?_concat] at member
    cases member
    have within := (scanToken_of_blanks (List.forall_mem_singleton.mpr blank) scanned).1
    rw [List.length_append, List.length_singleton] at within
    omega

/-! ### Markers -/

/-- What stands between `[[` and `]]`: a target, and a value for a key. -/
def markerText (target key value : List Char) : List Char :=
  ' ' :: (target ++ ' ' :: (key ++ '=' :: (value ++ [' '])))

/-- The line `[[ target key=value ]]`. -/
def includeLine (target key value : List Char) : List Char :=
  '[' :: '[' :: (markerText target key value ++ [']', ']'])

/-- The include that such a line describes. -/
def includeOf (target key : List Char) (e : Expr) : Include :=
  ⟨.literal (.ofList target), [(.ofList key, e)]⟩

theorem isSolid_of_mem_key (identifier : isIdentifier key = true) (member : c ∈ key ++ ['=']) :
    isSolid c = true := by
  rcases List.mem_append.mp member with name | equals
  · exact isSolid_of_isNameChar (isNameChar_of_isIdentifier identifier name)
  · rw [List.mem_singleton.mp equals]
    decide

section

variable (solid : ∀ c ∈ target, isSolid c = true) (identifier : isIdentifier key = true)

include solid identifier

/-- The target and the key belong to words of their own. -/
theorem partsOf_markerText : partsOf isBlank 0 none (markerText target key value) =
    [] :: target :: (partsOf isBlank 0 none (value ++ [' '])).modifyHead (key ++ ['='] ++ ·) := by
  have split : key ++ '=' :: (value ++ [' ']) = key ++ ['='] ++ (value ++ [' ']) := by simp
  have word := IsWord.of_forall fun _ member => isSolid_of_mem_key identifier member
  rw [markerText, partsOf_separates (by decide) (by decide) (by decide),
    (IsWord.of_forall solid).partsOf_append, partsOf_separates (by decide) (by decide) (by decide),
    List.modifyHead_cons, List.append_nil, split, word.partsOf_append]

/-- The search for the end of the marker reaches the value. -/
theorem includeEnd_markerText : ∃ before,
    (markerText target key value).length = value.length + 1 + before ∧
      includeEnd none (markerText target key value ++ [']', ']']) =
        (includeEnd none (value ++ [' ', ']', ']'])).map (· + before) := by
  have split : markerText target key value ++ [']', ']'] =
      ' ' :: (target ++ ' ' :: (key ++ ['='] ++ (value ++ [' ', ']', ']']))) := by simp [markerText]
  have blank (rest : List Char) :
      includeEnd none (' ' :: rest) = (includeEnd none rest).map (· + 1) := rfl
  have word := IsWord.of_forall fun _ member => isSolid_of_mem_key identifier member
  refine ⟨(key ++ ['=']).length + 1 + target.length + 1, ?_, ?_⟩
  · simp only [markerText, List.length_cons, List.length_append, List.length_nil]
    omega
  · rw [split, blank, (IsWord.of_forall solid).includeEnd_append, blank, word.includeEnd_append]
    simp only [Option.map_map, Function.comp_def, Nat.add_assoc]

end

theorem readIncludePath_solid {span : Span} (solid : ∀ c ∈ target, isSolid c = true)
    (same : span.text = target) : readIncludePath span = .ok (.literal (.ofList target)) := by
  have unquoted {quote : Char} (opens : isQuote quote = true) : unquote? quote target = none := by
    cases target with
    | nil => rfl
    | cons c more =>
      rw [unquote?, if_neg]
      rintro ⟨rfl, -⟩
      rw [isQuote_of_isSolid (solid c List.mem_cons_self)] at opens
      cases opens
  rw [readIncludePath, same]
  split
  · exact absurd (solid '{' (by simp)) (by decide)
  · rw [@unquoted '"' rfl, @unquoted '\'' rfl]
    rfl

theorem readBinding_word {span : Span} (identifier : isIdentifier key = true)
    (same : span.text = key ++ '=' :: value) (read : readExpr ⟨0, value⟩ = .ok e) :
    readBinding span = .ok (.ofList key, e) := by
  have noEquals : '=' ∉ key := fun member =>
    absurd (isNameChar_of_isIdentifier identifier member) (by rw [isNameChar_of_lt (by decide)]; decide)
  have nonempty : value ≠ [] := fun none => readExpr_nil (none ▸ read)
  have split : splitOnce? '=' (key ++ '=' :: value) = some (key, value) :=
    splitOnce?_append noEquals value
  have behind : (span.drop (key.length + 1)).text = value := by
    rw [Span.text_drop, same]
    simp
  have moved : readExpr (span.drop (key.length + 1)) = .ok e := readExpr_moved behind.symm read
  have named : isIdentifier key ∧ value ≠ [] := ⟨identifier, nonempty⟩
  simp only [readBinding, same, split, if_pos named, moved]
  rfl

/-- The words of a marker are its target and its parameter exactly if no blank cuts the value. -/
theorem readIncludeWords_markerText {span : Span} (marker : Span) (nonempty : target ≠ [])
    (solid : ∀ c ∈ target, isSolid c = true) (identifier : isIdentifier key = true)
    (atom : IsAtom value) (argument : IsArgument value e)
    (same : span.text = markerText target key value) :
    readIncludeWords marker span = .ok (includeOf target key e) ↔
      partsOf isBlank 0 none value = [value] := by
  obtain ⟨first, others, parts⟩ :=
    List.exists_cons_of_ne_nil (partsOf_ne_nil isBlank 0 none (value ++ [' ']))
  have texts : ((span.splitTopLevel isBlank).filter fun word => !word.text.isEmpty).map (·.text) =
      target :: (key ++ ['='] ++ first) :: others.filter fun word => !word.isEmpty := by
    rw [text_filter_nonempty, Span.splitTopLevel, same, text_splitTopLevel,
      partsOf_markerText solid identifier, parts]
    simp [nonempty]
  obtain ⟨path, words, found, pathText, behind⟩ := List.map_eq_cons_iff.mp texts
  obtain ⟨word, more, rfl, wordText, rest⟩ := List.map_eq_cons_iff.mp behind
  simp only [readIncludeWords, found, readIncludePath_solid solid pathText]
  constructor
  · intro read
    obtain ⟨_, resolved, read⟩ := Computation.except_bind_ok_iff.mp read
    cases resolved
    obtain ⟨bindings, mapped, described⟩ := Computation.except_bind_ok_iff.mp read
    cases described
    -- One binding comes from one word, so that no other part says anything.
    obtain ⟨_, _, _, later, ends⟩ := List.forall₂_cons_left_iff.mp (mapM_ok_iff_forall₂.mp mapped)
    cases ends
    cases later
    have empty : ∀ part ∈ others, part = [] := by
      simpa [List.filter_eq_nil_iff] using rest.symm
    exact partsOf_of_append atom.ne_nil atom.not_isBlank_last (by rwa [parts])
  · intro whole
    have value' : ∃ blanks, first = value ++ blanks ∧ (∀ d ∈ blanks, isBlank d = true) ∧
        others.filter (fun word => !word.isEmpty) = [] := by
      rcases partsOf_append_char whole ' ' with apart | joined
      · rw [parts] at apart
        cases apart
        exact ⟨[], (List.append_nil _).symm, List.forall_mem_nil _, rfl⟩
      · rw [parts] at joined
        cases joined
        exact ⟨[' '], rfl, List.forall_mem_singleton.mpr (by decide), rfl⟩
    obtain ⟨blanks, rfl, blank, nothing⟩ := value'
    rw [nothing, List.map_eq_nil_iff] at rest
    subst rest
    have written : word.text = key ++ '=' :: (value ++ blanks) := by simp [wordText]
    have binding := readBinding_word identifier written (readExpr_append_blanks argument.read blank)
    simp only [List.mapM_cons, List.mapM_nil, binding]
    rfl

/-- The marker takes up the whole line, and describes the include, exactly if no scan stops in the
value. -/
theorem readInclude_line {s : Span} (nonempty : target ≠ []) (solid : ∀ c ∈ target, isSolid c = true)
    (identifier : isIdentifier key = true) (atom : IsAtom value) (argument : IsArgument value e)
    (same : s.text = includeLine target key value) :
    (do
      let (found, taken) ← readInclude s
      expectEnd (s.drop taken) (Statement.node (.include found))) =
        .ok (.node (.include (includeOf target key e))) ↔ StandsInMarker value := by
  obtain ⟨before, room, ending⟩ := @includeEnd_markerText _ _ value solid identifier
  have behind : s.text.drop 2 = markerText target key value ++ [']', ']'] := by rw [same]; rfl
  rw [← behind] at ending
  have inner : ((s.drop 2).take (value.length + 1 + before)).text = markerText target key value := by
    rw [← room, Span.text_take, Span.text_drop, behind]
    exact List.take_left
  have words := readIncludeWords_markerText s nonempty solid identifier atom argument inner
  have split : s.text = ('[' :: '[' :: (markerText target key value ++ [']'])) ++ [']'] := by
    simp [same, includeLine]
  constructor
  · intro h
    obtain ⟨⟨found, taken⟩, read, ends⟩ := Computation.except_bind_ok_iff.mp h
    obtain ⟨blank, described⟩ := expectEnd_ok_iff.mp ends
    cases described
    rw [readInclude, ending] at read
    cases reached : includeEnd none (value ++ [' ', ']', ']']) with
    | none =>
      rw [reached] at read
      cases read
    | some n =>
      rw [reached] at read
      obtain ⟨_, described, same⟩ := Computation.except_bind_ok_iff.mp read
      cases same
      have bound := (prefix_of_includeEnd reached).length_le
      simp only [List.length_cons, List.length_nil, List.length_drop, List.length_append] at bound
      -- Behind an earlier end, the last bracket would be left on the line.
      have last : n = value.length + 1 := by
        by_contra earlier
        have inside : n + before + 4 ≤ ('[' :: '[' :: (markerText target key value ++ [']'])).length := by
          simp only [List.length_cons, List.length_append, List.length_nil]
          omega
        have left : ']' ∈ s.text.drop (n + before + 4) := by
          rw [split, List.drop_append_of_le_length inside]
          exact List.mem_append_right _ (List.mem_singleton_self _)
        have visible := mem_dropWhile left (p := isBlank) (by decide)
        rw [Span.text_drop, trimStart, List.isEmpty_iff] at blank
        rw [blank] at visible
        cases visible
      subst last
      exact ⟨reached, words.mp described⟩
  · rintro ⟨reached, whole⟩
    have nothing : (trimStart (s.drop (value.length + 1 + before + 4)).text).isEmpty = true := by
      rw [Span.text_drop, split, List.drop_of_length_le (by simp [room])]
      rfl
    rw [reached, Option.map_some] at ending
    have read : readInclude s = .ok (includeOf target key e, value.length + 1 + before + 4) := by
      simp only [readInclude, ending, words.mpr whole]
      rfl
    rw [read]
    exact expectEnd_ok_iff.mpr ⟨nothing, rfl⟩

theorem readStatement_include {line : LogicalLine} (nonempty : target ≠ [])
    (solid : ∀ c ∈ target, isSolid c = true) (identifier : isIdentifier key = true)
    (atom : IsAtom value) (argument : IsArgument value e)
    (same : line.span.text = includeLine target key value) :
    readStatement line = .ok (.node (.include (includeOf target key e))) ↔ StandsInMarker value := by
  have visible : Bars isBlank line.span.text := by
    rw [same]
    exact bars_cons (by decide)
  have text := (Span.text_trimStart_of_bars visible).trans same
  have lead : Lead.ofText line.span.trimStart.text = .marker := by
    rw [text]
    rfl
  rw [readStatement, lead]
  exact readInclude_line nonempty solid identifier atom argument text

theorem trimEnd_includeLine (target key value : List Char) :
    trimEnd (includeLine target key value) = includeLine target key value := by
  have split : includeLine target key value =
      ('[' :: '[' :: (markerText target key value ++ [']'])) ++ [']'] := by
    simp [includeLine]
  rw [split]
  exact trimEndOf_append_cons (by decide) _ []

theorem isLine_include (solid : ∀ c ∈ target, isSolid c = true) (identifier : isIdentifier key = true)
    (argument : IsArgument value e) : IsLine (includeLine target key value) := by
  have path := fun c member => isInert_of_isSolid (solid c member)
  have name := fun c member => isInert_of_isSolid (@isSolid_of_mem_key _ c identifier member)
  have whole : GoesOn (includeLine target key value) := by
    have front : GoesOn ['[', '[', ' '] := .of_forall (List.all_eq_true.mp (by decide))
    have back : GoesOn [' ', ']', ']'] := .of_forall (List.all_eq_true.mp (by decide))
    have between : GoesOn [' '] := .char (by decide)
    have inner : GoesOn value := lineLength_expr argument.read argument.single
    have parts := front.append ((GoesOn.of_forall path).append
      (between.append ((GoesOn.of_forall name).append (inner.append back))))
    simpa [includeLine, markerText] using parts
  have noNewline : '\n' ∉ includeLine target key value := by
    have noName := not_mem_of_inert name
    rw [List.mem_append, not_or] at noName
    simp [includeLine, markerText, not_mem_of_inert path, noName.1, argument.single]
  have last : EndsPlainly (includeLine target key value) :=
    .of_suffix ⟨'[' :: '[' :: markerText target key value, rfl⟩ (List.cons_ne_nil ']' [']'])
      (.of_not_mem (by decide))
  exact whole.isLine noNewline (bars_cons (by decide)) (List.cons_ne_nil _ _) nofun last

/-- An include is read with its parameter as it is by itself exactly if no scan stops in the parameter. -/
theorem readTemplate_include (nonempty : target ≠ []) (solid : ∀ c ∈ target, isSolid c = true)
    (identifier : isIdentifier key = true) (atom : IsAtom value) (argument : IsArgument value e) :
    readTemplate (includeLine target key value) =
      .ok ⟨.empty, [.include (includeOf target key e)]⟩ ↔ StandsInMarker value := by
  refine readTemplate_iff_of_statement (isLine_include solid identifier argument) (.of_head ?_) rfl
    fun line same => ?_
  · rintro _ ⟨⟩
    decide
  · exact readStatement_include nonempty solid identifier atom argument
      (same.trans (trimEnd_includeLine target key value))

end Source

open Source

/-- Expressions are read as the arguments of a call as they are by themselves, exactly if the call is
split at the commas between them; and each atom among them as the parameter of an include, exactly if no
scan of the marker stops in it. Both are so if no string escapes its own quote. -/
theorem Template.parse_arguments_and_parameters (args : List (String × Expr)) (nonempty : args ≠ [])
    (each : ∀ arg ∈ args, Expr.parse arg.1 = .ok arg.2 ∧ '\n' ∉ arg.1.toList) :
    (∀ f : String, leadingName? f.toList = some f.toList →
      (Template.parse ("@effect func " ++ f ++ "(" ++ ", ".intercalate (args.map (·.1)) ++ ")") =
        .ok ⟨.empty, [.effect (.call f (args.map (·.2)) none)]⟩ ↔
          SplitsApart (args.map (·.1.toList)))) ∧
    (∀ arg ∈ args, IsAtom arg.1.toList → ∀ t k : String, t ≠ "" →
      (∀ c ∈ t.toList, isSolid c = true) → isIdentifier k.toList = true →
      (Template.parse ("[[ " ++ t ++ " " ++ k ++ "=" ++ arg.1 ++ " ]]") =
        .ok ⟨.empty, [.include ⟨.literal t, [(k, arg.2)]⟩]⟩ ↔ StandsInMarker arg.1.toList)) ∧
    ((∀ arg ∈ args, escapesQuote none arg.1.toList = false) →
      SplitsApart (args.map (·.1.toList)) ∧
        ∀ arg ∈ args, IsAtom arg.1.toList → StandsInMarker arg.1.toList) := by
  have argument (arg : String × Expr) (member : arg ∈ args) : IsArgument arg.1.toList arg.2 :=
    ⟨(each arg member).2, Computation.mapError_ok_iff.mp (each arg member).1⟩
  have arguments : List.Forall₂ IsArgument (args.map (·.1.toList)) (args.map (·.2)) := by
    rw [List.forall₂_map_left_iff, List.forall₂_map_right_iff, List.forall₂_same]
    exact argument
  have texts : args.map (·.1.toList) ≠ [] := fun none => nonempty (List.map_eq_nil_iff.mp none)
  refine ⟨fun f named => ?_, fun arg member atom t k target solid identifier => ?_,
    fun unescaped => ⟨?_, fun arg member atom => ?_⟩⟩
  · have call := readTemplate_call named arguments texts
    rw [String.ofList_toList] at call
    refine (Template.parse_ok_iff ?_).trans call
    simp [callLine, effectWord, funcWord, String.toList_intercalate, Function.comp_def]
  · have target' : t.toList ≠ [] := fun none => target (String.toList_eq_nil_iff.mp none)
    have marker := readTemplate_include target' solid identifier atom (argument arg member)
    rw [includeOf, String.ofList_toList, String.ofList_toList] at marker
    refine (Template.parse_ok_iff ?_).trans marker
    simp [includeLine, markerText]
  · refine splitsApart_of_unescaped arguments texts fun text member => ?_
    obtain ⟨arg, inside, rfl⟩ := List.mem_map.mp member
    exact unescaped arg inside
  · exact (atom.isWord (argument arg member) (unescaped arg member)).standsInMarker

theorem Expr.parse_brackets : Expr.parse "\"a, ]] b\"" = .ok (.literal (.str "a, ]] b")) := by
  with_unfolding_all rfl

/-- A string with a comma, a blank and closing brackets, as an argument and as a parameter. -/
theorem Template.parse_brackets_inside :
    Template.parse ("@effect func " ++ "f" ++ "(" ++
        ", ".intercalate ["\"a, ]] b\"", .ofList ['x']] ++ ")") =
      .ok ⟨.empty, [.effect (.call "f" [.literal (.str "a, ]] b"), .path ⟨"x", []⟩] none)]⟩ ∧
    Template.parse ("[[ " ++ "t" ++ " " ++ "k" ++ "=" ++ "\"a, ]] b\"" ++ " ]]") =
      .ok ⟨.empty, [.include ⟨.literal "t", [("k", .literal (.str "a, ]] b"))]⟩]⟩ := by
  let args : List (String × Expr) :=
    [("\"a, ]] b\"", .literal (.str "a, ]] b")), (.ofList ['x'], .path ⟨"x", []⟩)]
  have each : ∀ arg ∈ args, Expr.parse arg.1 = .ok arg.2 ∧ '\n' ∉ arg.1.toList := by
    refine List.forall_mem_cons.mpr ⟨⟨Expr.parse_brackets, by decide⟩, ?_⟩
    exact List.forall_mem_singleton.mpr ⟨Expr.parse_name, by decide⟩
  have unescaped : ∀ arg ∈ args, escapesQuote none arg.1.toList = false :=
    List.forall_mem_cons.mpr ⟨by decide, List.forall_mem_singleton.mpr (by decide)⟩
  obtain ⟨calls, includes, split⟩ :=
    Template.parse_arguments_and_parameters args (List.cons_ne_nil _ _) each
  obtain ⟨apart, stands⟩ := split unescaped
  have atom : IsAtom "\"a, ]] b\"".toList := ⟨'"', _, _, rfl, by decide, by decide, rfl⟩
  exact ⟨(calls "f" (by decide +kernel)).mpr apart,
    (includes _ List.mem_cons_self atom "t" "k" (by decide) (List.all_eq_true.mp (by decide))
      (by decide +kernel)).mpr (stands _ List.mem_cons_self atom)⟩

/-- A quote behind a backslash ends the string for the scans of calls and of markers, but not for that of
expressions. -/
theorem Template.parse_escaped_quote :
    Expr.parse "\"a\\\"b\"" = .ok (.literal (.str "a\"b")) ∧
    Expr.parse (.ofList ['x']) = .ok (.path ⟨"x", []⟩) ∧
    Template.parse "@effect func f(\"a\\\"b\", x)" = .error ⟨.unexpectedToken ",", 1, 22⟩ ∧
    Template.parse "[[ t k=\"a\\\"b\" ]]" = .error ⟨.unterminatedInclude, 1, 1⟩ := by
  exact ⟨by with_unfolding_all rfl, Expr.parse_name, by decide +kernel, by decide +kernel⟩

end PromptScript
