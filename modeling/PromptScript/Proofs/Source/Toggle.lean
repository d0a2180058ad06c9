import Mathlib
import PromptScript.Proofs.Source.Outline
import PromptScript.Proofs.Source.Place

/-!
Scans that toggle at each quote: the split of arguments and the search for the end of a marker. They know
of no escapes, so they agree with the scans that do as long as no string escapes its own quote.
-/
namespace PromptScript.Source

open Text

/-- Whether a backslash stands in front of the quote of the string that it is in. A string may be open at
the start of the text. -/
def escapesQuote (quote : Option Char) : List Char → Bool
  | [] => false
  | c :: rest =>
    match quote with
    | none => escapesQuote (if isQuote c then some c else none) rest
    | some q =>
      match c, rest with
      | '\\', d :: rest => d = q || escapesQuote (some q) rest
      | c, rest => escapesQuote (if c = q then none else some q) rest

variable {separates : Char → Bool} {depth behind : Int} {text bare rest body inner : List Char}
  {c quote : Char} {quote? : Option Char}

theorem escapesQuote_append (plain : ∀ c ∈ text, isQuote c = false) (rest : List Char) :
    escapesQuote none (text ++ rest) = escapesQuote none rest := by
  induction text with
  | nil => rfl
  | cons c more ih =>
    obtain ⟨here, others⟩ := List.forall_mem_cons.mp plain
    rw [List.cons_append, escapesQuote, here]
    exact ih others

theorem escapesQuote_of_forall (plain : ∀ c ∈ text, isQuote c = false) :
    escapesQuote none text = false := by
  rw [← text.append_nil, escapesQuote_append plain, escapesQuote]

theorem escapesQuote_quoted (noBackslash : c ≠ '\\') (quote : Char) (rest : List Char) :
    escapesQuote (some quote) (c :: rest) =
      escapesQuote (if c = quote then none else some quote) rest := by
  rw [escapesQuote]
  exact fun _ _ same => absurd same noBackslash

/-- A string that does not escape its own quote has it only at its end. -/
theorem Closes.exists_inner (opens : isQuote quote = true) (closes : Closes quote body)
    (unescaped : escapesQuote (some quote) (body ++ text) = false) :
    ∃ inner, body = inner ++ [quote] ∧ quote ∉ inner ∧ escapesQuote none text = false := by
  have noBackslash := (ne_of_isQuote opens).2.2.2.1
  induction closes with
  | close =>
    rw [List.singleton_append, escapesQuote_quoted noBackslash, if_pos rfl] at unescaped
    exact ⟨[], rfl, List.not_mem_nil, unescaped⟩
  | @escape c body _ ih =>
    -- The character behind the backslash is not the quote, so that the string goes on for both scans.
    simp only [List.cons_append, escapesQuote, Bool.or_eq_false_iff, decide_eq_false_iff_not]
      at unescaped
    obtain ⟨inner, rfl, absent, behind⟩ := ih unescaped.2
    refine ⟨'\\' :: c :: inner, rfl, ?_, behind⟩
    simp [noBackslash, Ne.symm unescaped.1, absent]
  | @char c body noBackslash' noQuote _ ih =>
    rw [List.cons_append, escapesQuote_quoted noBackslash', if_neg noQuote] at unescaped
    obtain ⟨inner, rfl, absent, behind⟩ := ih unescaped
    refine ⟨c :: inner, rfl, ?_, behind⟩
    simp [Ne.symm noQuote, absent]

/-! ### The end of a marker -/

theorem includeEnd_opening (opens : isQuote quote = true) (rest : List Char) :
    includeEnd none (quote :: rest) = (includeEnd (some quote) rest).map (· + 1) := by
  rw [includeEnd]
  simp only [opens, if_true]

theorem includeEnd_string (absent : quote ∉ inner) (rest : List Char) :
    includeEnd (some quote) (inner ++ quote :: rest) =
      (includeEnd none rest).map (· + (inner.length + 1)) := by
  induction inner with
  | nil => simp [includeEnd]
  | cons c more ih =>
    rw [List.mem_cons, not_or] at absent
    rw [List.cons_append, includeEnd, if_neg (Ne.symm absent.1), ih absent.2, Option.map_map]
    rfl

/-- The search for the end of a marker steps over a text without closing brackets. -/
theorem includeEnd_outline (outline : Outline text bare) (unescaped : escapesQuote none text = false)
    (noBracket : ']' ∉ bare) (rest : List Char) :
    includeEnd none (text ++ rest) = (includeEnd none rest).map (· + text.length) := by
  induction outline with
  | nil => simp
  | @char c text bare plain _ ih =>
    rw [List.mem_cons, not_or] at noBracket
    rw [escapesQuote, plain] at unescaped
    have other : ¬(c = ']' ∧ (text ++ rest).head? = some ']') := fun h => noBracket.1 h.1.symm
    simp only [List.cons_append, includeEnd, plain, Bool.false_eq_true, if_false, if_neg other,
      ih unescaped noBracket.2, Option.map_map]
    rfl
  | @string quote body text bare opens closes _ ih =>
    rw [List.mem_cons, not_or] at noBracket
    rw [escapesQuote, if_pos opens] at unescaped
    -- The search leaves the string at the first quote in it, which is the one that closes it.
    obtain ⟨inner, rfl, absent, behind⟩ := closes.exists_inner opens unescaped
    rw [List.cons_append, includeEnd_opening opens, List.append_assoc, List.append_assoc,
      List.singleton_append, includeEnd_string absent, ih behind noBracket.2, Option.map_map,
      Option.map_map]
    congr 1
    funext n
    simp only [Function.comp_apply, List.length_cons, List.length_append, List.length_nil]
    omega

/-! ### Parts of a text -/

/-- The texts of the parts of a text. -/
def partsOf (separates : Char → Bool) (depth : Int) (quote : Option Char) (text : List Char) :
    List (List Char) :=
  (splitTopLevel separates depth quote 0 text).map (·.text)

theorem extendFirst_ne_nil (offset : Nat) (c : Char) (spans : List Span) :
    extendFirst offset c spans ≠ [] := by
  cases spans <;> exact List.cons_ne_nil _ _

theorem splitTopLevel_ne_nil (separates : Char → Bool) (depth : Int) (quote : Option Char)
    (offset : Nat) (text : List Char) : splitTopLevel separates depth quote offset text ≠ [] := by
  cases text with
  | nil => exact List.cons_ne_nil _ _
  | cons c rest =>
    cases quote with
    | some q => exact extendFirst_ne_nil _ _ _
    | none =>
      rw [splitTopLevel]
      split_ifs
      · exact extendFirst_ne_nil _ _ _
      · exact List.cons_ne_nil _ _
      · exact extendFirst_ne_nil _ _ _

theorem partsOf_nil (depth : Int) (quote : Option Char) : partsOf separates depth quote [] = [[]] :=
  rfl

theorem text_splitTopLevel (quote : Option Char) (offset : Nat) (text : List Char) :
    (splitTopLevel separates depth quote offset text).map (·.text) =
      partsOf separates depth quote text :=
  splitTopLevel_moved separates depth quote offset 0 text

theorem text_extendFirst (quote : Option Char) (offset : Nat) (c : Char) (text : List Char) :
    (extendFirst 0 c (splitTopLevel separates depth quote offset text)).map (·.text) =
      (partsOf separates depth quote text).modifyHead (c :: ·) := by
  rw [← text_splitTopLevel quote offset]
  obtain ⟨first, more, parts⟩ :=
    List.exists_cons_of_ne_nil (splitTopLevel_ne_nil separates depth quote offset text)
  rw [parts]
  rfl

theorem partsOf_quoted (quote c : Char) (rest : List Char) :
    partsOf separates depth (some quote) (c :: rest) =
      (partsOf separates depth (if c = quote then none else some quote) rest).modifyHead (c :: ·) :=
  text_extendFirst _ 1 c rest

theorem partsOf_opening (opens : isQuote c = true) (rest : List Char) :
    partsOf separates depth none (c :: rest) =
      (partsOf separates depth (some c) rest).modifyHead (c :: ·) := by
  rw [partsOf, splitTopLevel]
  simp only [opens, if_true]
  exact text_extendFirst _ 1 c rest

theorem partsOf_separates (plain : isQuote c = false) (flat : bracketStep c = 0)
    (h : separates c = true) (rest : List Char) :
    partsOf separates 0 none (c :: rest) = [] :: partsOf separates 0 none rest := by
  rw [partsOf, splitTopLevel]
  simp only [plain, flat, h, Bool.false_eq_true, if_false, and_self, if_true, List.map_cons,
    text_splitTopLevel]

theorem partsOf_char (plain : isQuote c = false)
    (joined : ¬(bracketStep c = 0 ∧ depth = 0 ∧ separates c = true)) (rest : List Char) :
    partsOf separates depth none (c :: rest) =
      (partsOf separates (depth + bracketStep c) none rest).modifyHead (c :: ·) := by
  rw [partsOf, splitTopLevel]
  simp only [plain, Bool.false_eq_true, if_false, if_neg joined]
  exact text_extendFirst _ 1 c rest

theorem partsOf_flat (plain : isQuote c = false) (flat : bracketStep c = 0)
    (joined : separates c = false) (rest : List Char) :
    partsOf separates depth none (c :: rest) =
      (partsOf separates depth none rest).modifyHead (c :: ·) := by
  rw [partsOf_char plain (by simp [joined]), flat, add_zero]

theorem partsOf_string (absent : quote ∉ inner) (rest : List Char) :
    partsOf separates depth (some quote) (inner ++ quote :: rest) =
      (partsOf separates depth none rest).modifyHead (inner ++ [quote] ++ ·) := by
  induction inner with
  | nil =>
    rw [List.nil_append, partsOf_quoted, if_pos rfl]
    rfl
  | cons c more ih =>
    rw [List.mem_cons, not_or] at absent
    rw [List.cons_append, partsOf_quoted, if_neg (Ne.symm absent.1), ih absent.2,
      List.modifyHead_modifyHead]
    rfl

/-- A character is a separator, or goes to the first part of what follows it. -/
theorem partsOf_cons (separates : Char → Bool) (depth : Int) (quote : Option Char) (c : Char) :
    (separates c = true ∧ ∀ rest,
      partsOf separates depth quote (c :: rest) = [] :: partsOf separates depth none rest) ∨
    ∃ depth' quote', ∀ rest, partsOf separates depth quote (c :: rest) =
      (partsOf separates depth' quote' rest).modifyHead (c :: ·) := by
  cases quote with
  | some q => exact .inr ⟨_, _, partsOf_quoted q c⟩
  | none =>
    by_cases opens : isQuote c = true
    · exact .inr ⟨_, _, partsOf_opening opens⟩
    have plain : isQuote c = false := Bool.eq_false_iff.mpr opens
    by_cases apart : bracketStep c = 0 ∧ depth = 0 ∧ separates c = true
    · obtain ⟨flat, rfl, separator⟩ := apart
      exact .inl ⟨separator, partsOf_separates plain flat separator⟩
    · exact .inr ⟨_, _, partsOf_char plain apart⟩

theorem partsOf_ne_nil (separates : Char → Bool) (depth : Int) (quote : Option Char)
    (text : List Char) : partsOf separates depth quote text ≠ [] :=
  fun none => splitTopLevel_ne_nil separates depth quote 0 text (List.map_eq_nil_iff.mp none)

theorem intercalate_extended (separator : List Char) (c : Char) (first : List Char)
    (others : List (List Char)) :
    separator.intercalate ((c :: first) :: others) = c :: separator.intercalate (first :: others) := by
  cases others with
  | nil => rfl
  | cons next more => rw [List.intercalate_cons_cons, List.intercalate_cons_cons]; rfl

/-- Joined again by their separator, the parts of a text are the text. -/
theorem intercalate_partsOf (separator : Char) (depth : Int) (quote : Option Char)
    (text : List Char) : [separator].intercalate (partsOf (· = separator) depth quote text) = text := by
  induction text generalizing depth quote with
  | nil => rfl
  | cons c rest ih =>
    rcases partsOf_cons (· = separator) depth quote c with ⟨same, parts⟩ | ⟨depth', quote', parts⟩
    · have later := ih depth none
      obtain ⟨first, more, split⟩ :=
        List.exists_cons_of_ne_nil (partsOf_ne_nil (· = separator) depth none rest)
      rw [split] at later
      rw [parts, split, List.intercalate_cons_cons, later, of_decide_eq_true same]
      rfl
    · have later := ih depth' quote'
      obtain ⟨first, more, split⟩ :=
        List.exists_cons_of_ne_nil (partsOf_ne_nil (· = separator) depth' quote' rest)
      rw [split] at later
      rw [parts, split, List.modifyHead_cons, intercalate_extended, later]

theorem exists_part (member : c ∈ text) (kept : separates c = false) (depth : Int)
    (quote : Option Char) : ∃ part ∈ partsOf separates depth quote text, c ∈ part := by
  induction text generalizing depth quote with
  | nil => cases member
  | cons d rest ih =>
    rcases partsOf_cons separates depth quote d with ⟨separator, parts⟩ | ⟨depth', quote', parts⟩
    · rcases List.mem_cons.mp member with rfl | later
      · rw [separator] at kept
        cases kept
      · obtain ⟨part, inside, holds⟩ := ih later depth none
        exact ⟨part, parts rest ▸ List.mem_cons_of_mem _ inside, holds⟩
    · obtain ⟨first, more, split⟩ :=
        List.exists_cons_of_ne_nil (partsOf_ne_nil separates depth' quote' rest)
      rw [parts, split, List.modifyHead_cons]
      rcases List.mem_cons.mp member with rfl | later
      · exact ⟨c :: first, List.mem_cons_self, List.mem_cons_self⟩
      · obtain ⟨part, inside, holds⟩ := ih later depth' quote'
        rw [split] at inside
        rcases List.mem_cons.mp inside with rfl | behind
        · exact ⟨d :: part, List.mem_cons_self, List.mem_cons_of_mem d holds⟩
        · exact ⟨part, List.mem_cons_of_mem _ behind, holds⟩

/-- One more character behind a text of one part is a part of it, or a separator. -/
theorem partsOf_append_char (whole : partsOf separates depth quote? text = [text]) (c : Char) :
    partsOf separates depth quote? (text ++ [c]) = [text, []] ∨
      partsOf separates depth quote? (text ++ [c]) = [text ++ [c]] := by
  induction text generalizing depth quote? with
  | nil =>
    rcases partsOf_cons separates depth quote? c with ⟨_, parts⟩ | ⟨_, _, parts⟩
    · exact .inl (parts [])
    · exact .inr (parts [])
  | cons d rest ih =>
    rcases partsOf_cons separates depth quote? d with ⟨_, parts⟩ | ⟨depth', quote', parts⟩
    · rw [parts] at whole
      cases (List.cons.inj whole).1
    · have inner : partsOf separates depth' quote' rest = [rest] := by
        obtain ⟨first, more, split⟩ :=
          List.exists_cons_of_ne_nil (partsOf_ne_nil separates depth' quote' rest)
        rw [parts, split, List.modifyHead_cons] at whole
        obtain ⟨same, rfl⟩ := List.cons.inj whole
        rw [split, (List.cons.inj same).2]
      rw [List.cons_append, parts]
      rcases ih inner with apart | joined
      · exact .inl (by rw [apart, List.modifyHead_cons])
      · exact .inr (by rw [joined, List.modifyHead_cons])

/-- If nothing but the first part says anything, and the text ends with no separator, then the text is one
part. -/
theorem partsOf_of_append (nonempty : text ≠ []) (last : ∀ c ∈ text.getLast?, separates c = false)
    (empty : ∀ part ∈ (partsOf separates depth quote? (text ++ rest)).tail, part = []) :
    partsOf separates depth quote? text = [text] := by
  induction text generalizing depth quote? with
  | nil => exact absurd rfl nonempty
  | cons c more ih =>
    have inner : more ≠ [] → ∀ d ∈ more.getLast?, separates d = false := by
      intro nonempty d member
      obtain ⟨next, others, rfl⟩ := List.exists_cons_of_ne_nil nonempty
      exact last d (by rw [List.getLast?_cons_cons]; exact member)
    rcases partsOf_cons separates depth quote? c with ⟨separator, parts⟩ | ⟨depth', quote', parts⟩
    · -- The last character would be in some part behind the separator.
      rw [List.cons_append, parts, List.tail_cons] at empty
      have nonempty : more ≠ [] := by
        rintro rfl
        rw [last c rfl] at separator
        cases separator
      have kept := inner nonempty (more.getLast nonempty) (List.getLast?_eq_some_getLast nonempty)
      obtain ⟨part, inside, holds⟩ := exists_part
        (List.mem_append_left rest (List.getLast_mem nonempty)) kept depth none
      rw [empty part inside] at holds
      cases holds
    · rw [parts]
      by_cases single : more = []
      · subst single
        rfl
      · rw [List.cons_append, parts, List.tail_modifyHead] at empty
        rw [ih single (inner single) empty, List.modifyHead_cons]

/-- A text without separators outside of brackets and strings belongs to one part. -/
theorem partsOf_outline (outline : Outline text bare) (unescaped : escapesQuote none text = false)
    (hidden : depthBehind depth bare = some behind)
    (dividers : ∀ c ∈ bare, separates c = true → isDivider c = true) (rest : List Char) :
    partsOf separates depth none (text ++ rest) =
      (partsOf separates behind none rest).modifyHead (text ++ ·) := by
  induction outline generalizing depth with
  | nil =>
    cases hidden
    exact (congrFun List.modifyHead_id _).symm
  | @char c text bare plain _ ih =>
    obtain ⟨here, others⟩ := List.forall_mem_cons.mp dividers
    rw [escapesQuote, plain] at unescaped
    rw [depthBehind] at hidden
    split at hidden
    · cases hidden
    · next inside =>
      -- A separator is a divider, and there are none outside of all brackets.
      have joined : ¬(bracketStep c = 0 ∧ depth = 0 ∧ separates c = true) :=
        fun h => inside ⟨here h.2.2, h.2.1⟩
      rw [List.cons_append, partsOf_char plain joined, ih unescaped hidden others,
        List.modifyHead_modifyHead]
      rfl
  | @string quote body text bare opens closes _ ih =>
    rw [depthBehind_quote opens] at hidden
    rw [escapesQuote, if_pos opens] at unescaped
    obtain ⟨inner, rfl, absent, behind⟩ := closes.exists_inner opens unescaped
    rw [List.cons_append, partsOf_opening opens, List.append_assoc, List.append_assoc,
      List.singleton_append, partsOf_string absent,
      ih behind hidden fun c member => dividers c (List.mem_cons_of_mem quote member),
      List.modifyHead_modifyHead, List.modifyHead_modifyHead]
    congr 1
    funext part
    simp

end PromptScript.Source
