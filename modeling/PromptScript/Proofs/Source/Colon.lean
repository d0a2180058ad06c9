import Mathlib
import PromptScript.Proofs.Source.Tokens
import PromptScript.Proofs.Text.CharClass
import PromptScript.Proofs.Value.Quiet

/-!
Expressions in front of the colon of an opener. No colon of an expression is taken for that of the
opener, and nothing in an expression opens a text block.
-/
namespace PromptScript.Source

open Text

/-! ### Tokens of an expression -/

def Token.isCompare : Token → Bool
  | .compare _ => true
  | _ => false

/-- Whether a token is a word or a literal. -/
def Token.isOperand : Token → Bool
  | .word _ | .literal _ => true
  | _ => false

/-- How many parentheses are open behind some tokens, unless more are closed than were opened, or a comma
stands outside of all. -/
def parenDepth (depth : Nat) : List Token → Option Nat
  | [] => some depth
  | .openParen :: rest => parenDepth (depth + 1) rest
  | .closeParen :: rest =>
    match depth with
    | 0 => none
    | depth + 1 => parenDepth depth rest
  | .comma :: rest => if depth = 0 then none else parenDepth depth rest
  | _ :: rest => parenDepth depth rest

/-- Tokens that close all parentheses they open, and of which no two comparisons stand side by side, nor
one at either end. Inside of `least` parentheses, no comma among them stands outside of all. -/
structure Whole (least : Nat) (ts : List Token) : Prop where
  depth : ∀ depth, least ≤ depth → parenDepth depth ts = some depth
  chain : ts.IsChain fun t u => ¬(t.isCompare = true ∧ u.isCompare = true)
  head : ∃ t, ts.head? = some t ∧ t.isCompare = false
  last : ∃ t, ts.getLast? = some t ∧ t.isCompare = false

variable {ts us : List Token} {e : Expr} {text bare rest piece : List Char} {c : Char}
  {token : Option Token} {taken : Nat}

theorem parenDepth_append (depth : Nat) (ts us : List Token) :
    parenDepth depth (ts ++ us) = (parenDepth depth ts).bind (parenDepth · us) := by
  induction ts generalizing depth with
  | nil => rfl
  | cons t more ih =>
    cases t with
    | closeParen =>
      cases depth with
      | zero => rfl
      | succ depth => exact ih depth
    | comma =>
      simp only [List.cons_append, parenDepth]
      split
      · rfl
      · exact ih depth
    | _ => exact ih _

namespace Whole

variable {least : Nat}

theorem word (word : List Char) : Whole least [.word word] :=
  ⟨fun _ _ => rfl, .singleton _, ⟨_, rfl, rfl⟩, ⟨_, rfl, rfl⟩⟩

theorem literal (value : Value) : Whole least [.literal value] :=
  ⟨fun _ _ => rfl, .singleton _, ⟨_, rfl, rfl⟩, ⟨_, rfl, rfl⟩⟩

theorem comma : Whole 1 [.comma] := by
  refine ⟨fun depth inside => ?_, .singleton _, ⟨_, rfl, rfl⟩, ⟨_, rfl, rfl⟩⟩
  rw [parenDepth, if_neg (Nat.ne_of_gt inside), parenDepth]

theorem mono (h : Whole 0 ts) : Whole least ts :=
  ⟨fun depth _ => h.depth depth (Nat.zero_le depth), h.chain, h.head, h.last⟩

/-- Tokens between two sequences, neither of which puts a comparison next to them. -/
theorem join (between : List Token) (h : Whole least ts) (h' : Whole least us)
    (depth : ∀ depth, least ≤ depth → parenDepth depth between = some depth)
    (chain : between.IsChain fun t u => ¬(t.isCompare = true ∧ u.isCompare = true)) :
    Whole least (ts ++ (between ++ us)) := by
  obtain ⟨first, head, plain⟩ := h.head
  obtain ⟨t, last, plainEnd⟩ := h.last
  obtain ⟨u, head', plainStart⟩ := h'.head
  obtain ⟨final, last', plain'⟩ := h'.last
  have right : (between ++ us).IsChain fun t u => ¬(t.isCompare = true ∧ u.isCompare = true) := by
    refine List.isChain_append.mpr ⟨chain, h'.chain, ?_⟩
    rintro _ - _ member ⟨-, compares⟩
    rw [head'] at member
    cases member
    rw [plainStart] at compares
    cases compares
  refine ⟨fun d inside => ?_, List.isChain_append.mpr ⟨h.chain, right, ?_⟩, ⟨first, ?_, plain⟩,
    ⟨final, ?_, plain'⟩⟩
  · rw [parenDepth_append, h.depth d inside, Option.bind_some, parenDepth_append, depth d inside,
      Option.bind_some, h'.depth d inside]
  · rintro _ member _ - ⟨compares, -⟩
    rw [last] at member
    cases member
    rw [plainEnd] at compares
    cases compares
  · rw [List.head?_append, head]
    rfl
  · rw [List.getLast?_append, List.getLast?_append, last']
    rfl

theorem append (h : Whole least ts) (h' : Whole least us) : Whole least (ts ++ us) :=
  h.join [] h' (fun _ _ => rfl) .nil

theorem compare (op : CompareOp) (h : Whole least ts) (h' : Whole least us) :
    Whole least (ts ++ .compare op :: us) :=
  h.join [.compare op] h' (fun _ _ => rfl) (.singleton _)

theorem parentheses (h : Whole 1 ts) : Whole least (.openParen :: (ts ++ [.closeParen])) := by
  refine ⟨fun depth _ => ?_, ?_, ⟨_, rfl, rfl⟩, ⟨.closeParen, ?_, rfl⟩⟩
  · rw [parenDepth, parenDepth_append, h.depth (depth + 1) (Nat.succ_pos depth)]
    rfl
  · rw [List.isChain_cons, List.isChain_append]
    refine ⟨?_, h.chain, .singleton _, ?_⟩
    · rintro u - ⟨compares, -⟩
      cases compares
    · rintro t - u member ⟨-, compares⟩
      cases member
      cases compares
  · rw [← List.cons_append, List.getLast?_concat]

theorem cons_word (word : List Char) (h : Whole least ts) : Whole least (.word word :: ts) :=
  (Whole.word word).append h

theorem cons_comma (h : Whole 0 ts) : Whole 1 (.comma :: ts) :=
  comma.append h.mono

end Whole

/-- All commas of an expression stand inside of the parentheses of a range. -/
theorem Derives.whole {level : Level} (h : Derives level ts e) : Whole 0 ts := by
  induction h with
  | conjunction _ ih | negation _ ih | comparison _ ih | operand _ ih => exact ih
  | or _ _ left right | and _ _ left right | member _ _ left right =>
    exact left.append (right.cons_word _)
  | notMember _ _ left right => exact left.append ((right.cons_word _).cons_word _)
  | not _ ih => exact ih.cons_word _
  | compare _ _ left right => exact left.compare _ right
  | literal => exact .literal _
  | path => exact .word _
  | parentheses _ ih => exact ih.mono.parentheses
  | rangeTo _ ih => exact ih.mono.parentheses.cons_word _
  | rangeFrom _ _ first second =>
    exact (first.mono.append second.cons_comma).parentheses.cons_word _
  | rangeBy _ _ _ first second third =>
    have inner := first.mono.append (second.cons_comma.append third.cons_comma)
    simpa using inner.parentheses.cons_word _

/-! ### Tokens in the text -/

/-- What stands for a token in a text. Operands are quiet, and so is a blank, which is no token. None ends
with a backslash. -/
inductive Looks : Option Token → List Char → Prop
  | quiet {token : Option Token} {piece : List Char} :
    (∀ t ∈ token, t.isOperand = true) → piece ≠ [] → Quiet 0 piece → EndsPlainly piece →
    Looks token piece
  | openParen : Looks (some .openParen) ['(']
  | closeParen : Looks (some .closeParen) [')']
  | comma : Looks (some .comma) [',']
  | compare (op : CompareOp) : Looks (some (.compare op)) op.symbol.toList

theorem Looks.literal {value : Value} (quiet : Quiet 0 (c :: text)) (ends : EndsPlainly (c :: text)) :
    Looks (some (.literal value)) (c :: text) := by
  refine .quiet ?_ (List.cons_ne_nil c text) quiet ends
  rintro _ ⟨⟩
  rfl

theorem isPlain_of_isBlank (h : isBlank c = true) : isPlain c = true :=
  isPlain_of (by simp [isBlank_of_lt]) h

/-- A visible character that no search takes notice of. -/
def isSolid (c : Char) : Bool :=
  isPlain c && !isBlank c

theorem isPlain_of_isSolid (h : isSolid c = true) : isPlain c = true :=
  (Bool.and_eq_true_iff.mp h).1

theorem isSolid_of_isNameChar (h : isNameChar c = true) : isSolid c = true := by
  rw [isSolid, isPlain_of (by simp [isNameChar_of_lt]) h, not_isBlank_of_isNameChar h]
  rfl

theorem isPlain_of_isNameChar (h : isNameChar c = true) : isPlain c = true :=
  isPlain_of_isSolid (isSolid_of_isNameChar h)

theorem isSolid_of_number (number : c.isDigit = true ∨ (c = '-' ∧ (rest.head?.any Char.isDigit) = true)) :
    ∀ d ∈ c :: rest.takeWhile fun d => d.isDigit || d = '.', isSolid d = true := by
  refine List.forall_mem_cons.mpr ⟨?_, fun d member => ?_⟩
  · rcases number with digit | ⟨rfl, _⟩
    · exact isSolid_of_isNameChar (isNameChar_of_isDigit digit)
    · decide
  · have inside := List.mem_takeWhile_imp member
    simp only [Bool.or_eq_true, decide_eq_true_eq] at inside
    rcases inside with digit | rfl
    · exact isSolid_of_isNameChar (isNameChar_of_isDigit digit)
    · decide

theorem isSolid_of_word (start : isNameStart c = true) (rest : List Char) :
    ∀ d ∈ c :: rest.takeWhile fun d => isNameChar d || d = '.', isSolid d = true := by
  refine List.forall_mem_cons.mpr ⟨isSolid_of_isNameChar (isNameChar_of_isNameStart start), ?_⟩
  intro d member
  have inside := List.mem_takeWhile_imp member
  simp only [Bool.or_eq_true, decide_eq_true_eq] at inside
  rcases inside with name | rfl
  · exact isSolid_of_isNameChar name
  · decide

theorem stringContent_char {quote : Char} (noBackslash : c ≠ '\\') (rest : List Char) :
    stringContent quote (c :: rest) = if c = quote then some ([], 1)
      else (stringContent quote rest).map fun (content, taken) => (c :: content, taken + 1) := by
  rw [stringContent]
  · exact fun same _ => noBackslash same
  · exact fun _ _ same _ => noBackslash same

theorem ne_backslash (noEnd : c = '\\' → rest = [] → False)
    (noEscape : ∀ d more, c = '\\' → rest = d :: more → False) : c ≠ '\\' := by
  intro same
  cases rest with
  | nil => exact noEnd same rfl
  | cons d more => exact noEscape d more same rfl

theorem stringContent_closes {quote : Char} {content : List Char}
    (h : stringContent quote text = some (content, taken)) : Closes quote (text.take taken) := by
  induction text using stringContent.induct quote generalizing content taken with
  | case1 => cases h
  | case2 => cases h
  | case3 c rest ih =>
    rw [stringContent] at h
    obtain ⟨⟨inner, n⟩, read, same⟩ := Option.map_eq_some_iff.mp h
    cases same
    exact .escape (ih read)
  | case4 rest noEnd noEscape =>
    rw [stringContent_char (ne_backslash noEnd noEscape), if_pos rfl] at h
    cases h
    exact .close
  | case5 c rest noEnd noEscape other ih =>
    have noBackslash := ne_backslash noEnd noEscape
    rw [stringContent_char noBackslash, if_neg other] at h
    obtain ⟨⟨inner, n⟩, read, same⟩ := Option.map_eq_some_iff.mp h
    cases same
    exact .char noBackslash other (ih read)

/-- The bracket that is found is a bracket. -/
theorem closingBracket_some {depth n : Nat} {mode : BracketMode}
    (h : closingBracket depth mode text = some n) : ∃ close ∈ [']', '}'], text[n]? = some close := by
  induction text generalizing depth mode n with
  | nil => cases h
  | cons c rest ih =>
    have later {depth n : Nat} {mode : BracketMode}
        (h : (closingBracket depth mode rest).map (· + 1) = some n) :
        ∃ close ∈ [']', '}'], (c :: rest)[n]? = some close := by
      obtain ⟨m, found, rfl⟩ := Option.map_eq_some_iff.mp h
      obtain ⟨close, closes, there⟩ := ih found
      exact ⟨close, closes, there⟩
    cases mode with
    | escaped => exact later h
    | quoted => exact later h
    | code =>
      simp only [closingBracket] at h
      split at h
      · exact later h
      · split at h
        · exact later h
        · split at h
          · next closes =>
            split at h
            · cases h
              exact ⟨c, by simpa using closes, rfl⟩
            · exact later h
          · exact later h

theorem quiet_of_bracketToken {t : Token} (h : bracketToken c rest = .ok (t, taken)) :
    (∃ value, t = .literal value) ∧ Quiet 0 (c :: rest.take taken) ∧
      EndsPlainly (c :: rest.take taken) := by
  unfold bracketToken at h
  split at h
  · cases h
  · next found =>
    split at h
    · next read =>
      cases h
      obtain ⟨close, closes, there⟩ := closingBracket_some found
      have last : (c :: rest.take taken).getLast? = some close := by
        have whole : c :: rest.take taken = (c :: rest).take (taken + 1) := rfl
        rw [whole, List.getLast?_take, if_neg (Nat.succ_ne_zero taken), Nat.add_sub_cancel, there]
        rfl
      refine ⟨⟨_, rfl⟩, Value.quiet_of_ofText? read, fun same => ?_⟩
      rw [last] at same
      cases same
      exact absurd closes (by decide)
    · cases h

theorem symbol_of_operatorOf? {op : CompareOp} {equals : Bool} (h : operatorOf? c equals = some op) :
    op.symbol.toList = c :: if equals then ['='] else [] := by
  unfold operatorOf? at h
  split at h
  case h_7 => cases h
  all_goals
    cases h
    rfl

theorem compare_looks {op : CompareOp} (h : operatorOf? c (rest.head? = some '=') = some op) :
    Looks (some (.compare op)) (c :: rest.take (if rest.head? = some '=' then 1 else 0)) := by
  have symbol := symbol_of_operatorOf? h
  have looks := Looks.compare op
  rw [symbol] at looks
  by_cases equals : rest.head? = some '='
  · obtain ⟨more, rfl⟩ := List.head?_eq_some_iff.mp equals
    exact looks
  · rw [decide_eq_false equals] at looks
    rw [if_neg equals]
    exact looks

theorem wordToken_quiet (all : ∀ c ∈ text, isPlain c = true) (nonempty : text ≠ []) :
    Looks (some (wordToken text)) text := by
  have operand : (wordToken text).isOperand = true := by
    unfold wordToken
    simp only
    split_ifs <;> rfl
  refine .quiet ?_ nonempty (.of_forall all) (.of_forall all)
  rintro _ ⟨⟩
  exact operand

theorem take_length_takeWhile (p : Char → Bool) (text : List Char) :
    text.take (text.takeWhile p).length = text.takeWhile p :=
  (List.prefix_iff_eq_take.mp (List.takeWhile_prefix p)).symm

theorem scanToken_looks (h : scanToken c rest = .ok (token, taken)) :
    Looks token (c :: rest.take taken) := by
  unfold scanToken at h
  split at h
  · next blank =>
    cases h
    have plain := isPlain_of_isBlank blank
    refine .quiet ?_ (List.cons_ne_nil c _) (.char plain) (.char ?_)
    · rintro _ ⟨⟩
    · rintro rfl
      exact absurd plain (by decide)
  split at h
  · next same => cases h; subst same; exact .openParen
  split at h
  · next same => cases h; subst same; exact .closeParen
  split at h
  · next same => cases h; subst same; exact .comma
  split at h
  · simp only at h
    split at h
    · next read =>
      cases h
      exact compare_looks read
    · cases h
  split at h
  · next quote =>
    split at h
    · next content n read =>
      cases h
      have opens : isQuote c = true := isQuote_iff.mpr quote
      have closes := stringContent_closes read
      have noBackslash := (ne_of_isQuote opens).2.2.2.1
      exact .literal (.string opens closes) (.cons noBackslash (closes.endsPlainly opens))
    · cases h
  split at h
  · obtain ⟨⟨t, n⟩, read, same⟩ := Computation.except_map_ok_iff.mp h
    cases same
    obtain ⟨⟨value, rfl⟩, quiet, ends⟩ := quiet_of_bracketToken read
    exact .literal quiet ends
  split at h
  · next number =>
    simp only at h
    split at h
    · cases h
      have all := fun d member => isPlain_of_isSolid (isSolid_of_number number d member)
      rw [take_length_takeWhile]
      exact .literal (.of_forall all) (.of_forall all)
    · cases h
  split at h
  · next start =>
    cases h
    have all := fun d member => isPlain_of_isSolid (isSolid_of_word start rest d member)
    rw [take_length_takeWhile]
    exact wordToken_quiet all (List.cons_ne_nil c _)
  · cases h

/-! ### The outline of an expression -/

theorem isChain_apart (noAngle : '<' ∉ bare) : bare.IsChain Apart := by
  induction bare with
  | nil => exact .nil
  | cons c more ih =>
    rw [List.mem_cons, not_or] at noAngle
    refine List.isChain_cons.mpr ⟨?_, ih noAngle.2⟩
    rintro d - ⟨same, -⟩
    exact noAngle.1 same.symm

theorem exists_symbol (op : CompareOp) : ∃ (c : Char) (equals : Bool),
    (c = '=' ∨ c = '!' ∨ c = '<' ∨ c = '>') ∧ op.symbol.toList = c :: if equals then ['='] else [] := by
  cases op with
  | eq => exact ⟨'=', true, by decide, rfl⟩
  | ne => exact ⟨'!', true, by decide, rfl⟩
  | lt => exact ⟨'<', false, by decide, rfl⟩
  | le => exact ⟨'<', true, by decide, rfl⟩
  | gt => exact ⟨'>', false, by decide, rfl⟩
  | ge => exact ⟨'>', true, by decide, rfl⟩

/-- The outline of a token. Only a comparison has an angle in it. -/
theorem Looks.outline (looks : Looks token piece) : ∃ bare, Outline piece bare ∧ bare ≠ [] ∧
    bare.IsChain Apart ∧ ('<' ∈ bare → ∃ op, token = some (.compare op)) ∧
    ∀ depth behind : Nat, parenDepth depth token.toList = some behind →
      depthBehind depth bare = some (behind : Int) := by
  cases looks with
  | @quiet token piece operand nonempty quiet =>
    obtain ⟨bare, outline, noAngle, level⟩ := quiet
    refine ⟨bare, outline, ?_, isChain_apart noAngle, fun member => absurd member noAngle, ?_⟩
    · rintro rfl
      cases outline
      exact nonempty rfl
    · intro depth behind same
      have unchanged : parenDepth depth token.toList = some depth := by
        cases token with
        | none => rfl
        | some t =>
          have := operand t rfl
          cases t <;> first
            | rfl
            | cases this
      rw [unchanged] at same
      cases same
      exact level depth (Int.natCast_nonneg depth)
  | openParen =>
    refine ⟨['('], .char rfl .nil, by simp, .singleton _, by simp, fun depth behind same => ?_⟩
    cases same
    simp [depthBehind, isDivider, bracketStep]
  | closeParen =>
    refine ⟨[')'], .char rfl .nil, by simp, .singleton _, by simp, fun depth behind same => ?_⟩
    cases depth with
    | zero => cases same
    | succ depth =>
      cases same
      simp [depthBehind, isDivider, bracketStep]
  | comma =>
    refine ⟨[','], .char rfl .nil, by simp, .singleton _, by simp, fun depth behind same => ?_⟩
    cases depth with
    | zero => cases same
    | succ depth =>
      cases same
      simp [depthBehind, isDivider, bracketStep]
      omega
  | compare op =>
    obtain ⟨c, equals, comparing, symbol⟩ := exists_symbol op
    obtain ⟨noQuote, flat, noDivider⟩ :
        isQuote c = false ∧ bracketStep c = 0 ∧ isDivider c = false := by
      rcases comparing with rfl | rfl | rfl | rfl <;> decide
    rw [symbol]
    refine ⟨_, .char noQuote (.of_forall ?_), List.cons_ne_nil c _, ?_, fun _ => ⟨op, rfl⟩, ?_⟩
    · cases equals <;> simp [isQuote]
    · cases equals with
      | true => exact .cons_cons (fun h => absurd h.2 (by decide)) (.singleton _)
      | false => exact .singleton _
    · intro depth behind same
      cases same
      have equalsFlat : bracketStep '=' = 0 := by decide
      have equalsPlain : isDivider '=' = false := rfl
      cases equals <;> simp [depthBehind, flat, noDivider, equalsFlat, equalsPlain]

theorem Looks.endsPlainly (looks : Looks token piece) : EndsPlainly piece := by
  cases looks with
  | quiet _ _ _ ends => exact ends
  | openParen | closeParen | comma => exact .char (by decide)
  | compare op =>
    obtain ⟨c, equals, comparing, symbol⟩ := exists_symbol op
    have other : c ≠ '\\' := by rcases comparing with rfl | rfl | rfl | rfl <;> decide
    rw [symbol]
    refine .cons other (.of_not_mem ?_)
    cases equals <;> simp

/-- No text of tokens ends with a backslash. -/
theorem Tokens.endsPlainly (tokens : Tokens text ts) : EndsPlainly text := by
  induction tokens with
  | nil => exact .of_not_mem List.not_mem_nil
  | @cons c rest token taken ts scanned _ ih =>
    have whole := (scanToken_looks scanned).endsPlainly.append ih
    rwa [List.cons_append, List.take_append_drop] at whole

/-- The outline of a text with tokens, between which no comparisons stand side by side. -/
theorem Tokens.outline (tokens : Tokens text ts) {depth behind : Nat}
    (nested : parenDepth depth ts = some behind)
    (chain : ts.IsChain fun t u => ¬(t.isCompare = true ∧ u.isCompare = true)) :
    ∃ bare, Outline text bare ∧ bare.IsChain Apart ∧
      (bare.head? = some '<' → ∃ t, ts.head? = some t ∧ t.isCompare = true) ∧
      (bare.getLast? = some '<' → ∃ t, ts.getLast? = some t ∧ t.isCompare = true) ∧
      depthBehind depth bare = some (behind : Int) := by
  induction tokens generalizing depth with
  | nil =>
    cases nested
    exact ⟨[], .nil, .nil, nofun, nofun, rfl⟩
  | @cons c rest token taken ts scanned tokens ih =>
    obtain ⟨bare, outline, nonempty, apart, angle, level⟩ := (scanToken_looks scanned).outline
    rw [parenDepth_append, Option.bind_eq_some_iff] at nested
    obtain ⟨between, first, second⟩ := nested
    obtain ⟨bare', outline', apart', head', last', level'⟩ :=
      ih second (List.isChain_append.mp chain).2.1
    have whole := outline.append outline'
    rw [List.cons_append, List.take_append_drop] at whole
    refine ⟨bare ++ bare', whole, ?_, ?_, ?_, ?_⟩
    · refine List.isChain_append.mpr ⟨apart, apart', ?_⟩
      -- An angle on both sides would be two comparisons side by side.
      rintro _ left _ right ⟨rfl, rfl⟩
      obtain ⟨op, rfl⟩ := angle (List.mem_of_getLast? left)
      obtain ⟨t, head, compares⟩ := head' right
      exact (List.isChain_append.mp chain).2.2 (.compare op) rfl t head ⟨rfl, compares⟩
    · intro head
      rw [List.head?_append_of_ne_nil _ nonempty] at head
      obtain ⟨op, rfl⟩ := angle (List.mem_of_head? head)
      exact ⟨.compare op, rfl, rfl⟩
    · intro last
      rw [List.getLast?_append, Option.or_eq_some_iff] at last
      rcases last with behind | ⟨nothing, here⟩
      · obtain ⟨t, last, compares⟩ := last' behind
        exact ⟨t, by rw [List.getLast?_append, last]; rfl, compares⟩
      · obtain ⟨op, rfl⟩ := angle (List.mem_of_getLast? here)
        rw [List.getLast?_eq_none_iff] at nothing
        subst nothing
        generalize rest.drop taken = behind at outline' tokens
        cases outline'
        cases tokens
        exact ⟨.compare op, rfl, rfl⟩
    · rw [depthBehind_append, level depth between first, Option.bind_some, level']

/-- An expression closes its brackets, has its colons inside of brackets or strings, and opens no text
block. -/
theorem Derives.outline {level : Level} (tokens : Tokens text ts) (derived : Derives level ts e) :
    ∃ bare, Outline text bare ∧ bare.IsChain Apart ∧ bare.getLast? ≠ some '<' ∧
      depthBehind 0 bare = some 0 := by
  have whole := derived.whole
  obtain ⟨bare, outline, apart, _, last, level⟩ := tokens.outline (whole.depth 0 le_rfl) whole.chain
  refine ⟨bare, outline, apart, fun same => ?_, level⟩
  obtain ⟨t, found, compares⟩ := last same
  obtain ⟨u, final, plain⟩ := whole.last
  rw [found] at final
  cases final
  rw [plain] at compares
  cases compares

variable {s : Span}

/-- The colon behind an expression is the first one that counts. -/
theorem colonIndex_expr (read : readExpr s = .ok e) (rest : List Char) :
    colonIndex 0 none (s.text ++ ':' :: rest) = some s.text.length := by
  obtain ⟨ts, tokens, derived⟩ := readExpr_ok_iff.mp read
  obtain ⟨bare, outline, _, _, level⟩ := derived.outline tokens
  rw [colonIndex_outline outline level]
  simp [colonIndex, isQuote]

/-- A line with an expression on it goes on behind the expression. -/
theorem lineLength_expr (read : readExpr s = .ok e) (single : '\n' ∉ s.text) (offset : Nat)
    (rest : List Char) : lineLength .code offset (s.text ++ rest) =
      (lineLength .code (offset + s.text.length) rest).map (· + s.text.length) := by
  obtain ⟨ts, tokens, derived⟩ := readExpr_ok_iff.mp read
  obtain ⟨bare, outline, apart, last, _⟩ := derived.outline tokens
  exact lineLength_outline outline single apart last offset

end PromptScript.Source
