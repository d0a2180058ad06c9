import PromptScript.Proofs.Source.Alike.Expression
import PromptScript.Proofs.Source.Blank
import PromptScript.Proofs.Source.Bytes.Basic

/-!
Expressions read by bytes. The text of an expression ends where its span does, and what starts in it with a
bracket is cut out between two offsets.
-/
namespace PromptScript.Source.Bytes

open Text
open Command (byteLength)

/-- How many characters, the first of which stands at an offset, stand in front of another offset. -/
def countBefore (offset stop : Nat) : List Char → Nat
  | [] => 0
  | c :: rest => if offset < stop then countBefore (offset + c.utf8Size) stop rest + 1 else 0

/-- The offset of the bracket that closes the outermost of `depth` open brackets. The number of open
brackets must not become negative. -/
def closingBracket (depth : Nat) (mode : BracketMode) (offset : Nat) :
    List Char → Checked (Option Nat)
  | [] => pure none
  | c :: rest =>
    match mode with
    | .escaped => closingBracket depth .quoted (offset + c.utf8Size) rest
    | .quoted =>
      let mode := if c = '\\' then .escaped else if c = '"' then .code else .quoted
      closingBracket depth mode (offset + c.utf8Size) rest
    | .code =>
      if c = '"' then closingBracket depth .quoted (offset + c.utf8Size) rest
      else if c = '[' ∨ c = '{' then closingBracket (depth + 1) .code (offset + c.utf8Size) rest
      else if c = ']' ∨ c = '}' then do
        let depth ← subtract depth 1
        if depth = 0 then return some offset
        else closingBracket depth .code (offset + c.utf8Size) rest
      else closingBracket depth .code (offset + c.utf8Size) rest

/-- The literal that starts with a bracket at an offset, and how many of the characters behind the bracket
it takes. -/
def bracketToken (text : List Char) (offset : Nat) (c : Char) (rest : List Char) :
    Checked (Token × Nat) := do
  let behind ← require (slice text offset (byteLength text))
  match ← closingBracket 0 .code offset behind with
  | none => fault offset (.invalidExpression (.unclosedBracket c))
  | some close =>
    -- The bracket that closes takes one byte.
    let literal ← require (slice text offset (close + 1))
    match Value.ofText? literal with
    | some value => return (.literal value, countBefore (offset + c.utf8Size) (close + 1) rest)
    | none => fault offset (.invalidExpression .notJson)

/-- A token that is scanned character by character. -/
def charToken (offset : Nat) (c : Char) (rest : List Char) : Checked (Option Token × Nat) :=
  ExceptT.mk (some ((scanToken c rest).mapError (Fault.mk · offset)))

/-- The token that starts with `c` at an offset, and how many of the characters behind it belong to it. -/
def nextToken (text : List Char) (offset : Nat) (c : Char) (rest : List Char) :
    Checked (Option Token × Nat) :=
  if c = '[' ∨ c = '{' then do
    let (token, taken) ← bracketToken text offset c rest
    return (some token, taken)
  else if c = '-' then do
    -- Whether a digit follows is looked up behind the one byte of the sign.
    let behind ← require (slice text (offset + 1) (byteLength text))
    charToken offset c behind
  else charToken offset c rest

/-- The tokens of the rest of a text, which starts at an offset. -/
def tokenize (text : List Char) (offset : Nat) : List Char → Checked (List LocatedToken)
  | [] => pure []
  | c :: rest => do
    let (token, taken) ← nextToken text offset c rest
    let more ← tokenize text (offset + c.utf8Size + byteLength (rest.take taken)) (rest.drop taken)
    return (token.map (LocatedToken.mk · offset)).toList ++ more
termination_by text => text.length

def readExpr (source : List Char) (s : ByteSpan) : Checked Expr := do
  let text ← require (slice source 0 s.stop)
  let chars ← require (slice text s.start (byteLength text))
  let tokens ← tokenize text s.start chars
  if tokens.isEmpty then fault s.start (.invalidExpression .missing)
  else ExceptT.mk (some (parseTokens s.stop tokens))

variable {source text front rest : List Char} {c : Char} {r : ByteSpan} {s : Span}
  {offset stop depth n taken : Nat} {mode : BracketMode}

/-! ### Literals in brackets -/

theorem countBefore_of_le (h : stop ≤ offset) : countBefore offset stop text = 0 := by
  cases text with
  | nil => rfl
  | cons c rest => rw [countBefore, if_neg (Nat.not_lt.mpr h)]

/-- The characters in front of the offset at which a character stands. -/
theorem countBefore_byteOffset (within : n ≤ text.length) :
    countBefore offset (offset + byteOffset text n) text = n := by
  induction n generalizing offset text with
  | zero => exact countBefore_of_le (by rw [byteOffset_zero, Nat.add_zero])
  | succ n ih =>
    cases text with
    | nil => cases within
    | cons c rest =>
      have positive := c.utf8Size_pos
      rw [byteOffset_cons, countBefore, if_pos (by omega), ← Nat.add_assoc,
        ih (Nat.le_of_succ_le_succ within)]

/-- Where a bracket is open, the number of open brackets does not become negative, and the bracket that
closes it is the same as by characters. -/
theorem closingBracket_of_pos (opened : 0 < depth) : closingBracket depth mode offset text =
    pure ((Source.closingBracket depth mode text).map fun n => offset + byteOffset text n) := by
  induction text generalizing depth mode offset with
  | nil => rfl
  | cons c rest ih =>
    have step (found : Option Nat) : (found.map (· + 1)).map (fun n => offset + byteOffset (c :: rest) n) =
        found.map fun n => offset + c.utf8Size + byteOffset rest n := by
      rw [Option.map_map]
      congr 1
      funext n
      rw [Function.comp_apply, byteOffset_cons, Nat.add_assoc]
    cases mode with
    | escaped => rw [closingBracket, Source.closingBracket, ih opened, step]
    | quoted => rw [closingBracket, Source.closingBracket, ih opened, step]
    | code =>
      rw [closingBracket, Source.closingBracket]
      split
      · rw [ih opened, step]
      split
      · rw [ih (Nat.succ_pos depth), step]
      split
      · rw [subtract_of_le opened, pure_bind]
        by_cases last : depth ≤ 1
        · rw [if_pos last, if_pos (by omega), Option.map_some, byteOffset_zero, Nat.add_zero]
        · rw [if_neg last, if_neg (by omega), ih (by omega), step]
      · rw [ih opened, step]

/-- A reading that starts at a bracket opens it first. -/
theorem closingBracket_of_bracket (opens : c = '[' ∨ c = '{') (offset : Nat) (rest : List Char) :
    closingBracket 0 .code offset (c :: rest) =
      pure ((matchingBracket (c :: rest)).map fun n => offset + byteOffset (c :: rest) n) := by
  have noQuote : c ≠ '"' := by
    rcases opens with rfl | rfl <;> decide
  rw [closingBracket, if_neg noQuote, if_pos opens, closingBracket_of_pos (Nat.succ_pos 0),
    matchingBracket, Source.closingBracket, if_neg noQuote, if_pos opens, Option.map_map]
  congr 2
  funext n
  rw [Function.comp_apply, byteOffset_cons, Nat.add_assoc]

theorem slice_append (front rest : List Char) (n : Nat) :
    slice (front ++ rest) (byteLength front) (byteLength front + byteOffset rest n) =
      some (rest.take n) := by
  refine slice_eq_some_iff.mpr ⟨front, rest.drop n, ?_, rfl, ?_⟩
  · rw [List.append_assoc, List.take_append_drop]
  · rw [byteLength_append, byteOffset]

theorem slice_behind (front rest : List Char) :
    slice (front ++ rest) (byteLength front) (byteLength (front ++ rest)) = some rest :=
  slice_eq_some_iff.mpr ⟨front, [], (List.append_nil _).symm, rfl, rfl⟩

theorem bracketToken_eq (opens : c = '[' ∨ c = '{') (front rest : List Char) :
    bracketToken (front ++ c :: rest) (byteLength front) c rest =
      ExceptT.mk (some ((Source.bracketToken c rest).mapError (Fault.mk · (byteLength front)))) := by
  have single : c.utf8Size = 1 := by
    rcases opens with rfl | rfl <;> rfl
  rw [bracketToken, slice_behind, require_some, pure_bind, closingBracket_of_bracket opens, pure_bind,
    Source.bracketToken]
  cases found : matchingBracket (c :: rest) with
  | none => rfl
  | some length =>
    obtain ⟨close, closes, here⟩ := closingBracket_some found
    have within : length + 1 ≤ (c :: rest).length := (List.getElem?_eq_some_iff.mp here).1
    have behind : byteOffset (c :: rest) (length + 1) = byteOffset (c :: rest) length + 1 := by
      rw [byteOffset_succ here]
      rw [List.mem_pair] at closes
      rcases closes with rfl | rfl <;> rfl
    have count : countBefore (byteLength front + c.utf8Size)
        (byteLength front + byteOffset (c :: rest) length + 1) rest = length := by
      rw [Nat.add_assoc, ← behind, byteOffset_cons, ← Nat.add_assoc,
        countBefore_byteOffset (Nat.le_of_succ_le_succ within)]
    simp only [Option.map_some, count]
    rw [Nat.add_assoc, ← behind, slice_append, require_some, pure_bind]
    cases Value.ofText? ((c :: rest).take (length + 1)) <;> rfl

/-! ### Tokens -/

theorem nextToken_eq (front rest : List Char) (c : Char) :
    nextToken (front ++ c :: rest) (byteLength front) c rest = charToken (byteLength front) c rest := by
  unfold nextToken
  split
  · next opens =>
    rw [bracketToken_eq opens, charToken, scanToken_bracket opens]
    cases Source.bracketToken c rest <;> rfl
  split
  · next sign =>
    subst sign
    have behind := slice_behind (front ++ ['-']) rest
    rw [List.append_assoc, List.singleton_append, byteLength_append] at behind
    rw [show byteLength front + 1 = byteLength front + byteLength ['-'] from rfl, behind, require_some,
      pure_bind]
  · rfl

/-- One token at one place. -/
structure SameToken (source : List Char) (t t' : LocatedToken) : Prop where
  token : t.token = t'.token
  offset : t.offset = byteOffset source t'.offset

theorem tokenize_follows (h : Stands source r s) (front : List Char) (size : r.start = byteLength front) :
    Follows source (List.Forall₂ (SameToken source)) (tokenize (front ++ s.text) r.start s.text)
      (Source.tokenize s.start s.text) := by
  -- By induction on the text: behind a token, there is less of it.
  induction length : s.text.length using Nat.strongRecOn generalizing r s front with
  | ind total ih =>
    subst length
    cases found : s.text with
    | nil =>
      rw [tokenize, Source.tokenize]
      exact .ok .nil
    | cons c rest =>
      rw [tokenize, Source.tokenize, size, nextToken_eq, charToken]
      cases scanned : scanToken c rest with
      | error cause => exact .fault cause (size.symm.trans h.start)
      | ok one =>
        obtain ⟨token, taken⟩ := one
        have inside := length_of_scanToken scanned
        have within : taken + 1 ≤ s.text.length := by
          rw [found]
          exact Nat.succ_le_succ inside
        have width : byteOffset s.text (taken + 1) = c.utf8Size + byteLength (rest.take taken) := by
          rw [found, byteOffset_cons, byteOffset]
        have text : (s.drop (taken + 1)).text = rest.drop taken := by
          rw [Span.text_drop, found, List.drop_succ_cons]
        have later := ih _ (by rw [Span.text_drop, List.length_drop]; omega) (h.drop within)
          (front ++ s.text.take (taken + 1)) (by rw [byteLength_append, size]; rfl) rfl
        have whole : front ++ s.text.take (taken + 1) ++ rest.drop taken = front ++ c :: rest := by
          rw [List.append_assoc, ← text, Span.text_drop, List.take_append_drop, found]
        rw [text, whole, width, ← Nat.add_assoc, size, Span.start_drop, ← Nat.add_assoc] at later
        refine Follows.bind (V := fun found found' => found = (token, taken) ∧ found' = (token, taken))
          (.ok ⟨rfl, rfl⟩) ?_
        rintro _ _ ⟨rfl, rfl⟩
        refine later.bind fun more more' others => .ok ?_
        cases token with
        | none => exact others
        | some token => exact .cons ⟨rfl, size.symm.trans h.start⟩ others

/-! ### Expressions -/

theorem tokenFaults (source : List Char) :
    TokenFaults (fun n m => n = byteOffset source m) (SameToken source) (SameFault source) where
  alike := by
    rintro ⟨token, _⟩ ⟨_, _⟩ ⟨rfl, place⟩
    exact ⟨.same token, place⟩
  fault _ place := ⟨rfl, place⟩
  unexpected related := ⟨by rw [related.token], related.offset⟩

theorem parseTokens_follows {finish finish' : Nat} {tokens tokens' : List LocatedToken}
    (ends : finish = byteOffset source finish') (h : List.Forall₂ (SameToken source) tokens tokens') :
    Related (SameFault source) Eq (parseTokens finish tokens) (parseTokens finish' tokens') := by
  have same : tokens.map (·.token) = tokens'.map (·.token) := by
    rw [← List.forall₂_eq_eq_eq, List.forall₂_map_left_iff, List.forall₂_map_right_iff]
    exact h.imp fun _ _ related => related.token
  refine ((parseTokens_alike (tokenFaults source) ends h).and_ok fun e e' read read' => ?_).mono
    fun _ _ => And.right
  have derives := parseTokens_ok_iff.mp read
  rw [same] at derives
  exact Except.ok.inj ((parseTokens_ok_iff.mpr derives).symm.trans read')

/-- An expression takes up a span counted in bytes exactly as it does counted in characters. -/
theorem readExpr_follows (h : Stands source r s) :
    Follows source Eq (readExpr source r) (Source.readExpr s) := by
  have size : r.start = byteLength (source.take s.start) := h.start
  rw [readExpr, h.slice_before, require_some, pure_bind, size, slice_behind, require_some, pure_bind,
    ← size]
  refine (tokenize_follows h _ size).bind fun tokens tokens' related => ?_
  cases related with
  | nil => exact h.fault _
  | cons here others => exact .of_related (parseTokens_follows h.stop (.cons here others))

end PromptScript.Source.Bytes
