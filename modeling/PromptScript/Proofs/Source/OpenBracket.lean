import PromptScript.Proofs.Source.Colon

/-!
The bracket that matches the first one of a text. A search for it counts brackets up and down, strings
aside: it comes to an end at the first place at which as many have been closed as opened, and until then at
least one is open.
-/
namespace PromptScript.Source

variable {text rest body read : List Char} {c : Char} {n : Nat}

/-! ### Open brackets -/

/-- How a character outside of strings changes the number of open brackets. -/
def bracketChange (c : Char) : Int :=
  if c = '[' ∨ c = '\x7b' then 1
  else if c = ']' ∨ c = '\x7d' then -1
  else 0

/-- What is left of a text without its strings in double quotes. A string that does not end takes up all
that is behind its quote. -/
def withoutStrings : List Char → List Char
  | [] => []
  | c :: rest =>
    if c = '"' then
      match stringContent '"' rest with
      | some (_, taken) => withoutStrings (rest.drop taken)
      | none => []
    else c :: withoutStrings rest
termination_by text => text.length
decreasing_by all_goals simp only [List.length_drop, List.length_cons]; omega

/-- How many more brackets are opened than closed in a text, outside of its strings. -/
def openBrackets (text : List Char) : Int :=
  ((withoutStrings text).map bracketChange).sum

/-- What a search knows between two characters, if nothing stops it: how many more brackets have been opened
than closed, and what it is within. -/
structure BracketState where
  depth : Int
  mode : BracketMode
deriving DecidableEq, Repr

namespace BracketState

def next (s : BracketState) (c : Char) : BracketState :=
  match s.mode with
  | .escaped => ⟨s.depth, .quoted⟩
  | .quoted => ⟨s.depth, if c = '\\' then .escaped else if c = '"' then .code else .quoted⟩
  | .code => if c = '"' then ⟨s.depth, .quoted⟩ else ⟨s.depth + bracketChange c, .code⟩

def after (s : BracketState) (text : List Char) : BracketState :=
  text.foldl next s

variable {s : BracketState}

theorem next_quoted (noBackslash : c ≠ '\\') (noQuote : c ≠ '"') (depth : Int) :
    (⟨depth, .quoted⟩ : BracketState).next c = ⟨depth, .quoted⟩ := by
  rw [next, if_neg noBackslash, if_neg noQuote]

theorem next_code (noQuote : c ≠ '"') (depth : Int) :
    (⟨depth, .code⟩ : BracketState).next c = ⟨depth + bracketChange c, .code⟩ :=
  if_neg noQuote

theorem after_cons (s : BracketState) (c : Char) (rest : List Char) :
    s.after (c :: rest) = (s.next c).after rest :=
  rfl

theorem after_append (s : BracketState) (text rest : List Char) :
    s.after (text ++ rest) = (s.after text).after rest :=
  List.foldl_append

/-! #### The number of open brackets -/

theorem after_string (closes : Closes '"' body) (depth : Int) :
    (⟨depth, .quoted⟩ : BracketState).after body = ⟨depth, .code⟩ := by
  induction closes with
  | close => rfl
  | escape _ ih => exact ih
  | char noBackslash noQuote _ ih =>
    rw [after_cons, next_quoted noBackslash noQuote]
    exact ih

/-- A string that does not end leaves the brackets as they are. -/
theorem depth_after_unclosed (h : stringContent '"' text = none) (depth : Int) :
    ((⟨depth, .quoted⟩ : BracketState).after text).depth = depth := by
  induction text using stringContent.induct '"' with
  | case1 => rfl
  | case2 => rfl
  | case3 c rest ih =>
    rw [stringContent, Option.map_eq_none_iff] at h
    exact ih h
  | case4 rest noEnd noEscape =>
    rw [stringContent_char (ne_backslash noEnd noEscape), if_pos rfl] at h
    cases h
  | case5 c rest noEnd noEscape other ih =>
    have noBackslash := ne_backslash noEnd noEscape
    rw [stringContent_char noBackslash, if_neg other, Option.map_eq_none_iff] at h
    rw [after_cons, next_quoted noBackslash other]
    exact ih h

/-- Behind a text, as many brackets are open as stand open in it outside of its strings. -/
theorem depth_after (text : List Char) (depth : Int) :
    ((⟨depth, .code⟩ : BracketState).after text).depth = depth + openBrackets text := by
  -- By induction on the text, a whole string at a time.
  induction text using withoutStrings.induct generalizing depth with
  | case1 =>
    rw [openBrackets, withoutStrings]
    exact (Int.add_zero depth).symm
  | case2 rest content taken found ih =>
    have closed := after_string (stringContent_closes found) depth
    have passed : (⟨depth, .code⟩ : BracketState).after ('"' :: rest) =
        (⟨depth, .code⟩ : BracketState).after (rest.drop taken) := by
      have whole := after_append ⟨depth, .quoted⟩ (rest.take taken) (rest.drop taken)
      rwa [List.take_append_drop, closed] at whole
    rw [passed, ih, openBrackets, openBrackets, withoutStrings, if_pos rfl, found]
  | case3 rest unclosed =>
    have same := depth_after_unclosed unclosed depth
    rw [openBrackets, withoutStrings, if_pos rfl, unclosed]
    exact same.trans (Int.add_zero depth).symm
  | case4 c rest noQuote ih =>
    rw [after_cons, next_code noQuote, ih, openBrackets, openBrackets, withoutStrings,
      if_neg noQuote, List.map_cons, List.sum_cons, Int.add_assoc]

/-! #### The search -/

theorem depth_next_nonneg (opened : 0 < s.depth) (c : Char) : 0 ≤ (s.next c).depth := by
  obtain ⟨depth, mode⟩ := s
  simp only at opened
  cases mode with
  | escaped | quoted => exact opened.le
  | code =>
    simp only [next, bracketChange]
    split_ifs <;> simp only <;> omega

/-- One character of a search: it ends where no bracket is open any more. -/
theorem closingBracket_cons (opened : 0 < s.depth) (c : Char) (rest : List Char) :
    closingBracket s.depth.toNat s.mode (c :: rest) =
      if (s.next c).depth = 0 then some 0
      else (closingBracket (s.next c).depth.toNat (s.next c).mode rest).map (· + 1) := by
  obtain ⟨depth, mode⟩ := s
  obtain ⟨n, rfl⟩ := Int.eq_ofNat_of_zero_le opened.le
  have positive : 0 < n := Int.natCast_pos.mp opened
  cases mode with
  | escaped | quoted => exact (if_neg opened.ne').symm
  | code =>
    by_cases quote : c = '"'
    · subst quote
      exact (if_neg opened.ne').symm
    rw [next_code quote, closingBracket, if_neg quote, bracketChange]
    by_cases opens : c = '[' ∨ c = '\x7b'
    · rw [if_pos opens, if_pos opens, if_neg (by simp only; omega)]
      rfl
    rw [if_neg opens, if_neg opens]
    by_cases closes : c = ']' ∨ c = '\x7d'
    · -- The count in the search stops at zero; here at least one bracket is open, so that it goes down by one.
      rw [if_pos closes, if_pos closes]
      have back : ((n : Int) + -1).toNat = n - 1 := by omega
      by_cases last : n ≤ 1
      · rw [if_pos (by simpa using last), if_pos (by simp only; omega)]
      · rw [if_neg (by simpa using last), if_neg (by simp only; omega)]
        simp only [back, Int.toNat_natCast]
    · rw [if_neg closes, if_neg closes, Int.add_zero]
      exact (if_neg opened.ne').symm

variable {later : List Char}

/-- Where a search ends, no bracket is open, and before that there is always one. -/
theorem of_closingBracket_some (opened : 0 < s.depth)
    (h : closingBracket s.depth.toNat s.mode text = some n) :
    n < text.length ∧ (s.after (text.take (n + 1))).depth = 0 ∧
      ∀ m ≤ n, 0 < (s.after (text.take m)).depth := by
  -- As long as the search goes on, a bracket is open behind every character.
  induction text generalizing s n with
  | nil => cases h
  | cons c rest ih =>
    rw [closingBracket_cons opened] at h
    split at h
    · next ends =>
      cases h
      refine ⟨Nat.succ_pos _, ends, fun m le => ?_⟩
      rw [Nat.le_zero.mp le]
      exact opened
    · next goes =>
      obtain ⟨k, found, rfl⟩ := Option.map_eq_some_iff.mp h
      have onward : 0 < (s.next c).depth := lt_of_le_of_ne (depth_next_nonneg opened c) (Ne.symm goes)
      obtain ⟨inside, last, before⟩ := ih onward found
      refine ⟨Nat.succ_lt_succ inside, last, fun m le => ?_⟩
      cases m with
      | zero => exact opened
      | succ m => exact before m (Nat.le_of_succ_le_succ le)

theorem of_closingBracket_none (opened : 0 < s.depth)
    (h : closingBracket s.depth.toNat s.mode text = none) (m : Nat) :
    0 < (s.after (text.take m)).depth := by
  induction text generalizing s m with
  | nil =>
    rw [List.take_nil]
    exact opened
  | cons c rest ih =>
    cases m with
    | zero => exact opened
    | succ m =>
      rw [closingBracket_cons opened] at h
      split at h
      · cases h
      · next goes =>
        have onward : 0 < (s.next c).depth := lt_of_le_of_ne (depth_next_nonneg opened c) (Ne.symm goes)
        exact ih onward (Option.map_eq_none_iff.mp h) m

/-- As long as a bracket is open, a search goes on. -/
theorem closingBracket_append (opened : ∀ m ≤ read.length, 0 < (s.after (read.take m)).depth)
    (later : List Char) : closingBracket s.depth.toNat s.mode (read ++ later) =
      (closingBracket (s.after read).depth.toNat (s.after read).mode later).map (read.length + ·) := by
  induction read generalizing s with
  | nil =>
    simp only [List.nil_append, List.length_nil, Nat.zero_add, Option.map_id']
    rfl
  | cons c more ih =>
    have here : 0 < s.depth := opened 0 (Nat.zero_le _)
    have goes : 0 < (s.next c).depth := opened 1 (Nat.succ_le_succ (Nat.zero_le _))
    have onward := ih (s := s.next c) fun m le => opened (m + 1) (Nat.succ_le_succ le)
    rw [List.cons_append, closingBracket_cons here, if_neg goes.ne', onward, Option.map_map]
    congr 1
    funext n
    simp only [Function.comp_apply, List.length_cons]
    omega

end BracketState

open BracketState

/-! ### The bracket that matches the first one -/

theorem matchingBracket_cons (opens : c = '[' ∨ c = '\x7b') (rest : List Char) :
    matchingBracket (c :: rest) = (closingBracket 1 .code rest).map (· + 1) := by
  rcases opens with rfl | rfl <;> rfl

/-- The brackets that are open in the start of a text, as a search counts them behind the first one. -/
theorem openBrackets_take (opens : c = '[' ∨ c = '\x7b') (rest : List Char) (m : Nat) :
    openBrackets ((c :: rest).take (m + 1)) =
      ((⟨1, .code⟩ : BracketState).after (rest.take m)).depth := by
  have start : (⟨0, .code⟩ : BracketState).next c = ⟨1, .code⟩ := by
    rcases opens with rfl | rfl <;> rfl
  have counted := depth_after ((c :: rest).take (m + 1)) 0
  rw [List.take_succ_cons, after_cons, start, Int.zero_add] at counted
  exact counted.symm

theorem of_matchingBracket_some (opens : c = '[' ∨ c = '\x7b')
    (h : matchingBracket (c :: rest) = some n) :
    n < (c :: rest).length ∧ openBrackets ((c :: rest).take (n + 1)) = 0 ∧
      ∀ m < n, 1 ≤ openBrackets ((c :: rest).take (m + 1)) := by
  rw [matchingBracket_cons opens] at h
  obtain ⟨k, found, rfl⟩ := Option.map_eq_some_iff.mp h
  obtain ⟨inside, last, before⟩ := of_closingBracket_some (s := ⟨1, .code⟩) Int.one_pos found
  refine ⟨Nat.succ_lt_succ inside, ?_, fun m less => ?_⟩
  · rw [openBrackets_take opens]
    exact last
  · rw [openBrackets_take opens]
    exact before m (Nat.le_of_lt_succ less)

theorem of_matchingBracket_none (opens : c = '[' ∨ c = '\x7b')
    (h : matchingBracket (c :: rest) = none) (m : Nat) :
    1 ≤ openBrackets ((c :: rest).take (m + 1)) := by
  rw [matchingBracket_cons opens, Option.map_eq_none_iff] at h
  rw [openBrackets_take opens]
  exact of_closingBracket_none (s := ⟨1, .code⟩) Int.one_pos h m

/-- The match is the first bracket behind which no more brackets are open. -/
theorem matchingBracket_eq_some_iff (opens : c = '[' ∨ c = '\x7b') :
    matchingBracket (c :: rest) = some n ↔
      IsLeast {n | n < (c :: rest).length ∧ openBrackets ((c :: rest).take (n + 1)) = 0} n := by
  have least {n : Nat} (h : matchingBracket (c :: rest) = some n) :
      IsLeast {n | n < (c :: rest).length ∧ openBrackets ((c :: rest).take (n + 1)) = 0} n := by
    obtain ⟨inside, last, before⟩ := of_matchingBracket_some opens h
    refine ⟨⟨inside, last⟩, ?_⟩
    rintro m ⟨-, balanced⟩
    by_contra less
    have opened := before m (Nat.lt_of_not_le less)
    omega
  constructor
  · exact least
  · intro isLeast
    cases found : matchingBracket (c :: rest) with
    | none =>
      have opened := of_matchingBracket_none opens found n
      have balanced := isLeast.1.2
      omega
    | some m => rw [(least found).unique isLeast]

theorem matchingBracket_eq_none_iff (opens : c = '[' ∨ c = '\x7b') :
    matchingBracket (c :: rest) = none ↔
      ∀ n < (c :: rest).length, openBrackets ((c :: rest).take (n + 1)) ≠ 0 := by
  constructor
  · intro none n _ balanced
    have opened := of_matchingBracket_none opens none n
    omega
  · intro never
    cases found : matchingBracket (c :: rest) with
    | none => rfl
    | some m =>
      obtain ⟨inside, last, -⟩ := of_matchingBracket_some opens found
      exact absurd last (never m inside)

/-- A bracket is open as long as the match is not found. -/
theorem openBrackets_pos (opens : c = '[' ∨ c = '\x7b')
    (goes : ∀ k ∈ matchingBracket (c :: rest), n < k) :
    1 ≤ openBrackets ((c :: rest).take (n + 1)) := by
  cases found : matchingBracket (c :: rest) with
  | none => exact of_matchingBracket_none opens found n
  | some k =>
    obtain ⟨-, -, before⟩ := of_matchingBracket_some opens found
    exact before n (goes k found)

/-- Behind a part of a text in which the match is not found, a search goes on with as many brackets as are
open in that part, whatever follows. -/
theorem closingBracket_read (opens : c = '[' ∨ c = '\x7b')
    (goes : ∀ k ∈ matchingBracket (c :: (read ++ rest)), read.length < k) :
    ∃ (depth : Nat) (mode : BracketMode), 1 ≤ depth ∧ (depth : Int) = openBrackets (c :: read) ∧
      ∀ later, closingBracket 1 .code (read ++ later) =
        (closingBracket depth mode later).map (read.length + ·) := by
  have opened : ∀ m ≤ read.length, 0 < ((⟨1, .code⟩ : BracketState).after (read.take m)).depth := by
    intro m le
    have positive := openBrackets_pos opens fun k found => lt_of_le_of_lt le (goes k found)
    rw [openBrackets_take opens, List.take_append_of_le_length le] at positive
    exact positive
  have last := opened read.length (Nat.le_refl _)
  have counted := openBrackets_take opens read read.length
  rw [List.take_length] at last counted
  rw [← List.length_cons, List.take_length] at counted
  refine ⟨_, _, ?_, ?_, closingBracket_append opened⟩
  · exact Int.lt_toNat.mpr last
  · rw [counted]
    exact Int.toNat_of_nonneg last.le

end PromptScript.Source
