import Mathlib
import PromptScript.Agent.Words

/-!
Which texts are words of a command line as they stand. A plain character adds itself to the word it
stands in; any other one costs the line at least one character, so that a text with one of them in it
never comes out whole.
-/
namespace PromptScript.Words

/-- Whether a character means itself wherever it stands in a word. -/
def isPlain (c : Char) : Bool :=
  !(isSeparator c || c = '\'' || c = '"' || c = '\\')

variable {text word rest : List Char} {words : List (List Char)} {c : Char} {mode : Mode}

theorem isPlain_eq_true : isPlain c = true ↔
    isSeparator c = false ∧ c ≠ '\'' ∧ c ≠ '"' ∧ c ≠ '\\' := by
  simp [isPlain, and_assoc]

/-! ### Plain words -/

theorem splitFrom_plain (plain : ∀ c ∈ word, isPlain c = true) (text rest : List Char) :
    splitFrom (.word text) (word ++ rest) = splitFrom (.word (text ++ word)) rest := by
  induction word generalizing text with
  | nil => rw [List.nil_append, List.append_nil]
  | cons c more ih =>
    obtain ⟨here, later⟩ := List.forall_mem_cons.mp plain
    obtain ⟨noSeparator, noQuote, noDouble, noEscape⟩ := isPlain_eq_true.mp here
    have step : (Mode.word text).step c = (none, .word (text ++ [c])) := by
      simp [Mode.step, noSeparator, noQuote, noDouble, noEscape]
    rw [List.cons_append, splitFrom, step]
    simp only [Option.toList_none, List.nil_append, Option.map_id', ih later, List.append_assoc,
      List.singleton_append]

/-- A word starts with a plain character that does not start a comment. -/
theorem splitFrom_start (plain : isPlain c = true) (noComment : c ≠ '#') (rest : List Char) :
    splitFrom .between (c :: rest) = splitFrom (.word [c]) rest := by
  obtain ⟨noSeparator, noQuote, noDouble, noEscape⟩ := isPlain_eq_true.mp plain
  have step : Mode.between.step c = (none, .word [c]) := by
    simp [Mode.step, noSeparator, noQuote, noDouble, noEscape, noComment]
  rw [splitFrom, step]
  simp

theorem splitFrom_separator (separates : isSeparator c = true) (text rest : List Char) :
    splitFrom (.word text) (c :: rest) = (splitFrom .between rest).map (text :: ·) := by
  have noQuote : c ≠ '\'' := by rintro rfl; cases separates
  have noDouble : c ≠ '"' := by rintro rfl; cases separates
  have noEscape : c ≠ '\\' := by rintro rfl; cases separates
  have step : (Mode.word text).step c = (some text, .between) := by
    simp [Mode.step, separates, noQuote, noDouble, noEscape]
  rw [splitFrom, step]
  rfl

/-- A plain word in front of a separator leaves the rest of the line to itself. -/
theorem splitFrom_word (nonempty : word ≠ []) (plain : ∀ c ∈ word, isPlain c = true)
    (noComment : word.head? ≠ some '#') (separates : isSeparator c = true) (rest : List Char) :
    splitFrom .between (word ++ c :: rest) = (splitFrom .between rest).map (word :: ·) := by
  obtain ⟨first, more, rfl⟩ := List.exists_cons_of_ne_nil nonempty
  obtain ⟨here, later⟩ := List.forall_mem_cons.mp plain
  have start : first ≠ '#' := by
    rintro rfl
    exact noComment rfl
  rw [List.cons_append, splitFrom_start here start, splitFrom_plain later,
    splitFrom_separator separates]
  rfl

/-! ### How many characters come out -/

/-- How many characters have been taken that may still come out. -/
def Mode.held : Mode → Nat
  | .between | .comment => 0
  | .escape => 1
  | .word text | .single text | .double text => text.length
  | .wordEscape text | .doubleEscape text => text.length + 1

def count (words : List (List Char)) : Nat :=
  (words.map List.length).sum

/-- A character adds at most itself to what may come out. -/
theorem count_step (mode : Mode) (c : Char) :
    count (mode.step c).1.toList + (mode.step c).2.held ≤ mode.held + 1 := by
  cases mode <;> simp only [Mode.step] <;> split_ifs <;> simp [count, Mode.held] <;> omega

theorem count_finish (h : mode.finish = some words) : count words ≤ mode.held := by
  cases mode <;> simp only [Mode.finish, Option.some.injEq, reduceCtorEq] at h <;> subst h <;>
    simp [count, Mode.held]

/-- No more characters come out of a line than go in. -/
theorem count_splitFrom (h : splitFrom mode text = some words) :
    count words ≤ mode.held + text.length := by
  induction text generalizing mode words with
  | nil => exact count_finish h
  | cons c rest ih =>
    rw [splitFrom, Option.map_eq_some_iff] at h
    obtain ⟨later, split, rfl⟩ := h
    have bound := ih split
    have step := count_step mode c
    simp only [count, List.map_append, List.sum_append, List.length_cons] at bound step ⊢
    omega

/-! ### Texts that stay one word -/

/-- Behind a plain start, a character that is not plain keeps the text from being one word. -/
theorem splitFrom_ne_single (notPlain : isPlain c = false)
    (behind : c = '\\' → rest ≠ []) (text : List Char) :
    splitFrom (.word text) (c :: rest) ≠ some [text ++ c :: rest] := by
  intro whole
  have lost (mode : Mode) (step : (Mode.word text).step c = (none, mode))
      (held : mode.held = text.length) : False := by
    rw [splitFrom, step, Option.map_eq_some_iff] at whole
    obtain ⟨words, split, same⟩ := whole
    have bound := count_splitFrom split
    have all : count words = text.length + (rest.length + 1) := by
      rw [show words = [text ++ c :: rest] from same]
      simp [count]
    omega
  cases separates : isSeparator c with
  | true =>
    rw [splitFrom_separator separates, Option.map_eq_some_iff] at whole
    obtain ⟨words, _, same⟩ := whole
    have short := congrArg List.length (List.cons.inj same).1
    simp at short
  | false =>
    by_cases quote : c = '\''
    · subst quote
      exact lost (.single text) rfl rfl
    by_cases double : c = '"'
    · subst double
      exact lost (.double text) rfl rfl
    have escape : c = '\\' := by
      by_contra other
      rw [isPlain_eq_true.mpr ⟨separates, quote, double, other⟩] at notPlain
      cases notPlain
    -- The character behind the backslash stands in its place.
    subst escape
    obtain ⟨d, more, rfl⟩ := List.exists_cons_of_ne_nil (behind rfl)
    have steps : splitFrom (.word text) ('\\' :: d :: more) =
        splitFrom (.word (if d = '\n' then text else text ++ [d])) more := by
      simp [splitFrom, Mode.step]
    rw [steps] at whole
    have bound := count_splitFrom whole
    have shorter : (if d = '\n' then text else text ++ [d]).length ≤ text.length + 1 := by
      split <;> simp
    simp only [count, List.map_cons, List.map_nil, List.sum_cons, List.sum_nil, List.length_append,
      List.length_cons, Mode.held] at bound
    omega

/-- A text that starts and ends plainly is one word as it stands exactly if all of it is plain. -/
theorem splitFrom_eq_single_iff (start : isPlain c = true) (noComment : c ≠ '#')
    (last : (c :: rest).getLast? ≠ some '\\') :
    splitFrom .between (c :: rest) = some [c :: rest] ↔ ∀ d ∈ c :: rest, isPlain d = true := by
  rw [splitFrom_start start noComment]
  constructor
  · intro whole
    refine List.forall_mem_cons.mpr ⟨start, ?_⟩
    by_contra strange
    have special : ∃ d ∈ rest, isPlain d ≠ true := by simpa using strange
    have split := List.takeWhile_append_dropWhile (p := isPlain) (l := rest)
    have plain : ∀ d ∈ rest.takeWhile isPlain, isPlain d = true :=
      fun d member => List.mem_takeWhile_imp member
    cases dropped : rest.dropWhile isPlain with
    | nil =>
      obtain ⟨d, member, other⟩ := special
      exact other (List.dropWhile_eq_nil_iff.mp dropped d member)
    | cons d behind =>
      have notPlain : isPlain d = false := by
        have first := List.head?_dropWhile_not isPlain rest
        rw [dropped] at first
        simpa using first
      rw [dropped] at split
      rw [← split, splitFrom_plain plain] at whole
      refine splitFrom_ne_single notPlain (fun escape nothing => last ?_) _ whole
      rw [← split, nothing, escape, ← List.cons_append, List.getLast?_append]
      rfl
  · intro plain
    have whole := splitFrom_plain (List.forall_mem_cons.mp plain).2 [c] []
    rw [List.append_nil] at whole
    rw [whole]
    rfl

end PromptScript.Words
