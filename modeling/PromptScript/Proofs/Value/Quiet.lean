import PromptScript.Proofs.Source.Outline
import PromptScript.Proofs.Value.Spelling

/-!
JSON text is quiet: its strings are closed, its brackets match, and every colon and every comma stands inside
of brackets.
-/
namespace PromptScript.Value

open Source

variable {least : Int} {text body content : List Char} {c : Char} {n : Nat} {phrase : Phrase} {v : Value}

/-! ### Strings -/

theorem hexValue?_some (h : hexValue? c = some n) : c ≠ '\\' ∧ c ≠ '"' := by
  have noBackslash : hexValue? '\\' = none := by decide
  have noQuote : hexValue? '"' = none := by decide
  constructor <;> rintro rfl <;> simp_all

theorem closes_digits (digits : ∀ d ∈ text, (hexValue? d).isSome = true) (closes : Closes '"' body) :
    Closes '"' (text ++ body) := by
  induction text with
  | nil => exact closes
  | cons d more ih =>
    obtain ⟨n, value⟩ := Option.isSome_iff_exists.mp (digits d List.mem_cons_self)
    obtain ⟨noBackslash, noQuote⟩ := hexValue?_some value
    exact .char noBackslash noQuote (ih fun e member => digits e (List.mem_cons_of_mem d member))

/-- No character of a string is taken for the quote that closes it. -/
theorem closes_content (h : IsContent content) : Closes '"' (content ++ ['"']) := by
  induction h with
  | nil => exact .close
  | char _ noQuote noBackslash _ ih => exact .char noBackslash noQuote ih
  | mark _ _ ih => exact .escape ih
  | code _ digits _ ih =>
    rw [List.cons_append, List.cons_append, List.append_assoc]
    exact .escape (closes_digits digits ih)

theorem quiet_string (h : IsContent content) : Quiet least ('"' :: (content ++ ['"'])) :=
  .string rfl (closes_content h)

/-! ### Blanks and numbers -/

theorem quiet_blanks (h : IsBlanks text) : Quiet least text :=
  .of_forall fun c member => isPlain_of (by decide) (h c member)

theorem quiet_number (h : IsNumber text) : Quiet least text :=
  .of_forall fun c member => isPlain_of (by decide) (List.all_eq_true.mp h.all_isNumberChar c member)

/-! ### Phrases -/

/-- How many brackets a phrase has to stand in for its commas and colons to go unnoticed. -/
def Phrase.level : Phrase → Int
  | .container | .value | .item => 0
  | .items | .entry | .entries => 1

theorem quiet_of_spells (h : phrase.Spells text) : Quiet phrase.level text := by
  have divider {c : Char} {text : List Char} (divides : isDivider c = true) (after : Quiet 1 text) :
      Quiet 1 (c :: text) := by
    have here : Quiet 1 [c] := .divider divides Int.one_pos
    exact here.append after
  -- A list or a mapping is one level below its items or entries, where dividers go unnoticed.
  induction h with
  | emptyList blanks => exact .enclosed (.inl rfl) (.inl rfl) (quiet_blanks blanks)
  | list _ ih => exact .enclosed (.inl rfl) (.inl rfl) ih
  | emptyMap blanks => exact .enclosed (.inr rfl) (.inr rfl) (quiet_blanks blanks)
  | map _ ih => exact .enclosed (.inr rfl) (.inr rfl) ih
  | container _ ih | lastEntry _ ih => exact ih
  | null | true | false => exact .of_forall (List.all_eq_true.mp (by decide))
  | number number => exact quiet_number number
  | string content => exact quiet_string content
  | item before _ behind ih => exact ((quiet_blanks before).append ih).append (quiet_blanks behind)
  | lastItem _ ih => exact ih.mono Int.one_nonneg
  | moreItems _ _ ih later => exact (ih.mono Int.one_nonneg).append (divider rfl later)
  | moreEntries _ _ ih later => exact ih.append (divider rfl later)
  | entry before content behind _ ih =>
    have key : Quiet 1 _ := (quiet_blanks before).append (quiet_string content)
    exact (key.append (quiet_blanks behind)).append (divider rfl (ih.mono Int.one_nonneg))

/-- A text that is JSON as a whole is quiet. -/
theorem quiet_of_ofText? (h : ofText? text = some v) : Quiet 0 text :=
  quiet_of_spells (spells_of_ofTextWithin? h)

end PromptScript.Value
