import Mathlib
import PromptScript.Proofs.Computation
import PromptScript.Source.LogicalLine
import PromptScript.Source.Scan

/-!
The outline of a text: what is left when each quoted string is cut down to its opening quote. Where a
line ends and where its colon is depend on the outline alone.
-/
namespace PromptScript.Source

/-- What stands behind the opening quote of a string, up to its closing one. A backslash takes the next
character with it. -/
inductive Closes (quote : Char) : List Char → Prop
  | close : Closes quote [quote]
  | escape {c : Char} {body : List Char} : Closes quote body → Closes quote ('\\' :: c :: body)
  | char {c : Char} {body : List Char} :
    c ≠ '\\' → c ≠ quote → Closes quote body → Closes quote (c :: body)

/-- A text whose strings are all closed, and its outline. -/
inductive Outline : List Char → List Char → Prop
  | nil : Outline [] []
  | char {c : Char} {text bare : List Char} :
    isQuote c = false → Outline text bare → Outline (c :: text) (c :: bare)
  | string {quote : Char} {body text bare : List Char} :
    isQuote quote = true → Closes quote body → Outline text bare →
    Outline (quote :: (body ++ text)) (quote :: bare)

variable {text text' bare bare' body rest : List Char} {c quote : Char}

namespace Outline

theorem append (h : Outline text bare) (h' : Outline text' bare') :
    Outline (text ++ text') (bare ++ bare') := by
  induction h with
  | nil => exact h'
  | char plain _ ih => exact .char plain ih
  | @string quote body text bare opens closes _ ih =>
    have whole := Outline.string opens closes ih
    rwa [← List.append_assoc] at whole

theorem of_forall (plain : ∀ c ∈ text, isQuote c = false) : Outline text text := by
  induction text with
  | nil => exact .nil
  | cons c more ih =>
    exact .char (plain c List.mem_cons_self) (ih fun d member => plain d (List.mem_cons_of_mem c member))

end Outline

theorem isQuote_iff : isQuote c = true ↔ c = '"' ∨ c = '\'' := by
  simp [isQuote]

/-- Outside of brackets, a colon ends what an opener goes over, and a comma an argument. -/
def isDivider (c : Char) : Bool :=
  c = ':' || c = ','

theorem ne_of_isQuote (h : isQuote quote = true) : quote ≠ '\n' ∧ quote ≠ '<' ∧
    isDivider quote = false ∧ quote ≠ '\\' ∧ bracketStep quote = 0 := by
  rcases isQuote_iff.mp h with rfl | rfl <;> decide

/-- A text at whose end no backslash stands that would take the next character with it. -/
def EndsPlainly (text : List Char) : Prop :=
  text.getLast? ≠ some '\\'

namespace EndsPlainly

theorem append (h : EndsPlainly text) (h' : EndsPlainly text') : EndsPlainly (text ++ text') := by
  intro last
  rw [List.getLast?_append, Option.or_eq_some_iff] at last
  rcases last with behind | ⟨-, front⟩
  · exact h' behind
  · exact h front

/-- A text ends as any part of it ends that reaches to its end, unless that part is empty. -/
theorem of_suffix (suffix : text' <:+ text) (nonempty : text' ≠ []) (h : EndsPlainly text') :
    EndsPlainly text := by
  obtain ⟨front, rfl⟩ := suffix
  intro last
  rw [List.getLast?_append_of_ne_nil _ nonempty] at last
  exact h last

theorem of_not_mem (absent : '\\' ∉ text) : EndsPlainly text :=
  fun last => absent (List.mem_of_getLast? last)

theorem char (other : c ≠ '\\') : EndsPlainly [c] :=
  of_not_mem fun member => other (List.mem_singleton.mp member).symm

theorem cons (other : c ≠ '\\') (h : EndsPlainly text) : EndsPlainly (c :: text) :=
  (char other).append h

end EndsPlainly

theorem Closes.endsPlainly (opens : isQuote quote = true) (closes : Closes quote body) :
    EndsPlainly body := by
  have noBackslash := (ne_of_isQuote opens).2.2.2.1
  induction closes with
  | close => exact .char noBackslash
  | @escape c body closes ih =>
    refine .of_suffix ⟨['\\', c], rfl⟩ ?_ ih
    rintro rfl
    cases closes
  | char other _ _ ih => exact .cons other ih

/-! ### The colon of an opener -/

/-- How deep in brackets an outline ends, unless it has a divider outside of all brackets. -/
def depthBehind (depth : Int) : List Char → Option Int
  | [] => some depth
  | c :: rest =>
    if isDivider c = true ∧ depth = 0 then none else depthBehind (depth + bracketStep c) rest

theorem depthBehind_append (depth : Int) (bare bare' : List Char) :
    depthBehind depth (bare ++ bare') = (depthBehind depth bare).bind (depthBehind · bare') := by
  induction bare generalizing depth with
  | nil => rfl
  | cons c more ih =>
    simp only [List.cons_append, depthBehind]
    split
    · rfl
    · exact ih _

theorem colonIndex_string (opens : isQuote quote = true) (closes : Closes quote body) (depth : Int) :
    colonIndex depth (some quote) (body ++ rest) =
      (colonIndex depth none rest).map (· + body.length) := by
  have noBackslash := (ne_of_isQuote opens).2.2.2.1
  induction closes with
  | close =>
    rw [List.singleton_append, colonIndex_quoted noBackslash, if_pos rfl]
    rfl
  | escape _ ih =>
    simp only [List.cons_append, colonIndex, ih, Option.map_map]
    rfl
  | char noBackslash' noQuote _ ih =>
    rw [List.cons_append, colonIndex_quoted noBackslash', if_neg noQuote, ih, Option.map_map]
    rfl

/-- A quote is no divider, and changes no depth. -/
theorem depthBehind_quote (opens : isQuote quote = true) (depth : Int) (bare : List Char) :
    depthBehind depth (quote :: bare) = depthBehind depth bare := by
  obtain ⟨_, _, noDivider, _, flat⟩ := ne_of_isQuote opens
  rw [depthBehind, flat, add_zero]
  simp [noDivider]

/-- The search for a colon steps over a text that has none outside of brackets and strings. -/
theorem colonIndex_outline (outline : Outline text bare) {depth behind : Int}
    (hidden : depthBehind depth bare = some behind) :
    colonIndex depth none (text ++ rest) = (colonIndex behind none rest).map (· + text.length) := by
  induction outline generalizing depth with
  | nil =>
    cases hidden
    simp
  | @char c text bare plain _ ih =>
    rw [depthBehind] at hidden
    split at hidden
    · cases hidden
    · next inside =>
      have noColon : ¬(c = ':' ∧ depth = 0) := fun h => inside ⟨by rw [h.1]; rfl, h.2⟩
      simp only [List.cons_append, colonIndex, plain, if_neg noColon, Bool.false_eq_true, if_false,
        ih hidden, Option.map_map]
      rfl
  | @string quote body text bare opens closes _ ih =>
    rw [depthBehind_quote opens] at hidden
    rw [List.cons_append, colonIndex]
    simp only [opens, if_true, List.append_assoc, colonIndex_string opens closes, ih hidden,
      Option.map_map]
    congr 1
    funext n
    simp only [Function.comp_apply, List.length_cons, List.length_append]
    omega

/-! ### The end of a line -/

/-- Whether two characters that stand side by side do not open a text block. -/
def Apart (c d : Char) : Prop :=
  ¬(c = '<' ∧ d = '<')

theorem except_map_add (result : Except Fault Nat) (m n : Nat) :
    (result.map (· + m)).map (· + n) = result.map (· + (m + n)) := by
  cases result with
  | error fault => rfl
  | ok k => exact congrArg Except.ok (Nat.add_assoc k m n)

theorem lineLength_plain {c : Char} (noNewline : c ≠ '\n') (plain : isQuote c = false)
    (apart : ∀ d ∈ rest.head?, Apart c d) (offset : Nat) :
    lineLength .code offset (c :: rest) = (lineLength .code (offset + 1) rest).map (· + 1) := by
  rw [lineLength]
  · rw [if_neg noNewline, if_neg]
    rw [← isQuote, plain]
    decide
  · rintro more rfl rfl
    exact apart '<' rfl ⟨rfl, rfl⟩

theorem lineLength_opening (opens : isQuote quote = true) (offset : Nat) (rest : List Char) :
    lineLength .code offset (quote :: rest) =
      (lineLength (.quoted quote) (offset + 1) rest).map (· + 1) := by
  obtain ⟨noNewline, noAngle, _⟩ := ne_of_isQuote opens
  rw [lineLength]
  · rw [if_neg noNewline, if_pos (by rw [← isQuote]; exact opens)]
  · intro _ same
    exact absurd same noAngle

theorem lineLength_string (opens : isQuote quote = true) (closes : Closes quote body)
    (single : '\n' ∉ body) (offset : Nat) : lineLength (.quoted quote) offset (body ++ rest) =
      (lineLength .code (offset + body.length) rest).map (· + body.length) := by
  obtain ⟨noNewline, _, _, noBackslash, _⟩ := ne_of_isQuote opens
  induction closes generalizing offset with
  | close =>
    rw [List.singleton_append, lineLength_quoted noNewline noBackslash, if_pos rfl]
    rfl
  | @escape c body _ ih =>
    rw [List.mem_cons, List.mem_cons, not_or, not_or] at single
    simp only [List.cons_append, lineLength, Char.reduceEq, if_false, ih single.2.2 (offset + 2),
      except_map_add, List.length_cons, Nat.add_assoc, Nat.add_comm 2]
  | @char c body noBackslash' noQuote _ ih =>
    rw [List.mem_cons, not_or] at single
    rw [List.cons_append, lineLength_quoted (Ne.symm single.1) noBackslash', if_neg noQuote,
      ih single.2 (offset + 1), except_map_add, List.length_cons, Nat.add_assoc,
      Nat.add_comm 1]

theorem getLast?_ne_of_cons {d : Char} (last : (c :: bare).getLast? ≠ some d) :
    bare.getLast? ≠ some d := by
  intro same
  cases bare with
  | nil => cases same
  | cons _ more => exact last (by rw [List.getLast?_cons_cons]; exact same)

/-- What follows a character in a text is what follows it in the outline of the text. -/
theorem apart_of_outline (outline : Outline text bare) (apart : (c :: bare).IsChain Apart)
    (last : (c :: bare).getLast? ≠ some '<') : ∀ d ∈ (text ++ rest).head?, Apart c d := by
  intro d member
  cases outline with
  | nil =>
    rintro ⟨rfl, -⟩
    exact last rfl
  | char | string =>
    cases member
    exact (List.isChain_cons_cons.mp apart).1

/-- A line goes on over a text on one line that opens no text block. -/
theorem lineLength_outline (outline : Outline text bare) (single : '\n' ∉ text)
    (apart : bare.IsChain Apart) (last : bare.getLast? ≠ some '<') (offset : Nat) :
    lineLength .code offset (text ++ rest) =
      (lineLength .code (offset + text.length) rest).map (· + text.length) := by
  induction outline generalizing offset with
  | nil =>
    simp only [List.nil_append, List.length_nil, Nat.add_zero]
    cases lineLength .code offset rest <;> rfl
  | @char c text bare plain outline ih =>
    rw [List.mem_cons, not_or] at single
    have next : ∀ d ∈ (text ++ rest).head?, Apart c d := apart_of_outline outline apart last
    have last' := getLast?_ne_of_cons last
    rw [List.cons_append, lineLength_plain (Ne.symm single.1) plain next,
      ih single.2 apart.tail last' (offset + 1), except_map_add, List.length_cons, Nat.add_assoc,
      Nat.add_comm 1]
  | @string quote body text bare opens closes _ ih =>
    rw [List.mem_cons, List.mem_append, not_or, not_or] at single
    have last' := getLast?_ne_of_cons last
    have inner := ih single.2.2 apart.tail last' (offset + 1 + body.length)
    rw [List.cons_append, lineLength_opening opens, List.append_assoc,
      lineLength_string opens closes single.2.1, inner, except_map_add, except_map_add]
    have place : offset + 1 + body.length + text.length =
        offset + (quote :: (body ++ text)).length := by
      simp only [List.length_cons, List.length_append]
      omega
    have taken : text.length + (body.length + 1) = (quote :: (body ++ text)).length := by
      simp only [List.length_cons, List.length_append]
      omega
    rw [place, taken]

theorem lt_of_lineLength_string {n : Nat} (opens : isQuote quote = true) (closes : Closes quote body)
    (newline : '\n' ∈ body) (untaken : ¬['\\', '\n'] <:+: body) {offset : Nat}
    (h : lineLength (.quoted quote) offset (body ++ rest) = .ok n) : n < body.length := by
  induction closes generalizing offset n with
  | close => exact absurd (List.mem_singleton.mp newline).symm (ne_of_isQuote opens).1
  | @escape c body _ ih =>
    have noNewline : '\n' ≠ c := by
      rintro rfl
      exact untaken ⟨[], body, rfl⟩
    have later : '\n' ∈ body := by simpa [noNewline] using newline
    have untaken' : ¬['\\', '\n'] <:+: body := fun inside =>
      untaken (inside.trans (List.suffix_append ['\\', c] body).isInfix)
    simp only [List.cons_append, lineLength, Char.reduceEq, if_false] at h
    obtain ⟨m, read, rfl⟩ := Computation.except_map_ok_iff.mp h
    exact Nat.add_lt_add_right (ih later untaken' read) 2
  | @char c body noBackslash noQuote _ ih =>
    by_cases here : c = '\n'
    · subst here
      obtain rfl : 0 = n := by simpa [lineLength] using h
      exact Nat.succ_pos _
    · have later : '\n' ∈ body := (List.mem_cons.mp newline).resolve_left (Ne.symm here)
      have untaken' := fun inside => untaken (List.infix_cons inside)
      rw [List.cons_append, lineLength_quoted here noBackslash, if_neg noQuote] at h
      obtain ⟨m, read, rfl⟩ := Computation.except_map_ok_iff.mp h
      exact Nat.add_lt_add_right (ih later untaken' read) 1

/-- A line ends inside of a text that opens no text block, if that has more than one line. -/
theorem lt_of_lineLength_outline {n : Nat} (outline : Outline text bare) (newline : '\n' ∈ text)
    (untaken : ¬['\\', '\n'] <:+: text) (apart : bare.IsChain Apart) (last : bare.getLast? ≠ some '<')
    {offset : Nat} (h : lineLength .code offset (text ++ rest) = .ok n) : n < text.length := by
  induction outline generalizing offset n with
  | nil => cases newline
  | @char c text bare plain outline ih =>
    by_cases here : c = '\n'
    · subst here
      obtain rfl : 0 = n := by simpa [lineLength] using h
      exact Nat.succ_pos _
    · have later : '\n' ∈ text := (List.mem_cons.mp newline).resolve_left (Ne.symm here)
      have untaken' := fun inside => untaken (List.infix_cons inside)
      have next : ∀ d ∈ (text ++ rest).head?, Apart c d := apart_of_outline outline apart last
      rw [List.cons_append, lineLength_plain here plain next] at h
      obtain ⟨m, read, rfl⟩ := Computation.except_map_ok_iff.mp h
      exact Nat.add_lt_add_right (ih later untaken' apart.tail (getLast?_ne_of_cons last) read) 1
  | @string quote body text bare opens closes _ ih =>
    have last' := getLast?_ne_of_cons last
    rw [List.cons_append, lineLength_opening opens, List.append_assoc] at h
    obtain ⟨m, read, rfl⟩ := Computation.except_map_ok_iff.mp h
    rw [List.length_cons, List.length_append]
    have inBody : ['\\', '\n'] <:+: body → False := fun inside =>
      untaken (inside.trans ((List.prefix_append body text).isInfix.trans
        (List.suffix_cons quote _).isInfix))
    by_cases here : '\n' ∈ body
    · have := lt_of_lineLength_string opens closes here inBody read
      omega
    · have later : '\n' ∈ text := by
        simpa [here, Ne.symm (ne_of_isQuote opens).1] using newline
      have untaken' : ¬['\\', '\n'] <:+: text := fun inside =>
        untaken (inside.trans ((List.suffix_append body text).isInfix.trans
          (List.suffix_cons quote _).isInfix))
      rw [lineLength_string opens closes here] at read
      obtain ⟨k, behind, rfl⟩ := Computation.except_map_ok_iff.mp read
      have := ih later untaken' apart.tail last' behind
      omega

/-! ### Quiet texts -/

/-- A text that neither a search for a colon nor one for the end of a line takes notice of, as long as
it stands inside at least `least` brackets. -/
def Quiet (least : Int) (text : List Char) : Prop :=
  ∃ bare, Outline text bare ∧ '<' ∉ bare ∧
    ∀ depth, least ≤ depth → depthBehind depth bare = some depth

/-- A character that no search takes notice of. -/
def isPlain (c : Char) : Bool :=
  !isQuote c && c ≠ '<' && !isDivider c && c ≠ '\\' && bracketStep c = 0

/-- A class of characters to which no quote, no bracket, no divider, no angle and no backslash belongs. -/
theorem isPlain_of {p : Char → Bool}
    (apart : (['"', '\'', '<', ':', ',', '\\', '(', '[', '{', ')', ']', '}'].all fun d => !p d) = true)
    (h : p c = true) : isPlain c = true := by
  have other (d : Char) (none : p d = false) : c ≠ d := by
    rintro rfl
    rw [none] at h
    cases h
  simp only [List.all_cons, List.all_nil, Bool.and_true, Bool.and_eq_true, Bool.not_eq_true'] at apart
  obtain ⟨double, single, angle, colon, comma, backslash, paren, list, map, parenEnd, listEnd,
    mapEnd⟩ := apart
  simp [isPlain, isQuote, isDivider, bracketStep, other _ double, other _ single, other _ angle,
    other _ colon, other _ comma, other _ backslash, other _ paren, other _ list, other _ map,
    other _ parenEnd, other _ listEnd, other _ mapEnd]

theorem EndsPlainly.of_forall (plain : ∀ c ∈ text, isPlain c = true) : EndsPlainly text :=
  .of_not_mem fun member => absurd (plain '\\' member) (by decide)

namespace Quiet

variable {least least' : Int}

theorem nil : Quiet least [] :=
  ⟨[], .nil, List.not_mem_nil, fun _ _ => rfl⟩

theorem append (h : Quiet least text) (h' : Quiet least text') : Quiet least (text ++ text') := by
  obtain ⟨bare, outline, noAngle, level⟩ := h
  obtain ⟨bare', outline', noAngle', level'⟩ := h'
  refine ⟨bare ++ bare', outline.append outline', ?_, fun depth deep => ?_⟩
  · rw [List.mem_append, not_or]
    exact ⟨noAngle, noAngle'⟩
  · rw [depthBehind_append, level depth deep, Option.bind_some, level' depth deep]

theorem mono (le : least ≤ least') (h : Quiet least text) : Quiet least' text := by
  obtain ⟨bare, outline, noAngle, level⟩ := h
  exact ⟨bare, outline, noAngle, fun depth deep => level depth (le.trans deep)⟩

theorem of_forall (plain : ∀ c ∈ text, isPlain c = true) : Quiet least text := by
  simp only [isPlain, Bool.and_eq_true, Bool.not_eq_true', decide_eq_true_eq] at plain
  refine ⟨text, .of_forall fun c member => (plain c member).1.1.1.1, fun member => ?_, fun depth _ => ?_⟩
  · exact (plain '<' member).1.1.1.2 rfl
  · induction text with
    | nil => rfl
    | cons c more ih =>
      obtain ⟨⟨⟨_, noDivider⟩, _⟩, flat⟩ := plain c List.mem_cons_self
      rw [depthBehind, if_neg (fun h => by simp [noDivider] at h), flat, add_zero]
      exact ih fun d member => plain d (List.mem_cons_of_mem c member)

theorem char (plain : isPlain c = true) : Quiet least [c] :=
  of_forall fun _ member => List.mem_singleton.mp member ▸ plain

/-- Inside of brackets, a divider is nothing to take notice of. -/
theorem divider (divides : isDivider c = true) (inside : 0 < least) : Quiet least [c] := by
  simp only [isDivider, Bool.or_eq_true, decide_eq_true_eq] at divides
  have plain : isQuote c = false ∧ '<' ≠ c ∧ bracketStep c = 0 := by
    rcases divides with rfl | rfl <;> decide
  refine ⟨[c], .char plain.1 .nil, by simp [plain.2.1], fun depth deep => ?_⟩
  have : depth ≠ 0 := by omega
  simp [depthBehind, this, plain.2.2]

theorem string (opens : isQuote quote = true) (closes : Closes quote body) :
    Quiet least (quote :: body) := by
  obtain ⟨_, noAngle, _⟩ := ne_of_isQuote opens
  have outline := Outline.string opens closes .nil
  rw [List.append_nil] at outline
  refine ⟨[quote], outline, fun member => noAngle (List.mem_singleton.mp member).symm,
    fun depth _ => ?_⟩
  rw [depthBehind_quote opens]
  rfl

theorem enclosed {opening closing : Char} (opens : opening = '[' ∨ opening = '{')
    (closes : closing = ']' ∨ closing = '}') (h : Quiet (least + 1) text) :
    Quiet least (opening :: (text ++ [closing])) := by
  obtain ⟨bare, outline, noAngle, level⟩ := h
  have behind : Outline [closing] [closing] := by
    rcases closes with rfl | rfl <;> exact .char rfl .nil
  have front : isQuote opening = false := by
    rcases opens with rfl | rfl <;> rfl
  refine ⟨opening :: (bare ++ [closing]), .char front (outline.append behind), ?_, fun depth deep => ?_⟩
  · simp only [List.mem_cons, List.mem_append, List.not_mem_nil, or_false, not_or]
    rcases opens with rfl | rfl <;> rcases closes with rfl | rfl <;>
      exact ⟨by decide, noAngle, by decide⟩
  · have inner := level (depth + 1) (by omega)
    have last : depthBehind (depth + 1) [closing] = some depth := by
      rcases closes with rfl | rfl <;> simp [depthBehind, isDivider, bracketStep]
    have first : depthBehind depth (opening :: (bare ++ [closing])) =
        depthBehind (depth + 1) (bare ++ [closing]) := by
      rcases opens with rfl | rfl <;> simp [depthBehind, isDivider, bracketStep]
    rw [first, depthBehind_append, inner, Option.bind_some, last]

end Quiet

end PromptScript.Source
