import PromptScript.Proofs.Source.Directive
import PromptScript.Proofs.Source.Toggle

/-!
Expressions as arguments of calls. They are cut out of their line by a scan that knows of no escapes. It
cuts at the right commas exactly if they are read as they are by themselves, and always if no string
escapes its own quote.
-/
namespace PromptScript

namespace Source

open Text

variable {text rest bare name target key value joined : List Char} {c : Char} {token : Token} {e : Expr}
  {texts : List (List Char)} {exprs : List Expr} {depth : Int}

/-! ### Arguments -/

/-- An expression on one line. -/
structure IsArgument (text : List Char) (e : Expr) : Prop where
  single : '\n' ∉ text
  read : readExpr ⟨0, text⟩ = .ok e

/-- Texts as they stand between commas: all but the first one behind a blank. -/
def behindCommas : List (List Char) → List (List Char)
  | [] => []
  | text :: others => text :: others.map (' ' :: ·)

/-- The commas at which the scan splits some arguments are those between them. -/
def SplitsApart (texts : List (List Char)) : Prop :=
  partsOf (· = ',') 0 none ([',', ' '].intercalate texts) = behindCommas texts

theorem intercalate_behindCommas (texts : List (List Char)) :
    [','].intercalate (behindCommas texts) = [',', ' '].intercalate texts := by
  cases texts with
  | nil => rfl
  | cons text others =>
    induction others generalizing text with
    | nil => rfl
    | cons next more ih =>
      have later := ih next
      rw [behindCommas] at later ⊢
      rw [List.map_cons, List.intercalate_cons_cons, List.intercalate_cons_cons,
        intercalate_extended, later]
      simp

theorem behindCommas_ne_nil (nonempty : texts ≠ []) : behindCommas texts ≠ [] := by
  cases texts with
  | nil => exact absurd rfl nonempty
  | cons text others => exact List.cons_ne_nil _ _

theorem behindCommas_read (arguments : List.Forall₂ IsArgument texts exprs) :
    List.Forall₂ (fun part e => readExpr ⟨0, part⟩ = .ok e) (behindCommas texts) exprs := by
  cases arguments with
  | nil => exact .nil
  | cons here others =>
    refine .cons here.read ?_
    rw [List.forall₂_map_left_iff]
    exact others.imp fun _ _ argument => readExpr_space argument.read 0

/-- An argument in front of more of the line. -/
theorem IsArgument.partsOf_append (argument : IsArgument text e)
    (unescaped : escapesQuote none text = false) (rest : List Char) :
    partsOf (· = ',') 0 none (text ++ rest) =
      (partsOf (· = ',') 0 none rest).modifyHead (text ++ ·) := by
  obtain ⟨ts, tokens, derived⟩ := readExpr_ok_iff.mp argument.read
  obtain ⟨bare, outline, _, _, level⟩ := derived.outline tokens
  refine partsOf_outline outline unescaped level (fun c _ comma => ?_) rest
  rw [of_decide_eq_true comma]
  rfl

/-- Arguments are split apart if no string in them escapes its own quote. -/
theorem splitsApart_of_unescaped (arguments : List.Forall₂ IsArgument texts exprs)
    (nonempty : texts ≠ []) (unescaped : ∀ text ∈ texts, escapesQuote none text = false) :
    SplitsApart texts := by
  induction arguments with
  | nil => exact absurd rfl nonempty
  | @cons text e others exprs here arguments ih =>
    obtain ⟨first, later⟩ := List.forall_mem_cons.mp unescaped
    cases others with
    | nil =>
      have whole := here.partsOf_append first []
      rw [List.append_nil, partsOf_nil, List.modifyHead_cons, List.append_nil] at whole
      rw [SplitsApart, List.intercalate_singleton, whole]
      rfl
    | cons next more =>
      -- The comma ends the first part, and the blank behind it starts the next one.
      have behind := ih (List.cons_ne_nil _ _) later
      rw [SplitsApart] at behind
      rw [SplitsApart, List.intercalate_cons_cons, List.append_assoc, here.partsOf_append first,
        List.cons_append, partsOf_separates (by decide) (by decide) (by decide),
        List.modifyHead_cons, List.append_nil, List.singleton_append,
        partsOf_flat (by decide) (by decide) (by decide), behind]
      rfl

/-! ### Parts that are expressions -/

/-- A text in front of a comma, or at the end, is the longest and the shortest such text that is an
expression. -/
theorem first_part_unique {part part' behind behind' : List Char} {e' : Expr}
    (read : readExpr ⟨0, part⟩ = .ok e) (read' : readExpr ⟨0, part'⟩ = .ok e')
    (ends : ∀ c ∈ behind.head?, c = ',') (ends' : ∀ c ∈ behind'.head?, c = ',')
    (same : part ++ behind = part' ++ behind') : part = part' ∧ behind = behind' := by
  rcases List.append_eq_append_iff.mp same with ⟨more, rfl, split⟩ | ⟨more, rfl, split⟩
  · cases more with
    | nil => exact ⟨(List.append_nil _).symm, split⟩
    | cons c rest =>
      obtain rfl := ends c (by rw [split]; rfl)
      exact absurd read' (not_readExpr_comma read rest)
  · cases more with
    | nil => exact ⟨List.append_nil _, split.symm⟩
    | cons c rest =>
      obtain rfl := ends' c (by rw [split]; rfl)
      exact absurd read (not_readExpr_comma read' rest)

/-- There is one way at most to cut a text at commas into expressions. -/
theorem parts_unique {parts parts' : List (List Char)} {es es' : List Expr}
    (read : List.Forall₂ (fun part e => readExpr ⟨0, part⟩ = .ok e) parts es)
    (read' : List.Forall₂ (fun part e => readExpr ⟨0, part⟩ = .ok e) parts' es')
    (nonempty : parts ≠ []) (nonempty' : parts' ≠ [])
    (same : [','].intercalate parts = [','].intercalate parts') : parts = parts' := by
  have split (part : List Char) (others : List (List Char)) : ∃ behind,
      [','].intercalate (part :: others) = part ++ behind ∧ (∀ c ∈ behind.head?, c = ',') ∧
        behind = if others = [] then [] else ',' :: [','].intercalate others := by
    cases others with
    | nil => exact ⟨[], by simp, nofun, rfl⟩
    | cons next more =>
      refine ⟨',' :: [','].intercalate (next :: more), by simp [List.intercalate_cons_cons], ?_, rfl⟩
      rintro _ ⟨⟩
      rfl
  induction read generalizing parts' es' with
  | nil => exact absurd rfl nonempty
  | @cons part e others es here later ih =>
    cases read' with
    | nil => exact absurd rfl nonempty'
    | @cons part' e' others' es' here' later' =>
      obtain ⟨behind, whole, ends, found⟩ := split part others
      obtain ⟨behind', whole', ends', found'⟩ := split part' others'
      rw [whole, whole'] at same
      obtain ⟨rfl, rfl⟩ := first_part_unique here here' ends ends' same
      rw [found] at found'
      congr 1
      by_cases last : others = [] <;> by_cases last' : others' = []
      · rw [last, last']
      · simp [last, last'] at found'
      · simp [last, last'] at found'
      · simp only [last, last', if_false] at found'
        exact ih later' last last' (List.cons.inj found').2

theorem mapM_ok_iff_forall₂ {α β : Type} {f : α → Except Fault β} {items : List α} {results : List β} :
    items.mapM f = .ok results ↔ List.Forall₂ (fun a b => f a = .ok b) items results := by
  induction items generalizing results with
  | nil => exact ⟨fun h => by cases h; exact .nil, fun h => by cases h; rfl⟩
  | cons a more ih =>
    simp only [List.mapM_cons, Computation.except_bind_ok_iff, Computation.except_pure_ok_iff, ih,
      List.forall₂_cons_left_iff]
    constructor
    · rintro ⟨b, here, others, later, rfl⟩
      exact ⟨b, others, here, later, rfl⟩
    · rintro ⟨b, others, here, later, rfl⟩
      exact ⟨b, here, others, later, rfl⟩

theorem exists_visible (read : readExpr ⟨0, text⟩ = .ok e) : ∃ c ∈ text, isBlank c = false := by
  by_contra none
  have blank : trimEnd text = [] := trimEnd_eq_nil_iff.mpr fun c member => by
    by_contra visible
    exact none ⟨c, member, Bool.eq_false_iff.mpr visible⟩
  have trimmed := readExpr_trimmed read 0
  rw [blank] at trimmed
  exact readExpr_nil trimmed

theorem mem_intercalate_head (separator : List Char) (first : List Char) (others : List (List Char))
    (member : c ∈ first) : c ∈ separator.intercalate (first :: others) := by
  cases others with
  | nil => rwa [List.intercalate_singleton]
  | cons next more =>
    rw [List.intercalate_cons_cons, List.append_assoc]
    exact List.mem_append_left _ member

/-- Joined arguments are read as they are by themselves exactly if they are split apart. -/
theorem readArguments_joined (arguments : List.Forall₂ IsArgument texts exprs) (nonempty : texts ≠ [])
    (start : Nat) :
    readArguments ⟨start, [',', ' '].intercalate texts⟩ = .ok exprs ↔ SplitsApart texts := by
  have visible : (trim ([',', ' '].intercalate texts)).isEmpty = false := by
    obtain ⟨first, others, rfl⟩ := List.exists_cons_of_ne_nil nonempty
    obtain ⟨e, more, here, _, _⟩ := List.forall₂_cons_left_iff.mp arguments
    obtain ⟨c, member, visible⟩ := exists_visible here.read
    simpa using List.ne_nil_of_mem (mem_trim (mem_intercalate_head _ _ others member) visible)
  have moved (span : Span) (e : Expr) : readExpr span = .ok e ↔ readExpr ⟨0, span.text⟩ = .ok e :=
    ⟨readExpr_moved rfl, readExpr_moved rfl⟩
  have parts : readArguments ⟨start, [',', ' '].intercalate texts⟩ = .ok exprs ↔
      List.Forall₂ (fun part e => readExpr ⟨0, part⟩ = .ok e)
        (partsOf (· = ',') 0 none ([',', ' '].intercalate texts)) exprs := by
    rw [readArguments, visible, ← text_splitTopLevel none start, List.forall₂_map_left_iff]
    simp only [moved, mapM_ok_iff_forall₂, Span.splitTopLevel, Bool.false_eq_true, if_false]
  rw [parts]
  constructor
  · intro read
    have joined := intercalate_partsOf ',' 0 none ([',', ' '].intercalate texts)
    rw [← intercalate_behindCommas texts] at joined
    exact parts_unique read (behindCommas_read arguments) (partsOf_ne_nil _ _ _ _)
      (behindCommas_ne_nil nonempty) (by rw [intercalate_behindCommas] at joined ⊢; exact joined)
  · intro apart
    rw [apart]
    exact behindCommas_read arguments

/-! ### Calls -/

def effectWord : List Char := ['e', 'f', 'f', 'e', 'c', 't']

def funcWord : List Char := ['f', 'u', 'n', 'c']

/-- The line `@effect func name(joined)`. -/
def callLine (name joined : List Char) : List Char :=
  '@' :: (effectWord ++ ' ' :: (funcWord ++ ' ' :: (name ++ '(' :: (joined ++ [')']))))

theorem isAlpha_of_mem_effectWord : ∀ c ∈ effectWord, c.isAlpha = true :=
  List.all_eq_true.mp (by decide)

theorem splitLast?_of_not_mem {c : Char} (absent : c ∉ text) : splitLast? c text = none := by
  induction text with
  | nil => rfl
  | cons d more ih =>
    rw [List.mem_cons, not_or] at absent
    simp [splitLast?, ih absent.2, Ne.symm absent.1]

theorem splitLast?_append {c : Char} {behind : List Char} (absent : c ∉ behind) (text : List Char) :
    splitLast? c (text ++ c :: behind) = some (text, behind) := by
  induction text with
  | nil => simp [splitLast?, splitLast?_of_not_mem absent]
  | cons d more ih => simp [splitLast?, ih]

theorem not_isWordChar_paren : isWordChar '(' = false := by
  rw [isWordChar_of_lt (by decide)]
  decide

theorem callParts?_line {behind : List Char} {target : Option (List Char)}
    (named : leadingName? name = some name) (single : '\n' ∉ joined) (absent : ')' ∉ behind)
    (closed : callTarget? behind = some target) (start : Nat) :
    ∃ place, callParts? ⟨start, funcWord ++ ' ' :: (name ++ '(' :: (joined ++ ')' :: behind))⟩ =
      some (name, ⟨place, joined⟩, target) := by
  have keyword : (⟨start, funcWord ++ ' ' :: (name ++ '(' :: (joined ++ ')' :: behind))⟩ : Span).afterKeyword?
      ['f', 'u', 'n', 'c'] = some ⟨start + 4 + 1, name ++ '(' :: (joined ++ ')' :: behind)⟩ :=
    Span.afterKeyword?_append (bars_name named _) start
  have first : leadingName? (name ++ '(' :: (joined ++ ')' :: behind)) = some name :=
    leadingName?_append named (bars_cons not_isWordChar_paren)
  have opening (start : Nat) : (⟨start, '(' :: (joined ++ ')' :: behind)⟩ : Span).trimStart =
      ⟨start, '(' :: (joined ++ ')' :: behind)⟩ := Span.trimStart_of_bars (bars_cons (by decide)) start
  have inner (start : Nat) : (⟨start, '(' :: (joined ++ ')' :: behind)⟩ : Span).drop 1 =
      ⟨start + 1, joined ++ ')' :: behind⟩ := rfl
  have oneLine : joined.contains '\n' = false := by simpa using single
  simp only [callParts?, keyword, Option.bind_eq_bind, Option.bind_some, first,
    Span.drop_append, opening, List.head?_cons, if_true, inner, splitLast?_append absent, closed,
    oneLine, Bool.false_eq_true, if_false, Span.take, List.take_left]
  exact ⟨_, rfl⟩

theorem trimEnd_callLine (name joined : List Char) :
    trimEnd (callLine name joined) = callLine name joined := by
  have split : callLine name joined =
      ('@' :: (effectWord ++ ' ' :: (funcWord ++ ' ' :: (name ++ '(' :: joined)))) ++ ')' :: [] := by
    simp [callLine]
  rw [split]
  exact trimEndOf_append_cons (by decide) _ []

theorem readEffect_line {behind : List Char} {target : Option (List Char)}
    (named : leadingName? name = some name) (single : '\n' ∉ joined) (absent : ')' ∉ behind)
    (closed : callTarget? behind = some target) (start : Nat) :
    ∃ place, readEffect ⟨start, callLine name joined ++ behind⟩ =
      (readArguments ⟨place, joined⟩).map fun args =>
        .call (.ofList name) args (target.map .ofList) := by
  let action := funcWord ++ ' ' :: (name ++ '(' :: (joined ++ ')' :: behind))
  have whole : callLine name joined ++ behind = '@' :: (effectWord ++ ' ' :: action) := by
    simp [callLine, action]
  have keyword : (⟨start, '@' :: (effectWord ++ ' ' :: action)⟩ : Span).afterKeyword?
      ['@', 'e', 'f', 'f', 'e', 'c', 't'] = some ⟨start + 7 + 1, action⟩ :=
    Span.afterKeyword?_append (bars_cons (by decide)) start
  obtain ⟨place, parts⟩ := callParts?_line named single absent closed (start + 7 + 1)
  -- Neither of the effects that come first fits a call.
  have noClear : clearEffect? ⟨start + 7 + 1, action⟩ = none := rfl
  have noRun : action ≠ ['r', 'u', 'n'] := by simp [action, funcWord]
  refine ⟨place, ?_⟩
  simp only [readEffect, whole, keyword, noRun, if_false, noClear, action, parts]
  cases readArguments ⟨place, joined⟩ <;> rfl

theorem readDirective_call {behind : List Char} {target : Option (List Char)}
    (named : leadingName? name = some name) (single : '\n' ∉ joined) (absent : ')' ∉ behind)
    (closed : callTarget? behind = some target) (start : Nat) :
    ∃ place, readDirective ⟨start, callLine name joined ++ behind⟩ =
      (readArguments ⟨place, joined⟩).map fun args =>
        .effect (.call (.ofList name) args (target.map .ofList)) := by
  have noState : effectWord ≠ ['s', 't', 'a', 't', 'e'] := by decide
  have isEffect : effectWord = ['e', 'f', 'f', 'e', 'c', 't'] := rfl
  have word : ((⟨start, callLine name joined ++ behind⟩ : Span).drop 1).word = effectWord := by
    rw [callLine, List.cons_append, List.append_assoc, List.cons_append]
    exact word_directive isAlpha_of_mem_effectWord _ start
  obtain ⟨place, effect⟩ := readEffect_line named single absent closed start
  refine ⟨place, ?_⟩
  rw [readDirective, word, if_neg noState, if_pos isEffect, effect]
  cases readArguments ⟨place, joined⟩ <;> rfl

theorem exists_isArgument (arguments : List.Forall₂ IsArgument texts exprs) :
    ∀ text ∈ texts, ∃ e, IsArgument text e := by
  induction arguments with
  | nil => nofun
  | cons here _ ih => exact List.forall_mem_cons.mpr ⟨⟨_, here⟩, ih⟩

theorem joined_single (arguments : List.Forall₂ IsArgument texts exprs) :
    '\n' ∉ [',', ' '].intercalate texts :=
  intercalate_induction (q := fun text => '\n' ∉ text) List.not_mem_nil
    (fun front back => by simp [front, back]) (by decide)
    fun text member => (exists_isArgument arguments text member).choose_spec.single

theorem joined_goesOn (arguments : List.Forall₂ IsArgument texts exprs) :
    GoesOn ([',', ' '].intercalate texts) := by
  refine intercalate_induction .nil .append (.of_forall (List.all_eq_true.mp (by decide))) ?_
  intro text member
  obtain ⟨e, argument⟩ := exists_isArgument arguments text member
  exact lineLength_expr argument.read argument.single

theorem goesOn_call (named : leadingName? name = some name)
    (arguments : List.Forall₂ IsArgument texts exprs) :
    GoesOn (callLine name ([',', ' '].intercalate texts)) := by
  have word : ∀ c ∈ name, isInert c = true :=
    fun c member => isInert_of_isWordChar (isWordChar_of_mem_name named c member)
  have front : GoesOn ('@' :: (effectWord ++ ' ' :: (funcWord ++ [' ']))) :=
    .of_forall (List.all_eq_true.mp (by decide))
  have parts := front.append ((GoesOn.of_forall word).append
    ((GoesOn.char (c := '(') (by decide)).append
      ((joined_goesOn arguments).append (GoesOn.char (c := ')') (by decide)))))
  simpa [callLine] using parts

theorem call_single (named : leadingName? name = some name)
    (arguments : List.Forall₂ IsArgument texts exprs) :
    '\n' ∉ callLine name ([',', ' '].intercalate texts) := by
  have word : ∀ c ∈ name, isInert c = true :=
    fun c member => isInert_of_isWordChar (isWordChar_of_mem_name named c member)
  simp [callLine, effectWord, funcWord, not_mem_of_inert word, joined_single arguments]

theorem isLine_call (named : leadingName? name = some name)
    (arguments : List.Forall₂ IsArgument texts exprs) :
    IsLine (callLine name ([',', ' '].intercalate texts)) := by
  have last : EndsPlainly (callLine name ([',', ' '].intercalate texts)) := by
    refine .of_suffix ⟨'@' :: (effectWord ++ ' ' :: (funcWord ++ ' ' ::
      (name ++ '(' :: [',', ' '].intercalate texts))), ?_⟩ (List.cons_ne_nil ')' []) (.char (by decide))
    simp [callLine]
  exact (goesOn_call named arguments).isLine (call_single named arguments) (bars_cons (by decide))
    (List.cons_ne_nil _ _) nofun last

/-- A call is read with its arguments as they are by themselves exactly if these are split apart. -/
theorem readTemplate_call (named : leadingName? name = some name)
    (arguments : List.Forall₂ IsArgument texts exprs) (nonempty : texts ≠ []) :
    readTemplate (callLine name ([',', ' '].intercalate texts)) =
      .ok ⟨.empty, [.effect (.call (.ofList name) exprs none)]⟩ ↔ SplitsApart texts := by
  refine readTemplate_iff_of_statement (isLine_call named arguments)
    (isBody_directive isAlpha_of_mem_effectWord _) rfl fun line same => ?_
  rw [trimEnd_callLine] at same
  obtain ⟨place, directive⟩ := readDirective_call named (joined_single arguments)
    List.not_mem_nil (by rfl : callTarget? [] = some none) line.span.trimStart.start
  rw [List.append_nil] at directive
  rw [readStatement_directive same, ← callLine, directive, ← readArguments_joined arguments nonempty place]
  cases readArguments ⟨place, [',', ' '].intercalate texts⟩ with
  | error fault => exact ⟨nofun, nofun⟩
  | ok args => simp [Except.map]

end Source

end PromptScript
