import PromptScript.Proofs.Source.Argument
import PromptScript.Proofs.Source.Embedding
import PromptScript.Proofs.Source.Hereditary
import PromptScript.Session.Frame

/-!
The names in scripts. What is assigned, called, or the target of a call has a plain name: an ASCII letter
or an underscore, and word characters behind it. Loop variables and tools have identifiers for their names.
-/
namespace PromptScript

open Source Text

/-- A name as directives take it where they assign or call. -/
def IsPlainName (name : String) : Prop :=
  leadingName? name.toList = some name.toList

instance (name : String) : Decidable (IsPlainName name) :=
  inferInstanceAs (Decidable (leadingName? name.toList = some name.toList))

/-- Names of the right kind for an effect, if it has names. -/
def Effect.WellNamed : Effect → Prop
  | .call name _ target => IsPlainName name ∧ ∀ result ∈ target, IsPlainName result
  | .registerTools names => ∀ name ∈ names, isIdentifier name.toList = true
  | .run | .clearContext | .clearTools => True

/-- Names of the right kind for a node, if it has names. -/
def Node.WellNamed : Node → Prop
  | .stateAssign name _ => IsPlainName name
  | .effect asked => asked.WellNamed
  | .loop var _ _ => isIdentifier var.toList = true
  | _ => True

/-- A node that is well named, as are those in its bodies. -/
inductive Node.Named : Node → Prop
  | intro {node : Node} : node.WellNamed →
    (∀ body ∈ node.bodies, ∀ inner ∈ body, inner.Named) → node.Named

theorem Node.Named.wellNamed {node : Node} (h : node.Named) : node.WellNamed := by
  cases h
  assumption

theorem Node.Named.of_bodies {node : Node} (h : node.WellNamed) (none : node.bodies = []) :
    node.Named :=
  .intro h (by simp [none])

/-! ### Plain names and identifiers -/

theorem isPlainNameStart_iff {c : Char} :
    isPlainNameStart c = true ↔ isNameStart c = true ∧ c.toNat < 128 := by
  constructor
  · intro start
    refine ⟨isNameStart_of_isPlainNameStart start, ?_⟩
    rcases Bool.or_eq_true_iff.mp start with letter | underscore
    · exact lt_of_isAlphanum (by simp [Char.isAlphanum, letter])
    · rw [of_decide_eq_true underscore]
      decide
  · rintro ⟨start, ascii⟩
    rwa [isNameStart_of_lt ascii] at start

theorem isPlainName_cons {name : String} {first : Char} {rest : List Char}
    (same : name.toList = first :: rest) :
    IsPlainName name ↔ isPlainNameStart first = true ∧ ∀ c ∈ rest, isWordChar c = true := by
  rw [IsPlainName, same, leadingName?]
  split
  · next start => simp [start, List.takeWhile_eq_self_iff]
  · next other => simp [other]

theorem isIdentifier_cons {first : Char} {rest : List Char} : isIdentifier (first :: rest) = true ↔
    isNameStart first = true ∧ ∀ c ∈ rest, isNameChar c = true := by
  rw [isIdentifier, Bool.and_eq_true, List.all_eq_true]

/-- Of the identifiers, the plain names are those that start within ASCII and have word characters only. -/
theorem isPlainName_iff_of_isIdentifier {name : String} (identifier : isIdentifier name.toList = true) :
    IsPlainName name ↔ (∀ c ∈ name.toList.head?, c.toNat < 128) ∧
      ∀ c ∈ name.toList.tail, isWordChar c = true := by
  cases same : name.toList with
  | nil =>
    rw [same] at identifier
    cases identifier
  | cons first rest =>
    rw [same] at identifier
    have start := (isIdentifier_cons.mp identifier).1
    rw [isPlainName_cons same, isPlainNameStart_iff]
    simp [start]

/-- Of the plain names, the identifiers are those that have letters, numbers and underscores only. -/
theorem isIdentifier_iff_of_isPlainName {name : String} (plain : IsPlainName name) :
    isIdentifier name.toList = true ↔ ∀ c ∈ name.toList.tail, isNameChar c = true := by
  cases same : name.toList with
  | nil =>
    rw [IsPlainName, same] at plain
    cases plain
  | cons first rest =>
    have start := isNameStart_of_isPlainNameStart ((isPlainName_cons same).mp plain).1
    rw [isIdentifier_cons]
    simp [start]

/-- Within ASCII there is no difference. -/
theorem isIdentifier_iff_of_ascii {name : String} (ascii : ∀ c ∈ name.toList, c.toNat < 128) :
    isIdentifier name.toList = true ↔ IsPlainName name := by
  have word : ∀ c ∈ name.toList, isWordChar c = isNameChar c := fun c member => by
    rw [isWordChar_of_lt (ascii c member), isNameChar_of_lt (ascii c member)]
  cases same : name.toList with
  | nil => simp [IsPlainName, same, leadingName?, isIdentifier]
  | cons first rest =>
    rw [same] at ascii word
    obtain ⟨here, later⟩ := List.forall_mem_cons.mp ascii
    have others : (∀ c ∈ rest, isWordChar c = true) ↔ ∀ c ∈ rest, isNameChar c = true :=
      forall₂_congr fun c member => by rw [word c (List.mem_cons_of_mem first member)]
    rw [isIdentifier_cons, isPlainName_cons same, isPlainNameStart_iff, others]
    simp [here]

namespace Source

variable {s : Span} {text name : List Char} {node : Node} {effect : Effect}

/-! ### Names that are read -/

theorem isPlainName_of_leadingName? (h : leadingName? text = some name) :
    IsPlainName (.ofList name) := by
  cases text with
  | nil => cases h
  | cons c rest =>
    simp only [leadingName?] at h
    split at h
    · next start =>
      cases h
      rw [IsPlainName, String.toList_ofList, leadingName?, if_pos start,
        List.takeWhile_eq_self_iff.mpr fun _ member => List.mem_takeWhile_imp member]
    · cases h

theorem isPlainName_of_stateParts? {value : Span} (h : stateParts? s = some (name, value)) :
    IsPlainName (.ofList name) := by
  simp only [stateParts?, Option.bind_eq_bind, Option.bind_eq_some_iff] at h
  obtain ⟨t, _, found, named, h⟩ := h
  split at h
  · split at h
    · cases h
      exact isPlainName_of_leadingName? named
    · cases h
  · cases h

theorem isPlainName_of_callTarget? {target : Option (List Char)} (h : callTarget? text = some target) :
    ∀ result ∈ target, IsPlainName (.ofList result) := by
  unfold callTarget? at h
  split at h
  · cases h
    exact nofun
  · simp only at h
    split at h
    · next name named =>
      split at h
      · cases h
        rintro _ ⟨⟩
        exact isPlainName_of_leadingName? named
      · cases h
    · cases h
  · cases h

theorem isPlainName_of_callParts? {arguments : Span} {target : Option (List Char)}
    (h : callParts? s = some (name, arguments, target)) :
    IsPlainName (.ofList name) ∧ ∀ result ∈ target, IsPlainName (.ofList result) := by
  simp only [callParts?, Option.bind_eq_bind, Option.bind_eq_some_iff] at h
  obtain ⟨t, _, found, named, h⟩ := h
  split at h
  · obtain ⟨⟨before, behind⟩, _, h⟩ := Option.bind_eq_some_iff.mp h
    obtain ⟨target', closed, h⟩ := Option.bind_eq_some_iff.mp h
    split at h
    · cases h
    · cases h
      exact ⟨isPlainName_of_leadingName? named, isPlainName_of_callTarget? closed⟩
  · cases h

theorem isIdentifier_of_readNames? {names : List String} (h : readNames? text = some names) :
    ∀ name ∈ names, isIdentifier name.toList = true := by
  unfold readNames? at h
  simp only at h
  split at h
  · next all =>
    cases h
    intro name member
    obtain ⟨piece, inside, rfl⟩ := List.mem_map.mp member
    rw [String.toList_ofList]
    exact List.all_eq_true.mp all piece inside
  · cases h

theorem wellNamed_of_clearEffect? (h : clearEffect? s = some effect) : effect.WellNamed := by
  simp only [clearEffect?, Option.bind_eq_bind, Option.bind_eq_some_iff] at h
  obtain ⟨t, _, h⟩ := h
  split_ifs at h <;> cases h <;> exact True.intro

theorem wellNamed_of_readEffect (h : readEffect s = .ok effect) : effect.WellNamed := by
  unfold readEffect at h
  simp only at h
  split at h
  · cases h
  · split at h
    · cases h
      exact True.intro
    · split at h
      · next clear =>
        cases h
        exact wellNamed_of_clearEffect? clear
      · split at h
        · next call =>
          obtain ⟨args, _, same⟩ := Computation.except_bind_ok_iff.mp h
          cases same
          obtain ⟨named, targets⟩ := isPlainName_of_callParts? call
          refine ⟨named, fun result known => ?_⟩
          obtain ⟨target, same, rfl⟩ := Option.map_eq_some_iff.mp known
          exact targets target same
        · split at h
          · next tools =>
            cases h
            obtain ⟨names, _, read⟩ := Option.bind_eq_some_iff.mp tools
            exact isIdentifier_of_readNames? read
          · cases h

theorem named_of_readDirective (h : readDirective s = .ok node) : node.Named := by
  unfold readDirective at h
  simp only at h
  split at h
  · split at h
    · next found =>
      obtain ⟨e, _, same⟩ := Computation.except_bind_ok_iff.mp h
      cases same
      exact .of_bodies (isPlainName_of_stateParts? found) rfl
    · cases h
  · split at h
    · obtain ⟨effect, read, same⟩ := Computation.except_bind_ok_iff.mp h
      cases same
      exact .of_bodies (wellNamed_of_readEffect read) rfl
    · cases h

theorem named_of_readImport (h : readImport s = .ok (some node)) : node.Named := by
  unfold readImport at h
  split at h
  · split at h
    · cases h
      exact .of_bodies True.intro rfl
    · cases h
  · obtain ⟨source, _, found⟩ := Option.bind_eq_some_iff.mp (Except.ok.inj h)
    obtain ⟨name, _, same⟩ := Option.bind_eq_some_iff.mp found
    cases same
    exact .of_bodies True.intro rfl

theorem named_of_readBlockMark {indent taken : Nat} {isInline : Bool}
    (h : readBlockMark indent isInline s = .ok (some node, taken)) : node.Named := by
  unfold readBlockMark at h
  split at h
  · cases h
  · obtain ⟨found, read, same⟩ := Computation.except_bind_ok_iff.mp h
    cases same
    simp only [readTextBlock] at read
    generalize (if isInline then _ else _) = chars at read
    split at read
    · cases read
    · obtain ⟨nodes, _, same⟩ := Computation.except_map_ok_iff.mp read
      cases same
      exact .of_bodies True.intro rfl

theorem isIdentifier_of_readLoopHead {head : LoopHead} {length : Nat}
    (h : readLoopHead s = .ok (head, length)) : isIdentifier head.var.toList = true := by
  unfold readLoopHead at h
  simp only at h
  split at h
  · cases h
  next identifier =>
  split at h
  · cases h
  obtain ⟨colon, _, h⟩ := Computation.except_bind_ok_iff.mp h
  obtain ⟨iterable, _, h⟩ := Computation.except_bind_ok_iff.mp h
  split at h <;> cases h <;> simpa using identifier

/-- All nodes of a template are well named, at any depth. -/
theorem hereditary_named : Hereditary Node.Named where
  block := named_of_readBlockMark
  marker _ := .of_bodies True.intro rfl
  directive := named_of_readDirective
  functionImport := named_of_readImport
  conditional {condition body orElse} _ inside otherwise := by
    refine .intro True.intro fun nodes known => ?_
    rcases List.mem_cons.mp known with rfl | other
    · exact inside
    · exact otherwise nodes (Option.mem_toList.mp other)
  loop read inside := by
    refine .intro (isIdentifier_of_readLoopHead read) fun nodes known => ?_
    obtain rfl := List.mem_singleton.mp known
    exact inside

/-! ### Names that are written -/

set_option maxRecDepth 20000 in
theorem readExpr_one : readExpr ⟨0, ['1']⟩ = .ok (.literal (.int 1)) := by
  with_unfolding_all rfl

/-- A call without arguments, with what may follow it, is a template by itself. -/
theorem readTemplate_callNothing {behind : List Char} {target : Option (List Char)}
    (named : leadingName? name = some name) (absent : ')' ∉ behind)
    (closed : callTarget? behind = some target) (isLine : IsLine (callLine name [] ++ behind))
    (trimmed : trimEnd (callLine name [] ++ behind) = callLine name [] ++ behind) :
    readTemplate (callLine name [] ++ behind) =
      .ok ⟨.empty, [.effect (.call (.ofList name) [] (target.map .ofList))]⟩ := by
  have split : callLine name [] ++ behind =
      '@' :: (effectWord ++ ' ' :: (funcWord ++ ' ' :: (name ++ '(' :: ')' :: behind))) := by
    simp [callLine]
  have isBody : IsBody (callLine name [] ++ behind) := by
    rw [split]
    exact isBody_directive isAlpha_of_mem_effectWord _
  refine readTemplate_of_statement isLine isBody fun line same => ?_
  rw [trimmed, split] at same
  obtain ⟨place, directive⟩ := readDirective_call named List.not_mem_nil absent closed
    line.span.trimStart.start
  rw [readStatement_directive same, ← split, directive]
  rfl

/-- The line `@effect func f() => name`. -/
def targetLine (name : List Char) : List Char :=
  callLine ['f'] [] ++ ' ' :: '=' :: '>' :: ' ' :: name

theorem callTarget?_name (named : leadingName? name = some name) :
    callTarget? (' ' :: '=' :: '>' :: ' ' :: name) = some (some name) := by
  have bars := bars_name named []
  rw [List.append_nil] at bars
  have space : trimStart (' ' :: name) = name := by
    rw [trimStart, List.dropWhile_cons_of_pos (by decide), dropWhile_of_bars bars]
  have arrow : trimStart (' ' :: '=' :: '>' :: ' ' :: name) = '=' :: '>' :: ' ' :: name := by
    rw [trimStart, List.dropWhile_cons_of_pos (by decide), List.dropWhile_cons_of_neg (by decide)]
  unfold callTarget?
  rw [arrow]
  simp only [space, named, if_true]

theorem isLine_target (named : leadingName? name = some name) : IsLine (targetLine name) := by
  have word : ∀ c ∈ name, isInert c = true :=
    fun c member => isInert_of_isWordChar (isWordChar_of_mem_name named c member)
  have arrow : GoesOn [' ', '=', '>', ' '] := .of_forall (List.all_eq_true.mp (by decide))
  have call : leadingName? ['f'] = some ['f'] := by decide
  have goesOn : GoesOn (targetLine name) := by
    have parts := (goesOn_call call .nil).append (arrow.append (GoesOn.of_forall word))
    simpa [targetLine] using parts
  have single : '\n' ∉ targetLine name := by
    have front := call_single call .nil
    rw [List.intercalate_nil] at front
    simp [targetLine, front, not_mem_of_inert word]
  obtain ⟨absent, nonempty⟩ := not_mem_leadingName? named
  have last : EndsPlainly (targetLine name) :=
    .of_suffix ⟨callLine ['f'] [] ++ [' ', '=', '>', ' '], by simp [targetLine]⟩ nonempty
      (.of_not_mem absent)
  exact goesOn.isLine single (bars_cons (by decide)) (List.cons_ne_nil _ _) nofun last

theorem trimEnd_targetLine (named : leadingName? name = some name) :
    trimEnd (targetLine name) = targetLine name := by
  rcases List.eq_nil_or_concat name with rfl | ⟨front, c, rfl⟩
  · cases named
  · rw [List.concat_eq_append] at named ⊢
    have visible := not_isBlank_of_isWordChar (isWordChar_of_mem_name named c (by simp))
    have split : targetLine (front ++ [c]) =
        (callLine ['f'] [] ++ ' ' :: '=' :: '>' :: ' ' :: front) ++ c :: [] := by
      simp [targetLine]
    rw [split]
    exact trimEndOf_append_cons visible _ []

theorem readTemplate_target (named : leadingName? name = some name) :
    readTemplate (targetLine name) =
      .ok ⟨.empty, [.effect (.call "f" [] (some (.ofList name)))]⟩ := by
  have word := isWordChar_of_mem_name named
  have noParen : ')' ∉ name := by
    intro member
    have inside := word ')' member
    rw [isWordChar_of_lt (by decide)] at inside
    exact absurd inside (by decide)
  exact readTemplate_callNothing (by decide) (by simp [noParen]) (callTarget?_name named)
    (isLine_target named) (trimEnd_targetLine named)

theorem readTemplate_call_unargued (named : leadingName? name = some name) :
    readTemplate (callLine name []) = .ok ⟨.empty, [.effect (.call (.ofList name) [] none)]⟩ := by
  have isLine := isLine_call named .nil
  have whole := trimEnd_callLine name []
  rw [List.intercalate_nil] at isLine
  rw [← List.append_nil (callLine name [])] at isLine whole ⊢
  exact readTemplate_callNothing named List.not_mem_nil rfl isLine whole

end Source

open Source

namespace Template

theorem named_of_parse {source : String} {template : Template}
    (read : Template.parse source = .ok template) : ∀ node ∈ template.nodes, node.Named :=
  hereditary_named.readTemplate _ template ((parse_ok_iff rfl).mp read)

/-- What a name is assigned to, called as, or takes the result of a call as, is a plain name, and each
plain name can be any of these. Plain names and identifiers are the same within ASCII; beyond, an
identifier may start with a letter of any script and go on with any number, and a plain name may go on
with marks and connectors. -/
theorem parse_names (s : String) :
    [IsPlainName s,
      Template.parse ("@state " ++ s ++ " = 1") = .ok ⟨.empty, [.stateAssign s (.literal (.int 1))]⟩,
      ∃ template value, Template.parse ("@state " ++ s ++ " = 1") = .ok template ∧
        .stateAssign s value ∈ template.nodes,
      Template.parse ("@effect func " ++ s ++ "()") = .ok ⟨.empty, [.effect (.call s [] none)]⟩,
      ∃ template args target, Template.parse ("@effect func " ++ s ++ "()") = .ok template ∧
        .effect (.call s args target) ∈ template.nodes,
      Template.parse ("@effect func f() => " ++ s) =
        .ok ⟨.empty, [.effect (.call "f" [] (some s))]⟩,
      ∃ template name args, Template.parse ("@effect func f() => " ++ s) = .ok template ∧
        .effect (.call name args (some s)) ∈ template.nodes].TFAE ∧
    (isIdentifier s.toList = true → (IsPlainName s ↔
      (∀ c ∈ s.toList.head?, c.toNat < 128) ∧ ∀ c ∈ s.toList.tail, isWordChar c = true)) ∧
    (IsPlainName s → (isIdentifier s.toList = true ↔ ∀ c ∈ s.toList.tail, isNameChar c = true)) ∧
    ((∀ c ∈ s.toList, c.toNat < 128) → (isIdentifier s.toList = true ↔ IsPlainName s)) := by
  refine ⟨?_, isPlainName_iff_of_isIdentifier, isIdentifier_iff_of_isPlainName,
    isIdentifier_iff_of_ascii⟩
  tfae_have 1 → 2 := fun plain => by
    have state := readTemplate_state plain (by decide) readExpr_one
    rw [String.ofList_toList] at state
    refine (parse_ok_iff ?_).mpr state
    simp [stateLine, stateWord]
  tfae_have 2 → 3 := fun read => ⟨_, _, read, List.mem_singleton_self _⟩
  tfae_have 3 → 1 := by
    rintro ⟨template, value, read, member⟩
    exact (named_of_parse read _ member).wellNamed
  tfae_have 1 → 4 := fun plain => by
    have call := readTemplate_call_unargued plain
    rw [String.ofList_toList] at call
    refine (parse_ok_iff ?_).mpr call
    simp [callLine, effectWord, funcWord]
  tfae_have 4 → 5 := fun read => ⟨_, _, _, read, List.mem_singleton_self _⟩
  tfae_have 5 → 1 := by
    rintro ⟨template, args, target, read, member⟩
    exact (named_of_parse read _ member).wellNamed.1
  tfae_have 1 → 6 := fun plain => by
    have target := readTemplate_target plain
    rw [String.ofList_toList] at target
    refine (parse_ok_iff ?_).mpr target
    simp [targetLine, callLine, effectWord, funcWord]
  tfae_have 6 → 7 := fun read => ⟨_, _, _, read, List.mem_singleton_self _⟩
  tfae_have 7 → 1 := by
    rintro ⟨template, name, args, read, member⟩
    exact (named_of_parse read _ member).wellNamed.2 s rfl
  tfae_finish

theorem parse_names_ascii :
    isIdentifier "x1".toList = true ∧
      Template.parse "@state x1 = 1" = .ok ⟨.empty, [.stateAssign "x1" (.literal (.int 1))]⟩ := by
  obtain ⟨same, -, -, agree⟩ := parse_names "x1"
  have plain : IsPlainName "x1" := by decide +kernel
  have ascii : ∀ c ∈ "x1".toList, c.toNat < 128 := by simp
  exact ⟨(agree ascii).mpr plain, (same.out 0 1).mp plain⟩

/-- An identifier that starts beyond ASCII is the name of a tool, but cannot be assigned; a name with a
mark behind its first letter is a plain name, but no identifier. -/
theorem parse_accented_name :
    isIdentifier "é".toList = true ∧ readNames? "é".toList = some ["é"] ∧
      Template.parse "@state é = 1" = .error ⟨.malformedDirective "@state é = 1", 1, 1⟩ ∧
      IsPlainName "a\u0301" ∧ isIdentifier "a\u0301".toList = false := by
  decide +kernel

end Template

end PromptScript
