import PromptScript.Proofs.Source.Alike.Directive
import PromptScript.Proofs.Source.Alike.TextBlock

/-!
Statements whose line breaks are written another way.
-/
namespace PromptScript.Source

open Text

variable {R : Nat → Nat → Prop} {b : Break} {P : Prop} {s s' : Span} {text front rest : List Char}
  {n m : Nat}

/-! ### Openers -/

theorem colonIndex_front {quote : Option Char} (blank : ∀ d ∈ front, isBlank d = true)
    (opens : ∀ q ∈ quote, isQuote q = true) (depth : Int) (rest : List Char) :
    colonIndex depth quote (front ++ rest) = (colonIndex depth quote rest).map (front.length + ·) := by
  induction front with
  | nil => simp
  | cons d more ih =>
    obtain ⟨here, others⟩ := List.forall_mem_cons.mp blank
    have plain := isPlain_of_isBlank here
    simp only [isPlain, Bool.and_eq_true, Bool.not_eq_true', decide_eq_true_eq] at plain
    obtain ⟨⟨⟨⟨noQuote, -⟩, noDivider⟩, noBackslash⟩, flat⟩ := plain
    have noColon : d ≠ ':' := by
      rintro rfl
      cases noDivider
    have step : colonIndex depth quote (d :: (more ++ rest)) =
        (colonIndex depth quote (more ++ rest)).map (· + 1) := by
      cases quote with
      | none => simp [colonIndex, noQuote, noColon, flat]
      | some q =>
        have other : d ≠ q := by
          rintro rfl
          rw [opens d rfl] at noQuote
          cases noQuote
        rw [colonIndex_quoted noBackslash, if_neg other]
    rw [List.cons_append, step, ih others, Option.map_map]
    congr 1
    funext taken
    simp only [Function.comp_apply, List.length_cons]
    omega

/-- A colon behind `n` characters of a text, which are written with `m` characters. -/
structure ColonAlike (b : Break) (text : List Char) (n m : Nat) : Prop where
  measures : b.Measures text n m
  colon : ∃ more, text.drop n = ':' :: more

theorem ColonAlike.cons {c : Char} (newline : c ≠ '\n') (h : ColonAlike b rest n m) :
    ColonAlike b (c :: rest) (n + 1) (m + 1) :=
  ⟨h.measures.cons newline, h.colon⟩

theorem ColonAlike.newline (h : ColonAlike b rest n m) :
    ColonAlike b ('\n' :: rest) (n + 1) (b.text.length + m) :=
  ⟨h.measures.newline, h.colon⟩

theorem ColonAlike.behind (h : ColonAlike b text n m) : b.Measures text (n + 1) (m + 1) := by
  obtain ⟨more, colon⟩ := h.colon
  have mark : b.Measures (text.drop n) 1 1 := by
    rw [colon]
    exact (Break.Measures.zero b more).cons (by decide)
  exact h.measures.drop mark

/-- The colon of an opener is one character in both texts, and what stands in front of it is the same. -/
theorem colonIndex_alike {depth : Int} {quote : Option Char} (opens : ∀ q ∈ quote, isQuote q = true)
    (untaken : b.Untaken text) : Option.Rel (ColonAlike b text) (colonIndex depth quote text)
      (colonIndex depth quote (b.write text)) := by
  have breaks : ∀ d ∈ b.text, isBlank d = true := fun _ => Break.isBlank_of_mem_text
  have unquoted : ∀ q ∈ (none : Option Char), isQuote q = true := nofun
  induction depth, quote, text using colonIndex.induct with
  | case1 => exact .none
  | case2 depth q c rest ih =>
    rw [Break.write_taken untaken, colonIndex, colonIndex]
    exact option_rel_map (ih opens untaken.tail.tail) fun _ _ related =>
      ⟨related.measures.taken untaken, related.colon⟩
  | case3 depth q c rest noEscape ih =>
    have noQuote := (ne_of_isQuote (opens q rfl)).1
    have inside : ∀ q' ∈ (if c = q then none else some q), isQuote q' = true := by
      split
      · nofun
      · exact opens
    by_cases newline : c = '\n'
    · subst newline
      rw [if_neg (Ne.symm noQuote)] at ih
      rw [colonIndex_quoted (by decide), if_neg (Ne.symm noQuote), Break.write_newline,
        colonIndex_front breaks opens]
      exact option_rel_map (ih opens untaken.tail) fun _ _ => .newline
    · have noEscape' : ∀ d more, c = '\\' → b.write rest = d :: more → False := by
        intro d more same found
        cases rest with
        | nil => cases found
        | cons e behind => exact noEscape e behind same rfl
      rw [Break.write_cons_of_ne newline, colonIndex, colonIndex]
      · exact option_rel_map (ih inside untaken.tail) fun _ _ => .cons newline
      · exact noEscape'
      · exact noEscape
  | case4 depth c rest quoted ih =>
    have newline := (ne_of_isQuote quoted).1
    rw [Break.write_cons_of_ne newline, colonIndex, if_pos quoted, colonIndex, if_pos quoted]
    exact option_rel_map (ih (by simpa using quoted) untaken.tail) fun _ _ => .cons newline
  | case5 depth c rest noQuote colon =>
    have newline : c ≠ '\n' := by
      rw [colon.1]
      decide
    rw [Break.write_cons_of_ne newline, colonIndex, if_neg noQuote, if_pos colon, colonIndex,
      if_neg noQuote, if_pos colon]
    exact .some ⟨.zero b _, rest, by rw [colon.1]; rfl⟩
  | case6 depth c rest noQuote noColon ih =>
    by_cases newline : c = '\n'
    · subst newline
      have flat : depth + bracketStep '\n' = depth := Int.add_zero depth
      rw [flat] at ih
      rw [colonIndex, if_neg noQuote, if_neg noColon, flat, Break.write_newline,
        colonIndex_front breaks unquoted]
      exact option_rel_map (ih nofun untaken.tail) fun _ _ => .newline
    · rw [Break.write_cons_of_ne newline, colonIndex, if_neg noQuote, if_neg noColon, colonIndex,
        if_neg noQuote, if_neg noColon]
      exact option_rel_map (ih nofun untaken.tail) fun _ _ => .cons newline

theorem openerColon_alike {opener opener' : Span} (place : Moved R b opener opener')
    (h : Moved R b s s') :
    Alike R (ColonAlike b s.text) (openerColon opener s) (openerColon opener' s') := by
  have found : Option.Rel (ColonAlike b s.text) (colonIndex 0 none s.text)
      (colonIndex 0 none (b.write s.text)) := colonIndex_alike nofun h.untaken
  unfold openerColon
  rw [h.text]
  generalize colonIndex 0 none s.text = colon, colonIndex 0 none (b.write s.text) = colon' at found
  cases found with
  | none => exact place.fault rfl
  | some related => exact .ok related

/-- Where a line goes on behind the text in front of a colon, it goes on behind the colon. -/
theorem Remains.drop_colon (h : Remains R b P s s') (colon : ColonAlike b s.text n m)
    (settled : Settled b (s.text.drop n)) : Remains R b P (s.drop (n + 1)) (s'.drop (m + 1)) := by
  refine h.drop_settled colon.behind ?_
  obtain ⟨more, mark⟩ := colon.colon
  rw [mark, ← List.singleton_append] at settled
  rw [← List.drop_drop, mark]
  exact settled.of_harmless (List.forall_mem_singleton.mpr (by decide))

/-- A condition is the same, and what stands behind its colon is left of both lines. -/
theorem readCondition_alike (h : Remains R b P s s') (colon : ColonAlike b s.text n m)
    (kind : ClauseKind) :
    Alike R (fun condition condition' => condition = condition' ∧
        Remains R b P (s.drop (n + 1)) (s'.drop (m + 1)))
      (readCondition kind s n) (readCondition kind s' m) := by
  have split : s.text.take n ++ s.text.drop n = s.text := List.take_append_drop n s.text
  have expr : Alike R (fun condition condition' => condition = condition' ∧
      Remains R b P (s.drop (n + 1)) (s'.drop (m + 1)))
      ((readExpr (s.take n)).map some) ((readExpr (s'.take m)).map some) := by
    have settled := h.settled
    rw [← split, ← Span.text_take] at settled
    exact (readExpr_alike (h.toMoved.take colon.measures) settled).map fun e e' related =>
      ⟨congrArg some related.1, h.drop_colon colon related.2⟩
  cases kind with
  | ifClause => exact expr
  | elifClause => exact expr
  | elseClause =>
    have blank : (trim (s'.text.take m)).isEmpty = (trim (s.text.take n)).isEmpty := by
      rw [h.text, colon.measures.take_write, Break.trim_write, Bool.eq_iff_iff, List.isEmpty_iff,
        List.isEmpty_iff, Break.write_eq_nil_iff]
    simp only [readCondition, blank]
    split
    · next nothing =>
      have harmless : ∀ c ∈ s.text.take n, isHarmless c = true := by
        intro c member
        refine isHarmless_of_isPlain (isPlain_of_isBlank ?_)
        by_contra visible
        have left := mem_trim member (Bool.eq_false_of_not_eq_true visible)
        rw [List.isEmpty_iff.mp nothing] at left
        cases left
      have settled := h.settled
      rw [← split] at settled
      exact .ok ⟨rfl, h.drop_colon colon (settled.of_harmless harmless)⟩
    · exact h.toMoved.trimStart.unexpected

/-- The same loop, whose opener stands elsewhere. -/
structure HeadAlike (R : Nat → Nat → Prop) (head head' : LoopHead) : Prop where
  var : head.var = head'.var
  iterable : head.iterable = head'.iterable
  place : R head.opener.offset head'.opener.offset

/-- How far a part of a span is from where the span starts is told from where both start. -/
theorem Span.drop_of_start {t : Span} {k : Nat} (part : t = s.drop k) (n : Nat) :
    s.drop (t.start - s.start + n) = t.drop n := by
  subst part
  rw [Span.start_drop, Nat.add_sub_cancel_left, Span.drop_drop]

theorem readLoopHead_alike (h : Remains R b P s s') (word : s.word = forWord) :
    Alike R (fun found found' => HeadAlike R found.1 found'.1 ∧
        Remains R b P (s.drop (found.2 + 1)) (s'.drop (found'.2 + 1)))
      (readLoopHead s) (readLoopHead s') := by
  have afterFor : Remains R b P (s.drop 3).trimStart (s'.drop 3).trimStart := by
    have behind := h.drop_word
    rw [word] at behind
    exact behind.trimStart
  have part (s : Span) (n : Nat) : ∃ k, ((s.drop 3).trimStart.drop n).trimStart.drop 2 = s.drop k :=
    ⟨_, by simp only [Span.trimStart, Span.drop_drop]; rfl⟩
  unfold readLoopHead
  simp only [afterFor.word]
  split
  · exact afterFor.unexpected
  have afterVar := afterFor.drop_word.trimStart
  simp only [afterVar.word]
  split
  · exact afterVar.unexpected
  next isIn =>
  have afterIn := afterVar.drop_word
  rw [not_not.mp isIn, show inWord.length = 2 from rfl] at afterIn
  generalize (s.drop 3).trimStart.word = var at afterIn ⊢
  obtain ⟨k, here⟩ := part s var.length
  obtain ⟨k', there⟩ := part s' var.length
  generalize ((s.drop 3).trimStart.drop var.length).trimStart.drop 2 = t at afterIn here ⊢
  generalize ((s'.drop 3).trimStart.drop var.length).trimStart.drop 2 = t' at afterIn there ⊢
  refine (openerColon_alike h.toMoved afterIn.toMoved).bind fun n m colon => ?_
  have settled := afterIn.settled
  rw [← List.take_append_drop n t.text, ← Span.text_take] at settled
  refine (readExpr_alike (afterIn.take colon.measures) settled).bind ?_
  rintro e _ ⟨rfl, left⟩
  have behind := afterIn.drop_colon colon left
  rw [← Span.drop_of_start here, ← Span.drop_of_start there] at behind
  cases e with
  | path | range => exact .ok ⟨⟨rfl, rfl, h.start⟩, behind⟩
  | _ => exact afterIn.fault rfl

/-! ### Bodies on the line of their opener -/

/-- The same clause, whose opener stands elsewhere. -/
structure ClauseAlike (R : Nat → Nat → Prop) (clause clause' : Clause) : Prop where
  kind : clause.kind = clause'.kind
  condition : clause.condition = clause'.condition
  body : clause.body = clause'.body
  place : R clause.opener.offset clause'.opener.offset

/-- Results that are related, and what is left of both lines behind them. -/
def ReadAlike {α : Type} (R : Nat → Nat → Prop) (b : Break) (P : Prop) (V : α → α → Prop)
    {length length' : Nat} (found : Read α length) (found' : Read α length') : Prop :=
  V found.value found'.value ∧ Remains R b P found.rest found'.rest

theorem Remains.isEmpty (h : Remains R b P s s') : s'.text.isEmpty = s.text.isEmpty := by
  rw [h.text, Bool.eq_iff_iff, List.isEmpty_iff, List.isEmpty_iff, Break.write_eq_nil_iff]

/-- What a chain is folded from is the same for clauses that are. -/
theorem foldable_alike {clauses clauses' : List Clause}
    (h : List.Forall₂ (ClauseAlike R) clauses clauses') :
    (clauses.map fun clause => (clause.condition, clause.body.getD [])) =
      clauses'.map fun clause => (clause.condition, clause.body.getD []) := by
  induction h with
  | nil => rfl
  | cons here _ ih => rw [List.map_cons, List.map_cons, here.condition, here.body, ih]

variable {indent indent' : Nat}

mutual

theorem readClauses_alike (nested isFirst : Bool) (s s' : Span)
    (h : Remains R b (indent' = indent + b.margin) s s') :
    Alike R (ReadAlike R b (indent' = indent + b.margin) (List.Forall₂ (ClauseAlike R)))
      (readClauses indent nested isFirst s) (readClauses indent' nested isFirst s') := by
  have word : s'.word = s.word := h.word
  have left := readClauses.eq_def indent nested isFirst s
  have right := readClauses.eq_def indent' nested isFirst s'
  split at left
  · next none =>
    split at right
    · rw [left, right]
      exact .ok ⟨.nil, h⟩
    · next found =>
      rw [word, none] at found
      cases found
  next kind known =>
  split at right
  · next none =>
    rw [word, known] at none
    cases none
  next kind' known' =>
  -- Both lines open the same kind of clause.
  obtain rfl : kind = kind' := by
    rw [word, known] at known'
    exact Option.some.inj known'
  rw [left, right]
  split
  · exact .ok ⟨.nil, h⟩
  have behind : Remains R b (indent' = indent + b.margin) (s.drop s.word.length)
      (s'.drop s'.word.length) := by
    rw [word]
    exact h.drop_word
  refine (openerColon_alike h.toMoved behind.toMoved).bind fun n m colon => ?_
  refine (readCondition_alike behind colon kind).bind fun condition condition' ⟨eq, after⟩ => ?_
  subst eq
  rw [Span.drop_drop, Span.drop_drop, ← Nat.add_assoc, ← Nat.add_assoc] at after
  have body := after.trimStart
  have shorter := length_after_lt (word_ne_nil_of_kind known) (s.word.length + n)
  simp only [body.isEmpty]
  split
  · split
    · exact .error ⟨rfl, h.start⟩
    · exact .ok ⟨.cons ⟨rfl, rfl, rfl, h.start⟩ .nil, body⟩
  refine (readInline_alike _ _ body).bind fun nodes nodes' ⟨eq, after⟩ => ?_
  obtain ⟨nodes, rest, within⟩ := nodes
  obtain ⟨nodes', rest', within'⟩ := nodes'
  obtain rfl : nodes = nodes' := eq
  have more : Remains R b (indent' = indent + b.margin) rest.trimStart rest'.trimStart := after.trimStart
  have within := Span.length_trimStart_le rest
  simp only [more.word]
  split
  · refine (readClauses_alike nested false _ _ more).bind fun clauses clauses' ⟨others, last⟩ => ?_
    exact .ok ⟨.cons ⟨rfl, rfl, rfl, h.start⟩ others, last⟩
  · exact .ok ⟨.cons ⟨rfl, rfl, rfl, h.start⟩ .nil, after⟩
termination_by 2 * s.text.length

theorem readInline_alike (s s' : Span) (h : Remains R b (indent' = indent + b.margin) s s') :
    Alike R (ReadAlike R b (indent' = indent + b.margin) Eq) (readInline indent s)
      (readInline indent' s') := by
  have lead : Lead.ofText s'.text = Lead.ofText s.text := by rw [h.text, lead_write]
  unfold readInline
  rw [lead]
  split
  · next starts =>
    refine (readBlockMark_alike h starts true).bind fun found found' ⟨same, left⟩ => ?_
    exact .ok ⟨congrArg Option.toList same, left⟩
  · next starts =>
    refine (readInclude_alike h starts).bind fun found found' ⟨same, left⟩ => ?_
    exact .ok ⟨by rw [same], left⟩
  · next starts =>
    refine (readDirective_alike h.toMoved starts).bind fun node node' same => ?_
    exact .ok ⟨by rw [same], h.nothing⟩
  · simp only [h.word]
    split
    · refine (readClauses_alike true true s s' h).bind fun found found' ⟨clauses, left⟩ => ?_
      refine .ok ⟨?_, left⟩
      simp only [foldable_alike clauses]
    split
    · next word =>
      refine (readLoopHead_alike h word).bind fun found found' ⟨head, left⟩ => ?_
      obtain ⟨head, n⟩ := found
      obtain ⟨head', n'⟩ := found'
      have body := left.trimStart
      have shorter := length_after_lt (s := s) (by simp [word, forWord]) n
      simp only [body.isEmpty]
      split
      · exact .error ⟨rfl, head.place⟩
      · refine (readInline_alike _ _ body).bind fun nodes nodes' ⟨eq, after⟩ => ?_
        exact .ok ⟨by rw [eq, head.var, head.iterable], after⟩
    · exact h.unexpected
termination_by 2 * s.text.length + 1

end

/-! ### Statements -/

/-- The same statement, whose openers stand elsewhere. -/
inductive StatementAlike (R : Nat → Nat → Prop) : Statement → Statement → Prop
  | node (node : Node) : StatementAlike R (.node node) (.node node)
  | nothing : StatementAlike R .nothing .nothing
  | chain {clauses clauses' : List Clause} : List.Forall₂ (ClauseAlike R) clauses clauses' →
    StatementAlike R (.chain clauses) (.chain clauses')
  | loop {head head' : LoopHead} (body : Option (List Node)) : HeadAlike R head head' →
    StatementAlike R (.loop head body) (.loop head' body)

theorem StatementAlike.of_node? (node : Option Node) :
    StatementAlike R ((node.map Statement.node).getD .nothing)
      ((node.map Statement.node).getD .nothing) := by
  cases node with
  | none => exact .nothing
  | some node => exact .node node

theorem expectEnd_alike {α β : Type} {V : α → β → Prop} (h : Moved R b s s') {result : α} {result' : β}
    (related : V result result') : Alike R V (expectEnd s result) (expectEnd s' result') := by
  have nothing : s'.trimStart.text.isEmpty = s.trimStart.text.isEmpty := by
    rw [h.trimStart.text, Bool.eq_iff_iff, List.isEmpty_iff, List.isEmpty_iff, Break.write_eq_nil_iff]
  unfold expectEnd
  rw [nothing]
  split
  · exact .ok related
  · exact h.trimStart.unexpected

theorem readLoop_alike (h : Remains R b (indent' = indent + b.margin) s s') (word : s.word = forWord) :
    Alike R (StatementAlike R) (readLoop indent s) (readLoop indent' s') := by
  refine (readLoopHead_alike h word).bind fun ⟨head, n⟩ ⟨head', n'⟩ ⟨same, left⟩ => ?_
  have body := left.trimStart
  simp only [body.isEmpty]
  split
  · exact .ok (.loop none same)
  · refine (readInline_alike _ _ body).bind fun nodes nodes' ⟨eq, after⟩ => ?_
    refine expectEnd_alike after.toMoved ?_
    rw [eq]
    exact .loop _ same

/-- A line that stands elsewhere says the same. -/
theorem readStatement_alike {line line' : LogicalLine}
    (h : Remains R b (line'.indent = line.indent + b.margin) line.span line'.span) :
    Alike R (StatementAlike R) (readStatement line) (readStatement line') := by
  have start := h.trimStart
  have lead : Lead.ofText line'.span.trimStart.text = Lead.ofText line.span.trimStart.text := by
    rw [start.text, lead_write]
  unfold readStatement
  simp only [lead, start.word]
  split
  · next starts =>
    refine (readBlockMark_alike start starts false).bind fun found found' ⟨same, left⟩ => ?_
    refine expectEnd_alike left.toMoved ?_
    rw [same]
    exact .of_node? _
  · next starts =>
    refine (readInclude_alike start starts).bind fun found found' ⟨same, left⟩ => ?_
    refine expectEnd_alike left.toMoved ?_
    rw [same]
    exact .node _
  · next starts =>
    refine (readDirective_alike start.toMoved starts).map fun node node' same => ?_
    rw [same]
    exact .node _
  · split
    · exact (readClauses_alike false true _ _ start).bind fun found found' ⟨clauses, left⟩ =>
        expectEnd_alike left.toMoved (.chain clauses)
    · split
      · next word => exact readLoop_alike start word
      · split
        · refine (readImport_alike start.toMoved).map fun node node' same => ?_
          rw [same]
          exact .of_node? _
        · exact .ok .nothing

end PromptScript.Source
