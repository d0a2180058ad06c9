import PromptScript.Proofs.Source.Alike.Statement
import PromptScript.Proofs.Source.Bytes.Directive

/-!
Statements read by bytes. The reader of a line goes on at an offset up to the end of the line; it steps over
keywords, marks and colons by the bytes that they take.
-/
namespace PromptScript.Source.Bytes

open Text
open Command (byteLength)

/-- A part of what is left of a line that is shorter than that. Where it is not, the reading would not come
to an end, and there is none. -/
def forward (s t : ByteSpan) : Checked {t : ByteSpan // t.stop - t.start < s.stop - s.start} :=
  require (if h : t.stop - t.start < s.stop - s.start then some ⟨t, h⟩ else none)

/-- The fault of an opener without a body. -/
def missingBody {α : Type} (opener : Opener) : Checked α :=
  fault opener.offset (.missingBody opener.text)

/-- The offset of the colon that ends an opener. Its search starts behind the start of the opener. -/
def openerColon (source : List Char) (opener : Nat) (s : ByteSpan) : Checked Nat := do
  let text ← s.text source
  match colonIndex 0 none text with
  | some index => return s.start + byteOffset text index
  | none =>
    let rest ← (ByteSpan.mk opener s.stop).text source
    fault opener (.missingBody (.ofList rest))

/-- The condition of a clause whose keyword ends where `s` starts, up to the colon. -/
def readCondition (source : List Char) (kind : ClauseKind) (s : ByteSpan) (colon : Nat) :
    Checked (Option Expr) :=
  match kind with
  | .elseClause => do
    let between ← require (slice source s.start colon)
    if (trim between).isEmpty then return none
    else
      let behind ← s.trimStart source
      behind.unexpected source
  | _ => some <$> readExpr source ⟨s.start, colon⟩

/-- Reads the opener of a loop at the start of a span. The second part of the result is the offset of its
colon. -/
def readLoopHead (source : List Char) (s : ByteSpan) : Checked (LoopHead × Nat) := do
  let afterFor ← (ByteSpan.mk (s.start + 3) s.stop).trimStart source
  let var ← afterFor.word source
  if !isIdentifier var then afterFor.unexpected source
  else
    let afterVar ← (ByteSpan.mk (afterFor.start + byteLength var) s.stop).trimStart source
    let word ← afterVar.word source
    if word ≠ inWord then afterVar.unexpected source
    else
      let afterIn := afterVar.start + 2
      let colon ← openerColon source s.start ⟨afterIn, s.stop⟩
      let iterable ← readExpr source ⟨afterIn, colon⟩
      match iterable with
      | .path _ | .range .. =>
        let header ← require (slice source s.start (colon + 1))
        return (⟨.ofList var, iterable, ⟨.ofList header, s.start⟩⟩, colon)
      | _ => fault afterIn (.invalidExpression .unsuitableIterable)

mutual

/-- Reads the clauses of a chain at the start of a span: more of them as long as each body is on the same
line. The second part of the result is the offset behind them. -/
def readClauses (source : List Char) (indent : Nat) (nested isFirst : Bool) (s : ByteSpan) :
    Checked (List Clause × Nat) := do
  let word ← s.word source
  match ClauseKind.ofWord? word with
  | none => return ([], s.start)
  | some kind =>
    if !isFirst ∧ kind = .ifClause then return ([], s.start)
    else
      let behind : ByteSpan := ⟨s.start + byteLength word, s.stop⟩
      -- The colon is looked for behind the keyword; all from the keyword on is shown if there is none.
      let colon ← openerColon source s.start behind
      let condition ← readCondition source kind behind colon
      let header ← require (slice source s.start (colon + 1))
      let opener : Opener := ⟨.ofList header, s.start⟩
      let body ← (ByteSpan.mk (colon + 1) s.stop).trimStart source
      if body.isEmpty then
        if nested then missingBody opener
        else return ([⟨kind, condition, none, opener⟩], body.start)
      else
        -- Both readings that follow are of less than the line: `forward` says so.
        let ⟨body, _⟩ ← forward s body
        let (nodes, stop) ← readInline source indent body
        let clause : Clause := ⟨kind, condition, some nodes, opener⟩
        if kind = .elseClause then return ([clause], stop)
        else
          let rest ← (ByteSpan.mk stop s.stop).trimStart source
          let next ← rest.word source
          if next = elifWord ∨ next = elseWord then
            let ⟨rest, _⟩ ← forward s rest
            let (more, stop) ← readClauses source indent nested false rest
            return (clause :: more, stop)
          else return ([clause], rest.start)
termination_by 2 * (s.stop - s.start)

/-- Reads a body on the line of its opener: a text block, an include, a directive, or an opener with its own
body. The second part of the result is the offset behind it. -/
def readInline (source : List Char) (indent : Nat) (s : ByteSpan) : Checked (List Node × Nat) := do
  let text ← s.text source
  match Lead.ofText text with
  | .block =>
    let (node, stop) ← readBlockMark source indent true s
    return (node.toList, stop)
  | .marker =>
    let (target, stop) ← readInclude source s
    return ([.include target], stop)
  | .directive =>
    let node ← readDirective source s
    return ([node], s.stop)
  | .other =>
    let word ← s.word source
    if word = ifWord then
      let (clauses, stop) ← readClauses source indent true true s
      let chain := foldChain (clauses.map fun clause => (clause.condition, clause.body.getD []))
      return (chain.toList, stop)
    else if word = forWord then
      let (head, colon) ← readLoopHead source s
      let body ← (ByteSpan.mk (colon + 1) s.stop).trimStart source
      if body.isEmpty then missingBody head.opener
      else
        let ⟨body, _⟩ ← forward s body
        let (nodes, stop) ← readInline source indent body
        return ([.loop head.var head.iterable nodes], stop)
    else s.unexpected source
termination_by 2 * (s.stop - s.start) + 1

end

/-- Checks that only blanks are left of a line. -/
def expectEnd {α : Type} (source : List Char) (s : ByteSpan) (result : α) : Checked α := do
  let rest ← s.trimStart source
  if rest.isEmpty then return result else rest.unexpected source

/-- Reads a loop at the start of a line. -/
def readLoop (source : List Char) (indent : Nat) (s : ByteSpan) : Checked Statement := do
  let (head, colon) ← readLoopHead source s
  let body ← (ByteSpan.mk (colon + 1) s.stop).trimStart source
  if body.isEmpty then return .loop head none
  else
    let (nodes, stop) ← readInline source indent body
    expectEnd source ⟨stop, s.stop⟩ (.loop head (some nodes))

/-- A line with the width of its indentation, and the offsets of what follows that. -/
structure Line where
  indent : Nat
  span : ByteSpan
deriving DecidableEq, Repr, Inhabited

def readStatement (source : List Char) (line : Line) : Checked Statement := do
  let s ← line.span.trimStart source
  let text ← s.text source
  match Lead.ofText text with
  | .block =>
    let (node, stop) ← readBlockMark source line.indent false s
    expectEnd source ⟨stop, s.stop⟩ ((node.map Statement.node).getD .nothing)
  | .marker =>
    let (target, stop) ← readInclude source s
    expectEnd source ⟨stop, s.stop⟩ (.node (.include target))
  | .directive => .node <$> readDirective source s
  | .other =>
    let word ← s.word source
    if (ClauseKind.ofWord? word).isSome then
      let (clauses, stop) ← readClauses source line.indent false true s
      expectEnd source ⟨stop, s.stop⟩ (.chain clauses)
    else if word = forWord then readLoop source line.indent s
    else if word = ['f', 'r', 'o', 'm'] ∨ word = ['i', 'm', 'p', 'o', 'r', 't'] then
      let node ← readImport source s
      return (node.map Statement.node).getD .nothing
    else return .nothing

variable {source : List Char} {r t : ByteSpan} {s u : Span} {n m stop : Nat} {kind : ClauseKind}

/-! ### What is left of a line -/

/-- Of two parts that end at one place, the one with fewer characters is an end of the other. -/
theorem Stands.suffix (h : Stands source r s) (h' : Stands source t u) (ends : t.stop = r.stop)
    (shorter : u.text.length ≤ s.text.length) : u.text <:+ s.text := by
  have same := h.slice_before.symm.trans (ends ▸ h'.slice_before)
  rw [Option.some_inj] at same
  refine List.suffix_of_suffix_length_le ?_ (List.suffix_append (source.take s.start) s.text) shorter
  rw [same]
  exact List.suffix_append _ _

/-- A part with fewer characters is shorter in bytes too. -/
theorem Stands.forward (h : Stands source r s) (h' : Stands source t u) (ends : t.stop = r.stop)
    (shorter : u.text.length < s.text.length) : ∃ less, forward r t = pure ⟨t, less⟩ := by
  -- What the longer part has in front takes at least a byte.
  obtain ⟨front, whole⟩ := h.suffix h' ends (Nat.le_of_lt shorter)
  have less : t.stop - t.start < r.stop - r.start := by
    rw [h'.stop_eq, h.stop_eq, Nat.add_sub_cancel_left, Nat.add_sub_cancel_left, ← whole,
      byteLength_append]
    have := length_le_byteLength front
    have := congrArg List.length whole
    rw [List.length_append] at this
    omega
  exact ⟨less, by rw [Bytes.forward, dif_pos less, require_some]⟩

/-- The reading goes on at an offset with what is left of a line, up to blanks in front. -/
def GoesOnAt (source : List Char) (stop start : Nat) (rest : Span) : Prop :=
  ∃ u, Stands source ⟨start, stop⟩ u ∧ u.trimStart = rest.trimStart

theorem Stands.goesOnAt (h : Stands source r s) : GoesOnAt source r.stop r.start s :=
  ⟨s, h, rfl⟩

theorem GoesOnAt.exists_trimStart {start : Nat} (h : GoesOnAt source stop start s) : ∃ t,
    (ByteSpan.mk start stop).trimStart source = pure t ∧ t.stop = stop ∧
      Stands source t s.trimStart := by
  obtain ⟨u, stands, same⟩ := h
  obtain ⟨t, read, ends, stands⟩ := stands.exists_trimStart
  exact ⟨t, read, ends, same ▸ stands⟩

theorem trimStart_trimStart (s : Span) : s.trimStart.trimStart = s.trimStart := by
  have none : s.trimStart.text.takeWhile isBlank = [] := by
    rw [Span.text_trimStart, Text.trimStart]
    cases found : s.text.dropWhile isBlank with
    | nil => rfl
    | cons c rest =>
      have visible := bars_dropWhile isBlank s.text c (by rw [found]; rfl)
      rw [List.takeWhile_cons_of_neg (by simp [visible])]
  rw [Span.trimStart, none]
  rfl

theorem expectEnd_follows {α : Type} {V : α → α → Prop} {start : Nat} {a a' : α}
    (h : GoesOnAt source stop start s) (related : V a a') :
    Follows source V (expectEnd source ⟨start, stop⟩ a) (Source.expectEnd s a') := by
  obtain ⟨t, read, -, stands⟩ := h.exists_trimStart
  rw [expectEnd, read, pure_bind, Source.expectEnd, stands.isEmpty]
  split
  · exact .ok related
  · exact stands.unexpected

/-! ### Openers -/

/-- A colon behind `n` characters of a span is at an offset in bytes. -/
structure ColonAt (source : List Char) (r : ByteSpan) (s : Span) (colon n : Nat) : Prop where
  before : Stands source ⟨r.start, colon⟩ (s.take n)
  behind : Stands source ⟨colon + 1, r.stop⟩ (s.drop (n + 1))
  inside : n < s.text.length

theorem getElem?_colonIndex {depth : Int} {quote : Option Char} {text : List Char}
    (h : colonIndex depth quote text = some n) : text[n]? = some ':' := by
  induction depth, quote, text using colonIndex.induct generalizing n with
  | case1 => cases h
  | case2 depth q c rest ih =>
    rw [colonIndex] at h
    obtain ⟨m, later, rfl⟩ := Option.map_eq_some_iff.mp h
    exact ih later
  | case3 depth q c rest noEscape ih =>
    rw [colonIndex] at h
    · obtain ⟨m, later, rfl⟩ := Option.map_eq_some_iff.mp h
      exact ih later
    · exact noEscape
  | case4 depth c rest quoted ih =>
    rw [colonIndex, if_pos quoted] at h
    obtain ⟨m, later, rfl⟩ := Option.map_eq_some_iff.mp h
    exact ih later
  | case5 depth c rest noQuote colon =>
    rw [colonIndex, if_neg noQuote, if_pos colon] at h
    cases h
    rw [List.getElem?_cons_zero, colon.1]
  | case6 depth c rest noQuote noColon ih =>
    rw [colonIndex, if_neg noQuote, if_neg noColon] at h
    obtain ⟨m, later, rfl⟩ := Option.map_eq_some_iff.mp h
    exact ih later

theorem openerColon_follows (opener : Stands source r s) (h : Stands source t u)
    (ends : t.stop = r.stop) :
    Follows source (ColonAt source t u) (openerColon source r.start t) (Source.openerColon s u) := by
  rw [openerColon, h.text_eq, pure_bind, Source.openerColon]
  cases found : colonIndex 0 none u.text with
  | none =>
    have rest : (ByteSpan.mk r.start t.stop).text source = pure s.text := ends ▸ opener.text_eq
    simp only [rest, pure_bind]
    exact opener.fault _
  | some n =>
    have colon := getElem?_colonIndex found
    have inside : n < u.text.length := (List.getElem?_eq_some_iff.mp colon).1
    refine .ok ⟨h.take (Nat.le_of_lt inside), ?_, inside⟩
    exact Nat.add_assoc t.start _ 1 ▸ h.drop_bytes inside (byteOffset_succ colon).symm

/-- The text of an opener is cut out up to its colon. -/
theorem Stands.header (h : Stands source r s) (behind : Stands source ⟨n, r.stop⟩ (s.drop m))
    (within : m ≤ s.text.length) : slice source r.start n = some (s.text.take m) := by
  have place : n = r.start + byteOffset s.text m := behind.start.trans (h.offset within).symm
  rw [place]
  exact (h.take within).slice_text

theorem readCondition_follows (h : Stands source r s) {colon : Nat} (found : ColonAt source r s colon n)
    (kind : ClauseKind) :
    Follows source Eq (readCondition source kind r colon) (Source.readCondition kind s n) := by
  have expr : Follows source Eq (some <$> readExpr source ⟨r.start, colon⟩)
      ((Source.readExpr (s.take n)).map some) :=
    (readExpr_follows found.before).map fun _ _ same => congrArg some same
  cases kind with
  | ifClause => exact expr
  | elifClause => exact expr
  | elseClause =>
    obtain ⟨t, read, -, stands⟩ := h.exists_trimStart
    rw [readCondition, found.before.slice_text, require_some, pure_bind, Source.readCondition,
      Span.text_take]
    split
    · exact .ok rfl
    · rw [read, pure_bind]
      exact stands.unexpected

/-- Behind a word of name characters. -/
theorem Stands.drop_word (h : Stands source r s) :
    Stands source ⟨r.start + byteLength s.word, r.stop⟩ (s.drop s.word.length) :=
  h.drop_bytes (List.takeWhile_prefix isNameChar).length_le (byteLength_takeWhile s.text isNameChar)

theorem missingBody_follows {α β : Type} {V : α → β → Prop} {opener opener' : Opener}
    (text : opener.text = opener'.text) (place : SamePlace source opener.offset opener'.offset) :
    Follows source V (missingBody opener) opener'.missingBody := by
  rw [missingBody, Opener.missingBody, text]
  exact .fault _ place

/-- The same loop, the text of its opener included. -/
structure SameHead (source : List Char) (head head' : LoopHead) : Prop
    extends HeadAlike (SamePlace source) head head' where
  text : head.opener.text = head'.opener.text

theorem readLoopHead_follows (h : Stands source r s) (word : s.word = forWord) :
    Follows source (fun found found' => SameHead source found.1 found'.1 ∧
        Stands source ⟨found.2 + 1, r.stop⟩ (s.drop (found'.2 + 1)))
      (readLoopHead source r) (Source.readLoopHead s) := by
  have behind := h.drop_word
  have rest := (IsRest.refl s).drop_word
  rw [word, show forWord.length = 3 from rfl] at behind rest
  obtain ⟨t, read, ends, afterFor⟩ := behind.exists_trimStart
  have read : (ByteSpan.mk (r.start + 3) r.stop).trimStart source = pure t := read
  rw [readLoopHead, read, pure_bind, afterFor.word_eq, pure_bind, Source.readLoopHead]
  replace rest := rest.trimStart
  generalize (s.drop 3).trimStart = u at rest afterFor ⊢
  simp only
  split
  · exact afterFor.unexpected
  obtain ⟨t', read', ends', afterVar⟩ := (ends ▸ afterFor.drop_word).exists_trimStart
  replace rest := rest.drop_word.trimStart
  rw [read', pure_bind, afterVar.word_eq, pure_bind]
  generalize u.word = var at rest afterVar ⊢
  generalize (u.drop var.length).trimStart = v at rest afterVar ⊢
  split
  · exact afterVar.unexpected
  next isIn =>
  have afterIn := ends' ▸ afterVar.drop_word
  replace rest := rest.drop_word
  rw [not_not.mp isIn, show inWord.length = 2 from rfl] at afterIn rest
  obtain ⟨k, inside, here⟩ := rest
  -- The distance of the colon from the start of the opener is told by characters only.
  refine (openerColon_follows h afterIn rfl).bind fun colon n found => ?_
  refine (readExpr_follows found.before).bind ?_
  rintro e _ rfl
  have start : (v.drop 2).start - s.start = k := by
    rw [here, Span.start_drop, Nat.add_sub_cancel_left]
  have behind := found.behind
  rw [here, Span.drop_drop, ← Nat.add_assoc] at behind
  have within := found.inside
  rw [here, Span.text_drop, List.length_drop] at within
  have header := h.header behind (by omega)
  simp only [start]
  cases e with
  | path | range =>
    simp only [header, require_some, pure_bind]
    exact .ok ⟨⟨⟨rfl, rfl, h.start⟩, rfl⟩, behind⟩
  | _ => exact afterIn.fault _

/-! ### Bodies on the line of their opener -/

/-- The same clause, the text of its opener included. -/
structure SameClause (source : List Char) (clause clause' : Clause) : Prop
    extends ClauseAlike (SamePlace source) clause clause' where
  text : clause.opener.text = clause'.opener.text

/-- Results that are related, behind which the reading goes on at one place. -/
def SameRead {α : Type} (source : List Char) (stop : Nat) (V : α → α → Prop) {length : Nat}
    (found : α × Nat) (found' : Read α length) : Prop :=
  V found.1 found'.value ∧ GoesOnAt source stop found.2 found'.rest

variable {indent : Nat}

mutual

theorem readClauses_follows (nested isFirst : Bool) (r : ByteSpan) (s : Span) (h : Stands source r s)
    (blank : BlankBehind source r.stop) :
    Follows source (SameRead source r.stop (List.Forall₂ (SameClause source)))
      (readClauses source indent nested isFirst r) (Source.readClauses indent nested isFirst s) := by
  rw [readClauses, h.word_eq, pure_bind]
  have right := Source.readClauses.eq_def indent nested isFirst s
  split at right
  · next none =>
    rw [none, right]
    exact .ok ⟨.nil, h.goesOnAt⟩
  next kind known =>
  rw [known, right]
  simp only
  split
  · exact .ok ⟨.nil, h.goesOnAt⟩
  have behind := h.drop_word
  refine (openerColon_follows h behind rfl).bind fun colon n found => ?_
  refine (readCondition_follows behind found kind).bind ?_
  rintro condition _ rfl
  have after := found.behind
  rw [Span.drop_drop, ← Nat.add_assoc] at after
  have within := found.inside
  rw [Span.text_drop, List.length_drop] at within
  have header := h.header after (by omega)
  -- Behind the keyword less is left of the line, so that the readings of the body and of more clauses end.
  obtain ⟨t, read, ends, body⟩ := after.exists_trimStart
  have shorter := length_after_lt (word_ne_nil_of_kind known) (s.word.length + n)
  have ends : t.stop = r.stop := ends
  simp only [header, require_some, pure_bind, read, body.isEmpty]
  split
  · split
    · exact missingBody_follows rfl h.start
    · exact .ok ⟨.cons ⟨⟨rfl, rfl, rfl, h.start⟩, rfl⟩ .nil, ends ▸ body.goesOnAt⟩
  obtain ⟨less, goesOn⟩ := h.forward body ends shorter
  rw [goesOn, pure_bind]
  refine (readInline_follows t _ body (ends ▸ blank)).bind ?_
  rintro ⟨nodes, stop⟩ ⟨_, rest, inside⟩ ⟨rfl, left⟩
  have clause : SameClause source ⟨kind, condition, some nodes,
      ⟨.ofList (s.text.take (s.word.length + n + 1)), r.start⟩⟩ ⟨kind, condition, some nodes,
      ⟨.ofList (s.text.take (s.word.length + n + 1)), s.start⟩⟩ := ⟨⟨rfl, rfl, rfl, h.start⟩, rfl⟩
  simp only
  by_cases last : kind = .elseClause
  · rw [if_pos last, if_neg fun h => h.1 last]
    exact .ok ⟨.cons clause .nil, ends ▸ left⟩
  obtain ⟨t', read', ends', more⟩ := (ends ▸ left).exists_trimStart
  rw [if_neg last, read', pure_bind, more.word_eq, pure_bind]
  by_cases next : rest.trimStart.word = elifWord ∨ rest.trimStart.word = elseWord
  · have within := Span.length_trimStart_le rest
    have shorter : rest.trimStart.text.length < s.text.length := by omega
    obtain ⟨less, goesOn⟩ := h.forward more ends' shorter
    rw [if_pos next, if_pos ⟨last, next⟩, goesOn, pure_bind]
    refine (readClauses_follows nested false t' _ more (ends' ▸ blank)).bind ?_
    rintro ⟨clauses, stop⟩ ⟨clauses', left, within⟩ ⟨others, behind⟩
    exact .ok ⟨.cons clause others, ends' ▸ behind⟩
  · rw [if_neg next, if_neg fun h => next h.2]
    exact .ok ⟨.cons clause .nil, _, ends' ▸ more, trimStart_trimStart rest⟩
termination_by 2 * s.text.length

theorem readInline_follows (r : ByteSpan) (s : Span) (h : Stands source r s)
    (blank : BlankBehind source r.stop) :
    Follows source (SameRead source r.stop Eq) (readInline source indent r)
      (Source.readInline indent s) := by
  have whole : Stands source ⟨r.stop, r.stop⟩ (s.drop s.text.length) := by
    have := h.drop (Nat.le_refl _)
    rwa [byteOffset_of_length_le (Nat.le_refl _), ← h.stop_eq] at this
  rw [readInline, h.text_eq, pure_bind]
  unfold Source.readInline
  cases starts : Lead.ofText s.text with
  | block =>
    refine (readBlockMark_follows h starts indent true).bind ?_
    rintro ⟨node, stop⟩ ⟨_, taken⟩ ⟨rfl, behind⟩
    exact .ok ⟨rfl, behind.goesOnAt⟩
  | marker =>
    refine (readInclude_follows h blank starts).bind ?_
    rintro ⟨target, stop⟩ ⟨_, taken⟩ ⟨rfl, behind⟩
    exact .ok ⟨rfl, behind.goesOnAt⟩
  | directive =>
    refine (readDirective_follows h starts).bind ?_
    rintro node _ rfl
    exact .ok ⟨rfl, whole.goesOnAt⟩
  | other =>
    simp only [h.word_eq, pure_bind]
    split
    · refine (readClauses_follows true true r s h blank).bind ?_
      rintro ⟨clauses, stop⟩ ⟨clauses', rest, within⟩ ⟨same, left⟩
      have chain := foldable_alike (same.imp fun _ _ clause => clause.toClauseAlike)
      simp only at chain ⊢
      rw [chain]
      exact .ok ⟨rfl, left⟩
    split
    · next word =>
      refine (readLoopHead_follows h word).bind ?_
      rintro ⟨head, colon⟩ ⟨head', length⟩ ⟨same, behind⟩
      obtain ⟨t, read, ends, body⟩ := behind.exists_trimStart
      have shorter := length_after_lt (s := s) (by simp [word, forWord]) length
      have ends : t.stop = r.stop := ends
      simp only [read, pure_bind, body.isEmpty]
      split
      · exact missingBody_follows same.text same.place
      obtain ⟨less, goesOn⟩ := h.forward body ends shorter
      rw [goesOn, pure_bind]
      refine (readInline_follows t _ body (ends ▸ blank)).bind ?_
      rintro ⟨nodes, stop⟩ ⟨_, rest, inside⟩ ⟨rfl, left⟩
      exact .ok ⟨by rw [same.var, same.iterable], ends ▸ left⟩
    · exact h.unexpected
termination_by 2 * s.text.length + 1

end

/-! ### Statements -/

/-- The same statement, the texts of its openers included. -/
inductive SameStatement (source : List Char) : Statement → Statement → Prop
  | node (node : Node) : SameStatement source (.node node) (.node node)
  | nothing : SameStatement source .nothing .nothing
  | chain {clauses clauses' : List Clause} : List.Forall₂ (SameClause source) clauses clauses' →
    SameStatement source (.chain clauses) (.chain clauses')
  | loop {head head' : LoopHead} (body : Option (List Node)) : SameHead source head head' →
    SameStatement source (.loop head body) (.loop head' body)

theorem SameStatement.of_node? (node : Option Node) :
    SameStatement source ((node.map Statement.node).getD .nothing)
      ((node.map Statement.node).getD .nothing) := by
  cases node with
  | none => exact .nothing
  | some node => exact .node node

theorem readLoop_follows (h : Stands source r s) (blank : BlankBehind source r.stop)
    (word : s.word = forWord) :
    Follows source (SameStatement source) (readLoop source indent r) (Source.readLoop indent s) := by
  refine (readLoopHead_follows h word).bind ?_
  rintro ⟨head, colon⟩ ⟨head', length⟩ ⟨same, behind⟩
  obtain ⟨t, read, ends, body⟩ := behind.exists_trimStart
  have ends : t.stop = r.stop := ends
  simp only [read, pure_bind, body.isEmpty]
  split
  · exact .ok (.loop none same)
  · refine (readInline_follows t _ body (ends ▸ blank)).bind ?_
    rintro ⟨nodes, stop⟩ ⟨_, rest, inside⟩ ⟨rfl, left⟩
    exact expectEnd_follows (ends ▸ left) (.loop _ same)

/-- A line read by bytes stands where the line read by characters does, and blanks are behind it. -/
structure SameLine (source : List Char) (line : Line) (line' : LogicalLine) : Prop where
  indent : line.indent = line'.indent
  span : Stands source line.span line'.span
  blank : BlankBehind source line.span.stop

/-- A line read by bytes says the same. -/
theorem readStatement_follows {line : Line} {line' : LogicalLine} (h : SameLine source line line') :
    Follows source (SameStatement source) (readStatement source line) (Source.readStatement line') := by
  obtain ⟨t, read, ends, start⟩ := h.span.exists_trimStart
  have blank := h.blank
  rw [readStatement, read, pure_bind, start.text_eq, pure_bind, h.indent]
  unfold Source.readStatement
  generalize line'.span.trimStart = s at start ⊢
  dsimp only
  rw [← ends] at blank
  cases starts : Lead.ofText s.text with
  | block =>
    refine (readBlockMark_follows start starts _ false).bind ?_
    rintro ⟨node, stop⟩ ⟨_, taken⟩ ⟨rfl, behind⟩
    exact expectEnd_follows behind.goesOnAt (.of_node? _)
  | marker =>
    refine (readInclude_follows start blank starts).bind ?_
    rintro ⟨target, stop⟩ ⟨_, taken⟩ ⟨rfl, behind⟩
    exact expectEnd_follows behind.goesOnAt (.node _)
  | directive =>
    refine (readDirective_follows start starts).map ?_
    rintro node _ rfl
    exact .node _
  | other =>
    simp only [start.word_eq, pure_bind]
    split
    · refine (readClauses_follows false true t s start blank).bind ?_
      rintro ⟨clauses, stop⟩ ⟨clauses', rest, within⟩ ⟨same, left⟩
      exact expectEnd_follows left (.chain same)
    split
    · next word => exact readLoop_follows start blank word
    split
    · refine (readImport_follows start).map ?_
      rintro node _ rfl
      exact .of_node? _
    · exact .ok .nothing

end PromptScript.Source.Bytes
