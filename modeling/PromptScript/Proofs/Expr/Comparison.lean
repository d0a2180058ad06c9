import PromptScript.Expr.Eval
import PromptScript.Proofs.Computation
import PromptScript.Proofs.Number.Rounding
import PromptScript.Proofs.Value.Mapping
import PromptScript.Proofs.Value.Scalar

/-!
Integers in comparisons. Two integers with a sign are compared as they are; as soon as one of the two needs
all 64 bits for its magnitude, both are rounded first, and are equal if that makes them equal.
-/
namespace PromptScript

/-- Two integers that a comparison tells apart if they differ: both fit into 64 bits with a sign, or rounding
to floating-point numbers keeps them apart. -/
def ToldApart (a b : Int) : Prop :=
  a = b ∨ (fitsInt64 a = true ∧ fitsInt64 b = true) ∨ (Binary64.ofInt a).value ≠ (Binary64.ofInt b).value

/-- Whether two integers are related as an operator says. -/
def CompareOp.relates (op : CompareOp) (a b : Int) : Bool :=
  match op with
  | .eq => a = b
  | .ne => a ≠ b
  | .lt => a < b
  | .le => a ≤ b
  | .gt => a > b
  | .ge => a ≥ b

variable {a b : Int}

/-! ### Two integers -/

namespace Number

theorem toInt64?_eq_some_iff {n : Number} {i : Int} :
    n.toInt64? = some i ↔ n = .int i ∧ fitsInt64 i = true := by
  cases n with
  | float x => simp [toInt64?]
  | int m =>
    simp only [toInt64?, Option.ite_none_right_eq_some, Option.some.injEq, int.injEq]
    constructor
    · rintro ⟨fit, rfl⟩
      exact ⟨rfl, fit⟩
    · rintro ⟨rfl, fit⟩
      exact ⟨fit, rfl⟩

theorem order_int (fit : fitsInt64 a = true) (fit' : fitsInt64 b = true) :
    (Number.int a).order (.int b) = compare a b := by
  simp [order, toInt64?, fit, fit']

theorem order_int_of_wide (wide : ¬(fitsInt64 a = true ∧ fitsInt64 b = true)) :
    (Number.int a).order (.int b) = compare (Binary64.ofInt a).value (Binary64.ofInt b).value := by
  rw [← Binary64.order_eq]
  unfold order
  split
  · next x y first second =>
    obtain ⟨same, fit⟩ := toInt64?_eq_some_iff.mp first
    obtain ⟨same', fit'⟩ := toInt64?_eq_some_iff.mp second
    cases same
    cases same'
    exact absurd ⟨fit, fit'⟩ wide
  · rfl

/-- Two numbers that differ after rounding are in the order in which they were. -/
theorem compare_rounded (fits : fitsInteger a = true) (fits' : fitsInteger b = true)
    (apart : (Binary64.ofInt a).value ≠ (Binary64.ofInt b).value) :
    compare (Binary64.ofInt a).value (Binary64.ofInt b).value = compare a b := by
  rcases lt_trichotomy a b with less | rfl | more
  · have less' := lt_of_le_of_ne (Binary64.value_ofInt_mono fits fits' less.le) apart
    rw [compare_lt_iff_lt.mpr less, compare_lt_iff_lt.mpr less']
  · exact absurd rfl apart
  · have more' := lt_of_le_of_ne (Binary64.value_ofInt_mono fits' fits more.le) apart.symm
    rw [compare_gt_iff_gt.mpr more, compare_gt_iff_gt.mpr more']

theorem order_of_toldApart (fits : fitsInteger a = true) (fits' : fitsInteger b = true)
    (apart : ToldApart a b) : (Number.int a).order (.int b) = compare a b := by
  by_cases narrow : fitsInt64 a = true ∧ fitsInt64 b = true
  · exact order_int narrow.1 narrow.2
  · rw [order_int_of_wide narrow]
    rcases apart with rfl | both | apart
    · rw [compare_eq_iff_eq.mpr rfl, compare_eq_iff_eq.mpr rfl]
    · exact absurd both narrow
    · exact compare_rounded fits fits' apart

/-- Integers that are not told apart are taken as equal. -/
theorem order_of_not_toldApart (merged : ¬ToldApart a b) : (Number.int a).order (.int b) = .eq := by
  obtain ⟨_, wide, same⟩ : a ≠ b ∧ ¬(fitsInt64 a = true ∧ fitsInt64 b = true) ∧ _ = _ := by
    simpa only [ToldApart, not_or, not_not] using merged
  rw [order_int_of_wide wide, same, compare_eq_iff_eq.mpr rfl]

end Number

/-- Numbers that are ordered as two integers are related like these. -/
theorem CompareOp.holds_of_order {x y : Number} (h : x.order y = compare a b) (op : CompareOp) :
    op.holds (some (.num x)) (some (.num y)) = .ok (op.relates a b) := by
  have equal : Value.equals (some (.num x)) (some (.num y)) = decide (a = b) := by
    rw [Bool.eq_iff_iff, decide_eq_true_iff, Value.equals, Option.getD_some, Option.getD_some, Value.same,
      h, beq_iff_eq, compare_eq_iff_eq]
  have ordered (op : CompareOp) : Value.orderFor op (some (.num x)) (some (.num y)) = .ok (compare a b) := by
    simp only [Value.orderFor, Value.order?, h]
  have cases : compare a b = .lt ∧ a < b ∨ compare a b = .eq ∧ a = b ∨ compare a b = .gt ∧ b < a := by
    rw [compare_lt_iff_lt, compare_eq_iff_eq, compare_gt_iff_gt]
    omega
  cases op with
  | eq => rw [holds, equal]; rfl
  | ne => rw [holds, equal]; simp [relates]
  | lt | le | gt | ge =>
    rw [holds, ordered, Except.map, Except.ok.injEq]
    obtain ⟨same, here⟩ | ⟨same, here⟩ | ⟨same, here⟩ := cases <;> simp [same, relates] <;> omega

/-! ### Integers inside values -/

namespace Value

/-- An integer that stands somewhere in a value. -/
inductive Holds (n : Int) : Value → Prop
  | int : Holds n (.int n)
  | list {items : List Value} {item : Value} : item ∈ items → Holds n item → Holds n (.list items)
  | map {entries : Mapping} {entry : String × Value} :
    entry ∈ entries → Holds n entry.2 → Holds n (.map entries)

/-- Values without floating-point numbers that are the same data: their integers are the same, and mappings
have the same entries in some order. -/
inductive Alike : Value → Value → Prop
  | null : Alike .null .null
  | bool (b : Bool) : Alike (.bool b) (.bool b)
  | int (n : Int) : Alike (.int n) (.int n)
  | str (s : String) : Alike (.str s) (.str s)
  | list {items others : List Value} : List.Forall₂ Alike items others → Alike (.list items) (.list others)
  | map {entries ordered others : Mapping} : Mapping.keys entries = Mapping.keys ordered →
    List.Forall₂ Alike (entries.map (·.2)) (ordered.map (·.2)) → ordered.Perm others →
    Alike (.map entries) (.map others)

variable {x y item : Value} {items others : List Value} {entries other : Mapping} {depth depth' : Nat}

theorem sameItems_iff : sameItems items others = true ↔ List.Forall₂ (same · · = true) items others := by
  induction items generalizing others with
  | nil => cases others <;> simp [sameItems]
  | cons item rest ih => cases others <;> simp [sameItems, ih]

theorem sameEntries_iff : sameEntries entries other = true ↔
    ∀ entry ∈ entries, ∃ value, Mapping.get? other entry.1 = some value ∧ same entry.2 value = true := by
  induction entries with
  | nil => simp [sameEntries]
  | cons entry rest ih =>
    obtain ⟨key, value⟩ := entry
    rw [sameEntries, Bool.and_eq_true, ih, List.forall_mem_cons]
    refine and_congr_left fun _ => ?_
    cases Mapping.get? other key <;> simp

end Value

namespace Mapping

variable {entries other ordered : Mapping} {related : Value → Value → Prop}

theorem forall₂_entries : List.Forall₂ (fun a b => a.1 = b.1 ∧ related a.2 b.2) entries ordered ↔
    keys entries = keys ordered ∧ List.Forall₂ related (entries.map (·.2)) (ordered.map (·.2)) := by
  induction entries generalizing ordered with
  | nil => cases ordered <;> simp [keys]
  | cons entry rest ih =>
    cases ordered with
    | nil => simp [keys]
    | cons first more =>
      simp only [List.forall₂_cons, ih, keys, List.map_cons, List.cons.injEq]
      tauto

theorem exists_ordered_of_get? (found : ∀ entry ∈ entries, ∃ value,
      get? other entry.1 = some value ∧ related entry.2 value) :
    ∃ ordered, List.Forall₂ (fun a b => a.1 = b.1 ∧ related a.2 b.2) entries ordered ∧
      ordered ⊆ other := by
  induction entries with
  | nil => exact ⟨[], .nil, List.nil_subset _⟩
  | cons entry rest ih =>
    obtain ⟨⟨value, here, same⟩, later⟩ := List.forall_mem_cons.mp found
    obtain ⟨ordered, match', inside⟩ := ih later
    exact ⟨(entry.1, value) :: ordered, .cons ⟨rfl, same⟩ match',
      List.cons_subset.mpr ⟨mem_of_get? here, inside⟩⟩

/-- If no key is repeated, then in a mapping as long as another one, all of whose entries it has, there is
nothing else. -/
theorem length_eq_and_found_iff (distinct : (keys entries).Nodup) (distinct' : (keys other).Nodup) :
    (entries.length = other.length ∧
      ∀ entry ∈ entries, ∃ value, get? other entry.1 = some value ∧ related entry.2 value) ↔
    ∃ ordered, List.Forall₂ (fun a b => a.1 = b.1 ∧ related a.2 b.2) entries ordered ∧
      ordered.Perm other := by
  constructor
  · rintro ⟨length, found⟩
    obtain ⟨ordered, pairs, inside⟩ := exists_ordered_of_get? found
    rw [(forall₂_entries.mp pairs).1] at distinct
    rw [pairs.length_eq] at length
    exact ⟨ordered, pairs,
      (List.subperm_of_subset (.of_map _ distinct) inside).perm_of_length_le length.ge⟩
  · rintro ⟨ordered, pairs, perm⟩
    refine ⟨pairs.length_eq.trans perm.length_eq, fun entry member => ?_⟩
    obtain ⟨i, bound, rfl⟩ := List.mem_iff_getElem.mp member
    have bound' : i < ordered.length := pairs.length_eq ▸ bound
    obtain ⟨same, alike⟩ := pairs.get bound bound'
    have there := get?_of_mem distinct' (perm.mem_iff.mp (List.getElem_mem bound'))
    exact ⟨_, (congrArg _ same).trans there, alike⟩

end Mapping

namespace Value

variable {x y item : Value} {items others : List Value} {entries other : Mapping} {depth depth' : Nat}

theorem alike_list_iff : Alike (.list items) (.list others) ↔ List.Forall₂ Alike items others :=
  ⟨fun h => by cases h; assumption, .list⟩

theorem alike_map_iff (distinct : (Mapping.keys entries).Nodup) (distinct' : (Mapping.keys other).Nodup) :
    Alike (.map entries) (.map other) ↔ entries.length = other.length ∧
      ∀ entry ∈ entries, ∃ value, Mapping.get? other entry.1 = some value ∧ Alike entry.2 value := by
  rw [Mapping.length_eq_and_found_iff distinct distinct']
  simp only [Mapping.forall₂_entries]
  constructor
  · intro h
    cases h with
    | map keys values perm => exact ⟨_, ⟨keys, values⟩, perm⟩
  · rintro ⟨_, ⟨keys, values⟩, perm⟩
    exact .map keys values perm

theorem forall₂_congr_of_mem {related other : Value → Value → Prop}
    (h : ∀ a ∈ items, ∀ b ∈ others, related a b ↔ other a b) :
    List.Forall₂ related items others ↔ List.Forall₂ other items others := by
  rw [List.forall₂_iff_zip, List.forall₂_iff_zip]
  refine and_congr_right fun _ => ?_
  constructor <;> intro all a b pair <;> obtain ⟨left, right⟩ := List.of_mem_zip pair
  · exact (h a left b right).mp (all pair)
  · exact (h a left b right).mpr (all pair)

/-- Values whose integers are told apart are compared as the data that they are. -/
theorem same_iff_alike (plain : Plain depth x) (plain' : Plain depth' y)
    (apart : ∀ a b, Holds a x → Holds b y → ToldApart a b) : same x y = true ↔ Alike x y := by
  induction plain generalizing y depth' with
  | null =>
    cases plain' with
    | null => exact iff_of_true rfl .null
    | _ => exact iff_of_false (by simp [same]) nofun
  | bool b =>
    cases plain' with
    | bool c =>
      rw [same, beq_iff_eq]
      exact ⟨fun h => h ▸ .bool b, fun h => by cases h; rfl⟩
    | _ => exact iff_of_false (by simp [same]) nofun
  | @int _ n fits =>
    cases plain' with
    | @int _ m fits' =>
      rw [same, Number.order_of_toldApart fits fits' (apart n m .int .int), beq_iff_eq,
        compare_eq_iff_eq]
      exact ⟨fun h => h ▸ .int n, fun h => by cases h; rfl⟩
    | _ => exact iff_of_false (by simp [same]) nofun
  | str s =>
    cases plain' with
    | str t =>
      rw [same, beq_iff_eq]
      exact ⟨fun h => h ▸ .str s, fun h => by cases h; rfl⟩
    | _ => exact iff_of_false (by simp [same]) nofun
  | @list depth items plain ih =>
    cases plain' with
    | list plain' =>
      rw [same, sameItems_iff, alike_list_iff]
      exact forall₂_congr_of_mem fun item member other member' => ih item member (plain' other member')
        fun a b here there => apart a b (.list member here) (.list member' there)
    | _ => exact iff_of_false (by simp [same]) nofun
  | @map depth entries distinct plain ih =>
    cases plain' with
    | map distinct' plain' =>
      rw [same, Bool.and_eq_true, beq_iff_eq, sameEntries_iff, alike_map_iff distinct distinct']
      refine and_congr_right fun _ => forall₂_congr fun entry member => exists_congr fun value =>
        and_congr_right fun found => ?_
      have member' := Mapping.mem_of_get? found
      exact ih entry member (plain' _ member') fun a b here there =>
        apart a b (.map member here) (.map member' there)
    | _ => exact iff_of_false (by simp [same]) nofun

/-- A list holds a value if one of its items is the same data. -/
theorem isIn_list (plain : Plain depth x) (plain' : Plain depth' (.list items))
    (apart : ∀ a b, Holds a x → Holds b (.list items) → ToldApart a b) :
    ∃ found, isIn (some x) (some (.list items)) = .ok found ∧
      (found = true ↔ ∃ item ∈ items, Alike x item) := by
  refine ⟨_, rfl, ?_⟩
  cases plain' with
  | list plain' =>
    rw [List.any_eq_true]
    refine exists_congr fun item => and_congr_right fun member => ?_
    exact same_iff_alike plain (plain' item member) fun a b here there =>
      apart a b here (.list member there)

end Value

namespace Expr

variable {ctx : Context} {lhs rhs : Expr} {l r : Option Value} {op : CompareOp}

theorem eval_compare (here : lhs.eval ctx = .ok l) (there : rhs.eval ctx = .ok r) {result : Bool}
    (holds : op.holds l r = .ok result) : (compare op lhs rhs).eval ctx = .ok (some (.bool result)) := by
  have order : (compare op lhs rhs).eval ctx = (do
      let l ← lhs.eval ctx
      let r ← rhs.eval ctx
      return some (.bool (← op.holds l r))) := by
    simp only [eval, operand, bind_assoc, pure_bind]
    rfl
  simp only [order, Computation.except_bind_ok_iff]
  exact ⟨l, here, r, there, result, holds, rfl⟩

/-- A membership test evaluates its needle before it looks at what may hold it. -/
theorem eval_membership (ctx : Context) (negated : Bool) (needle haystack : Expr) :
    (membership negated needle haystack).eval ctx = (do
      let n ← needle.eval ctx
      let found ← (← haystack.operand ctx).contains n
      return some (.bool (found != negated))) := by
  simp only [eval, operand, bind_assoc, pure_bind]
  rfl

theorem eval_membership_of_ok {haystack : Operand} {found : Bool} (here : lhs.eval ctx = .ok l)
    (there : rhs.operand ctx = .ok haystack) (holds : haystack.contains l = .ok found) (negated : Bool) :
    (membership negated lhs rhs).eval ctx = .ok (some (.bool (found != negated))) := by
  simp only [eval_membership, Computation.except_bind_ok_iff]
  exact ⟨l, here, haystack, there, found, holds, rfl⟩

/-- Integers are compared by their order if they are told apart, and taken as equal if they are not. Values
whose integers are told apart are equal if they are the same data, and in a list that has the same data as an
item. -/
theorem compare_integers (ctx : Context) (lhs rhs : Expr) :
    (∀ a b, lhs.eval ctx = .ok (some (.int a)) → rhs.eval ctx = .ok (some (.int b)) →
      fitsInteger a = true → fitsInteger b = true →
      (ToldApart a b → ∀ op, (compare op lhs rhs).eval ctx = .ok (some (.bool (op.relates a b)))) ∧
      (¬ToldApart a b → ∀ op, (compare op lhs rhs).eval ctx = .ok (some (.bool (op.relates a a))))) ∧
    (∀ x y depth depth', lhs.eval ctx = .ok (some x) → rhs.eval ctx = .ok (some y) →
      Value.Plain depth x → Value.Plain depth' y → (∀ a b, x.Holds a → y.Holds b → ToldApart a b) →
      ∃ equal, (equal = true ↔ x.Alike y) ∧ (compare .eq lhs rhs).eval ctx = .ok (some (.bool equal)) ∧
        (compare .ne lhs rhs).eval ctx = .ok (some (.bool (!equal)))) ∧
    (∀ x items depth depth', lhs.eval ctx = .ok (some x) →
      rhs.operand ctx = .ok (.value (some (.list items))) → Value.Plain depth x →
      Value.Plain depth' (.list items) →
      (∀ a b, x.Holds a → (Value.list items).Holds b → ToldApart a b) →
      ∃ found, (found = true ↔ ∃ item ∈ items, x.Alike item) ∧
        ∀ negated, (membership negated lhs rhs).eval ctx = .ok (some (.bool (found != negated)))) := by
  refine ⟨?_, ?_, ?_⟩
  · intro a b here there fits fits'
    refine ⟨fun apart op => ?_, fun merged op => ?_⟩ <;>
      refine eval_compare here there (CompareOp.holds_of_order ?_ op)
    · exact Number.order_of_toldApart fits fits' apart
    · rw [Number.order_of_not_toldApart merged, compare_eq_iff_eq.mpr rfl]
  · intro x y depth depth' here there plain plain' apart
    refine ⟨_, Value.same_iff_alike plain plain' apart, ?_, ?_⟩ <;>
      exact eval_compare here there rfl
  · intro x items depth depth' here there plain plain' apart
    obtain ⟨found, answer, alike⟩ := Value.isIn_list plain plain' apart
    exact ⟨found, alike, eval_membership_of_ok here there answer⟩

/-- The greatest integer with a sign beside one that rounding keeps apart from it, and two neighbours that it
would not keep apart in a list. -/
theorem compare_integers_of_neighbours :
    let ctx : Context := .ofMapping [("a", .int (2 ^ 63 - 1)), ("b", .int (2 ^ 63 + 2048)),
      ("n", .int (2 ^ 53 + 1)), ("xs", .list [.int (2 ^ 53)])]
    ToldApart (2 ^ 63 - 1) (2 ^ 63 + 2048) ∧
      (compare .lt (.path ⟨"a", []⟩) (.path ⟨"b", []⟩)).eval ctx = .ok (some (.bool true)) ∧
      (membership true (.path ⟨"n", []⟩) (.path ⟨"xs", []⟩)).eval ctx = .ok (some (.bool true)) := by
  intro ctx
  have apart : ToldApart (2 ^ 63 - 1) (2 ^ 63 + 2048) := by
    refine .inr (.inr ?_)
    rw [Binary64.value_ofInt (by decide), Binary64.value_ofInt (by decide)]
    exact_mod_cast (by decide +kernel : Binary64.roundInt (2 ^ 63 - 1) ≠ Binary64.roundInt (2 ^ 63 + 2048))
  have pair := (compare_integers ctx (.path ⟨"a", []⟩) (.path ⟨"b", []⟩)).1
  have list := (compare_integers ctx (.path ⟨"n", []⟩) (.path ⟨"xs", []⟩)).2.2
  have plain (n : Int) (fits : fitsInteger n = true) : Value.Plain 0 (.int n) := .int fits
  have told : ∀ a b, (Value.int (2 ^ 53 + 1)).Holds a → (Value.list [.int (2 ^ 53)]).Holds b →
      ToldApart a b := by
    rintro a b ⟨⟩ there
    cases there with
    | list member there =>
      cases List.mem_singleton.mp member
      cases there
      exact .inr (.inl ⟨by decide, by decide⟩)
  obtain ⟨found, alike, test⟩ := list (.int (2 ^ 53 + 1)) [.int (2 ^ 53)] 0 1 rfl rfl
    (plain _ (by decide)) (.list (by simpa using plain _ (by decide))) told
  have absent : found = false := by
    rw [← Bool.not_eq_true, alike]
    rintro ⟨item, member, same⟩
    cases List.mem_singleton.mp member
    cases same
  subst absent
  exact ⟨apart, (pair _ _ rfl rfl (by decide) (by decide)).1 apart .lt, test true⟩

/-- Two integers that differ, but have the same nearest floating-point number. -/
theorem compare_integers_of_one_rounding :
    let ctx : Context := .ofMapping [("a", .int (2 ^ 63)), ("b", .int (2 ^ 63 + 1))]
    fitsInteger (2 ^ 63) = true ∧ fitsInteger (2 ^ 63 + 1) = true ∧
      (compare .eq (.path ⟨"a", []⟩) (.path ⟨"b", []⟩)).eval ctx = .ok (some (.bool true)) ∧
      CompareOp.eq.relates (2 ^ 63) (2 ^ 63 + 1) = false := by
  have order : (Number.int (2 ^ 63)).order (.int (2 ^ 63 + 1)) = .eq := by decide +kernel
  have holds := CompareOp.holds_of_order (a := 0) (b := 0) order .eq
  exact ⟨by decide, by decide, eval_compare rfl rfl holds, by decide⟩

end Expr

end PromptScript
