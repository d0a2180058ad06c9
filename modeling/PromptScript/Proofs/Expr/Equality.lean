import PromptScript.Proofs.Expr.Comparison

/-!
Equality and order of values. Where all numbers are integers with a sign, equality is an equivalence:
values are equal if they are the same data. Of two values that have an order, each is less than the other,
equal to it or greater.
-/
namespace PromptScript

/-- Whether the values of a kind are ordered. -/
def Kind.isOrdered : Kind → Bool
  | .number | .string | .boolean => true
  | _ => false

namespace Value

/-- A value that may be absent, in which no key of a mapping is repeated and all numbers are integers that
fit into 64 bits with a sign. -/
def IsExact (x : Option Value) : Prop :=
  (∃ depth, (x.getD .null).Plain depth) ∧ ∀ n, (x.getD .null).Holds n → fitsInt64 n = true

/-- Two numbers, two strings or two booleans. -/
def Comparable (x y : Option Value) : Prop :=
  Kind.ofValue x = Kind.ofValue y ∧ (Kind.ofValue x).isOrdered = true

variable {a b c : Value} {x y z : Option Value} {items others later : List Value} {depth : Nat}

/-! ### The same data -/

theorem forall₂_alike_symm (back : ∀ item ∈ items, ∀ other, Alike item other → Alike other item)
    (alike : List.Forall₂ Alike items others) : List.Forall₂ Alike others items := by
  induction alike with
  | nil => exact .nil
  | cons first _ ih =>
    obtain ⟨here, behind⟩ := List.forall_mem_cons.mp back
    exact .cons (here _ first) (ih behind)

theorem forall₂_alike_trans
    (onward : ∀ item ∈ items, ∀ other last, Alike item other → Alike other last → Alike item last)
    (alike : List.Forall₂ Alike items others) (alike' : List.Forall₂ Alike others later) :
    List.Forall₂ Alike items later := by
  induction alike generalizing later with
  | nil => exact alike'
  | cons first _ ih =>
    obtain ⟨here, behind⟩ := List.forall_mem_cons.mp onward
    cases alike' with
    | cons first' rest' => exact .cons (here _ _ first first') (ih behind rest')

theorem Plain.alike_self (plain : Plain depth a) : Alike a a := by
  induction plain with
  | null => exact .null
  | bool b => exact .bool b
  | int => exact .int _
  | str s => exact .str s
  | list _ ih => exact .list (List.forall₂_same.mpr ih)
  | map _ _ ih =>
    refine .map rfl (List.forall₂_same.mpr fun value member => ?_) (.refl _)
    obtain ⟨entry, known, rfl⟩ := List.mem_map.mp member
    exact ih entry known

theorem Plain.alike_symm (plain : Plain depth a) (alike : Alike a b) : Alike b a := by
  induction plain generalizing b with
  | null | bool | int | str => cases alike; constructor
  | list _ ih =>
    cases alike with
    | list items => exact .list (forall₂_alike_symm (fun item member _ => ih item member) items)
  | @map _ entries _ _ ih =>
    cases alike with
    | @map _ ordered others keys values perm =>
      -- The entries are put into the order of the other mapping, each beside the entry like it.
      have back : List.Forall₂ Alike (ordered.map (·.2)) (entries.map (·.2)) := by
        refine forall₂_alike_symm (fun value member other => ?_) values
        obtain ⟨entry, known, rfl⟩ := List.mem_map.mp member
        exact ih entry known
      obtain ⟨reordered, pairs, perm'⟩ := List.perm_comp_forall₂ perm.symm
        (Mapping.forall₂_entries.mpr ⟨keys.symm, back⟩)
      obtain ⟨keys', values'⟩ := Mapping.forall₂_entries.mp pairs
      exact .map keys' values' perm'

theorem Plain.alike_trans (plain : Plain depth a) (alike : Alike a b) (alike' : Alike b c) :
    Alike a c := by
  induction plain generalizing b c with
  | null | bool | int | str => cases alike; exact alike'
  | list _ ih =>
    cases alike with
    | list items =>
      cases alike' with
      | list items' =>
        exact .list (forall₂_alike_trans (fun item member _ _ => ih item member) items items')
  | @map _ entries _ _ ih =>
    cases alike with
    | @map _ ordered others keys values perm =>
      cases alike' with
      | @map _ ordered' _ keys' values' perm' =>
        -- The entries of the last mapping are put into the order of the first one, across the middle one.
        obtain ⟨between, pairs, reordered⟩ := List.perm_comp_forall₂ perm
          (Mapping.forall₂_entries.mpr ⟨keys', values'⟩)
        obtain ⟨keys', values'⟩ := Mapping.forall₂_entries.mp pairs
        refine .map (keys.trans keys') (forall₂_alike_trans ?_ values values') (reordered.trans perm')
        intro value member other last
        obtain ⟨entry, known, rfl⟩ := List.mem_map.mp member
        exact ih entry known

/-! ### Equality -/

/-- Two integers with a sign are always told apart. -/
theorem equals_iff_alike (exact : IsExact x) (exact' : IsExact y) :
    equals x y = true ↔ (x.getD .null).Alike (y.getD .null) := by
  obtain ⟨⟨_, plain⟩, fits⟩ := exact
  obtain ⟨⟨_, plain'⟩, fits'⟩ := exact'
  exact same_iff_alike plain plain' fun m n here there => .inr (.inl ⟨fits m here, fits' n there⟩)

/-! ### Order -/

theorem order?_isSome_iff : (order? x y).isSome = true ↔ Comparable x y := by
  rcases x with _ | (_ | _ | _ | _ | _ | _) <;> rcases y with _ | (_ | _ | _ | _ | _ | _) <;>
    simp [order?, Comparable, Kind.ofValue, Kind.isOrdered]

theorem isEq_compare {α : Type} [LinearOrder α] (a b : α) : (compare a b).isEq = decide (a = b) := by
  rw [Bool.eq_iff_iff, Ordering.isEq_iff_eq_eq, compare_eq_iff_eq, decide_eq_true_iff]

/-- Two values that have an order are equal where it says so. -/
theorem equals_eq_of_order? {ordering : Ordering} (ordered : order? x y = some ordering) :
    equals x y = ordering.isEq := by
  unfold order? at ordered
  split at ordered <;> cases ordered
  · next m n =>
    rw [equals, Option.getD_some, Option.getD_some, same]
    cases m.order n <;> rfl
  · next s t =>
    rw [isEq_compare, equals, Option.getD_some, Option.getD_some, same]
    rfl
  · next p q => cases p <;> cases q <;> rfl

theorem IsExact.exists_int {n : Number} (exact : IsExact (some (.num n))) :
    ∃ i, n = .int i ∧ fitsInt64 i = true := by
  obtain ⟨⟨_, plain⟩, fits⟩ := exact
  cases plain with
  | int => exact ⟨_, rfl, fits _ .int⟩

/-- Two numbers, two strings or two booleans, of which the first one is less. -/
theorem order?_eq_lt_iff : order? x y = some .lt ↔
    (∃ m n, x = some (.num m) ∧ y = some (.num n) ∧ m.order n = .lt) ∨
    (∃ s t, x = some (.str s) ∧ y = some (.str t) ∧ s < t) ∨
    (∃ p q, x = some (.bool p) ∧ y = some (.bool q) ∧ p < q) := by
  unfold order?
  split <;> simp_all [compare_lt_iff_lt]

theorem order?_trans (exact : IsExact x) (exact' : IsExact y) (exact'' : IsExact z)
    (less : order? x y = some .lt) (less' : order? y z = some .lt) : order? x z = some .lt := by
  -- The value in the middle is of one kind only, so that both orders are of the same kind.
  rcases order?_eq_lt_iff.mp less with ⟨k, m, rfl, rfl, here⟩ | ⟨s, t, rfl, rfl, here⟩ |
    ⟨p, q, rfl, rfl, here⟩
  · obtain ⟨_, n, ⟨⟩, rfl, there⟩ | ⟨_, _, ⟨⟩, _⟩ | ⟨_, _, ⟨⟩, _⟩ := order?_eq_lt_iff.mp less'
    obtain ⟨i, rfl, fits⟩ := exact.exists_int
    obtain ⟨j, rfl, fits'⟩ := exact'.exists_int
    obtain ⟨l, rfl, fits''⟩ := exact''.exists_int
    rw [Number.order_int fits fits', compare_lt_iff_lt] at here
    rw [Number.order_int fits' fits'', compare_lt_iff_lt] at there
    rw [order?, Number.order_int fits fits'', compare_lt_iff_lt.mpr (here.trans there)]
  · obtain ⟨_, _, ⟨⟩, _⟩ | ⟨_, u, ⟨⟩, rfl, there⟩ | ⟨_, _, ⟨⟩, _⟩ := order?_eq_lt_iff.mp less'
    exact order?_eq_lt_iff.mpr (.inr (.inl ⟨s, u, rfl, rfl, here.trans there⟩))
  · obtain ⟨_, _, ⟨⟩, _⟩ | ⟨_, _, ⟨⟩, _⟩ | ⟨_, r, ⟨⟩, rfl, there⟩ := order?_eq_lt_iff.mp less'
    exact order?_eq_lt_iff.mpr (.inr (.inr ⟨p, r, rfl, rfl, here.trans there⟩))

end Value

/-! ### Operators -/

namespace CompareOp

variable {x y z : Option Value}

/-- The operators that need an order. -/
def isOrdering : CompareOp → Bool
  | .eq | .ne => false
  | .lt | .le | .gt | .ge => true

theorem eq_holds_iff : CompareOp.eq.holds x y = .ok true ↔ Value.equals x y = true :=
  ⟨Except.ok.inj, congrArg _⟩

theorem lt_holds_iff : CompareOp.lt.holds x y = .ok true ↔ Value.order? x y = some .lt := by
  rw [holds, Value.orderFor]
  cases Value.order? x y with
  | none => simp [Except.map]
  | some ordering => cases ordering <;> simp [Except.map]

/-- One of the three relations holds, and the other two operators are made of them. -/
theorem holds_of_comparable (comparable : Value.Comparable x y) :
    ∃ less equal greater, CompareOp.lt.holds x y = .ok less ∧ CompareOp.eq.holds x y = .ok equal ∧
      CompareOp.gt.holds x y = .ok greater ∧ [less, equal, greater].count true = 1 ∧
      CompareOp.le.holds x y = .ok (less || equal) ∧ CompareOp.ge.holds x y = .ok (greater || equal) := by
  obtain ⟨ordering, ordered⟩ := Option.isSome_iff_exists.mp (Value.order?_isSome_iff.mpr comparable)
  have equal := Value.equals_eq_of_order? ordered
  refine ⟨ordering.isLT, ordering.isEq, ordering.isGT, ?_⟩
  simp only [holds, Value.orderFor, ordered, equal, Except.map]
  cases ordering <;> decide

theorem holds_of_not_comparable (apart : ¬ Value.Comparable x y) {op : CompareOp}
    (needs : op.isOrdering = true) :
    op.holds x y = .error (.typeMismatch op.symbol (.ofValue x) (.ofValue y)) := by
  have unordered : Value.order? x y = none := by
    rw [← Option.not_isSome_iff_eq_none, Value.order?_isSome_iff]
    exact apart
  cases op with
  | eq | ne => cases needs
  | lt | le | gt | ge => rw [holds, Value.orderFor, unordered]; rfl

/-- Equality never fails, and takes what is absent as null. On values whose numbers are integers with a sign
it is an equivalence, and holds of the same data only. Of two numbers, two strings or two booleans exactly
one is less, or they are equal, and less goes on from one to the next; any other two values have no order, and
each operator that needs one says of which kinds they are. -/
theorem coherent :
    (∀ x y, ∃ equal, CompareOp.eq.holds x y = .ok equal ∧ CompareOp.ne.holds x y = .ok (!equal)) ∧
    (∀ x, CompareOp.eq.holds none x = CompareOp.eq.holds (some .null) x ∧
      CompareOp.eq.holds x none = CompareOp.eq.holds x (some .null)) ∧
    (∀ x y, Value.IsExact x → Value.IsExact y →
      (CompareOp.eq.holds x y = .ok true ↔ (x.getD .null).Alike (y.getD .null))) ∧
    (∀ x, Value.IsExact x → CompareOp.eq.holds x x = .ok true) ∧
    (∀ x y, Value.IsExact x → Value.IsExact y →
      CompareOp.eq.holds x y = CompareOp.eq.holds y x) ∧
    (∀ x y z, Value.IsExact x → Value.IsExact y → Value.IsExact z →
      CompareOp.eq.holds x y = .ok true → CompareOp.eq.holds y z = .ok true →
      CompareOp.eq.holds x z = .ok true) ∧
    (∀ x y, Value.Comparable x y →
      ∃ less equal greater, CompareOp.lt.holds x y = .ok less ∧ CompareOp.eq.holds x y = .ok equal ∧
        CompareOp.gt.holds x y = .ok greater ∧ [less, equal, greater].count true = 1 ∧
        CompareOp.le.holds x y = .ok (less || equal) ∧
        CompareOp.ge.holds x y = .ok (greater || equal)) ∧
    (∀ x y z, Value.IsExact x → Value.IsExact y → Value.IsExact z →
      CompareOp.lt.holds x y = .ok true → CompareOp.lt.holds y z = .ok true →
      CompareOp.lt.holds x z = .ok true) ∧
    (∀ x y, ¬ Value.Comparable x y → ∀ op : CompareOp, op.isOrdering = true →
      op.holds x y = .error (.typeMismatch op.symbol (.ofValue x) (.ofValue y))) := by
  refine ⟨fun x y => ⟨_, rfl, rfl⟩, fun x => ⟨rfl, rfl⟩, ?_, ?_, ?_, ?_, fun x y => holds_of_comparable, ?_,
    fun x y apart op => holds_of_not_comparable apart⟩
  · intro x y exact exact'
    rw [eq_holds_iff, Value.equals_iff_alike exact exact']
  · intro x exact
    rw [eq_holds_iff, Value.equals_iff_alike exact exact]
    obtain ⟨⟨_, plain⟩, _⟩ := exact
    exact plain.alike_self
  · intro x y exact exact'
    have alike := Value.equals_iff_alike exact exact'
    have alike' := Value.equals_iff_alike exact' exact
    obtain ⟨⟨_, plain⟩, _⟩ := exact
    obtain ⟨⟨_, plain'⟩, _⟩ := exact'
    refine congrArg Except.ok (Bool.eq_iff_iff.mpr ?_)
    rw [alike, alike']
    exact ⟨plain.alike_symm, plain'.alike_symm⟩
  · intro x y z exact exact' exact''
    rw [eq_holds_iff, eq_holds_iff, eq_holds_iff, Value.equals_iff_alike exact exact',
      Value.equals_iff_alike exact' exact'', Value.equals_iff_alike exact exact'']
    obtain ⟨⟨_, plain⟩, _⟩ := exact
    exact plain.alike_trans
  · intro x y z exact exact' exact''
    rw [lt_holds_iff, lt_holds_iff, lt_holds_iff]
    exact Value.order?_trans exact exact' exact''

/-- A mapping with its entries in either order, the ends of the integers with a sign, and two values that are
equal although they have no order. -/
theorem coherent_of_reordered :
    let entries : Mapping := [("a", .int (2 ^ 63 - 1)), ("b", .list [.null])]
    Value.IsExact (some (.map entries)) ∧ Value.IsExact (some (.map entries.reverse)) ∧
      CompareOp.eq.holds (some (.map entries)) (some (.map entries.reverse)) = .ok true ∧
      (∃ less equal greater, CompareOp.lt.holds (some (.int (-2 ^ 63))) (some (.int (2 ^ 63 - 1))) = .ok less ∧
        CompareOp.eq.holds (some (.int (-2 ^ 63))) (some (.int (2 ^ 63 - 1))) = .ok equal ∧
        CompareOp.gt.holds (some (.int (-2 ^ 63))) (some (.int (2 ^ 63 - 1))) = .ok greater ∧
        [less, equal, greater].count true = 1) ∧
      CompareOp.eq.holds none (some .null) = .ok true ∧
      CompareOp.lt.holds none (some .null) = .error (.typeMismatch "<" .absent .null) := by
  intro entries
  obtain ⟨_, absent, same, self, _, _, ordered, _, unordered⟩ := coherent
  have null : Value.IsExact (some .null) := ⟨⟨0, .null⟩, nofun⟩
  have exact (laid : Mapping) (perm : laid.Perm entries) : Value.IsExact (some (.map laid)) := by
    have known : ∀ entry ∈ laid, entry = ("a", .int (2 ^ 63 - 1)) ∨ entry = ("b", .list [.null]) :=
      fun entry member => by simpa [entries] using perm.mem_iff.mp member
    refine ⟨⟨2, .map ((perm.map _).nodup_iff.mpr (by decide)) fun entry member => ?_⟩, fun n holds => ?_⟩
    · rcases known entry member with rfl | rfl
      · exact .int (by decide)
      · exact .list (by simpa using .null)
    · cases holds with
      | map member holds =>
        rcases known _ member with rfl | rfl
        · cases holds
          decide
        · cases holds with
          | list member holds =>
            cases List.mem_singleton.mp member
            cases holds
  have alike : (Value.map entries).Alike (.map entries.reverse) := by
    refine .map rfl (List.forall₂_same.mpr fun value member => ?_) (List.reverse_perm entries).symm
    obtain rfl | rfl : value = .int (2 ^ 63 - 1) ∨ value = .list [.null] := by simpa [entries] using member
    · exact .int _
    · exact .list (.cons .null .nil)
  obtain ⟨less, equal, greater, lt, eq, gt, one, _⟩ :=
    ordered (some (.int (-2 ^ 63))) (some (.int (2 ^ 63 - 1))) ⟨rfl, rfl⟩
  refine ⟨exact entries (.refl _), exact _ (List.reverse_perm entries), ?_,
    ⟨less, equal, greater, lt, eq, gt, one⟩, ?_, unordered _ _ (by rintro ⟨⟨⟩, _⟩) .lt rfl⟩
  · exact (same _ _ (exact entries (.refl _)) (exact _ (List.reverse_perm entries))).mpr alike
  · rw [(absent _).1]
    exact self _ null

end CompareOp

end PromptScript
