import PromptScript.Number.Shortest

/-!
The values that templates compute with: data in the shape of JSON, whose mappings keep the order in
which their keys were first put.
-/
namespace PromptScript

/-- An integer of 64 bits, signed or unsigned, or a floating-point number. -/
inductive Number
  | int (n : Int)
  | float (x : Binary64)
deriving DecidableEq, Repr, Inhabited

/-- Whether an integer fits into 64 bits with a sign. -/
def fitsInt64 (n : Int) : Bool :=
  -0x8000_0000_0000_0000 ≤ n && n < 0x8000_0000_0000_0000

/-- Whether an integer fits into 64 bits with or without a sign. -/
def fitsInteger (n : Int) : Bool :=
  -0x8000_0000_0000_0000 ≤ n && n < 0x1_0000_0000_0000_0000

namespace Number

/-- The signed 64-bit integer that the number was written as. -/
def toInt64? : Number → Option Int
  | .int n => if fitsInt64 n then some n else none
  | .float _ => none

/-- The nearest floating-point number. -/
def toBinary64 : Number → Binary64
  | .int n => .ofInt n
  | .float x => x

def isZero : Number → Bool
  | .int n => n == 0
  | .float x => x.isZero

/-- Integers in decimal digits, floating-point numbers by their shortest text. -/
def text : Number → String
  | .int n => .ofList ((if n < 0 then ['-'] else []) ++ Nat.toDigits 10 n.natAbs)
  | .float x => x.text

end Number

inductive Value
  | null
  | bool (b : Bool)
  | num (n : Number)
  | str (s : String)
  | list (items : List Value)
  | map (entries : List (String × Value))
deriving Repr, Inhabited

/-- Keys with their values, in the order in which the keys were first put. -/
abbrev Mapping := List (String × Value)

namespace Value

def int (n : Int) : Value := .num (.int n)

mutual

def decEq : (a b : Value) → Decidable (a = b)
  | .null, .null => isTrue rfl
  | .bool a, .bool b =>
    if h : a = b then isTrue (by rw [h]) else isFalse (by simp [h])
  | .num a, .num b =>
    if h : a = b then isTrue (by rw [h]) else isFalse (by simp [h])
  | .str a, .str b =>
    if h : a = b then isTrue (by rw [h]) else isFalse (by simp [h])
  | .list a, .list b =>
    match decEqItems a b with
    | isTrue h => isTrue (by rw [h])
    | isFalse h => isFalse (by simp [h])
  | .map a, .map b =>
    match decEqEntries a b with
    | isTrue h => isTrue (by rw [h])
    | isFalse h => isFalse (by simp [h])
  | .null, .bool _ | .null, .num _ | .null, .str _ | .null, .list _ | .null, .map _
  | .bool _, .null | .bool _, .num _ | .bool _, .str _ | .bool _, .list _ | .bool _, .map _
  | .num _, .null | .num _, .bool _ | .num _, .str _ | .num _, .list _ | .num _, .map _
  | .str _, .null | .str _, .bool _ | .str _, .num _ | .str _, .list _ | .str _, .map _
  | .list _, .null | .list _, .bool _ | .list _, .num _ | .list _, .str _ | .list _, .map _
  | .map _, .null | .map _, .bool _ | .map _, .num _ | .map _, .str _ | .map _, .list _ =>
    isFalse (by simp)

def decEqItems : (a b : List Value) → Decidable (a = b)
  | [], [] => isTrue rfl
  | [], _ :: _ | _ :: _, [] => isFalse (by simp)
  | a :: as, b :: bs =>
    match decEq a b, decEqItems as bs with
    | isTrue h, isTrue h' => isTrue (by rw [h, h'])
    | isFalse h, _ => isFalse (by simp [h])
    | _, isFalse h => isFalse (by simp [h])

def decEqEntries : (a b : List (String × Value)) → Decidable (a = b)
  | [], [] => isTrue rfl
  | [], _ :: _ | _ :: _, [] => isFalse (by simp)
  | (k, a) :: as, (l, b) :: bs =>
    if h : k = l then
      match decEq a b, decEqEntries as bs with
      | isTrue h', isTrue h'' => isTrue (by rw [h, h', h''])
      | isFalse h', _ => isFalse (by simp [h'])
      | _, isFalse h' => isFalse (by simp [h'])
    else isFalse (by simp [h])

end

instance : DecidableEq Value := decEq

end Value

namespace Mapping

def get? : Mapping → String → Option Value
  | [], _ => none
  | (key, value) :: rest, name => if key = name then some value else get? rest name

def contains (m : Mapping) (name : String) : Bool :=
  (get? m name).isSome

/-- Gives a key a value; a key that is present keeps its place. -/
def insert : Mapping → String → Value → Mapping
  | [], name, new => [(name, new)]
  | (key, old) :: rest, name, new =>
    if key = name then (key, new) :: rest else (key, old) :: insert rest name new

/-- Puts all entries of `new` into `m`, one after the other. -/
def merge (m new : Mapping) : Mapping :=
  new.foldl (fun acc (name, value) => insert acc name value) m

/-- The mapping that putting the entries one after the other gives. -/
def ofEntries (entries : List (String × Value)) : Mapping :=
  merge [] entries

def keys (m : Mapping) : List String :=
  m.map (·.1)

@[simp] theorem get?_nil (name : String) : get? [] name = none := rfl

theorem get?_insert (m : Mapping) (name other : String) (new : Value) :
    get? (insert m name new) other = if name = other then some new else get? m other := by
  induction m with
  | nil => rfl
  | cons entry rest ih =>
    obtain ⟨key, old⟩ := entry
    simp only [insert]
    split
    · next same => subst same; simp only [get?]; split <;> rfl
    · next differs =>
      simp only [get?, ih]
      split
      · next same => subst same; simp [Ne.symm differs]
      · rfl

theorem keys_insert (m : Mapping) (name : String) (new : Value) :
    keys (insert m name new) = if name ∈ keys m then keys m else keys m ++ [name] := by
  induction m with
  | nil => rfl
  | cons entry rest ih =>
    obtain ⟨key, old⟩ := entry
    simp only [insert]
    split
    · next same => subst same; simp [keys]
    · next differs =>
      have apart : ¬ name = key := fun h => differs h.symm
      simp only [keys, List.map_cons, List.mem_cons, apart, false_or] at ih ⊢
      by_cases present : name ∈ List.map (·.1) rest <;> simp [ih, present]

end Mapping

namespace Value

mutual

/-- The value in which a repeated key keeps only its last value, at its first place. -/
def merged : Value → Value
  | .list items => .list (mergedItems items)
  | .map entries => .map (Mapping.ofEntries (mergedEntries entries))
  | value => value

def mergedItems : List Value → List Value
  | [] => []
  | value :: rest => merged value :: mergedItems rest

def mergedEntries : List (String × Value) → List (String × Value)
  | [] => []
  | (key, value) :: rest => (key, merged value) :: mergedEntries rest

end

end Value

end PromptScript
