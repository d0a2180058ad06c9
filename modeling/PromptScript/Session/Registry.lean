import PromptScript.Text.Printable
import PromptScript.Value.Basic

/-!
The functions that a host provides to scripts, by bare names or by names that are qualified with a
module, such as `math.add`.
-/
namespace PromptScript

/-- A function of the host, which may keep a state of its own between calls. A failure comes with
a message. -/
abbrev HostFunction (σ : Type) := List Value → σ → Except String Value × σ

structure Registry (σ : Type) where
  functions : List (String × HostFunction σ)

namespace Registry

variable {σ : Type}

def empty : Registry σ := ⟨[]⟩

/-- Provides a function under a name, in place of one that has this name. -/
def register (r : Registry σ) (name : String) (function : HostFunction σ) : Registry σ :=
  ⟨(name, function) :: r.functions.filter fun (n, _) => n != name⟩

def get? (r : Registry σ) (name : String) : Option (HostFunction σ) :=
  (r.functions.find? fun (n, _) => n == name).map (·.2)

def contains (r : Registry σ) (name : String) : Bool :=
  (r.get? name).isSome

def names (r : Registry σ) : List String :=
  (r.functions.map (·.1)).mergeSort fun a b => a ≤ b

/-- The function that `name` stands for when it is imported from `module`. -/
def lookup? (r : Registry σ) (module name : String) : Option (HostFunction σ) :=
  (r.get? (module ++ "." ++ name)).or (r.get? name)

/-- A line for people that lists the names. -/
def description (r : Registry σ) : String :=
  "FunctionRegistry \x7b functions: [" ++ ", ".intercalate (r.names.map Text.escaped) ++ "] \x7d"

end Registry

end PromptScript
