import PromptScript.Text.Trim
import PromptScript.Value.Reader

/-!
Options of a command line. An option has a name behind two hyphens, and one with a value may also
have a letter behind one hyphen. The value stands in the same argument or is the next one.
-/
namespace PromptScript

/-- The positive number of at most 64 bits that digits spell, perhaps behind a plus sign. -/
def positive? (text : String) : Option Nat :=
  let digits := match text.toList with
    | '+' :: rest => rest
    | all => all
  let n := Value.digitsValue digits
  if ¬digits.isEmpty ∧ digits.all Char.isDigit ∧ 0 < n ∧ n < 0x1_0000_0000_0000_0000 then some n else none

inductive ValueKind
  | path
  | text
  | count
deriving DecidableEq, Repr, Inhabited

def ValueKind.accepts : ValueKind → String → Bool
  | .path, value => !value.isEmpty
  | .text, _ => true
  | .count, value => (positive? value).isSome

/-- An option that a command knows, and what it is for. -/
inductive OptionForm
  | switch (name purpose : String)
  | valued (name : String) (letter : Option Char) (kind : ValueKind) (purpose : String)
deriving DecidableEq, Repr, Inhabited

namespace OptionForm

def name : OptionForm → String
  | .switch name _ => name
  | .valued name .. => name

def letter? : OptionForm → Option Char
  | .switch .. => none
  | .valued _ letter .. => letter

def purpose : OptionForm → String
  | .switch _ purpose => purpose
  | .valued _ _ _ purpose => purpose

end OptionForm

/-- Why reading the arguments ends before they do. -/
inductive Interruption
  /-- Help is asked for, by its name or by its letter. -/
  | help (byName : Bool)
  | version
  | misuse
deriving DecidableEq, Repr, Inhabited

/-- How an option is used in an argument. -/
inductive OptionUse
  | complete (name value : String)
  /-- The value is the next argument. -/
  | awaiting (name : String) (kind : ValueKind)
deriving DecidableEq, Repr, Inhabited

namespace OptionUse

/-- An option whose value is written with it. -/
def withValue (form : OptionForm) (value : String) : Except Interruption OptionUse :=
  match form with
  | .valued name _ kind _ =>
    if kind.accepts value then .ok (.complete name value) else .error .misuse
  | .switch .. => .error .misuse

/-- An option that is written without a value. -/
def alone : OptionForm → OptionUse
  | .switch name _ => .complete name ""
  | .valued name _ kind _ => .awaiting name kind

/-- The use of the option with a name. -/
def ofName (forms : List OptionForm) (name : String) (value : Option String) :
    Except Interruption OptionUse :=
  match forms.find? (·.name = name), value with
  | some form, some value => withValue form value
  | some form, none => .ok (alone form)
  | none, some _ => .error .misuse
  | none, none =>
    if name = "help" then .error (.help true)
    else if name = "version" then .error .version
    else .error .misuse

/-- The use of the option with a letter; an equals sign may stand between the letter and the
value. -/
def ofLetter (forms : List OptionForm) (letter : Char) (rest : List Char) :
    Except Interruption OptionUse :=
  match forms.find? (·.letter? = some letter), rest with
  | some form, [] => .ok (alone form)
  | some form, '=' :: value => withValue form (.ofList value)
  | some form, value => withValue form (.ofList value)
  | none, _ =>
    if letter = 'h' then .error (.help false)
    else if letter = 'V' then .error .version
    else .error .misuse

/-- Whether an argument is written like an option. A single hyphen is not. -/
def looksLike (argument : String) : Bool :=
  argument.toList.head? = some '-' ∧ argument.length ≠ 1

/-- The use of an option in an argument, if it is one. Two hyphens alone are none. -/
def ofArgument? (forms : List OptionForm) (argument : String) :
    Except Interruption (Option OptionUse) :=
  match argument.toList with
  | ['-', '-'] => .ok none
  | '-' :: '-' :: rest =>
    match Text.splitOnce? '=' rest with
    | some (name, value) => some <$> ofName forms (.ofList name) (some (.ofList value))
    | none => some <$> ofName forms (.ofList rest) none
  | '-' :: letter :: rest => some <$> ofLetter forms letter rest
  | _ => .ok none

end OptionUse

/-- The options that were given, with their values. -/
abbrev GivenOptions := List (String × String)

namespace GivenOptions

/-- Notes an option, which must not come twice. -/
def add (given : GivenOptions) (name value : String) : Except Interruption GivenOptions :=
  if given.any (·.1 = name) then .error .misuse else .ok (given ++ [(name, value)])

def value? (given : GivenOptions) (name : String) : Option String :=
  given.lookup name

def has (given : GivenOptions) (name : String) : Bool :=
  (given.value? name).isSome

/-- Reads options up to the first argument that is none. -/
def read (forms : List OptionForm) (given : GivenOptions) :
    List String → Except Interruption (GivenOptions × List String)
  | [] => .ok (given, [])
  | argument :: rest =>
    match OptionUse.ofArgument? forms argument with
    | .error interruption => .error interruption
    | .ok none => .ok (given, argument :: rest)
    | .ok (some (.complete name value)) => do read forms (← given.add name value) rest
    | .ok (some (.awaiting name kind)) =>
      match rest with
      | [] => .error .misuse
      | value :: rest =>
        if OptionUse.looksLike value || !kind.accepts value then .error .misuse
        else do read forms (← given.add name value) rest

end GivenOptions

end PromptScript
