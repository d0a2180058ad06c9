import PromptScript.Files.FileSystem
import PromptScript.Text.Trim

/-!
The programs, apart from the shell, that the command line of an agent can start. They work on files
that are values, and take as much time as they say.
-/
namespace PromptScript

/-- A program as it is started, in the working directory of its files. -/
structure Process where
  program : String
  args : List String
  environment : List (String × String)
  input : ByteArray

inductive Ending
  | exited (code : Nat)
  | killed
deriving DecidableEq, Repr, Inhabited

structure Completion where
  files : FileSystem
  output : ByteArray
  errors : ByteArray
  ending : Ending
  /-- The time it took, in milliseconds. -/
  millis : Nat
deriving Inhabited

namespace Program

def printed (fs : FileSystem) (output : ByteArray) : Completion :=
  ⟨fs, output, .empty, .exited 0, 0⟩

/-- A program that fails with a message. -/
def failed (fs : FileSystem) (code : Nat) (message : String) : Completion :=
  ⟨fs, .empty, message.toUTF8, .exited code, 0⟩

def causeText : FileError → String
  | .notFound => "No such file or directory"
  | .busy => "Device or resource busy"
  | .exists => "File exists"
  | .notDirectory => "Not a directory"
  | .isDirectory => "Is a directory"
  | .nameTooLong => "File name too long"
  | .nulInName | .notUtf8 => "Invalid argument"

/-- A path as programs quote it: as it is unless a shell would read it differently. -/
def quotedPath (path : String) : String :=
  let isPlain (c : Char) : Bool := c.isAlphanum || "%+,-./@]_\x7b\x7d".contains c || 127 < c.val
  if path.isEmpty || path.any fun c => !isPlain c then
    "'" ++ "'\\''".intercalate (path.splitOn "'") ++ "'"
  else path

/-- Prints files one after the other; the input when there is none. -/
def cat (fs : FileSystem) (input : ByteArray) (args : List String) : Completion :=
  (if args.isEmpty then ["-"] else args).foldl (fun done path =>
    if path = "-" then { done with output := done.output ++ input }
    else
      match fs.readBytes path with
      | .ok content => { done with output := done.output ++ content }
      | .error cause =>
        { done with
          errors := done.errors ++ ("cat: " ++ quotedPath path ++ ": " ++ causeText cause ++ "\n").toUTF8
          ending := .exited 1 }) (printed fs .empty)

/-- The byte that up to `n` octal digits spell, and the text behind them. -/
def octal (n : Nat) (text : List Char) : UInt8 × List Char :=
  let digits := (text.take n).takeWhile fun c => '0' ≤ c && c ≤ '7'
  ((digits.foldl (fun value c => value * 8 + (c.toNat - '0'.toNat)) 0).toUInt8,
    text.drop digits.length)

/-- The bytes that one escape stands for, and how many characters it takes behind the backslash. -/
def escape : List Char → List UInt8 × Nat
  | 'n' :: _ => ([10], 1)
  | 't' :: _ => ([9], 1)
  | 'r' :: _ => ([13], 1)
  | 'a' :: _ => ([7], 1)
  | 'b' :: _ => ([8], 1)
  | 'f' :: _ => ([12], 1)
  | 'v' :: _ => ([11], 1)
  | '\\' :: _ => ([92], 1)
  | '"' :: _ => ([34], 1)
  | '\'' :: _ => ([39], 1)
  | text =>
    let (byte, rest) := octal 3 text
    if rest.length < text.length then ([byte], text.length - rest.length) else ([92], 0)

/-- The bytes of a text whose escapes are replaced. -/
def unescape (text : List Char) : List UInt8 :=
  match text with
  | [] => []
  | '\\' :: rest =>
    let (bytes, taken) := escape rest
    bytes ++ unescape (rest.drop taken)
  | c :: rest => c.toString.toUTF8.toList ++ unescape rest
termination_by text.length
decreasing_by all_goals simp only [List.length_drop, List.length_cons]; omega

def bytesOf (bytes : List UInt8) : ByteArray :=
  ⟨bytes.toArray⟩

/-- Prints its arguments on a line. The option `-n` leaves the end of the line out, `-e` replaces
escapes, as the shell's own variant always does. -/
def echo (fs : FileSystem) (inShell : Bool) (args : List String) : Completion :=
  let isOption (arg : String) : Bool :=
    if inShell then arg = "-n"
    else 1 < arg.length && arg.startsWith "-" && (arg.toList.drop 1).all fun c => "neE".contains c
  let options := args.takeWhile isOption
  let text := " ".intercalate (args.drop options.length)
  let escapes := inShell || options.any fun option => option.contains 'e'
  let ends := if options.any fun option => option.contains 'n' then [] else [10]
  printed fs (bytesOf ((if escapes then unescape text.toList else text.toUTF8.toList) ++ ends))

/-- A conversion of a format: the field that it fills, and the letter that says what an argument
is. -/
structure Conversion where
  /-- Shorter arguments are filled up on their right. -/
  left : Bool
  /-- Numbers are filled up with zeros. -/
  zeros : Bool
  width : Nat
  /-- How much of a text is shown. -/
  limit : Option Nat
  letter : Char

def numeral (digits : List Char) : Nat :=
  digits.foldl (fun n c => n * 10 + (c.toNat - '0'.toNat)) 0

/-- The conversion behind a percent sign, and what follows it. -/
def readConversion (text : List Char) : Option (Conversion × List Char) :=
  let flags := text.takeWhile fun c => "-0+ #".contains c
  let rest := text.drop flags.length
  let width := rest.takeWhile Char.isDigit
  let rest := rest.drop width.length
  let limit := match rest with
    | '.' :: rest => some (rest.takeWhile Char.isDigit)
    | _ => none
  let rest := rest.drop (limit.elim 0 (·.length + 1))
  match rest with
  | letter :: rest => some
      (⟨flags.contains '-', flags.contains '0', numeral width, limit.map numeral, letter⟩, rest)
  | [] => none

theorem length_of_readConversion {text rest : List Char} {conversion : Conversion}
    (h : readConversion text = some (conversion, rest)) : rest.length < text.length := by
  unfold readConversion at h
  dsimp only at h
  split at h
  · rename_i letter tail heq
    have hlen := congrArg List.length heq
    simp only [List.length_drop, List.length_cons] at hlen
    cases h
    omega
  · exact nomatch h

/-- The whole number that an argument spells; zero if it spells none. -/
def wholeNumber (arg : String) : Int :=
  match arg.toList with
  | '-' :: digits => -numeral (digits.takeWhile Char.isDigit)
  | '+' :: digits => numeral (digits.takeWhile Char.isDigit)
  | digits => numeral (digits.takeWhile Char.isDigit)

/-- The digits of a number in a base that is at most 16. -/
def digitsIn (base : Nat) (arg : String) : List Char :=
  Nat.toDigits base (wholeNumber arg).toNat

/-- What a conversion shows of an argument, without the field around it. -/
def Conversion.text (conversion : Conversion) (arg : String) : List UInt8 :=
  let start (bytes : List UInt8) : List UInt8 := conversion.limit.elim bytes bytes.take
  match conversion.letter with
  | 'b' => start (unescape arg.toList)
  | 'c' => arg.toUTF8.toList.take 1
  | 'd' | 'i' | 'u' => (toString (wholeNumber arg)).toUTF8.toList
  | 'o' => (String.ofList (digitsIn 8 arg)).toUTF8.toList
  | 'x' => (String.ofList (digitsIn 16 arg)).toUTF8.toList
  | 'X' => (String.ofList (digitsIn 16 arg)).toUpper.toUTF8.toList
  | _ => start arg.toUTF8.toList

/-- The bytes that a conversion shows an argument with. Zeros stand behind the sign. -/
def Conversion.apply (conversion : Conversion) (arg : String) : List UInt8 :=
  let shown := conversion.text arg
  let missing := conversion.width - shown.length
  if conversion.left then shown ++ List.replicate missing 32
  else if conversion.zeros && "diuoxX".contains conversion.letter then
    let sign := shown.takeWhile (· = 45)
    sign ++ List.replicate missing 48 ++ shown.drop sign.length
  else List.replicate missing 32 ++ shown

/-- One pass over a format: its bytes, and the arguments left over. -/
def formatOnce (text : List Char) (args : List String) : List UInt8 × List String :=
  match text with
  | [] => ([], args)
  | '%' :: '%' :: rest =>
    let (bytes, left) := formatOnce rest args
    (37 :: bytes, left)
  | '%' :: rest =>
    match _found : readConversion rest with
    | none =>
      let (bytes, left) := formatOnce rest args
      (37 :: bytes, left)
    | some (conversion, rest) =>
      let (bytes, left) := formatOnce rest (args.drop 1)
      (conversion.apply (args.headD "") ++ bytes, left)
  | '\\' :: rest =>
    let (first, taken) := escape rest
    let (bytes, left) := formatOnce (rest.drop taken) args
    (first ++ bytes, left)
  | c :: rest =>
    let (bytes, left) := formatOnce rest args
    (c.toString.toUTF8.toList ++ bytes, left)
termination_by text.length
decreasing_by
  all_goals first
    | exact Nat.lt_succ_of_lt (length_of_readConversion ‹_›)
    | (simp only [List.length_drop, List.length_cons]; omega)

/-- Passes over a format until no argument is left. -/
def formatAll (text : List Char) (args : List String) : List UInt8 :=
  let (bytes, left) := formatOnce text args
  if _ : left.length < args.length then
    if left.isEmpty then bytes else bytes ++ formatAll text left
  else bytes
termination_by args.length

/-- Prints its arguments as its first argument says. -/
def printf (fs : FileSystem) : List String → Completion
  | [] => failed fs 1 "printf: missing operand\nTry 'printf --help' for more information.\n"
  | format :: args => printed fs (bytesOf (formatAll format.toList args))

/-- The milliseconds that a text with an optional unit spells. -/
def interval? (text : String) : Option Nat :=
  let unit : Nat := match text.toList.getLast? with
    | some 'm' => 60000
    | some 'h' => 3600000
    | some 'd' => 86400000
    | _ => 1000
  let number := if "smhd".contains (text.toList.getLast?.getD ' ') then text.toList.dropLast
    else text.toList
  let whole := number.takeWhile Char.isDigit
  match number.drop whole.length with
  | [] => if whole.isEmpty then none else some (numeral whole * unit)
  | '.' :: rest =>
    if rest.all Char.isDigit ∧ ¬(whole.isEmpty ∧ rest.isEmpty) then
      some ((numeral whole * Nat.pow 10 rest.length + numeral rest) * unit / Nat.pow 10 rest.length)
    else none
  | _ => none

/-- Waits. -/
def sleep (fs : FileSystem) (args : List String) : Completion :=
  match args.mapM interval? with
  | none =>
    failed fs 1 ("sleep: invalid time interval ‘"
      ++ ((args.find? fun arg => (interval? arg).isNone).getD "")
      ++ "’\nTry 'sleep --help' for more information.\n")
  | some [] => failed fs 1 "sleep: missing operand\nTry 'sleep --help' for more information.\n"
  | some times => { printed fs .empty with millis := times.foldl (· + ·) 0 }

def pwd (fs : FileSystem) : Completion :=
  printed fs (FileSystem.pathOf fs.current ++ "\n").toUTF8

end Program

end PromptScript
