import PromptScript.Agent.Channel
import PromptScript.Proofs.Agent.Placeholder
import PromptScript.Proofs.Agent.Words
import PromptScript.Proofs.Computation
import PromptScript.Proofs.Files.Room
import PromptScript.Proofs.Number.Decimal

/-!
The prompt as an argument. The path of the prompt is put into the command line before that is split
into words, so that it comes out as the words that it is made of: as one argument if all of its
characters are plain, and otherwise as something else.
-/
namespace PromptScript

open Text

/-- A word that stands for itself in the template of a command line. -/
structure IsPlainWord (word : List Char) : Prop where
  nonempty : word ≠ []
  plain : ∀ c ∈ word, Words.isPlain c = true
  noComment : word.head? ≠ some '#'
  noBrace : ∀ c ∈ word, ¬(c = '{' ∨ c = '}')

instance (word : List Char) : Decidable (IsPlainWord word) :=
  decidable_of_iff (word ≠ [] ∧ word.all Words.isPlain = true ∧ word.head? ≠ some '#' ∧
    '{' ∉ word ∧ '}' ∉ word)
    ⟨fun ⟨nonempty, plain, noComment, opening, closing⟩ =>
      ⟨nonempty, List.all_eq_true.mp plain, noComment, fun _ member brace =>
        brace.elim (fun same => opening (same ▸ member)) fun same => closing (same ▸ member)⟩,
    fun word => ⟨word.nonempty, List.all_eq_true.mpr word.plain, word.noComment,
      fun member => word.noBrace _ member (.inl rfl), fun member => word.noBrace _ member (.inr rfl)⟩⟩

namespace Agent

variable {dir path : String} {request : RunRequest} {fs written : FileSystem}

/-- Starts a program whose words are known, with files for what it prints. -/
def launch (config : AgentConfig) (dir : String) (request : RunRequest) (line program : String)
    (args : List String) : Running AgentOutput := do
  let outputPath := Path.join dir ("turn-" ++ toString request.turn ++ ".stdout.log")
  let errorsPath := Path.join dir ("turn-" ++ toString request.turn ++ ".stderr.log")
  makeLog outputPath
  makeLog errorsPath
  let done ← runProgram config dir outputPath errorsPath program args
  let timedOut := config.timeoutSeconds * 1000 ≤ done.millis
  let exitCode := match done.ending with
    | .exited code => if timedOut then none else some code
    | .killed => none
  return ⟨exitCode, timedOut, line, outputPath, errorsPath⟩

theorem execute_eq (config : AgentConfig) (dir : String) (request : RunRequest) :
    execute config dir request = (do
      let promptPath ← writePrompt dir request
      let (line, program, args) ← ofExcept (commandLine config promptPath request)
      launch config dir request line program args) :=
  rfl

/-! ### Where the prompt is -/

def promptName (request : RunRequest) : String :=
  "turn-" ++ toString request.turn ++ ".prompt.md"

theorem toList_promptName (request : RunRequest) : (promptName request).toList =
    ['t', 'u', 'r', 'n', '-'] ++ Nat.toDigits 10 request.turn ++
      ['.', 'p', 'r', 'o', 'm', 'p', 't', '.', 'm', 'd'] := by
  simp [promptName, Nat.repr]

theorem noSlash_promptName (request : RunRequest) : '/' ∉ (promptName request).toList := by
  rw [toList_promptName]
  intro member
  rcases List.mem_append.mp member with front | last
  · rcases List.mem_append.mp front with first | digit
    · revert first
      decide
    · exact absurd (isDigit_of_mem_toDigits digit) (by decide)
  · revert last
    decide

/-- A prompt that was written is where its canonical path says, and that path starts at the root and
ends with its name. -/
theorem writePrompt_ok (h : (writePrompt dir request).run fs = (.ok path, written)) :
    written.canonicalize (Path.join dir (promptName request)) = .ok path ∧
      written.readText (Path.join dir (promptName request)) = .ok request.prompt ∧
      (∃ more, path.toList = '/' :: more) ∧ path.toList.getLast? = some 'd' := by
  have parts : fs.replace (Path.join dir (promptName request)) request.prompt.toUTF8 =
        (.ok (), written) ∧
      written.canonicalize (Path.join dir (promptName request)) = .ok path := by
    simp only [writePrompt, ExceptT.run_mk] at h
    rw [← promptName] at h
    split at h
    · cases h
    · next replaced =>
      obtain ⟨found, rfl⟩ := Prod.mk.inj h
      exact ⟨replaced, Computation.mapError_ok_iff.mp found⟩
  obtain ⟨replaced, canonical⟩ := parts
  obtain ⟨location, traced, rfl⟩ := Computation.except_map_ok_iff.mp canonical
  obtain ⟨there, rfl⟩ := FileSystem.trace_join (noSlash_promptName request)
    (by simp [Path.isIdle, toList_promptName]) (by simp [toList_promptName]) traced
  refine ⟨canonical, FileSystem.readText_toUTF8 (FileSystem.readBytes_replace replaced),
    ⟨_, FileSystem.toList_pathOf _⟩, ?_⟩
  rw [FileSystem.getLast?_pathOf there (by simp [toList_promptName]), toList_promptName,
    List.getLast?_append_of_ne_nil _ (by simp)]
  rfl

/-- Where there is room for it, the prompt is written. -/
theorem writePrompt_of_isRoom {location : Location}
    (room : fs.IsRoom location (promptName request))
    (beside : fs.IsRoom location ("." ++ promptName request ++ ".tmp")) :
    ∃ written, (writePrompt (FileSystem.pathOf location) request).run fs =
      (.ok (FileSystem.pathOf (location ++ [promptName request])), written) := by
  obtain ⟨written, replaced, canonical⟩ :=
    FileSystem.replace_of_isRoom room beside request.prompt.toUTF8
  refine ⟨written, ?_⟩
  simp only [writePrompt, ExceptT.run_mk]
  rw [← promptName, FileSystem.join_pathOf room.canonical (noSlash_promptName request), replaced]
  simp only [canonical]
  rfl

/-! ### The command line -/

/-- The template of a command line with the prompt for its argument. -/
def promptCommand (program : String) : String :=
  program ++ " \x7bprompt_file\x7d"

def promptPlaceholder : Command.Placeholder where
  before := []
  name := "prompt_file".toList
  behind := []
  blankBefore := nofun
  blankBehind := nofun
  nonempty := by decide
  trimmed := by decide
  unclosed := by decide
  undoubled := by decide

theorem escape_of_noBrace {text : List Char} (noBrace : ∀ c ∈ text, ¬(c = '{' ∨ c = '}')) :
    Command.escape text = text := by
  have single : ∀ c ∈ text, (if c = '{' ∨ c = '}' then [c, c] else [c]) = [c] :=
    fun c member => if_neg (noBrace c member)
  rw [Command.escape, List.flatMap_congr single]
  simp

theorem expand_promptCommand {program : String} (word : IsPlainWord program.toList) (path : String)
    (request : RunRequest) :
    Command.expand (placeholders path request) (promptCommand program) =
      .ok (program ++ " " ++ path) := by
  let pieces : List Command.Piece :=
    [.literal (program.toList ++ [' ']), .placeholder promptPlaceholder]
  have written : (promptCommand program).toList = Command.writePieces pieces := by
    have first : Command.escape (program.toList ++ [' ']) = program.toList ++ [' '] :=
      escape_of_noBrace fun c member => by
        rcases List.mem_append.mp member with inside | blank
        · exact word.noBrace c inside
        · rw [List.mem_singleton.mp blank]
          decide
    simp [pieces, Command.writePieces, Command.Piece.source, first, promptCommand,
      Command.Placeholder.inside, promptPlaceholder]
  have known : ∀ piece ∈ pieces, piece.IsKnown (placeholders path request) := by
    simp [pieces, Command.Piece.IsKnown, placeholders, promptPlaceholder]
  have expanded := Command.expandFrom_pieces known 0 []
  rw [List.append_nil, ← written, Command.expandFrom] at expanded
  have text : pieces.flatMap (Command.Piece.text (placeholders path request)) =
      (program ++ " " ++ path).toList := by
    simp [pieces, Command.Piece.text, placeholders, promptPlaceholder]
  rw [Command.expand, expanded, text, Except.map, Except.map, List.append_nil, String.ofList_toList]

/-- The words of a line are its first word, if that is plain, and the words of the rest. -/
theorem split?_append {program : String} (word : IsPlainWord program.toList) (rest : String) :
    Words.split? (program ++ " " ++ rest) = (Words.split? rest).map (program :: ·) := by
  have line : (program ++ " " ++ rest).toList = program.toList ++ ' ' :: rest.toList := by simp
  rw [Words.split?, line,
    Words.splitFrom_word word.nonempty word.plain word.noComment (by decide), Words.split?]
  simp [Option.map_map, Function.comp_def]

theorem commandLine_promptCommand {program : String} (word : IsPlainWord program.toList)
    (timeout : Nat) (environment : List (String × String)) (path : String) (request : RunRequest) :
    commandLine ⟨promptCommand program, timeout, environment⟩ path request =
      match Words.split? path with
      | none => .error (.quoting (program ++ " " ++ path))
      | some args => .ok (program ++ " " ++ path, program, args) := by
  rw [commandLine, expand_promptCommand word]
  simp only [Except.mapError, bind, Except.bind, split?_append word]
  cases Words.split? path <;> rfl

/-- A canonical path to a prompt comes out as one word exactly if all of its characters are plain. -/
theorem split?_eq_single_iff (rooted : ∃ more, path.toList = '/' :: more)
    (last : path.toList.getLast? = some 'd') :
    Words.split? path = some [path] ↔ ∀ c ∈ path.toList, Words.isPlain c = true := by
  obtain ⟨more, text⟩ := rooted
  have whole : Words.split? path = some [path] ↔
      Words.splitFrom .between path.toList = some [path.toList] := by
    rw [Words.split?, Option.map_eq_some_iff]
    constructor
    · rintro ⟨words, split, same⟩
      obtain ⟨word, rfl, rfl⟩ : ∃ word, words = [word] ∧ String.ofList word = path := by
        simpa [List.map_eq_singleton_iff] using same
      rw [split, String.toList_ofList]
    · exact fun split => ⟨_, split, by simp⟩
  have noEscape : ('/' :: more).getLast? ≠ some '\\' := by
    rw [← text, last]
    decide
  rw [whole, text]
  exact Words.splitFrom_eq_single_iff (by decide) (by decide) noEscape

/-! ### Running the command -/

/-- With the prompt written, the words of its path are what the program is started with. -/
theorem execute_of_writePrompt {program : String} (word : IsPlainWord program.toList) (timeout : Nat)
    (environment : List (String × String))
    (wrote : (writePrompt dir request).run fs = (.ok path, written)) :
    let config : AgentConfig := ⟨promptCommand program, timeout, environment⟩
    let line := program ++ " " ++ path
    (execute config dir request).run fs = match Words.split? path with
      | none => (.error (.quoting line), written)
      | some args => (launch config dir request line program args).run written := by
  refine (Computation.bind_of_ok wrote).trans ?_
  rw [commandLine_promptCommand word]
  cases Words.split? path <;> rfl

/-- The first prompt, in a directory that is all there is. -/
theorem writePrompt_only (dir : String) (buffer tools : List String) (inside : FileSystem.IsName dir)
    (fits : (FileSystem.pathOf [dir, "turn-0.prompt.md"]).utf8ByteSize ≤ FileSystem.maxPath)
    (fits' : (FileSystem.pathOf [dir, ".turn-0.prompt.md.tmp"]).utf8ByteSize ≤ FileSystem.maxPath) :
    ∃ written, (writePrompt (FileSystem.pathOf [dir]) ⟨0, buffer, tools⟩).run
        ⟨[], [([dir], .directory)]⟩ =
      (.ok (FileSystem.pathOf [dir, "turn-0.prompt.md"]), written) := by
  have named : promptName ⟨0, buffer, tools⟩ = "turn-0.prompt.md" := by
    change "turn-" ++ toString 0 ++ ".prompt.md" = _
    decide
  have temporary : "." ++ promptName ⟨0, buffer, tools⟩ ++ ".tmp" = ".turn-0.prompt.md.tmp" := by
    rw [named]
    decide
  have room := FileSystem.isRoom_only inside (by decide) fits
  have beside := FileSystem.isRoom_only inside (by decide) fits'
  rw [← named] at room ⊢
  rw [← temporary] at beside
  exact writePrompt_of_isRoom room beside

end Agent

end PromptScript
