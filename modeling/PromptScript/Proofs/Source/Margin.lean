import PromptScript.Proofs.Source.Body

/-!
Templates that are shifted sideways. With the same margin in front of every line, a template says what it
said before: lines keep their order of indentation, and text blocks lose the margin with their own.
-/
namespace PromptScript.Source

open Text

variable {source line tail : List Char} {k : Nat}

/-- A source with `k` spaces in front of each of its physical lines. -/
def shifted (k : Nat) (source : List Char) : List Char :=
  List.replicate k ' ' ++ Break.write ⟨false, k⟩ source

theorem shifted_zero (source : List Char) : shifted 0 source = source :=
  Break.plain_write source

theorem shifted_newline (single : '\n' ∉ line) (rest : List Char) :
    shifted k (line ++ '\n' :: rest) = (List.replicate k ' ' ++ line) ++ '\n' :: shifted k rest := by
  rw [shifted, Break.write_append, Break.write_of_single single, Break.write_newline, List.append_assoc]
  rfl

theorem head?_of_spaces (pos : 0 < k) (line : List Char) :
    (List.replicate k ' ' ++ line).head? = some ' ' := by
  obtain ⟨n, rfl⟩ := Nat.exists_eq_add_of_lt pos
  rfl

theorem not_mem_spaces (single : '\n' ∉ line) : '\n' ∉ List.replicate k ' ' ++ line := by
  rw [List.mem_append, not_or]
  exact ⟨fun member => absurd (List.eq_of_mem_replicate member) (by decide), single⟩

/-- Every line of a source that is shifted starts with a space. -/
theorem head?_of_shifted (pos : 0 < k) (source : List Char) (start : Nat) :
    ∀ line ∈ physicalLinesFrom start (shifted k source), line.text.head? = some ' ' := by
  induction size : source.length using Nat.strongRecOn generalizing source start with
  | ind n ih =>
    obtain ⟨line, tail, rfl, single, ends⟩ := exists_line source
    cases tail with
    | nil =>
      rw [shifted, List.append_nil, Break.write_of_single single,
        physicalLinesFrom_single (not_mem_spaces single)]
      exact List.forall_mem_singleton.mpr (head?_of_spaces pos line)
    | cons c rest =>
      obtain rfl := ends c rfl
      have shorter : rest.length < n := by
        simp only [List.length_append, List.length_cons] at size
        omega
      rw [shifted_newline single, physicalLinesFrom_newline (not_mem_spaces single)]
      exact List.forall_mem_cons.mpr ⟨head?_of_spaces pos line, ih _ shorter rest _ rfl⟩

theorem StartsPlainly.shifted (plain : StartsPlainly source) (k : Nat) :
    StartsPlainly (shifted k source) := by
  cases k with
  | zero => rwa [shifted_zero]
  | succ k =>
    intro line first
    have inside := (List.dropWhile_suffix isBlankLine).mem (List.mem_of_mem_head? first)
    have space := head?_of_shifted (Nat.succ_pos k) source 0 line inside
    refine isBody_iff.mp (.of_head fun c head => ?_)
    rw [space] at head
    cases head
    decide

/-- A template that is shifted sideways is the same template, unless an include marker stands outside of a
text block on a line that goes on over a newline, or a backslash in front of a newline. -/
theorem parse_shifted (k : Nat) (plain : StartsPlainly source) (untaken : ¬['\\', '\n'] <:+: source)
    (hides : HidesMarkers source) :
    ParsedAlike Eq (fun _ _ => True) (Template.parse (.ofList source))
      (Template.parse (.ofList (Source.shifted k source))) := by
  have moved : Moved (fun _ _ => True) ⟨false, k⟩ ⟨0, source⟩ ⟨0 + k, Break.write ⟨false, k⟩ source⟩ :=
    ⟨rfl, fun _ => trivial, .inr untaken, nofun⟩
  have body := readBody_alike moved (.inr fun lines read => hides lines (bodyLines_of_plain plain ▸ read))
  have template : Alike (fun _ _ => True) Eq (readTemplate source) (readTemplate (shifted k source)) := by
    rw [readTemplate_of_plain plain, readTemplate_of_plain (plain.shifted k)]
    exact body.map fun _ _ same => congrArg _ same
  rw [Template.parse, Template.parse, String.toList_ofList, String.toList_ofList]
  exact located_alike template fun _ _ _ => trivial

/-- A text block with the marks of an include in it, three columns further to the right. -/
theorem parse_shifted_block :
    let source := ['\t', '<', '<', '\n', '\t', '[', '[', 'y', '\n', '\t', '>', '>']
    StartsPlainly source ∧ ¬['\\', '\n'] <:+: source ∧ HidesMarkers source ∧
      ParsedAlike Eq (fun _ _ => True) (Template.parse (.ofList source))
        (Template.parse (.ofList (shifted 3 source))) := by
  intro source
  have plain : StartsPlainly source := by decide
  have untaken : ¬['\\', '\n'] <:+: source := by decide
  have hides : HidesMarkers source := by
    intro lines read
    have found : bodyLines source = .ok [⟨4, ⟨1, source.drop 1⟩⟩] := by cbv
    rw [found] at read
    cases read
    decide
  exact ⟨plain, untaken, hides, parse_shifted 3 plain untaken hides⟩

end PromptScript.Source
