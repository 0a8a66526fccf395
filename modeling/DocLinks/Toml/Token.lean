import DocLinks.Toml.Quoted

/-!
# The tokens of a TOML text

A text is cut into tokens from left to right.  The cut does not depend on the context: a run
of characters without a meaning of their own is a word, be it a part of a key or of a value.
The first place where no token can be read ends the list.

**Results.**  `step_length`: what is left after a token is shorter, which is why cutting
ends.
-/

namespace DocLinks
namespace Toml

/-- A token of a TOML text: a run of spaces and tabs, a quoted text with whether three quotes
stand at its ends, a run of other characters, or a place that cannot be read. -/
inductive Token where
  | blank (s : List Char)
  | comment
  | lineBreak
  | dot
  | equals
  | comma
  | openBracket
  | closeBracket
  | openBrace
  | closeBrace
  | quoted (s : List Char) (isLong : Bool)
  | word (s : List Char)
  | broken
  deriving DecidableEq, Inhabited

/-- Spaces and tabs. -/
def isGap (c : Char) : Bool :=
  c == ' ' || c == '\t'

/-- Characters without a meaning of their own. -/
def isWordChar (c : Char) : Bool :=
  !(isGap c || c == '\n' || c == '\r' || c == '.' || c == '=' || c == ',' ||
    c == '[' || c == ']' ||
    c == '{' || c == '}' || c == '#' || c == '"' || c == '\'')

/-- A token, and what follows it. -/
structure Step where
  token : Token
  rest : List Char

/-- The step at a place that cannot be read. -/
def stop : Step := ⟨.broken, []⟩

/-- What is left of a line without the carriage return that belongs to its end, given what
follows the line. -/
def withoutReturn (line rest : List Char) : List Char :=
  if !rest.isEmpty && line.getLast? == some '\r' then line.dropLast else line

/-- Reads a comment after its mark. -/
def commentStep (s : List Char) : Step :=
  let line := s.takeWhile (· != '\n')
  let rest := s.dropWhile (· != '\n')
  if (withoutReturn line rest).all isPlain then ⟨.comment, rest⟩ else stop

/-- Reads a text after its first quote. -/
def quotedStep (quote : Char) (s : List Char) : Step :=
  let isLong := startsLong quote (quote :: s)
  let scan := if isLong then scanLong quote (dropLineBreak (s.drop 2)) else scanShort quote s
  match scan with
  | some (t, rest) => ⟨.quoted t isLong, rest⟩
  | none => stop

/-- Reads the token that starts with the character `c`. -/
def step (c : Char) (s : List Char) : Step :=
  match c with
  | '\n' => ⟨.lineBreak, s⟩
  | '\r' =>
      match s with
      | '\n' :: s => ⟨.lineBreak, s⟩
      | _ => stop
  | '.' => ⟨.dot, s⟩
  | '=' => ⟨.equals, s⟩
  | ',' => ⟨.comma, s⟩
  | '[' => ⟨.openBracket, s⟩
  | ']' => ⟨.closeBracket, s⟩
  | '{' => ⟨.openBrace, s⟩
  | '}' => ⟨.closeBrace, s⟩
  | '#' => commentStep s
  | '"' => quotedStep '"' s
  | '\'' => quotedStep '\'' s
  | c =>
      if isGap c then ⟨.blank (c :: s.takeWhile isGap), s.dropWhile isGap⟩
      else ⟨.word (c :: s.takeWhile isWordChar), s.dropWhile isWordChar⟩

theorem dropWhile_length (p : Char → Bool) (s : List Char) :
    (s.dropWhile p).length ≤ s.length :=
  (List.dropWhile_sublist _).length_le

theorem commentStep_length (s : List Char) : (commentStep s).rest.length ≤ s.length := by
  simp only [commentStep]
  split
  · exact dropWhile_length _ s
  · exact Nat.zero_le _

theorem quotedStep_length (quote : Char) (s : List Char) :
    (quotedStep quote s).rest.length ≤ s.length := by
  simp only [quotedStep]
  split
  · rename_i t rest h
    split at h
    · have h1 := scanLong_length h
      have h2 := dropLineBreak_length (s.drop 2)
      simp only [List.length_drop] at h2
      simp only
      omega
    · exact scanShort_length h
  · simp [stop]

/-- A step leaves less than it was given. -/
theorem step_length (c : Char) (s : List Char) :
    (step c s).rest.length < (c :: s).length := by
  unfold step
  split
  · simp
  · split
    · simp only [List.length_cons]
      omega
    · simp [stop]
  · simp
  · simp
  · simp
  · simp
  · simp
  · simp
  · simp
  · exact Nat.lt_succ_of_le (commentStep_length s)
  · exact Nat.lt_succ_of_le (quotedStep_length _ s)
  · exact Nat.lt_succ_of_le (quotedStep_length _ s)
  · split
    · exact Nat.lt_succ_of_le (dropWhile_length _ s)
    · exact Nat.lt_succ_of_le (dropWhile_length _ s)

/-- The tokens of a text, up to the first place that cannot be read. -/
def tokens : List Char → List Token
  | [] => []
  | c :: s => (step c s).token :: tokens (step c s).rest
  termination_by s => s.length
  decreasing_by exact step_length c s

/-- The text without the mark of its byte order. -/
def dropOrderMark : List Char → List Char
  | c :: s => if c.toNat = 0xFEFF then s else c :: s
  | [] => []

end Toml
end DocLinks
