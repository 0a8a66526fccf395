import DocLinks.Text.Scan
import DocLinks.Text.Split
import DocLinks.Text.Word

/-!
# Reference markers

An explicit marker is a pair of braces around a tag that starts with `@link`, at least one
blank and anything without a closing brace.  A marker whose whole target is a separator and
the name of a member is short for that member of the symbol at hand.

**Results.**  `separator_of_member?`: a member in shorthand is introduced by a separator.
-/

namespace DocLinks

/-- An explicit marker: what follows `link` in the name of its tag, and what follows the name
and the blanks after it, up to the closing brace. -/
structure Marker where
  tail : List Char
  body : List Char
  deriving DecidableEq, Repr

namespace Marker

/-- Reads a marker after its opening brace, and gives what follows it. -/
def inner? (s : List Char) : Option (Marker × List Char) :=
  match Text.after? "@link".toList (Text.trimStart s) with
  | some rest =>
      match rest.dropWhile Text.isWord with
      | c :: blanks =>
          if Text.isBlank c then
            (Text.cutAtFirst (· == '}') (Text.trimStart blanks)).map fun (body, after) =>
              (⟨rest.takeWhile Text.isWord, body⟩, after)
          else none
      | [] => none
  | none => none

/-- Reads a marker, and gives what follows it. -/
def read? : List Char → Option (Marker × List Char)
  | '{' :: s => inner? s
  | _ => none

/-- The pattern of markers. -/
def pattern : Text.Pattern Marker := fun _ s =>
  (read? s).map fun (marker, rest) => ⟨marker, s.length - rest.length - 1⟩

/-- A member named by a separator, a point or a number sign, and its name. -/
structure Member where
  separator : Char
  name : List Char
  deriving DecidableEq, Repr

/-- A member as it is written after the long name of its parent. -/
def Member.text (m : Member) : List Char :=
  m.separator :: m.name

/-- The characters of the names of members. -/
def isMemberChar (c : Char) : Bool :=
  Text.isWord c || c == '$'

/-- Whether a character may separate a member from its parent in a marker. -/
def isSeparator (c : Char) : Bool :=
  c == '#' || c == '.'

/-- The member that is the whole target of a marker. -/
def member? (m : Marker) : Option Member :=
  match m.tail, m.body with
  | [], c :: s =>
      let name := s.takeWhile isMemberChar
      if isSeparator c && !name.isEmpty && Text.allBlank (s.dropWhile isMemberChar) then
        some ⟨c, name⟩
      else none
  | _, _ => none

theorem separator_of_member? {m : Marker} {member : Member} (h : m.member? = some member) :
    isSeparator member.separator = true := by
  unfold member? at h
  split at h
  · simp only [Option.ite_none_right_eq_some, Bool.and_eq_true, Option.some.injEq] at h
    obtain ⟨⟨⟨hs, -⟩, -⟩, rfl⟩ := h
    exact hs
  · simp at h

/-- The marker that is written for a target, with or without a text. -/
def write (target : List Char) (text? : Option (List Char)) : List Char :=
  "\x7b@link ".toList ++ target ++
  (match text? with | some text => ' ' :: text | none => []) ++ ['}']

end Marker

end DocLinks
