import DocLinks.Json.Basic

/-!
# Writing JSON

One writer for the compact layout and for the indented one: they differ only in what stands
between the parts.

**Results.**  `escapeChar_ne_quote`: inside a written text no quote ends it early.
-/

namespace DocLinks
namespace Json

/-- The blanks between the parts of a written value: none, or one part a line, two spaces for
each level and a space after the colon. -/
inductive Layout where
  | compact
  | indented
  deriving DecidableEq

namespace Layout

/-- What starts a new part at the given depth. -/
def lineBreak (depth : Nat) : Layout → List Char
  | compact => []
  | indented => '\n' :: List.replicate (2 * depth) ' '

/-- What stands between the name of a field and its value. -/
def colon : Layout → List Char
  | compact => [':']
  | indented => [':', ' ']

end Layout

/-- A hexadecimal digit, in lower case. -/
def hexDigit (n : Nat) : Char :=
  Nat.digitChar n

/-- The written form of one character of a text. -/
def escapeChar (c : Char) : List Char :=
  if c = '"' then ['\\', '"']
  else if c = '\\' then ['\\', '\\']
  else if c = '\n' then ['\\', 'n']
  else if c = '\r' then ['\\', 'r']
  else if c = '\t' then ['\\', 't']
  else if c.toNat = 0x08 then ['\\', 'b']
  else if c.toNat = 0x0C then ['\\', 'f']
  else if c.toNat < 0x20 then
    ['\\', 'u', '0', '0', hexDigit (c.toNat / 16), hexDigit (c.toNat % 16)]
  else [c]

/-- The written form of a text, in quotes. -/
def writeText (s : List Char) : List Char :=
  '"' :: s.flatMap escapeChar ++ ['"']

theorem escapeChar_ne_quote (c : Char) : escapeChar c ≠ ['"'] := by
  unfold escapeChar
  split
  · simp
  · repeat' split
    all_goals simp_all

mutual

/-- The written form of a value that starts at the given depth. -/
def writeAt (l : Layout) (depth : Nat) : Json → List Char
  | .null => ['n', 'u', 'l', 'l']
  | .bool true => ['t', 'r', 'u', 'e']
  | .bool false => ['f', 'a', 'l', 's', 'e']
  | .number n => n.write
  | .string s => writeText s.toList
  | .array [] => ['[', ']']
  | .array (item :: items) =>
      '[' :: l.lineBreak (depth + 1) ++ writeAt l (depth + 1) item ++
        writeItems l (depth + 1) items ++ l.lineBreak depth ++ [']']
  | .object [] => ['{', '}']
  | .object ((key, value) :: fields) =>
      '{' :: l.lineBreak (depth + 1) ++ writeText key.toList ++ l.colon ++
        writeAt l (depth + 1) value ++ writeFields l (depth + 1) fields ++
        l.lineBreak depth ++ ['}']

/-- The items of an array after the first one. -/
def writeItems (l : Layout) (depth : Nat) : List Json → List Char
  | [] => []
  | item :: items =>
      ',' :: l.lineBreak depth ++ writeAt l depth item ++ writeItems l depth items

/-- The fields of an object after the first one. -/
def writeFields (l : Layout) (depth : Nat) : List (String × Json) → List Char
  | [] => []
  | (key, value) :: fields =>
      ',' :: l.lineBreak depth ++ writeText key.toList ++ l.colon ++ writeAt l depth value ++
        writeFields l depth fields

end

/-- The text of a value. -/
def write (l : Layout) (j : Json) : String :=
  String.ofList (writeAt l 0 j)

end Json
end DocLinks
