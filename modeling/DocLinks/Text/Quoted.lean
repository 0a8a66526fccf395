import DocLinks.Text.Printable

/-!
# Quoted texts in messages

A text that a message shows is put in quotes, and what cannot be seen in it is escaped:
quotes and backslashes by a backslash, a few controls by their letter, everything else that
does not stand alone by its number in hexadecimal.

**Results.**  `quotedChar_of_ascii`: ordinary characters are shown as they are.
-/

namespace DocLinks
namespace Text

/-- The escape of a character by its number. -/
def numberEscape (c : Char) : List Char :=
  ['\\', 'u', '{'] ++ Nat.toDigits 16 c.toNat ++ ['}']

/-- How one character is shown inside quotes. -/
def quotedChar (c : Char) : List Char :=
  if c = '"' then ['\\', '"']
  else if c = '\\' then ['\\', '\\']
  else if c = '\n' then ['\\', 'n']
  else if c = '\r' then ['\\', 'r']
  else if c = '\t' then ['\\', 't']
  else if c.toNat = 0 then ['\\', '0']
  else if standsAlone c then [c]
  else numberEscape c

/-- A text in quotes. -/
def quoted (s : String) : String :=
  String.ofList ('"' :: s.toList.flatMap quotedChar ++ ['"'])

theorem quotedChar_of_ascii {c : Char} (low : 0x20 ≤ c.toNat) (high : c.toNat < 0x7F)
    (quote : c ≠ '"') (backslash : c ≠ '\\') : quotedChar c = [c] := by
  have hn : c ≠ '\n' := by
    rintro rfl
    revert low
    decide
  have hr : c ≠ '\r' := by
    rintro rfl
    revert low
    decide
  have ht : c ≠ '\t' := by
    rintro rfl
    revert low
    decide
  have h0 : c.toNat ≠ 0 := by omega
  simp [quotedChar, quote, backslash, hn, hr, ht, h0, standsAlone_of_ascii low high]

end Text
end DocLinks
