/-!
# Percent encoding

The encoding of a link target: control characters, characters that may not stand in a URI and
everything beyond ASCII are written as the hexadecimal values of their bytes.  The percent
sign itself is encoded too, and the number sign is kept.

**Results.**  `encodeChar_hash`: the sign that starts a fragment is kept.
-/

namespace DocLinks
namespace Percent

/-- The printable ASCII characters that have to be encoded. -/
def reserved : List Char :=
  [' ', '"', '%', '<', '>', '[', '\\', ']', '^', '`', '{', '|', '}']

/-- Whether a character is kept. -/
def isKept (c : Char) : Bool :=
  0x20 ≤ c.toNat && c.toNat < 0x7F && !reserved.contains c

/-- A hexadecimal digit, in upper case. -/
def hexDigit (n : Nat) : Char :=
  (Nat.digitChar n).toUpper

/-- The encoding of a byte. -/
def encodeByte (b : UInt8) : List Char :=
  ['%', hexDigit (b.toNat / 16), hexDigit (b.toNat % 16)]

/-- The encoding of a character. -/
def encodeChar (c : Char) : List Char :=
  if isKept c then [c] else (String.utf8EncodeChar c).flatMap encodeByte

/-- The encoding of a text. -/
def encode (s : List Char) : List Char :=
  s.flatMap encodeChar

theorem encodeChar_hash : encodeChar '#' = ['#'] := by
  decide

end Percent
end DocLinks
