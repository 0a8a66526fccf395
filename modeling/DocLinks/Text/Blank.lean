/-!
# Blank characters

The blank characters are those with the White_Space property; trimming, splitting into words
and all patterns that allow blanks use this one class.

**Results.**  `takeWhile_append_trimStart`: what is trimmed off the start is a run of blanks;
`mem_of_mem_trim`: trimming adds nothing.
-/

namespace DocLinks
namespace Text

/-- Characters with the White_Space property. -/
def isBlank (c : Char) : Bool :=
  let n := c.toNat
  n == 0x20 || (0x09 ≤ n && n ≤ 0x0D) || n == 0x85 || n == 0xA0 || n == 0x1680 ||
    (0x2000 ≤ n && n ≤ 0x200A) || n == 0x2028 || n == 0x2029 || n == 0x202F || n == 0x205F ||
    n == 0x3000

/-- The text without its leading blanks. -/
def trimStart (s : List Char) : List Char :=
  s.dropWhile isBlank

/-- The text without its trailing blanks. -/
def trimEnd (s : List Char) : List Char :=
  (s.reverse.dropWhile isBlank).reverse

/-- The text without the blanks at its two ends. -/
def trim (s : List Char) : List Char :=
  trimEnd (trimStart s)

/-- Whether a text holds nothing but blanks. -/
def allBlank (s : List Char) : Bool :=
  s.all isBlank

theorem takeWhile_append_trimStart (s : List Char) :
    s.takeWhile isBlank ++ trimStart s = s :=
  List.takeWhile_append_dropWhile

theorem mem_of_mem_trimStart {c : Char} {s : List Char} (h : c ∈ trimStart s) : c ∈ s :=
  (List.dropWhile_sublist _).mem h

theorem mem_of_mem_trimEnd {c : Char} {s : List Char} (h : c ∈ trimEnd s) : c ∈ s := by
  have h' : c ∈ s.reverse.dropWhile isBlank := by simpa [trimEnd] using h
  simpa using (List.dropWhile_sublist _).mem h'

theorem mem_of_mem_trim {c : Char} {s : List Char} (h : c ∈ trim s) : c ∈ s :=
  mem_of_mem_trimStart (mem_of_mem_trimEnd h)

end Text
end DocLinks
