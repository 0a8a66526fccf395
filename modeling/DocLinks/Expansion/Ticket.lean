import DocLinks.Text.Scan
import DocLinks.Text.Split
import DocLinks.Text.Word

/-!
# Tickets in running text

A ticket is a whole word of capital letters followed by digits, where the letters are a fixed
mark. Words are those of ASCII here, so a letter beyond ASCII does not hide a ticket next to
it.

**Results.**  `read?_eq`: a ticket that was read is its mark and its digits.
-/

namespace DocLinks
namespace Ticket

/-- ASCII capital letters. -/
def isCapital (c : Char) : Bool :=
  'A' ≤ c && c ≤ 'Z'

/-- Reads a ticket, given what stands before it, and gives its digits and what follows it. -/
def read? (mark : List Char) (before : Option Char) (s : List Char) :
    Option (List Char × List Char) :=
  let letters := s.takeWhile isCapital
  let afterLetters := s.dropWhile isCapital
  let digits := afterLetters.takeWhile Char.isDigit
  let rest := afterLetters.dropWhile Char.isDigit
  if letters == mark && !letters.isEmpty && !digits.isEmpty &&
      !Text.endsIn Text.isAsciiWord before && !Text.endsIn Text.isAsciiWord rest.head? then
    some (digits, rest)
  else none

/-- The pattern of tickets with the given mark; a hit means its digits. -/
def pattern (mark : List Char) : Text.Pattern (List Char) := fun before s =>
  (read? mark before.head? s).map fun (digits, rest) => ⟨digits, s.length - rest.length - 1⟩

theorem read?_eq {mark : List Char} {before : Option Char} {s digits rest : List Char}
    (h : read? mark before s = some (digits, rest)) : s = mark ++ digits ++ rest := by
  simp only [read?, Option.ite_none_right_eq_some, Option.some.injEq, Prod.mk.injEq,
    Bool.and_eq_true, beq_iff_eq] at h
  obtain ⟨⟨⟨⟨⟨hm, -⟩, -⟩, -⟩, -⟩, rfl, rfl⟩ := h
  rw [← hm, List.append_assoc]
  rw [List.takeWhile_append_dropWhile, List.takeWhile_append_dropWhile]

end Ticket
end DocLinks
