/-!
# Cutting a text at the places where a pattern matches

A pattern looks at one place of a text: at what stands before it and at what follows.  A text
is cut by trying the pattern at every place from left to right; after a hit the search goes
on behind it.  A search may be given up, because it takes too long: then what has been found
stays, and nothing is found behind that place.

**Algorithm.**  A hit has at least one character, so it is counted how many characters follow
the first one.  What stands before a place is kept in reverse order, so that its end is at
hand.

**Results.**  `flatMap_source_cut`: the pieces put together are the text;
`gap_ne_nil`: no gap is empty.
-/

namespace DocLinks
namespace Text

/-- What a pattern has found: what it means, and how many characters belong to it besides the
first one. -/
structure Hit (α : Type) where
  value : α
  more : Nat

/-- A pattern, given the text before a place in reverse order and the text from there on. -/
abbrev Pattern (α : Type) := (before rest : List Char) → Option (Hit α)

/-- Where a search is given up, given the text before a place in reverse order and the text
from there on. -/
abbrev Halt := (before rest : List Char) → Bool

namespace Halt

/-- A search that is never given up. -/
def never : Halt := fun _ _ => false

/-- Whether a search is given up at a place or before it. -/
def reached (halt : Halt) : (before rest : List Char) → Bool
  | [], rest => halt [] rest
  | c :: before, rest => halt (c :: before) rest || reached halt before (c :: rest)

theorem reached_never (before rest : List Char) : never.reached before rest = false := by
  induction before generalizing rest with
  | nil => rfl
  | cons c before ih =>
      rw [reached, ih]
      rfl

/-- A search that has been given up stays given up. -/
theorem reached_append {halt : Halt} {before u rest : List Char}
    (h : halt.reached before (u ++ rest) = true) :
    halt.reached (u.reverse ++ before) rest = true := by
  induction u generalizing before with
  | nil => exact h
  | cons c u ih =>
      have hnext : halt.reached (c :: before) (u ++ rest) = true := by
        rw [reached, ← List.cons_append]
        rw [h, Bool.or_true]
      simpa using ih hnext

end Halt

/-- A piece of a text: characters between hits, or a hit with what it means and its
characters. -/
inductive Piece (α : Type) where
  | gap (s : List Char)
  | hit (value : α) (s : List Char)
  deriving Repr

namespace Piece

/-- The characters of a piece. -/
def source {α : Type} : Piece α → List Char
  | gap s => s
  | hit _ s => s

end Piece

namespace Pattern

variable {α : Type} (p : Pattern α)

/-- The gap of the given characters, in reverse order, unless there are none. -/
def closeGap (gap : List Char) : List (Piece α) :=
  if gap.isEmpty then [] else [.gap gap.reverse]

/-- Cuts the rest of a text, given what stands before it and the gap that is not yet closed,
both in reverse order. -/
def cutFrom (before gap : List Char) : List Char → List (Piece α)
  | [] => closeGap gap
  | c :: s =>
      match p before (c :: s) with
      | some h =>
          closeGap gap ++ .hit h.value (c :: s.take h.more) ::
            cutFrom ((s.take h.more).reverse ++ c :: before) [] (s.drop h.more)
      | none => cutFrom (c :: before) (c :: gap) s
  termination_by s => s.length
  decreasing_by
    · simp only [List.length_drop, List.length_cons]
      omega
    · simp

/-- The pattern in a search that may be given up: from that place on it hits nowhere. -/
def upTo (halt : Halt) : Pattern α := fun before rest =>
  (p before rest).filter fun _ => !halt.reached before rest

theorem upTo_of_reached {halt : Halt} {before rest : List Char}
    (h : halt.reached before rest = true) : p.upTo halt before rest = none := by
  rw [upTo, h]
  cases p before rest with
  | none => rfl
  | some hit => rfl

theorem upTo_of_not_reached {halt : Halt} {before rest : List Char}
    (h : halt.reached before rest = false) : p.upTo halt before rest = p before rest := by
  rw [upTo, h]
  cases p before rest with
  | none => rfl
  | some hit => rfl

theorem upTo_never : p.upTo Halt.never = p := by
  funext before rest
  exact p.upTo_of_not_reached (Halt.reached_never before rest)

/-- What is found before a search is given up is found without that. -/
theorem eq_some_of_upTo {halt : Halt} {before rest : List Char} {h : Hit α}
    (hfound : p.upTo halt before rest = some h) : p before rest = some h :=
  (Option.filter_eq_some_iff.1 hfound).1

/-- Cuts a text at all hits. -/
def cut (s : List Char) : List (Piece α) :=
  p.cutFrom [] [] s

theorem flatMap_source_closeGap (gap : List Char) :
    (closeGap gap : List (Piece α)).flatMap Piece.source = gap.reverse := by
  unfold closeGap
  cases gap <;> simp [Piece.source]

theorem flatMap_source_cutFrom (before gap s : List Char) :
    (p.cutFrom before gap s).flatMap Piece.source = gap.reverse ++ s := by
  fun_induction p.cutFrom before gap s with
  | case1 before gap => simp [flatMap_source_closeGap]
  | case2 before gap c s h hp ih =>
      simp [flatMap_source_closeGap, Piece.source, ih, List.take_append_drop]
  | case3 before gap c s hp ih => simp [ih]

/-- The pieces put together are the text. -/
theorem flatMap_source_cut (s : List Char) : (p.cut s).flatMap Piece.source = s := by
  simp [cut, flatMap_source_cutFrom]

theorem gap_ne_nil_of_mem_closeGap {gap s : List Char}
    (h : Piece.gap s ∈ (closeGap gap : List (Piece α))) : s ≠ [] := by
  unfold closeGap at h
  cases gap <;> simp_all

theorem gap_ne_nil_of_mem_cutFrom {before gap s t : List Char}
    (h : Piece.gap t ∈ p.cutFrom before gap s) : t ≠ [] := by
  fun_induction p.cutFrom before gap s with
  | case1 before gap => exact gap_ne_nil_of_mem_closeGap h
  | case2 before gap c s hit hp ih =>
      rcases List.mem_append.1 h with h | h
      · exact gap_ne_nil_of_mem_closeGap h
      · rcases List.mem_cons.1 h with h | h
        · cases h
        · exact ih h
  | case3 before gap c s hp ih => exact ih h

/-- No gap is empty. -/
theorem gap_ne_nil {s t : List Char} (h : Piece.gap t ∈ p.cut s) : t ≠ [] :=
  p.gap_ne_nil_of_mem_cutFrom h

end Pattern

end Text
end DocLinks
