import DocLinks.Text.Blank

/-!
# Cutting texts at separators

Small total functions that cut a text at its first or last separator, or into all its fields.

**Results.**  `fields_ne_nil`: a text has at least one field; `eq_append_of_after?`: a start
that was taken off can be put back; `cutAtFirst_eq`: a cut loses the separator only.
-/

namespace DocLinks
namespace Text

/-- What follows `lead`, if the text begins with it. -/
def after? : (lead s : List Char) → Option (List Char)
  | [], s => some s
  | _ :: _, [] => none
  | a :: lead, c :: s => if a = c then after? lead s else none

theorem eq_append_of_after? {lead s rest : List Char} (h : after? lead s = some rest) :
    s = lead ++ rest := by
  induction lead generalizing s with
  | nil => simpa [after?] using h
  | cons a lead ih =>
      cases s with
      | nil => simp [after?] at h
      | cons c s =>
          by_cases hc : a = c
          · subst hc
            simp only [after?, if_true] at h
            rw [ih h]
            rfl
          · simp [after?, hc] at h

theorem after?_append (lead rest : List Char) : after? lead (lead ++ rest) = some rest := by
  induction lead with
  | nil => rfl
  | cons a lead ih => simp [after?, ih]

/-- The parts before and after the first separator, if there is one. -/
def cutAtFirst (isSeparator : Char → Bool) : List Char → Option (List Char × List Char)
  | [] => none
  | c :: s =>
      if isSeparator c then some ([], s)
      else (cutAtFirst isSeparator s).map fun (before, rest) => (c :: before, rest)

theorem cutAtFirst_eq {p : Char → Bool} {s before rest : List Char}
    (h : cutAtFirst p s = some (before, rest)) :
    ∃ c, p c = true ∧ s = before ++ c :: rest ∧ ∀ x ∈ before, p x = false := by
  induction s generalizing before with
  | nil => simp [cutAtFirst] at h
  | cons c s ih =>
      by_cases hc : p c = true
      · simp only [cutAtFirst, hc, if_true, Option.some.injEq, Prod.mk.injEq] at h
        obtain ⟨rfl, rfl⟩ := h
        exact ⟨c, hc, rfl, by simp⟩
      · rw [cutAtFirst, if_neg hc, Option.map_eq_some_iff] at h
        obtain ⟨⟨b, r⟩, hs, h⟩ := h
        obtain ⟨rfl, rfl⟩ := Prod.mk.inj h
        obtain ⟨x, hx, rfl, hb⟩ := ih hs
        refine ⟨x, hx, rfl, ?_⟩
        intro y hy
        rcases List.mem_cons.1 hy with rfl | hy
        · simpa using hc
        · exact hb y hy

/-- The text before the first separator, all of it if there is none. -/
def beforeFirst (isSeparator : Char → Bool) (s : List Char) : List Char :=
  s.takeWhile fun c => !isSeparator c

/-- The text after the last separator, all of it if there is none. -/
def afterLast (isSeparator : Char → Bool) (s : List Char) : List Char :=
  (s.reverse.takeWhile fun c => !isSeparator c).reverse

/-- The parts before and after the last separator, if there is one. -/
def cutAtLast (isSeparator : Char → Bool) (s : List Char) : Option (List Char × List Char) :=
  (cutAtFirst isSeparator s.reverse).map fun (rest, before) => (before.reverse, rest.reverse)

/-- All parts between separators, empty ones included. -/
def fields (isSeparator : Char → Bool) : List Char → List (List Char)
  | [] => [[]]
  | c :: s =>
      if isSeparator c then [] :: fields isSeparator s
      else
        match fields isSeparator s with
        | [] => [[c]]
        | field :: rest => (c :: field) :: rest

theorem fields_ne_nil (p : Char → Bool) (s : List Char) : fields p s ≠ [] := by
  cases s with
  | nil => simp [fields]
  | cons c s =>
      simp only [fields]
      split
      · simp
      · split <;> simp

/-- Whether a text occurs inside another one. -/
def occursIn (needle : List Char) : List Char → Bool
  | [] => needle.isEmpty
  | c :: s => needle.isPrefixOf (c :: s) || occursIn needle s

/-- Texts joined with a separator between them. -/
def join (separator : List Char) : List (List Char) → List Char
  | [] => []
  | [s] => s
  | s :: t :: rest => s ++ separator ++ join separator (t :: rest)

end Text
end DocLinks
