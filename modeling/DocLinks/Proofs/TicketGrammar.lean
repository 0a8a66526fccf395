import DocLinks.Expansion.Ticket
import DocLinks.Proofs.CharacterRuns
import DocLinks.Proofs.Cutting

/-!
# The grammar of tickets

What a ticket looks like and what stands around it.

**Results.**
* `read?_eq_some_iff`: a ticket is its mark and its digits, and it is a whole word.
* `pattern_finds_iff`: what the pattern of tickets finds.
* `silent_alone`: where no word was broken, a part of a text has no tickets when it stands
  alone.
-/

namespace DocLinks
namespace Ticket

variable {mark : List Char}

theorem not_isCapital_of_isDigit {c : Char} (h : c.isDigit = true) :
    isCapital c = false := by
  simp only [Char.isDigit, isCapital, Bool.and_eq_true, decide_eq_true_eq,
    Bool.and_eq_false_iff, decide_eq_false_iff_not, Char.le_def, UInt32.le_iff_toNat_le,
    ge_iff_le] at h ⊢
  simp at h ⊢
  omega

theorem isAsciiWord_of_isDigit {c : Char} (h : c.isDigit = true) :
    Text.isAsciiWord c = true := by
  simp [Text.isAsciiWord, Char.isAlphanum, h]

theorem isAsciiWord_of_isCapital {c : Char} (h : isCapital c = true) :
    Text.isAsciiWord c = true := by
  have halphanum : c.isAlphanum = true :=
    Text.isAlphanum_iff.2 (.inl (.inl (by simpa [isCapital] using h)))
  simp [Text.isAsciiWord, halphanum]

/-- Digits end where a whole word does. -/
theorem digits_run {digits rest : List Char} (hdigits : ∀ c ∈ digits, c.isDigit = true)
    (hrest : Text.endsIn Text.isAsciiWord rest.head? = false) :
    (digits ++ rest).takeWhile Char.isDigit = digits ∧
      (digits ++ rest).dropWhile Char.isDigit = rest := by
  refine Text.run_of_endsIn hdigits ?_
  cases rest with
  | nil => rfl
  | cons c rest =>
      cases hc : c.isDigit with
      | false => exact hc
      | true =>
          rw [List.head?_cons, Text.endsIn, isAsciiWord_of_isDigit hc] at hrest
          exact absurd hrest (by simp)

theorem read?_eq_some_iff {before : Option Char} {s digits rest : List Char} :
    read? mark before s = some (digits, rest) ↔
      s = mark ++ (digits ++ rest) ∧ mark ≠ [] ∧ (∀ c ∈ mark, isCapital c = true) ∧
        digits ≠ [] ∧ (∀ c ∈ digits, c.isDigit = true) ∧
        Text.endsIn Text.isAsciiWord before = false ∧
        Text.endsIn Text.isAsciiWord rest.head? = false := by
  constructor
  · intro h
    simp only [read?, Option.ite_none_right_eq_some, Option.some.injEq, Prod.mk.injEq,
      Bool.and_eq_true, beq_iff_eq, Bool.not_eq_true', List.isEmpty_eq_false_iff] at h
    obtain ⟨⟨⟨⟨⟨hmark, hne⟩, hdne⟩, hbefore⟩, hafter⟩, rfl, rfl⟩ := h
    refine ⟨?_, hmark ▸ hne, ?_, hdne, ?_, hbefore, hafter⟩
    · rw [List.takeWhile_append_dropWhile, ← hmark, List.takeWhile_append_dropWhile]
    · intro c hc
      rw [← hmark] at hc
      exact List.all_eq_true.1 List.all_takeWhile c hc
    · exact fun c hc => List.all_eq_true.1 List.all_takeWhile c hc
  · rintro ⟨rfl, hne, hmark, hdne, hdigits, hbefore, hafter⟩
    obtain ⟨htake, hdrop⟩ := digits_run hdigits hafter
    have hletters : (mark ++ (digits ++ rest)).takeWhile isCapital = mark ∧
        (mark ++ (digits ++ rest)).dropWhile isCapital = digits ++ rest := by
      obtain ⟨d, digits, rfl⟩ := List.exists_cons_of_ne_nil hdne
      exact Text.run_of_endsIn hmark (not_isCapital_of_isDigit (hdigits d (by simp)))
    simp [read?, hletters, htake, hdrop, hne, hdne, hbefore, hafter]

theorem advances_read? :
    Text.Pattern.Advances fun (before s : List Char) => read? mark before.head? s := by
  intro before s digits rest h
  obtain ⟨rfl, hne, -⟩ := read?_eq_some_iff.1 h
  exact ⟨mark ++ digits, by simp [hne], by rw [List.append_assoc]⟩

theorem pattern_bounded (mark : List Char) : (pattern mark).Bounded :=
  Text.Pattern.ofReader_bounded advances_read?

theorem pattern_finds_iff {before u rest digits : List Char} :
    (pattern mark).Finds before u rest digits ↔
      u = mark ++ digits ∧ mark ≠ [] ∧ (∀ c ∈ mark, isCapital c = true) ∧
        digits ≠ [] ∧ (∀ c ∈ digits, c.isDigit = true) ∧
        Text.endsIn Text.isAsciiWord before.head? = false ∧
        Text.endsIn Text.isAsciiWord rest.head? = false := by
  have hreader : (pattern mark).Finds before u rest digits ↔
      u ≠ [] ∧ read? mark before.head? (u ++ rest) = some (digits, rest) :=
    Text.Pattern.ofReader_finds_iff advances_read?
  rw [hreader, read?_eq_some_iff]
  constructor
  · rintro ⟨-, hu, h⟩
    rw [← List.append_assoc] at hu
    exact ⟨List.append_cancel_right hu, h⟩
  · rintro ⟨rfl, hne, h⟩
    exact ⟨by simp [hne], by rw [List.append_assoc], hne, h⟩

theorem isAsciiWord_of_mem {digits : List Char} (hmark : ∀ c ∈ mark, isCapital c = true)
    (hdigits : ∀ c ∈ digits, c.isDigit = true) {c : Char} (hc : c ∈ mark ++ digits) :
    Text.isAsciiWord c = true := by
  rcases List.mem_append.1 hc with hc | hc
  · exact isAsciiWord_of_isCapital (hmark c hc)
  · exact isAsciiWord_of_isDigit (hdigits c hc)

/-- A text without tickets is one without tickets when it stands alone, if no word was
broken. -/
theorem silent_alone {before x rest : List Char} (h : (pattern mark).Silent before x rest)
    (hleft : Text.endsIn Text.isAsciiWord before.head? = true →
      Text.endsIn Text.isAsciiWord x.head? = false)
    (hright : Text.endsIn Text.isAsciiWord rest.head? = true →
      Text.endsIn Text.isAsciiWord x.getLast? = false) : (pattern mark).Silent [] x [] := by
  intro y z hx hz
  have hnone := h y z hx hz
  simp only [pattern, Option.map_eq_none_iff, List.append_nil] at hnone ⊢
  refine Option.eq_none_iff_forall_ne_some.2 fun ⟨digits, rest'⟩ hread => ?_
  obtain ⟨rfl, hne, hmark, hdne, hdigits, hbefore, hafter⟩ := read?_eq_some_iff.1 hread
  have hword := fun c hc => isAsciiWord_of_mem hmark hdigits (c := c) hc
  refine absurd hnone (Option.ne_none_iff_exists'.2 ⟨(digits, rest' ++ rest), ?_⟩)
  refine read?_eq_some_iff.2 ⟨by simp, hne, hmark, hdne, hdigits, ?_, ?_⟩
  · cases y with
    | nil =>
        cases hb : Text.endsIn Text.isAsciiWord before.head? with
        | false => exact hb
        | true =>
            have hhead := hleft hb
            obtain ⟨c, m, rfl⟩ := List.exists_cons_of_ne_nil hne
            rw [hx, List.nil_append, List.cons_append] at hhead
            rw [List.head?_cons, Text.endsIn, hword c (by simp)] at hhead
            exact absurd hhead (by simp)
    | cons c y =>
        have hne : (c :: y).reverse ≠ [] := by simp
        obtain ⟨d, t, hd⟩ := List.exists_cons_of_ne_nil hne
        rw [hd] at hbefore ⊢
        exact hbefore
  · cases rest' with
    | nil =>
        cases hr : Text.endsIn Text.isAsciiWord rest.head? with
        | false => exact hr
        | true =>
            have hlast := hright hr
            have hdlast : x.getLast? = some (digits.getLast hdne) := by
              rw [hx, List.append_nil, List.getLast?_append]
              rw [List.getLast?_append, List.getLast?_eq_some_getLast hdne]
              rfl
            rw [hdlast, Text.endsIn] at hlast
            rw [hword _ (List.mem_append_right _ (List.getLast_mem hdne))] at hlast
            exact absurd hlast (by simp)
    | cons c rest' => exact hafter

end Ticket
end DocLinks
