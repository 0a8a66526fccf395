import Mathlib.Tactic.ByContra
import Mathlib.Tactic.Push
import DocLinks.Proofs.ListSteps
import DocLinks.Text.Lowercase

/-!
# The capital sigma at the end of a text

The lower case of a text is that of its characters, apart from the capital sigma.  A capital
sigma that ends a word becomes a final one, and no longer does so once letters are put after
the text.  So the lower case of a text with letters after it tells the lower case of the text
only if one knows whether it ends in such a sigma.

**Results.**
* `lowerFrom_eq_flatMap`: without a capital sigma, characters are mapped one by one.
* `lowerAt_append`, `lowerFrom_append`: what something after a text changes in its lower
  case.
* `lower_append`: what becomes of the lower case of a text that does not end in a final
  sigma.
* `exists_lower_append`: what becomes of the lower case of one that does.
* `lower_append_inj`: texts that both do, or both do not, are told apart with the same text
  after them.
-/

namespace DocLinks
namespace Text

/-- Whether the last character of a text that counts is a capital sigma, after a cased
letter. -/
def EndsInFinalSigma (s : List Char) : Prop :=
  ∃ t u, s = t ++ capitalSigma :: u ∧ (∀ c ∈ u, isCaseIgnorable c = true) ∧
    t.foldl casedAfter false = true

section Characters

theorem lowerFrom_eq_flatMap {s : List Char} (h : capitalSigma ∉ s) (b : Bool) :
    lowerFrom b s = s.flatMap lowerChar := by
  induction s generalizing b with
  | nil => rfl
  | cons c s ih =>
      simp only [List.mem_cons, not_or] at h
      rw [lowerFrom_cons, lowerAt, if_neg (Ne.symm h.1)]
      rw [ih h.2, List.flatMap_cons]

/-- The lower case of a text with a capital sigma has a small one, of either form. -/
theorem smallSigma_mem_lowerFrom {s : List Char} (h : capitalSigma ∈ s) (b : Bool) :
    'σ' ∈ lowerFrom b s ∨ 'ς' ∈ lowerFrom b s := by
  induction s generalizing b with
  | nil => simp at h
  | cons c s ih =>
      rw [lowerFrom_cons]
      rcases List.mem_cons.1 h with rfl | h
      · rw [lowerAt, if_pos rfl]
        split
        · exact .inr (by simp)
        · exact .inl (by simp)
      · exact (ih h _).imp (List.mem_append_right _) (List.mem_append_right _)

theorem eq_of_ofNat_eq_smallSigma {n : Nat} (h : Char.ofNat n = 'σ') : n = 0x3C3 := by
  by_cases hvalid : n.isValidChar
  · rw [Char.ofNat, dif_pos hvalid] at h
    exact congrArg Char.toNat h
  · rw [Char.ofNat, dif_neg hvalid] at h
    exact absurd h (by decide)

/-- A character that is passed over has no sigma for its lower case. -/
theorem smallSigma_not_mem_lowerChar {c : Char} (h : isCaseIgnorable c = true) :
    'σ' ∉ lowerChar c := by
  have hruns : ∀ run ∈ capitalRuns, run.covers (Int.toNat (0x3C3 - run.shift)) = true →
      ∀ range ∈ caseIgnorableRanges, ¬ (range.1 ≤ Int.toNat (0x3C3 - run.shift) ∧
        Int.toNat (0x3C3 - run.shift) ≤ range.2) := by
    decide +kernel
  have hself : c ≠ 'σ' := by
    rintro rfl
    exact absurd h (by decide +kernel)
  intro hmem
  unfold lowerChar at hmem
  dsimp only at hmem
  split at hmem
  · rename_i hascii
    split at hmem
    · have hcode := eq_of_ofNat_eq_smallSigma (List.mem_singleton.1 hmem).symm
      omega
    · exact hself (List.mem_singleton.1 hmem).symm
  · split at hmem
    · exact absurd hmem (by decide)
    · split at hmem
      · rename_i run hrun
        have hcode := eq_of_ofNat_eq_smallSigma (List.mem_singleton.1 hmem).symm
        have hcapital : c.toNat = Int.toNat (0x3C3 - run.shift) := by omega
        have hcovers := List.find?_some hrun
        rw [hcapital] at hcovers
        obtain ⟨range, hrange, hin⟩ := (CodeRanges.contains_iff _ c).1 h
        rw [hcapital] at hin
        exact hruns run (List.mem_of_find?_eq_some hrun) hcovers range hrange hin
      · exact hself (List.mem_singleton.1 hmem).symm

end Characters

section Appending

theorem startsCased_of_ignorable {s : List Char} (h : ∀ c ∈ s, isCaseIgnorable c = true)
    (x : List Char) : startsCased (s ++ x) = startsCased x := by
  rw [startsCased, startsCased, List.dropWhile_append_of_pos h]

/-- What stands after a text with a character that counts does not matter. -/
theorem startsCased_append {s : List Char} {c : Char} (hc : c ∈ s)
    (h : isCaseIgnorable c = false)
    (x : List Char) : startsCased (s ++ x) = startsCased s := by
  induction s with
  | nil => simp at hc
  | cons d s ih =>
      cases hd : isCaseIgnorable d with
      | false => simp [startsCased, hd]
      | true =>
          have hmem : c ∈ s := by
            rcases List.mem_cons.1 hc with rfl | hmem
            · rw [h] at hd
              simp at hd
            · exact hmem
          have hih := ih hmem
          rw [startsCased, startsCased] at hih ⊢
          rw [List.cons_append, List.dropWhile_cons_of_pos hd]
          rwa [List.dropWhile_cons_of_pos hd]

theorem not_endsInFinalSigma {s : List Char} (h : capitalSigma ∉ s) :
    ¬ EndsInFinalSigma s := by
  rintro ⟨t, u, rfl, -, -⟩
  simp at h

theorem isCaseIgnorable_capitalSigma : isCaseIgnorable capitalSigma = false := by
  decide +kernel

variable {s t x : List Char}

/-- The lower case of a character is the same with something after the text, unless the
character is a sigma that ends a word and nothing after it counts. -/
theorem lowerAt_append {b : Bool} {c : Char}
    (h : c = capitalSigma → b = true → ∃ d ∈ s, isCaseIgnorable d = false) :
    lowerAt b c (s ++ x) = lowerAt b c s := by
  by_cases hsigma : c = capitalSigma
  · cases b with
    | false => simp [lowerAt]
    | true =>
        obtain ⟨d, hd, hcounts⟩ := h hsigma rfl
        rw [lowerAt, lowerAt, startsCased_append hd hcounts]
  · rw [lowerAt, lowerAt]
    rw [if_neg hsigma, if_neg hsigma]

/-- What comes before the rest of a text tells whether a sigma in it is final. -/
theorem lowerFrom_append (hx : capitalSigma ∉ x) {front : List Char} {b : Bool}
    (hb : front.foldl casedAfter false = b) (hends : ¬ EndsInFinalSigma (front ++ s)) :
    lowerFrom b (s ++ x) = lowerFrom b s ++ x.flatMap lowerChar := by
  induction s generalizing b front with
  | nil => exact lowerFrom_eq_flatMap hx b
  | cons c s ih =>
      have hhere : lowerAt b c (s ++ x) = lowerAt b c s := by
        refine lowerAt_append fun hsigma hcased => ?_
        by_contra hnone
        push Not at hnone
        refine hends ⟨front, s, by rw [hsigma], fun d hd => ?_, hb.trans hcased⟩
        simpa using hnone d hd
      have hrest : lowerFrom (casedAfter b c) (s ++ x) =
          lowerFrom (casedAfter b c) s ++ x.flatMap lowerChar := by
        have hends' : ¬ EndsInFinalSigma ((front ++ [c]) ++ s) := by
          rwa [List.append_assoc, List.singleton_append]
        exact ih (by rw [List.foldl_append, hb, List.foldl_cons, List.foldl_nil]) hends'
      rw [List.cons_append, lowerFrom_cons, lowerFrom_cons]
      rw [hhere, hrest, List.append_assoc]

/-- A text that does not end in a final sigma has the same lower case with something after
it. -/
theorem lower_append (hx : capitalSigma ∉ x) (h : ¬ EndsInFinalSigma s) :
    lower (s ++ x) = lower s ++ x.flatMap lowerChar :=
  lowerFrom_append hx (List.foldl_nil) (by rwa [List.nil_append])

/-- The lower case before a capital sigma does not depend on what comes after it. -/
theorem exists_lowerFrom_append (t : List Char) (b : Bool) : ∃ l, ∀ r,
    lowerFrom b (t ++ capitalSigma :: r) = l ++
    lowerFrom (t.foldl casedAfter b) (capitalSigma :: r) := by
  induction t generalizing b with
  | nil => exact ⟨[], fun _ => rfl⟩
  | cons c t ih =>
      obtain ⟨l, hl⟩ := ih (casedAfter b c)
      refine ⟨lowerAt b c (t ++ [capitalSigma]) ++ l, fun r => ?_⟩
      have hhere : lowerAt b c (t ++ [capitalSigma] ++ r) =
          lowerAt b c (t ++ [capitalSigma]) :=
        lowerAt_append fun _ _ => ⟨capitalSigma, by simp, isCaseIgnorable_capitalSigma⟩
      rw [List.append_assoc, List.singleton_append] at hhere
      rw [List.cons_append, lowerFrom_cons, hhere]
      rw [hl, List.append_assoc, List.foldl_cons]

/-- The final sigma at the end of a text is a final one no more when letters come after the
text. -/
theorem exists_lower_append (hx : capitalSigma ∉ x) (hstart : startsCased x = true)
    (h : EndsInFinalSigma s) : ∃ l u, lower s = l ++ 'ς' :: u ∧
      lower (s ++ x) = l ++ 'σ' :: (u ++ x.flatMap lowerChar) ∧ 'σ' ∉ u := by
  obtain ⟨t, u, rfl, hu, ht⟩ := h
  obtain ⟨l, hl⟩ := exists_lowerFrom_append t false
  have hnone : startsCased u = false := by
    have hempty := startsCased_of_ignorable hu []
    rwa [List.append_nil] at hempty
  have hclear : capitalSigma ∉ u := fun hmem => by
    have hignored := hu _ hmem
    rw [isCaseIgnorable_capitalSigma] at hignored
    simp at hignored
  have hafter : capitalSigma ∉ u ++ x := by simp [hclear, hx]
  refine ⟨l, u.flatMap lowerChar, ?_, ?_, ?_⟩
  · rw [lower, hl, ht]
    rw [lowerFrom_cons, lowerAt, if_pos rfl]
    rw [hnone, lowerFrom_eq_flatMap hclear]
    rfl
  · rw [lower, List.append_assoc, List.cons_append]
    rw [hl, ht, lowerFrom_cons]
    rw [lowerAt, if_pos rfl, startsCased_of_ignorable hu]
    rw [hstart, lowerFrom_eq_flatMap hafter, List.flatMap_append]
    rfl
  · intro hmem
    obtain ⟨c, hc, hsigma⟩ := List.mem_flatMap.1 hmem
    exact smallSigma_not_mem_lowerChar (hu c hc) hsigma

/-- If two texts both end in a final sigma, or both do not, then their lower cases are told
apart when the same letters come after the texts. -/
theorem lower_append_inj (hx : capitalSigma ∉ x) (hstart : startsCased x = true)
    (hends : EndsInFinalSigma s ↔ EndsInFinalSigma t) (h : lower (s ++ x) = lower (t ++ x)) :
    lower s = lower t := by
  by_cases hs : EndsInFinalSigma s
  · obtain ⟨l, u, hlower, happend, hnone⟩ := exists_lower_append hx hstart hs
    obtain ⟨l', u', hlower', happend', hnone'⟩ := exists_lower_append hx hstart (hends.1 hs)
    rw [happend, happend', ← List.cons_append] at h
    rw [← List.cons_append, ← List.append_assoc, ← List.append_assoc] at h
    obtain ⟨rfl, rfl⟩ := append_cons_inj_of_not_mem hnone hnone' (List.append_cancel_right h)
    rw [hlower, hlower']
  · rw [lower_append hx hs, lower_append hx fun ht => hs (hends.2 ht)] at h
    exact List.append_cancel_right h

end Appending

end Text
end DocLinks
