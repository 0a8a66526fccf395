import DocLinks.Proofs.Cutting
import DocLinks.Proofs.TagGrammar

/-!
# Where link tags stand in a text

Braces that look like those of a tag are found as such when the search comes by, unless the
search has jumped over them.  It jumps over them in two ways only: behind braces that were
opened before and are not closed yet, or with a caption in which they stand.

**Results.**
* `parts_of_cut`: what a tag of a cut looks like.
* `braces_or_caption`: braces in front of which none are open are those of a tag, or stand in
  a caption.
* `HasBraces.not_captionReaches`: a tag without caption follows on no caption.
-/

namespace DocLinks
namespace LinkTag

open Text (Piece)

section Places

variable {before s u after : List Char} {tag : LinkTag}

/-- Among the pieces of a text is the tag, and its braces are `u`, which stands behind
`before`. -/
def HasBraces (ps : List (Piece LinkTag)) (before u : List Char) (tag : LinkTag) : Prop :=
  ∃ front back, ps = front ++ .hit tag (captionText tag.caption ++ u) :: back ∧
    before = front.flatMap Piece.source ++ captionText tag.caption

/-- The caption of a tag among the pieces of a text begins in `before`, and `excess` is left
of it behind that. -/
def CaptionReaches (ps : List (Piece LinkTag)) (before excess : List Char) : Prop :=
  ∃ front tag u back y, ps = front ++ .hit tag (captionText tag.caption ++ u) :: back ∧
    before = front.flatMap Piece.source ++ y ∧ y ≠ [] ∧ captionText tag.caption = y ++ excess

/-- A tag of a cut consists of its caption and its braces, which end at their first closing
brace. -/
theorem parts_of_cut {front back : List (Piece LinkTag)}
    (h : pattern.cut s = front ++ .hit tag u :: back) :
    ∃ w, u = captionText tag.caption ++ (w ++ ['}']) ∧ '}' ∉ w ∧
      s = front.flatMap Piece.source ++ (u ++ back.flatMap Piece.source) ∧
      braces? tag.caption (w ++ '}' :: back.flatMap Piece.source) =
        some (tag, back.flatMap Piece.source) := by
  have hfinds := (Text.Pattern.cuts_cutFrom pattern_bounded [] s).finds_of_split h
  rw [List.append_nil, List.append_nil] at hfinds
  obtain ⟨w, hu, hw, -, hbraces⟩ := parts_of_finds hfinds
  refine ⟨w, hu, hw, ?_, hbraces⟩
  rw [← pattern.flatMap_source_cut s, h]
  simp [Piece.source]

/-- The braces of a tag, and what stands around them. -/
theorem HasBraces.parts (h : HasBraces (pattern.cut s) before u tag) :
    ∃ w after, u = w ++ ['}'] ∧ '}' ∉ w ∧ s = before ++ (u ++ after) ∧
      braces? tag.caption (u ++ after) = some (tag, after) := by
  obtain ⟨front, back, hps, rfl⟩ := h
  obtain ⟨w, hu, hw, hs, hbraces⟩ := parts_of_cut hps
  obtain rfl := List.append_cancel_left hu
  exact ⟨w, back.flatMap Piece.source, rfl, hw, by simpa using hs, by simpa using hbraces⟩

/-- A tag with a caption follows on it. -/
theorem HasBraces.captionReaches {ps : List (Piece LinkTag)} (h : HasBraces ps before u tag)
    (hcaption : tag.caption ≠ none) : CaptionReaches ps before [] := by
  obtain ⟨front, back, hps, hbefore⟩ := h
  refine ⟨front, tag, u, back, captionText tag.caption, hps, hbefore, ?_, by simp⟩
  cases hc : tag.caption with
  | none => exact absurd hc hcaption
  | some c => simp [captionText]

/-- A tag without caption follows on no caption, nor does it stand in one. -/
theorem HasBraces.not_captionReaches (h : HasBraces (pattern.cut s) before u tag)
    (hnone : tag.caption = none) (excess : List Char) :
    ¬ CaptionReaches (pattern.cut s) before excess := by
  rintro ⟨front', tag', u', back', y, hps', hbefore', hy, hcaption⟩
  obtain ⟨w, -, hu, -⟩ := h.parts
  obtain ⟨w', hu', -⟩ := parts_of_cut hps'
  obtain rfl := List.append_cancel_left hu'
  obtain ⟨front, back, hps, hbefore⟩ := h
  rw [hnone] at hps hbefore
  have hleny := List.length_pos_iff.2 hy
  have hcaption := congrArg List.length hcaption
  have hplaces := congrArg List.length (hbefore.symm.trans hbefore')
  simp only [captionText_none, List.length_append, List.length_nil] at hcaption hplaces
  rcases Text.pieces_apart (hps.symm.trans hps') with ⟨v, hv⟩ | ⟨rfl, -⟩ | ⟨v, hv⟩
  · have hv := congrArg List.length hv
    simp only [captionText_none, List.length_append, List.length_nil] at hv
    omega
  · omega
  · have hv := congrArg List.length hv
    simp only [List.length_append, List.length_cons, List.length_nil] at hv
    omega

end Places

section Search

/-- No braces that open in `before` are still open where `s` begins. -/
def Closed (before s : List Char) : Prop :=
  ∀ y z, before = y ++ z → z ≠ [] → '}' ∉ z → braces? none (z ++ s) = none

variable {before u after : List Char} {tag : LinkTag}

/-- Braces in front of which none are open are those of a tag, or stand in a caption. -/
theorem braces_or_caption (hclosed : Closed before (u ++ after))
    (hbraces : braces? none (u ++ after) = some (tag, after)) :
    (∃ caption, HasBraces (pattern.cut (before ++ (u ++ after))) before u
      { tag with caption := caption }) ∨
      ∃ excess, excess ≠ [] ∧
      CaptionReaches (pattern.cut (before ++ (u ++ after))) before excess := by
  obtain ⟨m, -, -, ⟨t, hstart⟩, -, -⟩ := braces?_eq_some_iff.1 hbraces
  have hread : read? (u ++ after) ≠ none := by
    rw [hstart] at hbraces ⊢
    simp [read?, hbraces]
  obtain ⟨front, found, a, b, back, z, hps, hbefore, hb, hsplit, hfinds⟩ :=
    (Text.Pattern.cuts_cutFrom pattern_bounded [] (before ++ (u ++ after))).exists_hit_at rfl
      (by rw [hstart]; simp) (pattern_ne_none_iff.2 (by simpa using hread))
  simp only [List.append_nil] at hfinds
  obtain ⟨w, hparts, hw, -, hfound⟩ := parts_of_finds hfinds
  have hfound := braces?_caption hfound none
  by_cases hplace : a = captionText found.caption
  · have hb : b = w ++ ['}'] := List.append_cancel_left (hplace ▸ hparts)
    have hsame : w ++ '}' :: z = u ++ after := by
      rw [hsplit, hb]
      simp
    rw [hsame, hbraces] at hfound
    obtain ⟨rfl, rfl⟩ := Prod.mk.inj (Option.some.inj hfound)
    obtain rfl := (List.append_left_inj after).1 hsplit
    exact .inl ⟨found.caption, front, back, by rw [← hplace]; exact hps,
      by rw [hbefore, hplace]⟩
  · rcases List.append_eq_append_iff.1 hparts with ⟨k, hcaption, rfl⟩ | ⟨k, rfl, hk⟩
    · have hexcess : k ≠ [] := by
        rintro rfl
        exact hplace (by simpa using hcaption.symm)
      have ha : a ≠ [] := by
        rintro rfl
        rw [hstart] at hsplit
        cases hc : found.caption with
        | none => exact hexcess (by simpa [captionText, hc] using hcaption.symm)
        | some c =>
            rw [List.nil_append, hc] at hcaption
            simp [← hcaption, captionText] at hsplit
      refine .inr ⟨k, hexcess, front, found, w ++ ['}'], back, a, ?_, hbefore, ha, hcaption⟩
      rw [hcaption, List.append_assoc]
      exact hps
    · have hk' : k ≠ [] := by
        rintro rfl
        exact hplace (by simp)
      have hout : '}' ∉ k := by
        obtain ⟨b', -, rfl⟩ := Text.exists_of_append_eq_append hk (List.length_pos_iff.2 hb)
        exact fun hmem => hw (List.mem_append_left b' hmem)
      have hopen := hclosed (front.flatMap Piece.source ++ captionText found.caption) k
        (by rw [hbefore, List.append_assoc]) hk' hout
      have hsame : k ++ (u ++ after) = w ++ '}' :: z := by
        rw [hsplit, ← List.append_assoc, ← hk]
        simp
      rw [hsame, hfound] at hopen
      exact absurd hopen (by simp)

end Search

end LinkTag
end DocLinks
