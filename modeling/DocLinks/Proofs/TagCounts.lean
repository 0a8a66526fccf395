import DocLinks.Navigation.View
import Mathlib

/-!
# How many tags a text opens

Markup is put together from fixed parts, escaped texts and texts that are inserted as they
are.  The fixed parts open as many tags each time, and escaped texts open none; so the number
of tags tells what has been inserted unescaped.

**References.**  A reference shows its text as it is, except for the few long names that are
literals or stand for anything: those show themselves.

**Listed names.**  Neither the marks of kinds nor quotes open a tag, so nothing is lost with
them.

**Results.**
* `tagCount_text`, `tagCount_attributeValue`: what is escaped opens no tag.
* `tagCount_html_ofTarget`: what the text of a reference adds.
* `tagCount_displayOf`: a listed name opens as many tags as the name of its symbol.
-/

namespace DocLinks

namespace Html

section Counts

/-- How many tags a text opens. -/
def tagCount (s : String) : Nat :=
  s.toList.count '<'

/-- How many tags some texts open together. -/
def tagCounts (l : List String) : Nat :=
  (l.map tagCount).sum

variable (s t : String) (l m : List String)

@[simp] theorem tagCount_append : tagCount (s ++ t) = tagCount s + tagCount t := by
  rw [tagCount, String.toList_append, List.count_append]
  rfl

@[simp] theorem tagCount_empty : tagCount "" = 0 := rfl

@[simp] theorem tagCounts_nil : tagCounts [] = 0 := rfl

@[simp] theorem tagCounts_cons : tagCounts (s :: l) = tagCount s + tagCounts l :=
  List.sum_cons

@[simp] theorem tagCounts_append : tagCounts (l ++ m) = tagCounts l + tagCounts m := by
  rw [tagCounts, List.map_append, List.sum_append]
  rfl

/-- Texts that open no tag may stand between others. -/
theorem tagCount_intercalate {s : String} (hs : tagCount s = 0) (l : List String) :
    tagCount (s.intercalate l) = tagCounts l := by
  rw [tagCount, String.toList_intercalate]
  induction l with
  | nil => rfl
  | cons t l ih =>
      cases l with
      | nil => simp [tagCount]
      | cons u l =>
          have hs : s.toList.count '<' = 0 := hs
          rw [List.map_cons, List.map_cons, List.intercalate_cons_cons]
          rw [← List.map_cons, List.count_append, List.count_append]
          rw [ih, hs, Nat.add_zero]
          rfl

/-- Escaped text opens no tag. -/
theorem tagCount_text : tagCount (text s) = 0 := by
  rw [tagCount, text, String.toList_ofList]
  rw [List.count_eq_zero, escapeText, List.mem_flatMap]
  rintro ⟨c, -, hc⟩
  unfold escapeTextChar at hc
  split at hc
  · simp at hc
  · simp at hc
  · rename_i hne
    exact hne (List.mem_singleton.1 hc).symm

/-- An escaped attribute value opens no tag. -/
theorem tagCount_attributeValue : tagCount (attributeValue s) = 0 := by
  rw [tagCount, attributeValue, String.toList_ofList]
  rw [List.count_eq_zero, escapeAttribute, List.mem_flatMap]
  rintro ⟨c, -, hc⟩
  unfold escapeAttributeChar at hc
  split at hc
  · simp at hc
  · simp at hc
  · simp at hc
  · simp at hc
  · rename_i hne _ _
    exact hne (List.mem_singleton.1 hc).symm

/-- An anchor opens and closes one tag besides those of its content. -/
theorem tagCount_anchor (href content : String) :
    tagCount (anchor href content) = 2 + tagCount content := by
  have hopen : tagCount "<a href=\"" = 1 := rfl
  have hinner : tagCount "\">" = 0 := rfl
  have hclose : tagCount "</a>" = 1 := rfl
  simp only [anchor, tagCount_append, tagCount_attributeValue, hopen, hinner, hclose]
  omega

end Counts

end Html

namespace Reference

section Shown

/-- Whether the reference to a long name shows the text that it is given. -/
def showsText (longname : String) : Bool :=
  longname != "any" && !literals.contains longname

/-- What a reference shows as it is adds its tags to those of the reference. -/
theorem tagCount_html_ofTarget (r : Registry) (longname text : String) :
    Html.tagCount (ofTarget r longname (some text)).html =
      Html.tagCount (ofTarget r longname (some "")).html +
        if showsText longname then Html.tagCount text else 0 := by
  by_cases hany : (longname == "any") = true
  · have hself : showsText longname = false := by simp [showsText, bne, hany]
    rw [hself, ofTarget, ofTarget]
    rw [if_pos hany, if_pos hany]
    rfl
  · by_cases hliteral : literals.contains longname = true
    · have hself : showsText longname = false := by
        rw [showsText, hliteral, Bool.not_true, Bool.and_false]
      rw [hself, ofTarget, ofTarget]
      rw [if_neg hany, if_neg hany]
      rw [if_pos hliteral, if_pos hliteral]
      rfl
    · have hshown : showsText longname = true := by
        rw [Bool.not_eq_true] at hany hliteral
        rw [showsText, bne]
        rw [hany, hliteral]
        rfl
      rw [hshown, if_pos rfl, ofTarget]
      rw [ofTarget, if_neg hany, if_neg hany]
      rw [if_neg hliteral, if_neg hliteral]
      simp only [Option.getD_some]
      split
      · simp only [html, Html.tagCount_anchor, Html.tagCount_empty, Nat.add_zero]
      · split <;> simp only [html, Html.tagCount_anchor, Html.tagCount_empty,
          Nat.add_zero, Nat.zero_add]

end Shown

end Reference

namespace Listed

section Names

theorem tagCount_stripQuotes (name : String) :
    Html.tagCount (stripQuotes name) = Html.tagCount name := by
  have hend : ∀ s : List Char,
      (if s.getLast? = some '"' then s.dropLast else s).count '<' = s.count '<' := by
    intro s
    split
    · rename_i hlast
      obtain ⟨front, rfl⟩ := List.getLast?_eq_some_iff.1 hlast
      rw [List.dropLast_concat, List.count_append]
      rfl
    · rfl
  rw [Html.tagCount, stripQuotes, String.toList_ofList]
  refine (hend _).trans ?_
  rw [Html.tagCount]
  split
  · rename_i hstart
    rw [hstart]
    exact (List.count_cons_of_ne (by decide)).symm
  · rfl

/-- What is left of a piece if hits are dropped. -/
def leftOf {α : Type} : Text.Piece α → List Char
  | .gap s => s
  | .hit _ _ => []

/-- If no hit holds a character, what is left without hits holds it as often as the text. -/
theorem count_leftOf {α : Type} {p : Text.Pattern α} {c : Char}
    (hp : ∀ before s h, p before s = some h → c ∉ s.take (h.more + 1))
    (before gap s : List Char) :
    ((p.cutFrom before gap s).flatMap leftOf).count c = gap.count c + s.count c := by
  have hclose : ∀ gap : List Char,
      ((Text.Pattern.closeGap gap : List (Text.Piece α)).flatMap leftOf).count
        c = gap.count c := by
    intro gap
    unfold Text.Pattern.closeGap
    split
    · rename_i hnil
      rw [List.isEmpty_iff.1 hnil]
      rfl
    · rw [List.flatMap_singleton, leftOf, List.count_reverse]
  fun_induction p.cutFrom before gap s with
  | case1 before gap => rw [hclose, List.count_nil, Nat.add_zero]
  | case2 before gap a s h hit ih =>
      have hnone : (a :: s.take h.more).count c = 0 := List.count_eq_zero.2 (hp _ _ h hit)
      have hsplit : (a :: s).count c = (s.drop h.more).count c := by
        rw [← List.take_append_drop h.more s, ← List.cons_append, List.count_append]
        rw [hnone, Nat.zero_add]
        simp
      rw [List.flatMap_append, List.flatMap_cons, List.count_append]
      rw [List.count_append, hclose]
      rw [ih, hsplit]
      simp [leftOf]
  | case3 before gap a s hit ih =>
      rw [ih, List.count_cons, List.count_cons]
      omega

/-- The marks of kinds open no tag. -/
theorem tagCount_dropMarks (name : String) :
    Html.tagCount (dropMarks name) = Html.tagCount name := by
  have hmarks : ∀ mark ∈ hiddenMarks, '<' ∉ mark ∧
      mark.length - 1 + 1 = mark.length := by decide
  have hhit : ∀ before s h, markPattern before s = some h → '<' ∉ s.take (h.more + 1) := by
    intro before s h hsome
    unfold markPattern at hsome
    split at hsome
    · obtain ⟨mark, hmark, rfl⟩ := Option.map_eq_some_iff.1 hsome
      obtain ⟨hout, hlength⟩ := hmarks mark (List.mem_of_find?_eq_some hmark)
      have hprefix : mark.isPrefixOf s = true :=
        List.find?_some (p := (List.isPrefixOf · s)) hmark
      obtain ⟨rest, rfl⟩ := List.isPrefixOf_iff_prefix.1 hprefix
      rwa [hlength, List.take_left]
    · cases hsome
  have hleft : dropMarks name = String.ofList
      ((markPattern.cut name.toList).flatMap leftOf) := by
    rw [dropMarks]
    congr 2
    funext piece
    cases piece <;> rfl
  rw [Html.tagCount, hleft, String.toList_ofList]
  exact (count_leftOf hhit [] [] name.toList).trans (Nat.zero_add _)

/-- What is shown for a symbol opens as many tags as its name. -/
theorem tagCount_displayOf (stripsQuotes : Bool) (longname : String) (m : Member) :
    Html.tagCount (displayOf false stripsQuotes longname m) = Html.tagCount m.name := by
  rw [displayOf]
  split
  · rw [tagCount_stripQuotes, tagCount_dropMarks]
    rfl
  · rw [tagCount_dropMarks]
    rfl

end Names

end Listed
end DocLinks
