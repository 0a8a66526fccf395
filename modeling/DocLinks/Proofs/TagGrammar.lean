import DocLinks.Proofs.MarkerGrammar
import DocLinks.Reference

/-!
# The grammar of link tags

What a link tag looks like, told by the grammar of markers: its braces are those of a marker,
but no blank follows the opening brace, and it has one of three names.  A caption in square
brackets may stand before the braces.

**Results.**
* `span_of_read?`: a marker ends at its first closing brace.
* `braces?_eq_some_iff`: the braces of a tag are those of a marker.
* `read?_eq_some_iff`, `pattern_finds_iff`: what a tag looks like, and what the pattern of
  tags finds.
-/

namespace DocLinks

namespace Marker

/-- A marker ends at its first closing brace. -/
theorem span_of_read? {s rest : List Char} {m : Marker} (h : read? s = some (m, rest)) :
    ∃ w, s = w ++ '}' :: rest ∧ '}' ∉ w := by
  obtain ⟨a, b, c, rfl, ha, htail, hb, hc, -, hbody⟩ := read?_eq_some_iff.1 h
  refine ⟨'{' :: (a ++ ("@link".toList ++ (m.tail ++ b :: (c ++ m.body)))), by simp, ?_⟩
  have hopening := not_mem_opening ha htail hb (x := '}') (by simp)
  have hblanks : '}' ∉ c := fun hmem => absurd (hc _ hmem) (by decide)
  simp only [List.mem_cons, List.mem_append, List.not_mem_nil, or_false,
    not_or] at hopening ⊢
  exact ⟨by decide, hopening.1, hopening.2.1, hopening.2.2.1, hopening.2.2.2, hblanks, hbody⟩

end Marker

namespace LinkTag

section Braces

theorem startsBlank_iff {s : List Char} :
    startsBlank s = true ↔ ∃ b t, s = b :: t ∧ Text.isBlank b = true := by
  cases s with
  | nil => simp [startsBlank]
  | cons b t => simp [startsBlank]

theorem isWord_of_mem_styleNames {name : TagStyle × List Char}
    (hname : name ∈ styleNames) {c : Char}
    (hc : c ∈ name.2) : Text.isWord c = true := by
  have hall : ∀ name ∈ styleNames, name.2.all Text.isWord = true := by decide +kernel
  exact List.all_eq_true.1 (hall name hname) c hc

/-- The names of tags are told apart by the blank behind them. -/
theorem after?_name_of_blank {name other : TagStyle × List Char} {b : Char} {t : List Char}
    (hname : name ∈ styleNames) (hother : other ∈ styleNames) (hb : Text.isBlank b = true)
    {rest : List Char} (h : Text.after? other.2 (name.2 ++ b :: t) = some rest)
    (hrest : startsBlank rest = true) : other = name ∧ rest = b :: t := by
  have hsplit := Text.eq_append_of_after? h
  obtain ⟨b', t', rfl, hb'⟩ := startsBlank_iff.1 hrest
  have hlists : name.2 = other.2 ∧ b :: t = b' :: t' := by
    rcases List.append_eq_append_iff.1 hsplit with ⟨w, hw, htail⟩ | ⟨w, hw, htail⟩
    · cases w with
      | nil => exact ⟨by simpa using hw.symm, htail⟩
      | cons c w =>
          obtain ⟨rfl, -⟩ := List.cons.inj htail
          have hword := isWord_of_mem_styleNames hother (c := b) (by rw [hw]; simp)
          rw [Text.isWord_of_isBlank hb] at hword
          simp at hword
    · cases w with
      | nil => exact ⟨by simpa using hw, htail.symm⟩
      | cons c w =>
          obtain ⟨rfl, -⟩ := List.cons.inj htail
          have hword := isWord_of_mem_styleNames hname (c := b') (by rw [hw]; simp)
          rw [Text.isWord_of_isBlank hb'] at hword
          simp at hword
  have hstyle : ∀ n ∈ styleNames, ∀ m ∈ styleNames, n.2 = m.2 → n = m := by decide
  exact ⟨(hstyle name hname other hother hlists.1).symm, hlists.2.symm⟩

/-- The opening of a tag: the brace, the name and a blank. -/
theorem open?_eq_some_iff {s : List Char} {o : Opened} :
    open? s = some o ↔ ∃ name, (o.style, name) ∈ styleNames ∧
      s = "\x7b@link".toList ++ (name ++ o.rest) ∧ startsBlank o.rest = true := by
  constructor
  · intro h
    unfold open? at h
    split at h
    · rename_i rest hrest
      obtain ⟨⟨style, name⟩, hmem, hstyle⟩ := List.exists_of_findSome?_eq_some h
      dsimp only at hstyle
      split at hstyle
      · rename_i t ht
        split at hstyle
        · rename_i hblank
          obtain rfl := Option.some.inj hstyle
          refine ⟨name, hmem, ?_, hblank⟩
          rw [Text.eq_append_of_after? hrest, Text.eq_append_of_after? ht]
        · simp at hstyle
      · simp at hstyle
    · simp at h
  · rintro ⟨name, hmem, rfl, hblank⟩
    obtain ⟨b, t, hrest, hb⟩ := startsBlank_iff.1 hblank
    unfold open?
    rw [Text.after?_append]
    dsimp only
    generalize hfind : List.findSome? _ styleNames = found
    cases found with
    | none =>
        have hnone := List.findSome?_eq_none_iff.1 hfind _ hmem
        rw [Text.after?_append] at hnone
        simp [hblank] at hnone
    | some o' =>
        obtain ⟨other, hother, hstyle⟩ := List.exists_of_findSome?_eq_some hfind
        split at hstyle
        · rename_i rest hafter
          split at hstyle
          · rename_i hblank'
            rw [hrest] at hafter
            obtain ⟨rfl, rfl⟩ := after?_name_of_blank hmem hother hb hafter hblank'
            obtain rfl := Option.some.inj hstyle
            rw [← hrest]
          · simp at hstyle
        · simp at hstyle

variable {caption : Option (List Char)} {s rest : List Char} {tag : LinkTag}

/-- The braces of a tag are those of a marker without a blank behind the opening brace, whose
tag has one of the three names. -/
theorem braces?_eq_some_iff :
    braces? caption s = some (tag, rest) ↔
      ∃ m, Marker.read? s = some (m, rest) ∧ (tag.style, m.tail) ∈ styleNames ∧
        (∃ t, s = '{' :: '@' :: t) ∧ tag.caption = caption ∧
        tag.body = Text.trimEnd m.body := by
  constructor
  · intro h
    unfold braces? at h
    split at h
    · rename_i o ho
      obtain ⟨⟨body, after⟩, hcut, h⟩ := Option.map_eq_some_iff.1 h
      obtain ⟨rfl, rfl⟩ := Prod.mk.inj h
      obtain ⟨name, hname, rfl, hblank⟩ := open?_eq_some_iff.1 ho
      obtain ⟨b, t, hrest, hb⟩ := startsBlank_iff.1 hblank
      have hopen :
          Marker.opening? ("\x7b@link".toList ++ (name ++ o.rest)) = some (name, t) :=
        Marker.opening?_eq_some_iff.2
          ⟨[], b, by rw [hrest]; rfl, by simp, fun _ => isWord_of_mem_styleNames hname, hb⟩
      have htrim : Text.trimStart o.rest = Text.trimStart t := by
        rw [hrest]
        exact Text.trimStart_append (s := [b]) (by simpa using hb)
      refine ⟨⟨name, body⟩, ?_, hname, ⟨_, rfl⟩, rfl, rfl⟩
      rw [Marker.read?_eq_bind, hopen, Option.bind_some]
      dsimp only
      rw [← htrim, hcut]
      rfl
    · simp at h
  · rintro ⟨m, hread, hname, ⟨t, rfl⟩, rfl, hbody⟩
    rw [Marker.read?_eq_bind] at hread
    obtain ⟨⟨tail, r⟩, hopen, hread⟩ := Option.bind_eq_some_iff.1 hread
    obtain ⟨⟨body, after⟩, hcut, h⟩ := Option.map_eq_some_iff.1 hread
    obtain ⟨rfl, rfl⟩ := Prod.mk.inj h
    obtain ⟨a, b, hs, ha, -, hb⟩ := Marker.opening?_eq_some_iff.1 hopen
    have hnil : a = [] := by
      cases a with
      | nil => rfl
      | cons c a =>
          have hc : '@' = c := (List.cons.inj (List.cons.inj hs).2).1
          have hblank := ha c (by simp)
          rw [← hc] at hblank
          exact absurd hblank (by decide)
    subst hnil
    have ho : open? ('{' :: '@' :: t) = some ⟨tag.style, b :: r⟩ :=
      open?_eq_some_iff.2 ⟨tail, hname, hs, startsBlank_iff.2 ⟨b, r, rfl, hb⟩⟩
    have htrim : Text.trimStart (b :: r) = Text.trimStart r :=
      Text.trimStart_append (s := [b]) (by simpa using hb)
    unfold braces?
    rw [ho]
    dsimp only
    rw [htrim, hcut]
    rw [Option.map_some, ← hbody]

theorem eq_append_of_braces? (h : braces? caption s = some (tag, rest)) :
    ∃ t, s = "\x7b@link".toList ++ t := by
  unfold braces? at h
  split at h
  · rename_i o ho
    obtain ⟨name, -, rfl, -⟩ := open?_eq_some_iff.1 ho
    exact ⟨_, rfl⟩
  · simp at h

/-- Apart from the caption, the braces of a tag are read without regard to it. -/
theorem braces?_caption (h : braces? caption s = some (tag, rest))
    (other : Option (List Char)) :
    braces? other s = some ({ tag with caption := other }, rest) := by
  obtain ⟨m, hread, hname, hstart, -, hbody⟩ := braces?_eq_some_iff.1 h
  exact braces?_eq_some_iff.2 ⟨m, hread, hname, hstart, rfl, hbody⟩

end Braces

section Tags

/-- The caption of a tag as it is written. -/
def captionText : Option (List Char) → List Char
  | some c => '[' :: (c ++ [']'])
  | none => []

@[simp]
theorem captionText_none : captionText none = [] :=
  rfl

/-- A tag: its caption, if there is one, and its braces. -/
theorem read?_eq_some_iff {s rest : List Char} {tag : LinkTag} :
    read? s = some (tag, rest) ↔
      ∃ t, s = captionText tag.caption ++ t ∧
      (∀ c, tag.caption = some c → c ≠ [] ∧ ']' ∉ c) ∧
        braces? tag.caption t = some (tag, rest) := by
  constructor
  · intro h
    unfold read? at h
    split at h
    · rename_i t
      split at h
      · rename_i c after hcut
        split at h
        · simp at h
        · rename_i hne
          obtain ⟨m, -, -, -, hcaption, -⟩ := braces?_eq_some_iff.1 h
          obtain ⟨x, hx, rfl, hout⟩ := Text.cutAtFirst_eq hcut
          obtain rfl : x = ']' := by simpa using hx
          refine ⟨after, by rw [hcaption]; simp [captionText], ?_, by rw [hcaption]; exact h⟩
          intro c' hc'
          rw [hcaption] at hc'
          obtain rfl := Option.some.inj hc'
          exact ⟨by simpa using hne, fun hmem => by simpa using hout _ hmem⟩
      · simp at h
    · obtain ⟨m, -, -, -, hcaption, -⟩ := braces?_eq_some_iff.1 h
      exact ⟨s, by rw [hcaption]; rfl, by simp [hcaption], by rw [hcaption]; exact h⟩
  · rintro ⟨t, rfl, hcaption, hbraces⟩
    cases hc : tag.caption with
    | none =>
        obtain ⟨m, -, -, ⟨t', rfl⟩, -, -⟩ := braces?_eq_some_iff.1 hbraces
        rw [hc] at hbraces
        exact hbraces
    | some c =>
        obtain ⟨hne, hout⟩ := hcaption c hc
        have hcut : Text.cutAtFirst (· == ']') (c ++ ']' :: t) = some (c, t) := by
          refine Text.cutAtFirst_append (fun x hx => ?_) rfl
          have : x ≠ ']' := fun h => hout (h ▸ hx)
          simpa using this
        have hs : captionText (some c) ++ t = '[' :: (c ++ ']' :: t) := by simp [captionText]
        rw [hc] at hbraces
        rw [hs, read?, hcut]
        simpa [hne] using hbraces

theorem advances_read? : Text.Pattern.Advances fun _ s => read? s := by
  intro _ s tag rest h
  obtain ⟨t, rfl, -, hbraces⟩ := read?_eq_some_iff.1 h
  obtain ⟨m, hread, -⟩ := braces?_eq_some_iff.1 hbraces
  obtain ⟨w, rfl, -⟩ := Marker.span_of_read? hread
  exact ⟨captionText tag.caption ++ (w ++ ['}']), by simp, by simp⟩

theorem pattern_bounded : pattern.Bounded :=
  Text.Pattern.ofReader_bounded advances_read?

theorem pattern_finds_iff {before u rest : List Char} {tag : LinkTag} :
    pattern.Finds before u rest tag ↔ u ≠ [] ∧ read? (u ++ rest) = some (tag, rest) :=
  Text.Pattern.ofReader_finds_iff advances_read?

theorem pattern_ne_none_iff {before s : List Char} :
    pattern before s ≠ none ↔ read? s ≠ none :=
  not_congr Option.map_eq_none_iff

/-- What a hit consists of: the caption and the braces, which end at their first closing
brace. -/
theorem parts_of_finds {before u rest : List Char} {tag : LinkTag}
    (h : pattern.Finds before u rest tag) :
    ∃ w, u = captionText tag.caption ++ (w ++ ['}']) ∧ '}' ∉ w ∧
      (∀ c, tag.caption = some c → c ≠ [] ∧ ']' ∉ c) ∧
      braces? tag.caption (w ++ '}' :: rest) = some (tag, rest) := by
  obtain ⟨t, hsplit, hcaption, hbraces⟩ := read?_eq_some_iff.1 (pattern_finds_iff.1 h).2
  obtain ⟨m, hread, -⟩ := braces?_eq_some_iff.1 hbraces
  obtain ⟨w, rfl, hw⟩ := Marker.span_of_read? hread
  refine ⟨w, ?_, hw, hcaption, hbraces⟩
  apply (List.append_left_inj rest).1
  simpa using hsplit

end Tags

end LinkTag
end DocLinks
