import DocLinks.Proofs.LinkTargets
import DocLinks.Proofs.TagPlaces

/-!
# The tags that are left when a text is resolved

The tags of a text are replaced in one pass: what replaces a tag is not searched again.  So a
tag is left in the result where its opening reaches into what has replaced another one.  That
takes a tag that shows a text with an opening in it, or that leads to an absolute link with
one, or whose target nobody knows, so that nothing but its text stands between the texts
around it.

**Results.**
* `braces?_ne_none_iff`: braces are those of a tag if they begin with an opening and are
  closed.
* `exists_hit_iff`: a text has a tag if one of its openings is closed.
* `exists_opens_of_holdsTag`: a tag in the result reaches into what has replaced a tag.
* `exposed_of_opens`: that tag is one of those above, if no address has a brace.
* `resolved_iff`: so much decides whether the result has a tag; if it has none, it stays as
  it is.
-/

namespace DocLinks

open Text (Piece)

namespace LinkTag

section Openings

/-- The opening of a tag: the brace, the name and a blank. -/
def Opening (w : List Char) : Prop :=
  ∃ name ∈ styleNames, ∃ b, Text.isBlank b = true ∧ w = "\x7b@link".toList ++ (name.2 ++ [b])

/-- The text holds the opening of a tag. -/
def HoldsOpening (s : List Char) : Prop :=
  ∃ w, Opening w ∧ w <:+: s

/-- The text holds the opening of a tag and, behind it, a closing brace. -/
def HoldsTag (s : List Char) : Prop :=
  ∃ a w z, s = a ++ (w ++ z) ∧ Opening w ∧ '}' ∈ z

/-- A character that occurs in no opening. -/
def Foreign (c : Char) : Prop :=
  Text.isBlank c = false ∧ c ∉ "\x7b@linkcodeplain".toList

instance : DecidablePred Foreign := fun _ => inferInstanceAs (Decidable (_ ∧ _))

variable {w s t x y : List Char} {c d : Char}

theorem Foreign.not_mem (hc : Foreign c) (hw : Opening w) : c ∉ w := by
  obtain ⟨name, hname, b, hb, rfl⟩ := hw
  have hnames : ∀ name ∈ styleNames,
      ("\x7b@link".toList ++ name.2).all
        ("\x7b@linkcodeplain".toList.contains ·) = true := by
    decide
  intro hmem
  rw [← List.append_assoc, List.mem_append, List.mem_singleton] at hmem
  rcases hmem with hmem | rfl
  · exact hc.2 (List.contains_iff_mem.1 (List.all_eq_true.1 (hnames name hname) c hmem))
  · exact absurd (hc.1.symm.trans hb) (by simp)

theorem Opening.mem (hw : Opening w) (hc : c ∈ "\x7b@link".toList) : c ∈ w := by
  obtain ⟨name, -, b, -, rfl⟩ := hw
  exact List.mem_append_left _ hc

theorem Opening.ne_nil (hw : Opening w) : w ≠ [] :=
  List.ne_nil_of_mem (hw.mem (c := '{') (by decide))

/-- What begins with an opening has no caption. -/
theorem Opening.read?_append (hw : Opening w) (z : List Char) :
    read? (w ++ z) = braces? none (w ++ z) := by
  obtain ⟨name, -, b, -, rfl⟩ := hw
  rfl

/-- An opening ends in a blank. -/
theorem Opening.exists_blank (hw : Opening w) :
    ∃ v b, w = v ++ [b] ∧ Text.isBlank b = true := by
  obtain ⟨name, -, b, hb, rfl⟩ := hw
  exact ⟨"\x7b@link".toList ++ name.2, b, by rw [List.append_assoc], hb⟩

theorem not_holdsOpening_of_not_mem (hc : c ∈ "\x7b@link".toList) (h : c ∉ s) :
    ¬ HoldsOpening s := by
  rintro ⟨w, hw, hinside⟩
  exact h (hinside.subset (hw.mem hc))

theorem not_holdsOpening_of_brace (h : '{' ∉ s) : ¬ HoldsOpening s :=
  not_holdsOpening_of_not_mem (by decide) h

theorem HoldsOpening.of_infix (h : HoldsOpening s) (hs : s <:+: t) : HoldsOpening t := by
  obtain ⟨w, hw, hinside⟩ := h
  exact ⟨w, hw, hinside.trans hs⟩

/-- No opening reaches over a character that occurs in none. -/
theorem HoldsOpening.of_wall (hc : Foreign c) (h : HoldsOpening (x ++ c :: y)) :
    HoldsOpening x ∨ HoldsOpening y := by
  obtain ⟨w, hw, k, l, hinside⟩ := h
  have hout := hc.not_mem hw
  rw [List.append_assoc] at hinside
  rcases List.append_eq_append_iff.1 hinside with ⟨v, rfl, hv⟩ | ⟨v, rfl, hv⟩
  · rcases List.append_eq_append_iff.1 hv with ⟨u, rfl, -⟩ | ⟨u, rfl, hu⟩
    · exact .inl ⟨w, hw, k, u, by simp⟩
    · cases u with
      | nil => exact .inl ⟨v, by simpa using hw, k, [], by simp⟩
      | cons e u =>
          obtain ⟨rfl, -⟩ := List.cons.inj hu
          simp at hout
  · cases v with
    | nil =>
        cases w with
        | nil => exact absurd rfl hw.ne_nil
        | cons e w =>
            obtain ⟨rfl, -⟩ := List.cons.inj hv
            simp at hout
    | cons e v =>
        obtain ⟨rfl, rfl⟩ := List.cons.inj hv
        exact .inr ⟨w, hw, v, l, by simp⟩

theorem braces?_ne_none_iff {caption : Option (List Char)} :
    braces? caption s ≠ none ↔ ∃ w z, Opening w ∧ s = w ++ z ∧ '}' ∈ z := by
  constructor
  · intro h
    obtain ⟨⟨tag, rest⟩, hbraces⟩ := Option.ne_none_iff_exists'.1 h
    unfold braces? at hbraces
    split at hbraces
    · rename_i o ho
      obtain ⟨⟨body, after⟩, hcut, -⟩ := Option.map_eq_some_iff.1 hbraces
      obtain ⟨name, hname, rfl, hblank⟩ := open?_eq_some_iff.1 ho
      obtain ⟨b, t, hrest, hb⟩ := startsBlank_iff.1 hblank
      obtain ⟨e, he, htrim, -⟩ := Text.cutAtFirst_eq hcut
      obtain rfl : e = '}' := by simpa using he
      refine ⟨"\x7b@link".toList ++ (name ++ [b]), t, ⟨_, hname, b, hb, rfl⟩,
        by simp [hrest], ?_⟩
      have hmem : '}' ∈ o.rest := by
        rw [← Text.takeWhile_append_trimStart o.rest, htrim]
        simp
      rw [hrest] at hmem
      refine (List.mem_cons.1 hmem).resolve_left ?_
      rintro rfl
      exact absurd hb (by decide)
    · simp at hbraces
  · rintro ⟨w, z, ⟨⟨style, name⟩, hname, b, hb, rfl⟩, rfl, hmem⟩ hnone
    have ho : open? ("\x7b@link".toList ++ (name ++ [b]) ++ z) = some ⟨style, b :: z⟩ :=
      open?_eq_some_iff.2 ⟨name, hname, by simp, startsBlank_iff.2 ⟨b, z, rfl, hb⟩⟩
    unfold braces? at hnone
    rw [ho] at hnone
    have hcut := Option.map_eq_none_iff.1 hnone
    have hsplit := Text.takeWhile_append_trimStart (b :: z)
    have hbrace : '}' ∈ (b :: z).takeWhile Text.isBlank ++ Text.trimStart (b :: z) := by
      rw [hsplit]
      exact List.mem_cons_of_mem _ hmem
    rcases List.mem_append.1 hbrace with h | h
    · exact absurd (Text.mem_takeWhile h) (by decide)
    · exact absurd (Text.cutAtFirst_eq_none hcut _ h) (by decide)

/-- A text has a tag if one of its openings is closed. -/
theorem exists_hit_iff : (∃ tag u, Piece.hit tag u ∈ pattern.cut s) ↔ HoldsTag s := by
  have hcuts := Text.Pattern.cuts_cutFrom pattern_bounded [] s
  constructor
  · rintro ⟨tag, u, hmem⟩
    obtain ⟨y, z, rfl, hfinds⟩ := hcuts.exists_finds hmem
    obtain ⟨v, rfl, -, -, hbraces⟩ := parts_of_finds hfinds
    obtain ⟨w, z', hw, hv, hclosed⟩ :=
      braces?_ne_none_iff.1 (Option.ne_none_iff_exists'.2 ⟨_, hbraces⟩)
    refine ⟨y ++ captionText tag.caption, w, z', ?_, hw, hclosed⟩
    rw [List.append_nil] at hv
    rw [← hv]
    simp
  · rintro ⟨a, w, z, rfl, hw, hclosed⟩
    have hread : pattern (a.reverse ++ []) (w ++ z ++ []) ≠ none := by
      rw [pattern_ne_none_iff, List.append_nil (w ++ z), hw.read?_append]
      exact braces?_ne_none_iff.2 ⟨w, z, hw, rfl, hclosed⟩
    obtain ⟨front, tag, b, c, back, -, hcut, -⟩ :=
      hcuts.exists_hit_at rfl (by simp [hw.ne_nil]) hread
    have hsuffix : .hit tag (b ++ c) :: back <:+ pattern.cut (a ++ (w ++ z)) :=
      ⟨front, hcut.symm⟩
    exact ⟨tag, b ++ c, hsuffix.subset List.mem_cons_self⟩

end Openings

section Surroundings

/-- An opening in `x ++ (t ++ y)`, with a closing brace behind it, reaches into `t` or over
it. -/
def Opens (x t y : List Char) : Prop :=
  ∃ a w z, x ++ (t ++ y) = a ++ (w ++ z) ∧ Opening w ∧ '}' ∈ z ∧
    a.length < (x ++ t).length ∧ x.length < (a ++ w).length

variable {a w z x t y : List Char} {c d : Char}

theorem mem_of_place (h : x ++ c :: y = a ++ (w ++ z)) (hstart : a.length ≤ x.length)
    (hend : x.length < (a ++ w).length) : c ∈ w := by
  have hplace := congrArg (·[x.length]?) h
  rw [List.length_append] at hend
  rw [List.getElem?_append_right (Nat.le_refl _), Nat.sub_self] at hplace
  rw [List.getElem?_append_right hstart, List.getElem?_append_left (by omega)] at hplace
  exact List.mem_of_getElem? hplace.symm

theorem Opens.holdsTag (h : Opens x t y) : HoldsTag (x ++ (t ++ y)) := by
  obtain ⟨a, w, z, hsplit, hw, hclosed, -, -⟩ := h
  exact ⟨a, w, z, hsplit, hw, hclosed⟩

/-- A tag in a text stands in its rear part, or its opening begins before that. -/
theorem HoldsTag.opens_or (h : HoldsTag (t ++ y)) : Opens [] t y ∨ HoldsTag y := by
  obtain ⟨a, w, z, hsplit, hw, hclosed⟩ := h
  by_cases hstart : a.length < t.length
  · exact .inl ⟨a, w, z, hsplit, hw, hclosed, hstart,
      List.length_pos_iff.2 (by simp [hw.ne_nil])⟩
  · have hlength := congrArg List.length hsplit
    rw [List.length_append, List.length_append] at hlength
    obtain ⟨k, hk, -⟩ := Text.exists_of_append_eq_append hsplit.symm (by omega)
    exact .inr ⟨k, w, z, hk, hw, hclosed⟩

theorem Opens.prepend (h : Opens x t y) (k : List Char) : Opens (k ++ x) t y := by
  obtain ⟨a, w, z, hsplit, hw, hclosed, hstart, hend⟩ := h
  refine ⟨k ++ a, w, z, by simp [hsplit], hw, hclosed, ?_, ?_⟩
  · simpa [List.append_assoc] using hstart
  · simpa [List.append_assoc] using hend

/-- No opening reaches into a text from outside if it begins and ends with characters that
occur in none. -/
theorem Opens.holdsOpening (hc : Foreign c) (hd : Foreign d)
    (h : Opens x (c :: (t ++ [d])) y) :
    HoldsOpening (c :: (t ++ [d])) := by
  obtain ⟨a, w, z, hsplit, hw, -, hstart, hend⟩ := h
  have hfirst : x.length ≤ a.length := by
    by_contra hlt
    exact hc.not_mem hw (mem_of_place (y := t ++ [d] ++ y)
      (by simpa using hsplit) (by omega) hend)
  have hlast : (a ++ w).length ≤ (x ++ c :: (t ++ [d])).length := by
    by_contra hlt
    refine hd.not_mem hw (mem_of_place (x := x ++ c :: t) (y := y)
      (by simpa using hsplit) ?_ ?_)
    · simp only [List.length_append, List.length_cons, List.length_nil] at hstart ⊢
      omega
    · simp only [List.length_append, List.length_cons, List.length_nil] at hlt ⊢
      omega
  have hlength := congrArg List.length hsplit
  simp only [List.length_append] at hlength hlast
  obtain ⟨k, hk, rfl⟩ := Text.exists_of_append_eq_append hsplit.symm (by
    simp only [List.length_append]
    omega)
  rw [← List.append_assoc] at hk
  simp only [List.length_append] at hlength hlast
  obtain ⟨v, -, hv⟩ := Text.exists_of_append_eq_append hk (by omega)
  exact ⟨w, hw, k, v, hv.symm⟩

/-- No opening reaches into a text without blanks whose last character occurs in none. -/
theorem not_opens_of_tight (hd : Foreign d) (ht : t.any Text.isBlank = false) :
    ¬ Opens x (t ++ [d]) y := by
  rintro ⟨a, w, z, hsplit, hw, -, hstart, hend⟩
  obtain ⟨v, b, rfl, hb⟩ := hw.exists_blank
  have hlength : ∀ u : List Char, (u ++ [d]).length = u.length + 1 := by simp
  rw [← List.append_assoc, hlength] at hstart
  by_cases hplace : (a ++ v).length < (x ++ (t ++ [d])).length
  · have hmem : b ∈ t ++ [d] := by
      refine mem_of_place (y := z) (by simpa using hsplit.symm) ?_ hplace
      rw [← List.append_assoc, List.length_append, List.length_singleton] at hend
      omega
    rcases List.mem_append.1 hmem with hmem | hmem
    · exact List.any_eq_false.1 ht b hmem hb
    · rw [List.mem_singleton.1 hmem] at hb
      exact absurd (hd.1.symm.trans hb) (by simp)
  · refine hd.not_mem hw (mem_of_place (x := x ++ t) (y := y)
      (by simpa using hsplit) (by omega) ?_)
    simp only [List.length_append, List.length_singleton] at hplace ⊢
    omega

end Surroundings

section References

variable {r : Registry} {tag : LinkTag} {w x y s : List Char}

theorem shape_of_mem_entities {p : List Char × Char} (hp : p ∈ Html.entities) :
    ∃ m, p.1 = '&' :: (m ++ [';']) ∧ '{' ∉ p.1 := by
  have hparts : ∀ p ∈ Html.entities, p.1 = '&' :: (p.1.tail.dropLast ++ [';']) ∧
      '{' ∉ p.1 := by decide
  exact ⟨_, hparts p hp⟩

/-- A text without the character that entities begin with is at the start of an escaped value
only if it is at the start of the value. -/
theorem prefix_of_escapeAttribute (hw : '&' ∉ w)
    (h : w <+: Html.escapeAttribute s) : w <+: s := by
  induction w generalizing s with
  | nil => exact List.nil_prefix
  | cons c w ih =>
      cases s with
      | nil => exact absurd (List.prefix_nil.1 h) (by simp)
      | cons d s =>
          rw [Html.escapeAttribute, List.flatMap_cons, ← Html.escapeAttribute] at h
          rw [List.mem_cons, not_or] at hw
          rcases Html.escapeAttributeChar_cases d with ⟨p, hp, -, hescape⟩ | ⟨-, hescape⟩
          · obtain ⟨m, hm, -⟩ := shape_of_mem_entities hp
            rw [hescape, hm] at h
            rw [List.cons_append, List.cons_prefix_cons] at h
            exact absurd h.1.symm hw.1
          · rw [hescape, List.singleton_append, List.cons_prefix_cons] at h
            exact List.cons_prefix_cons.2 ⟨h.1, ih hw.2 h.2⟩

/-- Escaping forms no opening. -/
theorem HoldsOpening.of_escapeAttribute (h : HoldsOpening (Html.escapeAttribute s)) :
    HoldsOpening s := by
  induction s with
  | nil => exact h
  | cons c s ih =>
      have hstep : HoldsOpening s → HoldsOpening (c :: s) := fun hs =>
        hs.of_infix (List.suffix_cons c s).isInfix
      rw [Html.escapeAttribute, List.flatMap_cons, ← Html.escapeAttribute] at h
      rcases Html.escapeAttributeChar_cases c with ⟨p, hp, -, hescape⟩ | ⟨-, hescape⟩
      · obtain ⟨m, hm, hbrace⟩ := shape_of_mem_entities hp
        rw [hescape, hm] at h
        have hbrace' : '{' ∉ '&' :: m := by
          rw [hm] at hbrace
          exact fun hmem => hbrace (List.mem_append_left [';'] hmem)
        have hwall : HoldsOpening ('&' :: m ++ ';' :: Html.escapeAttribute s) := by
          simpa using h
        exact hstep
          (ih ((hwall.of_wall (by decide)).resolve_left (not_holdsOpening_of_brace hbrace')))
      · rw [hescape, List.singleton_append] at h
        obtain ⟨w, hw, hinside⟩ := h
        rcases List.infix_cons_iff.1 hinside with hstart | hinside
        · have hout : '&' ∉ w := Foreign.not_mem (by decide) hw
          rw [← List.singleton_append, ← hescape] at hstart
          rw [Html.escapeAttribute, ← List.flatMap_cons] at hstart
          exact ⟨w, hw, (prefix_of_escapeAttribute hout hstart).isInfix⟩
        · exact hstep (ih ⟨w, hw, hinside⟩)

/-- What is between quotes and brackets in an anchor. -/
theorem HoldsOpening.of_anchor {href text : String}
    (h : HoldsOpening (Html.anchor href text).toList) :
    HoldsOpening href.toList ∨ HoldsOpening text.toList := by
  have hparts : (Html.anchor href text).toList =
      "<a href=".toList ++ '"' :: (Html.escapeAttribute href.toList ++ '"' ::
        ([] ++ '>' :: (text.toList ++ '<' :: "/a>".toList))) := by
    simp [Html.anchor, Html.attributeValue]
  rw [hparts] at h
  have h := (h.of_wall (by decide)).resolve_left (not_holdsOpening_of_brace (by decide))
  rcases h.of_wall (by decide) with h | h
  · exact .inl h.of_escapeAttribute
  · have h := (h.of_wall (by decide)).resolve_left (not_holdsOpening_of_brace (by simp))
    exact .inr ((h.of_wall (by decide)).resolve_right
      (not_holdsOpening_of_brace (by decide)))

theorem exists_walls_of_anchor (href text : String) :
    ∃ t, (Html.anchor href text).toList = '<' :: (t ++ ['>']) :=
  ⟨"a href=\"".toList ++ (Html.attributeValue href).toList ++ "\">".toList ++ text.toList ++
    "</a".toList, by simp [Html.anchor]⟩

theorem exists_walls_of_text (hstyle : tag.style = .code) :
    ∃ t, tag.text.toList = '<' :: (t ++ ['>']) := by
  unfold text
  simp only [hstyle, if_true]
  exact ⟨"code>".toList ++ _ ++ "</code".toList, by simp; rfl⟩

/-- What replaces the tag can hold the opening of a tag, or become a part of one: it shows a
text that holds one, it leads to an absolute link that holds one, or it is nothing but its
text, as its target is not known. -/
inductive Exposed (r : Registry) (tag : LinkTag) : Prop
  | text : HoldsOpening tag.text.toList → Exposed r tag
  | target : Reference.isAbsolute tag.target = true →
      HoldsOpening tag.target.toList → Exposed r tag
  | bare {target : String} :
      tag.style ≠ .code → tag.reference r = .unknown target tag.text → Exposed r tag

theorem Exposed.of_anchor {href : String}
    (hhref : ¬ HoldsOpening href.toList ∨ href = tag.target ∧
      Reference.isAbsolute tag.target = true)
    (h : Opens x (Html.anchor href tag.text).toList y) : tag.Exposed r := by
  obtain ⟨t, ht⟩ := exists_walls_of_anchor href tag.text
  rw [ht] at h
  have hholds := h.holdsOpening (by decide) (by decide)
  rw [← ht] at hholds
  rcases hholds.of_anchor with hopening | htext
  · rcases hhref with hhref | ⟨rfl, habsolute⟩
    · exact absurd hopening hhref
    · exact .target habsolute hopening
  · exact .text htext

theorem targetName_of_isAbsolute {name : String}
    (h : Reference.isAbsolute (Reference.targetName name) = true) :
    Reference.targetName name = name := by
  unfold Reference.targetName at h ⊢
  split
  all_goals first | rfl | exact absurd h (by decide)

/-- What tags are replaced by. -/
theorem reference_cases (r : Registry) (tag : LinkTag) :
    tag.reference r = .plain "any" ∨
      (∃ l ∈ Reference.literals, tag.reference r = .code l) ∨
      (Reference.isAbsolute tag.target = true ∧
        tag.reference r = .link tag.target tag.text) ∨
      (∃ e ∈ r.entries, tag.reference r = .link e.url tag.text) ∨
      ∃ target, tag.reference r = .unknown target tag.text := by
  unfold reference Reference.ofTarget
  split
  · rename_i hany
    exact .inl (by rw [beq_iff_eq.1 hany])
  · split
    · rename_i hliteral
      exact .inr (.inl ⟨_, List.contains_iff_mem.1 hliteral, rfl⟩)
    · dsimp only [Option.getD_some]
      split
      · rename_i habsolute
        have hname := targetName_of_isAbsolute habsolute
        rw [hname] at habsolute ⊢
        exact .inr (.inr (.inl ⟨habsolute, rfl⟩))
      · split
        · rename_i url hurl
          obtain ⟨e, he, rfl⟩ := Option.map_eq_some_iff.1 hurl
          exact .inr (.inr (.inr (.inl ⟨e, List.mem_of_find?_eq_some he, rfl⟩)))
        · exact .inr (.inr (.inr (.inr ⟨_, rfl⟩)))

/-- If no address has a brace, only exposed tags leave a place for an opening. -/
theorem exposed_of_opens (hurls : ∀ e ∈ r.entries, '{' ∉ e.url.toList)
    (h : Opens x (tag.reference r).html.toList y) : tag.Exposed r := by
  rcases reference_cases r tag with
    href | ⟨l, hl, href⟩ | ⟨habsolute, href⟩ | ⟨e, he, href⟩ | ⟨target, href⟩
  · rw [href] at h
    exact absurd h (not_opens_of_tight (t := "an".toList) (d := 'y') (by decide) (by decide))
  · have hblanks : ∀ l ∈ Reference.literals,
        ("<code>".toList ++ l.toList ++ "</code".toList).any Text.isBlank = false := by
      decide
    have hhtml : (Reference.code l).html.toList =
        ("<code>".toList ++ l.toList ++ "</code".toList) ++ ['>'] := by
      simp [Reference.html]
    rw [href, hhtml] at h
    exact absurd h (not_opens_of_tight (by decide) (hblanks l hl))
  · rw [href] at h
    exact .of_anchor (.inr ⟨rfl, habsolute⟩) h
  · rw [href] at h
    exact .of_anchor (.inl (not_holdsOpening_of_brace (hurls e he))) h
  · by_cases hstyle : tag.style = .code
    · obtain ⟨t, ht⟩ := exists_walls_of_text hstyle
      rw [href] at h
      have htext : Opens x tag.text.toList y := h
      rw [ht] at htext
      have hholds := htext.holdsOpening (by decide) (by decide)
      exact .text (by rw [ht]; exact hholds)
    · exact .bare hstyle href

end References

section Outcomes

variable {r : Registry} {before s : List Char} {ps : List (Piece LinkTag)}

/-- What some pieces of a text are replaced by. -/
def outcome (r : Registry) (ps : List (Piece LinkTag)) : List Char :=
  ps.flatMap fun piece => (pieceHtml r piece).toList

theorem toList_resolveAll (r : Registry) (s : String) :
    (resolveAll r s).toList = outcome r (cut s) := by
  rw [resolveAll, String.toList_join]
  rw [outcome, List.flatMap_map]

theorem outcome_append (r : Registry) (ps qs : List (Piece LinkTag)) :
    outcome r (ps ++ qs) = outcome r ps ++ outcome r qs :=
  List.flatMap_append

theorem outcome_gap (r : Registry) (g : List Char) (ps : List (Piece LinkTag)) :
    outcome r (.gap g :: ps) = g ++ outcome r ps := by
  simp [outcome, pieceHtml]

theorem outcome_hit (r : Registry) (tag : LinkTag) (u : List Char)
    (ps : List (Piece LinkTag)) :
    outcome r (.hit tag u :: ps) = (tag.reference r).html.toList ++ outcome r ps := by
  simp [outcome, pieceHtml]

/-- Behind a gap of a cut stands the end of the text, or a hit, which ends in a brace. -/
theorem brace_mem_of_cuts (h : pattern.Cuts before s [] ps)
    (hmax : ∀ y qs, ps ≠ .gap y :: qs) :
    ps = [] ∨ (∃ tag u back, ps = .hit tag u :: back) ∧ '}' ∈ s := by
  cases h with
  | done => exact .inl rfl
  | gap => exact absurd rfl (hmax _ _)
  | @hit _ u s _ tag ps hfinds _ =>
      obtain ⟨w, rfl, -⟩ := parts_of_finds hfinds
      exact .inr ⟨⟨tag, _, ps, rfl⟩, by simp⟩

/-- An opening in a gap is not closed, neither in the gap nor behind it. -/
theorem not_mem_of_silent {a w z : List Char} (h : pattern.Silent before (a ++ (w ++ z)) s)
    (hw : Opening w) : '}' ∉ z ++ s := by
  intro hclosed
  have hread : pattern (a.reverse ++ before) (w ++ (z ++ s)) ≠ none := by
    rw [pattern_ne_none_iff, hw.read?_append]
    exact braces?_ne_none_iff.2 ⟨w, z ++ s, hw, rfl, hclosed⟩
  refine hread ?_
  rw [← List.append_assoc]
  exact h a (w ++ z) rfl (by simp [hw.ne_nil])

/-- An opening that begins in a gap ends behind it. -/
theorem Opens.of_gap {g t y : List Char} (h : pattern.Silent before g s) (hbrace : '}' ∈ s)
    (hopens : Opens [] g (t ++ y)) : Opens g t y := by
  obtain ⟨a, w, z, hsplit, hw, hclosed, hstart, -⟩ := hopens
  rw [List.nil_append] at hsplit hstart
  refine ⟨a, w, z, hsplit, hw, hclosed, ?_, ?_⟩
  · rw [List.length_append]
    omega
  · by_contra hend
    rw [← List.append_assoc a w z] at hsplit
    have hlength := congrArg List.length hsplit
    simp only [List.length_append] at hlength hend
    obtain ⟨k, -, hgap⟩ := Text.exists_of_append_eq_append hsplit (by
      simp only [List.length_append]
      omega)
    rw [hgap, List.append_assoc] at h
    exact not_mem_of_silent h hw (List.mem_append_right _ hbrace)

/-- A tag in what a cut is replaced by reaches into what has replaced a tag: an opening in a
gap is not closed behind it, and no gap stands behind another one. -/
theorem exists_opens_of_holdsTag (h : pattern.Cuts before s [] ps)
    (hholds : HoldsTag (outcome r ps)) :
    ∃ front tag u back, ps = front ++ .hit tag u :: back ∧
      Opens (outcome r front) (tag.reference r).html.toList (outcome r back) := by
  generalize hrest : ([] : List Char) = rest at h
  induction h with
  | done =>
      obtain ⟨a, w, z, hnil, hw, -⟩ := hholds
      simp [outcome, hw.ne_nil] at hnil
  | @gap before g s rest ps hne hsilent hmax htail ih =>
      subst hrest
      rw [List.append_nil] at hsilent
      rw [outcome_gap] at hholds
      rcases hholds.opens_or with hopens | hholds
      · rcases brace_mem_of_cuts htail hmax with rfl | ⟨⟨tag, u, back, rfl⟩, hbrace⟩
        · obtain ⟨a, w, z, hgap, hw, hclosed, -⟩ := hopens
          obtain rfl : g = a ++ (w ++ z) := by simpa [outcome] using hgap
          exact absurd (List.mem_append_left s hclosed) (not_mem_of_silent hsilent hw)
        · rw [outcome_hit] at hopens
          have hreach := hopens.of_gap hsilent hbrace
          exact ⟨[.gap g], tag, u, back, rfl, by simpa [outcome, pieceHtml] using hreach⟩
      · obtain ⟨front, tag, u, back, rfl, hopens⟩ := ih hholds rfl
        exact ⟨.gap g :: front, tag, u, back, rfl,
          by rw [outcome_gap]; exact hopens.prepend g⟩
  | @hit before u s rest tag ps hfinds htail ih =>
      rw [outcome_hit] at hholds
      rcases hholds.opens_or with hopens | hholds
      · exact ⟨[], tag, u, ps, rfl, hopens⟩
      · obtain ⟨front, tag', u', back, rfl, hopens⟩ := ih hholds hrest
        exact ⟨.hit tag u :: front, tag', u', back, rfl,
          by rw [outcome_hit]; exact hopens.prepend _⟩

/-- No tag is found in the text. -/
def Resolved (s : String) : Prop :=
  ∀ tag u, Piece.hit tag u ∉ cut s

theorem resolved_iff_not_holdsTag {s : String} : Resolved s ↔ ¬ HoldsTag s.toList := by
  rw [← exists_hit_iff]
  simp [Resolved, cut]

/-- A text in which no tag is found is left as it is, and nothing is said about it. -/
theorem Resolved.unchanged {s : String} (h : Resolved s) (r : Registry) (context : String) :
    resolveAll r s = s ∧ warnings r context s = [] := by
  have hgap : ∀ piece ∈ cut s, ∃ g, piece = .gap g := by
    intro piece hmem
    cases piece with
    | gap g => exact ⟨g, rfl⟩
    | hit tag u => exact absurd hmem (h tag u)
  constructor
  · apply String.toList_injective
    rw [toList_resolveAll, outcome, ← pattern.flatMap_source_cut s.toList]
    refine List.flatMap_congr fun piece hmem => ?_
    obtain ⟨g, rfl⟩ := hgap piece hmem
    simp [pieceHtml, Piece.source]
  · refine List.flatMap_eq_nil_iff.2 fun piece hmem => ?_
    obtain ⟨g, rfl⟩ := hgap piece hmem
    rfl

/-- If no address has a brace, no tag is left in the result exactly if no opening in it, with
a closing brace behind it, reaches into what has replaced an exposed tag, or over it.  Then
the result stays as it is when it is resolved again, and nothing is said about it, by
whatever registry. -/
theorem resolved_iff {r : Registry} {s : String}
    (hurls : ∀ e ∈ r.entries, '{' ∉ e.url.toList) :
    (Resolved (resolveAll r s) ↔
      ∀ front tag u back, cut s = front ++ .hit tag u :: back → tag.Exposed r →
        ¬ Opens (outcome r front) (tag.reference r).html.toList (outcome r back)) ∧
      (Resolved (resolveAll r s) → ∀ r' context,
        resolveAll r' (resolveAll r s) = resolveAll r s ∧
        warnings r' context (resolveAll r s) = []) := by
  refine ⟨?_, Resolved.unchanged⟩
  rw [resolved_iff_not_holdsTag, toList_resolveAll]
  constructor
  · rintro hfree front tag u back hcut - hopens
    refine hfree ?_
    have hholds := hopens.holdsTag
    rwa [← outcome_hit r tag u, ← outcome_append, ← hcut] at hholds
  · intro hfree hholds
    obtain ⟨front, tag, u, back, hcut, hopens⟩ :=
      exists_opens_of_holdsTag (Text.Pattern.cuts_cutFrom pattern_bounded [] s.toList) hholds
    exact hfree front tag u back hcut (exposed_of_opens hurls hopens) hopens

/-- A text with an opening brace in front of a tag and in its caption, and with an unknown
tag that is set as code. -/
theorem resolved_of_braced_caption :
    let r := Registry.new.register "A" "A.html"
    let s := "\x7b@ [b\x7bc]\x7b@link A\x7dlink \x7b@linkcode Z z\x7d"
    (∀ e ∈ r.entries, '{' ∉ e.url.toList) ∧ Resolved (resolveAll r s) ∧
      resolveAll r s = "\x7b@ <a href=\"A.html\">b\x7bc</a>link <code>z</code>" ∧
      resolveAll r (resolveAll r s) = resolveAll r s := by
  intro r s
  have hurls : ∀ e ∈ r.entries, '{' ∉ e.url.toList := by decide +kernel
  have hcut : cut "\x7b@ [b\x7bc]\x7b@link A\x7dlink \x7b@linkcode Z z\x7d" =
      [.gap "\x7b@ ".toList,
      .hit ⟨some "b\x7bc".toList, .default, ['A']⟩ "[b\x7bc]\x7b@link A\x7d".toList,
      .gap "link ".toList, .hit ⟨none, .code,
        "Z z".toList⟩ "\x7b@linkcode Z z\x7d".toList] := by cbv
  have hresolved : Resolved (resolveAll r s) := by
    refine (resolved_iff hurls).1.2 fun front tag u back hsplit hexposed => ?_
    have hmem : .hit tag u ∈ cut s := by
      rw [hsplit]
      simp
    simp only [s, hcut, List.mem_cons, List.not_mem_nil, Piece.hit.injEq, reduceCtorEq,
      false_or, or_false] at hmem
    rcases hmem with ⟨rfl, -⟩ | ⟨rfl, -⟩
    · cases hexposed with
      | text h =>
          exact absurd h (not_holdsOpening_of_not_mem (c := '@') (by decide)
            (by decide +kernel))
      | target h => exact absurd h (by decide +kernel)
      | bare _ h =>
          have hlink : reference r ⟨some "b\x7bc".toList, .default, ['A']⟩ =
              .link "A.html" "b\x7bc" := by
            decide +kernel
          cases hlink.symm.trans h
    · cases hexposed with
      | text h => exact absurd h (not_holdsOpening_of_brace (by decide +kernel))
      | target h => exact absurd h (by decide +kernel)
      | bare h => exact absurd rfl h
  exact ⟨hurls, hresolved, by decide +kernel, ((resolved_iff hurls).2 hresolved r "A").1⟩

/-- A tag is left in the caption of another one, in the text in it, in its target, and across
the two ends of an unknown one, although no address has a brace. -/
theorem tags_left :
    let r := (Registry.new.register "A" "A.html").register "B" "B.html"
    (∀ e ∈ r.entries, '{' ∉ e.url.toList) ∧
      ∀ s ∈ ["[\x7b@link A\x7d]\x7b@link B\x7d", "\x7b@link A|\x7b@link B\x7d\x7d",
          "\x7b@link http://a/\x7b@link B|c\x7d\x7d", "\x7b@\x7b@link x|link B\x7d\x7d",
          "\x7b@link x|\x7b@\x7dlink B\x7d"],
        ¬ Resolved (resolveAll r s) ∧ resolveAll r (resolveAll r s) ≠ resolveAll r s := by
  intro r
  refine ⟨by decide +kernel, fun s hs => ?_⟩
  have hchanged : resolveAll r (resolveAll r s) ≠ resolveAll r s := by
    revert s
    decide +kernel
  exact ⟨fun h => hchanged (h.unchanged r "").1, hchanged⟩

end Outcomes
end LinkTag
end DocLinks
