import DocLinks.Proofs.TagPlaces

/-!
# Markers that are link tags

The expansion of a text protects its markers, and its link tags are replaced by references.
Both searches go through the text on their own.  A marker is nevertheless found again as the
braces of a tag, if it is one by its name, if no blank follows its opening brace, and if no
caption of another tag reaches into it.

**Results.**
* `closed_of_cut`: in front of a marker no braces of a tag are open.
* `marker_hasBraces_iff`: which markers of a text are the braces of a tag.
* `markers_without_tags`: the conditions are needed.
-/

namespace DocLinks
namespace LinkTag

open Text (Piece)

section Markers

variable {t u : List Char} {front back : List (Piece Marker)} {m : Marker}

/-- The text around a marker, and what is read there. -/
theorem parts_of_marker (h : Marker.pattern.cut t = front ++ .hit m u :: back) :
    t = front.flatMap Piece.source ++ (u ++ back.flatMap Piece.source) ∧
      Marker.read? (u ++ back.flatMap Piece.source) =
        some (m, back.flatMap Piece.source) := by
  have hfinds := (Text.Pattern.cuts_cutFrom Marker.pattern_bounded [] t).finds_of_split h
  rw [List.append_nil, List.append_nil] at hfinds
  refine ⟨?_, (Marker.pattern_finds_iff.1 hfinds).2⟩
  rw [← Marker.pattern.flatMap_source_cut t, h]
  simp [Piece.source]

/-- In front of a marker no braces of a tag are open: they would be those of a marker that
reaches into this one. -/
theorem closed_of_cut (h : Marker.pattern.cut t = front ++ .hit m u :: back) :
    Closed (front.flatMap Piece.source) (u ++ back.flatMap Piece.source) := by
  intro y z hbefore hz hout
  obtain ⟨ht, -⟩ := parts_of_marker h
  refine Option.eq_none_iff_forall_not_mem.2 fun ⟨tag, rest⟩ hbraces => ?_
  obtain ⟨m', hread, -⟩ := braces?_eq_some_iff.1 hbraces
  have hsplit : t = y ++ (z ++ (u ++ back.flatMap Piece.source)) := by
    rw [ht, hbefore]
    simp
  have hcuts := Text.Pattern.cuts_cutFrom Marker.pattern_bounded [] t
  obtain ⟨front', m₁, a, b, back', r, hps, hy, hb, -, hfinds⟩ :=
    hcuts.exists_hit_at hsplit (by simp [hz]) fun hnone => by
      rw [Marker.pattern_eq_none_iff, List.append_nil, hread] at hnone
      simp at hnone
  -- the marker that is found there ends before this one begins, so it is closed in between
  have hbrace : '}' ∈ b := by
    obtain ⟨w, hw, -⟩ := Marker.span_of_read? (Marker.pattern_finds_iff.1 hfinds).2
    have hends : w ++ ['}'] = a ++ b :=
      (List.append_left_inj (r ++ [])).1 (by rw [hw]; simp)
    obtain ⟨b', rfl, -⟩ := Text.exists_of_append_eq_append hends (List.length_pos_iff.2 hb)
    simp
  have hlenb := List.length_pos_iff.2 hb
  have hlenz := List.length_pos_iff.2 hz
  have hplaces := congrArg List.length hbefore
  have hleny := congrArg List.length hy
  rw [List.length_append] at hplaces hleny
  rcases Text.pieces_apart (h.symm.trans hps) with ⟨w, hw⟩ | ⟨rfl, -⟩ | ⟨w, hw⟩
  · have hw := congrArg List.length hw
    simp only [List.length_append] at hw
    omega
  · omega
  · rw [hbefore, hy] at hw
    rw [List.append_assoc, List.append_assoc] at hw
    have hzb : z = b ++ w := List.append_cancel_left (List.append_cancel_left hw)
    rw [hzb] at hout
    exact hout (List.mem_append_left w hbrace)

theorem exists_mem_styleNames_iff {w : List Char} :
    (∃ style, (style, w) ∈ styleNames) ↔ w ∈ [[], "code".toList, "plain".toList] := by
  constructor
  · rintro ⟨style, hmem⟩
    simp only [styleNames, List.mem_cons, Prod.mk.injEq, List.not_mem_nil, or_false] at hmem
    rcases hmem with ⟨-, rfl⟩ | ⟨-, rfl⟩ | ⟨-, rfl⟩ <;> simp
  · intro hmem
    simp only [List.mem_cons, List.not_mem_nil, or_false] at hmem
    rcases hmem with rfl | rfl | rfl
    · exact ⟨.default, by simp [styleNames]⟩
    · exact ⟨.code, by simp [styleNames]⟩
    · exact ⟨.plain, by simp [styleNames]⟩

/-- A marker that starts like a tag, and into which no caption reaches, is the braces of a
tag exactly if it has one of the three names. -/
theorem marker_hasBraces_iff {s : String}
    (hcut : Marker.pattern.cut s.toList = front ++ .hit m u :: back)
    (hstart : ∃ v, u = '{' :: '@' :: v)
    (hcaptions : ∀ excess, excess ≠ [] →
      ¬ CaptionReaches (cut s) (front.flatMap Piece.source) excess) :
    (∃ tag, HasBraces (cut s) (front.flatMap Piece.source) u tag ∧
        tag.body = Text.trimEnd m.body) ↔
      m.tail ∈ [[], "code".toList, "plain".toList] := by
  obtain ⟨hs, hread⟩ := parts_of_marker hcut
  rw [← exists_mem_styleNames_iff]
  constructor
  · rintro ⟨tag, hbraces, -⟩
    obtain ⟨w, after, -, -, hs', htag⟩ := hbraces.parts
    obtain ⟨m', hread', hname, -⟩ := braces?_eq_some_iff.1 htag
    rw [hs] at hs'
    rw [← List.append_cancel_left hs', hread] at hread'
    obtain ⟨rfl, -⟩ := Prod.mk.inj (Option.some.inj hread')
    exact ⟨tag.style, hname⟩
  · rintro ⟨style, hname⟩
    obtain ⟨v, rfl⟩ := hstart
    have hbraces : braces? none ('{' :: '@' :: v ++ back.flatMap Piece.source) =
        some (⟨none, style, Text.trimEnd m.body⟩, back.flatMap Piece.source) :=
      braces?_eq_some_iff.2 ⟨m, hread, hname, ⟨_, rfl⟩, rfl, rfl⟩
    have hplace := braces_or_caption (closed_of_cut hcut) hbraces
    rw [← hs] at hplace
    rcases hplace with ⟨caption, htag⟩ | ⟨excess, hexcess, hreach⟩
    · exact ⟨_, htag, rfl⟩
    · exact absurd hreach (hcaptions excess hexcess)

/-- A marker behind another one is the braces of a tag that sets its text as code. -/
theorem marker_hasBraces_of_linkcode :
    Marker.pattern.cut "\x7b@link A\x7d\x7b@linkcode B\x7d".toList =
        [.hit ⟨[], ['A']⟩ "\x7b@link A\x7d".toList] ++
          .hit ⟨"code".toList, ['B']⟩ "\x7b@linkcode B\x7d".toList :: [] ∧
      (∀ excess, excess ≠ [] → ¬ CaptionReaches (cut "\x7b@link A\x7d\x7b@linkcode B\x7d")
        "\x7b@link A\x7d".toList excess) ∧
      ∃ tag, HasBraces (cut "\x7b@link A\x7d\x7b@linkcode B\x7d") "\x7b@link A\x7d".toList
        "\x7b@linkcode B\x7d".toList tag ∧ tag.body = ['B'] := by
  have hmarkers : Marker.pattern.cut "\x7b@link A\x7d\x7b@linkcode B\x7d".toList =
      [.hit ⟨[], ['A']⟩ "\x7b@link A\x7d".toList] ++
        .hit ⟨"code".toList, ['B']⟩ "\x7b@linkcode B\x7d".toList :: [] := by
    have hfirst : Marker.pattern.Finds [] "\x7b@link A\x7d".toList
        ("\x7b@linkcode B\x7d".toList ++ []) ⟨[], ['A']⟩ :=
      Marker.pattern_finds_iff.2 ⟨by decide, by decide +kernel⟩
    have hsecond : Marker.pattern.Finds ("\x7b@link A\x7d".toList.reverse ++ [])
        "\x7b@linkcode B\x7d".toList [] ⟨"code".toList, ['B']⟩ :=
      Marker.pattern_finds_iff.2 ⟨by decide, by decide +kernel⟩
    exact (Text.Pattern.Cuts.hit hfirst (Text.Pattern.cuts_of_finds hsecond)).eq_cutFrom
  have hcaptions : ∀ excess, excess ≠ [] → ¬ CaptionReaches
      (cut "\x7b@link A\x7d\x7b@linkcode B\x7d") "\x7b@link A\x7d".toList excess := by
    have htag : HasBraces (cut "\x7b@link A\x7d\x7b@linkcode B\x7d") "\x7b@link A\x7d".toList
        "\x7b@linkcode B\x7d".toList ⟨none, .code, ['B']⟩ :=
      ⟨[.hit ⟨none, .default, ['A']⟩ "\x7b@link A\x7d".toList], [], by cbv, by decide⟩
    exact fun excess _ => htag.not_captionReaches rfl excess
  obtain ⟨tag, htag, hbody⟩ :=
    (marker_hasBraces_iff hmarkers ⟨_, rfl⟩ hcaptions).2 (by decide)
  exact ⟨hmarkers, hcaptions, tag, htag, hbody⟩

/-- Every marker of a text is the braces of a tag. -/
def MarkersAreTags (s : String) : Prop :=
  ∀ front m u back, Marker.pattern.cut s.toList = front ++ .hit m u :: back →
    ∃ tag, HasBraces (cut s) (front.flatMap Piece.source) u tag

/-- A marker in which no tag is found is none. -/
theorem not_markersAreTags_of_gap {s : String} {m : Marker} (hgap : cut s = [.gap s.toList])
    (hfinds : Marker.pattern.Finds [] s.toList [] m) : ¬ MarkersAreTags s := by
  intro h
  obtain ⟨tag, front, back, hps, -⟩ := h [] m s.toList [] (Text.Pattern.cut_of_finds hfinds)
  have hmem : Piece.hit tag (captionText tag.caption ++ s.toList) ∈ cut s := by
    rw [hps]
    simp
  rw [hgap] at hmem
  simp at hmem

/-- The cut into markers does not know captions. -/
theorem cut_captioned : Marker.pattern.cut "[\x7b@link A\x7d]\x7b@link B\x7d".toList =
    [.gap ['[']] ++ .hit ⟨[], ['A']⟩ "\x7b@link A\x7d".toList ::
      [.gap [']'], .hit ⟨[], ['B']⟩ "\x7b@link B\x7d".toList] := by
  have hsilent : ∀ (c : Char) (before rest : List Char), c ≠ '{' →
      Marker.pattern.Silent before [c] rest := fun c before rest hc =>
    Text.Pattern.silent_cons.2 ⟨Marker.pattern_eq_none_iff.2 (by simp [Marker.read?, hc]),
      Text.Pattern.silent_nil _ _⟩
  have hfinds : ∀ c before rest, c ≠ '}' → Text.isBlank c = false →
      Marker.pattern.Finds before ("\x7b@link ".toList ++ [c, '}']) rest ⟨[], [c]⟩ := by
    intro c before rest hc hblank
    refine Marker.pattern_finds_iff.2 ⟨by simp, Marker.read?_eq_some_iff.2
      ⟨[], ' ', [], by simp, by simp, by simp, by decide, by simp, ?_, by simp [Ne.symm hc]⟩⟩
    rintro x ⟨⟩
    exact hblank
  have hB := fun before => Text.Pattern.cuts_of_finds
    (hfinds 'B' before [] (by decide) (by decide))
  have hgapB := fun before => Text.Pattern.Cuts.gap (by decide)
    (hsilent ']' before _ (by decide)) (by simp) (hB _)
  have hAB := fun before => Text.Pattern.Cuts.hit
    (hfinds 'A' before _ (by decide) (by decide)) (hgapB _)
  have hall := Text.Pattern.Cuts.gap (by decide) (hsilent '[' [] _ (by decide)) (by simp)
    (hAB _)
  exact hall.eq_cutFrom

/-- A marker is no tag with another name, with a blank behind its brace or in a caption. -/
theorem markers_without_tags :
    ¬ MarkersAreTags "\x7b@linkfoo A\x7d" ∧ ¬ MarkersAreTags "\x7b @link A\x7d" ∧
      ¬ MarkersAreTags "[\x7b@link A\x7d]\x7b@link B\x7d" := by
  refine ⟨?_, ?_, fun h => ?_⟩
  · exact not_markersAreTags_of_gap (m := ⟨"foo".toList, ['A']⟩) (by cbv)
      (Marker.pattern_finds_iff.2 ⟨by decide, by decide +kernel⟩)
  · exact not_markersAreTags_of_gap (m := ⟨[], ['A']⟩) (by cbv)
      (Marker.pattern_finds_iff.2 ⟨by decide, by decide +kernel⟩)
  · have hcut : cut "[\x7b@link A\x7d]\x7b@link B\x7d" =
        [.hit ⟨some "\x7b@link A\x7d".toList, .default, ['B']⟩
          "[\x7b@link A\x7d]\x7b@link B\x7d".toList] := by cbv
    obtain ⟨tag, front, back, hps, hbefore⟩ := h _ _ _ _ cut_captioned
    rw [hcut] at hps
    cases front with
    | nil =>
        obtain ⟨hhit, -⟩ := List.cons.inj hps
        obtain ⟨rfl, -⟩ := Piece.hit.inj hhit
        exact absurd hbefore (by decide)
    | cons q front => simp at hps

end Markers

end LinkTag
end DocLinks
