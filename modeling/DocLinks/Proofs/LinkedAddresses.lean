import DocLinks.Expansion.Segment
import DocLinks.Proofs.AddressSurroundings
import DocLinks.Proofs.ExpansionPieces
import DocLinks.Proofs.TagPlaces
import Mathlib.Data.List.Induction

/-!
# The addresses that expansion links, as anchors

Expansion writes an address as a marker, and the tags of the expanded text are replaced by
references. The marker of an address becomes an anchor that leads to the address and shows
it, if the address is read as one target, if that target counts as an absolute link, and if
no caption in front of the marker is taken for its own.

**Results.**
* `reference_eq_link_iff`: which tags that hold an address refer to it.
* `suffix_of_written`: behind its last closing brace, an expansion is the text.
* `closed_of_segments`: in front of the marker of an address no braces are open.
* `address_anchored_iff`: which addresses become anchors to themselves.
* `not_anchored`: a bare domain does not.
-/

namespace DocLinks

open Text (Piece)

namespace Text

theorem trimEnd_of_tight {s : List Char} (h : ∀ c ∈ s, isBlank c = false) :
    trimEnd s = s := by
  have hdrop : s.reverse.dropWhile isBlank = s.reverse := by
    cases hs : s.reverse with
    | nil => rfl
    | cons c t =>
        have hc : c ∈ s := List.mem_reverse.1 (by rw [hs]; simp)
        rw [List.dropWhile_cons_of_neg (by simp [h c hc])]
  rw [trimEnd, hdrop, List.reverse_reverse]

theorem trim_of_tight {s : List Char} (h : ∀ c ∈ s, isBlank c = false) : trim s = s := by
  have hstart : trimStart s = s := by
    cases s with
    | nil => rfl
    | cons c s => exact trimStart_of_not_isBlank (h c (by simp))
  rw [trim, hstart, trimEnd_of_tight h]

theorem cutAtFirst_of_not_mem {p : Char → Bool} {s : List Char} (h : ∀ c ∈ s, p c = false) :
    cutAtFirst p s = none := by
  cases hcut : cutAtFirst p s with
  | none => rfl
  | some parts =>
      obtain ⟨c, hc, hs, -⟩ := cutAtFirst_eq hcut
      rw [h c (by rw [hs]; simp)] at hc
      exact absurd hc (by simp)

end Text

namespace Reference

/-- A name with a separator is looked up as it is, so that it leads to itself only as an
absolute link or if it is registered under itself. -/
theorem ofTarget_eq_link_iff {r : Registry} {name text : String} {d : Char}
    (hd : d ∈ name.toList)
    (hsep : d ∈ [':', '/', '.', '-']) :
    ofTarget r name (some text) = .link name text ↔
      isAbsolute name = true ∨ r.resolve? name = some name := by
  have hwords : ∀ w ∈ ["any", "null", "undefined", "true", "false", "boolean",
      "function", "number",
      "string"], name ≠ w := by
    rintro w hw rfl
    have hnone : ∀ w ∈ ["any", "null", "undefined", "true", "false", "boolean", "function",
        "number", "string"],
        w.toList.all (fun c => !([':', '/', '.', '-'].contains c)) = true := by
      decide
    have hother := List.all_eq_true.1 (hnone _ hw) d hd
    rw [List.contains_iff_mem.2 hsep] at hother
    simp at hother
  simp only [List.mem_cons, List.not_mem_nil, or_false, forall_eq_or_imp,
    forall_eq] at hwords
  obtain ⟨h1, h2, h3, h4, h5, h6, h7, h8, h9⟩ := hwords
  have htarget : targetName name = name := by
    simp [targetName]
  by_cases habsolute : isAbsolute name = true
  · simp [ofTarget, literals, htarget, h1, h2, h3, h4, h5, habsolute]
  · cases hurl : r.resolve? name with
    | none => simp [ofTarget, literals, htarget, h1, h2, h3, h4, h5, habsolute, hurl]
    | some url => simp [ofTarget, literals, htarget, h1, h2, h3, h4, h5, habsolute, hurl]

/-- An anchor shows the text that is given. -/
theorem text_of_ofTarget_eq_link {r : Registry} {name text href shown : String}
    (h : ofTarget r name (some text) = .link href shown) : shown = text := by
  unfold ofTarget at h
  split at h
  · cases h
  · split at h
    · cases h
    · dsimp only at h
      split at h
      · exact (link.inj h).2.symm
      · split at h
        · exact (link.inj h).2.symm
        · cases h

end Reference

namespace LinkTag

section Targets

variable {u : List Char}

theorem splitBody_of_bare (htight : ∀ c ∈ u, Text.isBlank c = false) (hbar : '|' ∉ u) :
    splitBody u = (u, none) := by
  have hnobar : Text.cutAtFirst (· == '|') u = none :=
    Text.cutAtFirst_of_not_mem fun c hc => by
      have hne : c ≠ '|' := fun h => hbar (h ▸ hc)
      simpa using hne
  unfold splitBody
  rw [hnobar, Text.cutAtFirst_of_not_mem htight]
  simp [Text.trim_of_tight htight]

/-- A tag whose body has a bar shows less than that. -/
theorem text_of_bar (htight : ∀ c ∈ u, Text.isBlank c = false) (hbar : '|' ∈ u) :
    (⟨none, .default, u⟩ : LinkTag).text ≠ String.ofList u := by
  obtain ⟨a, b, rfl, hcut⟩ : ∃ a b, u = a ++ '|' :: b ∧
      Text.cutAtFirst (· == '|') u = some (a, b) := by
    cases hcut : Text.cutAtFirst (· == '|') u with
    | none => exact absurd (Text.cutAtFirst_eq_none hcut _ hbar) (by decide)
    | some parts =>
        obtain ⟨c, hc, hu, -⟩ := Text.cutAtFirst_eq hcut
        obtain rfl : c = '|' := by simpa using hc
        exact ⟨parts.1, parts.2, hu, rfl⟩
  have ha : Text.trim a = a :=
    Text.trim_of_tight fun c hc => htight c (List.mem_append_left _ hc)
  have hb : Text.trim b = b := Text.trim_of_tight fun c hc => htight c (by simp [hc])
  have hsplit : splitBody (a ++ '|' :: b) = (a, if b.isEmpty then none else some b) := by
    unfold splitBody
    rw [hcut]
    simp [ha, hb]
  have htext : (⟨none, .default, a ++ '|' :: b⟩ : LinkTag).text =
      String.ofList (if b.isEmpty then a else b) := by
    unfold text
    rw [hsplit]
    cases b with
    | nil => rfl
    | cons c b => rfl
  rw [htext]
  intro h
  have hlen := congrArg List.length (String.ofList_inj.1 h)
  rw [List.length_append, List.length_cons] at hlen
  split at hlen
  · omega
  · omega

/-- The tag with the braces `u`, which stands behind `before` in a text, is replaced by an
anchor that leads to the target and shows it, and nothing is said about it. -/
def Anchored (r : Registry) (context s : String) (before u : List Char)
    (target : String) : Prop :=
  ∃ front tag back, cut s = front ++ .hit tag u :: back ∧
  before = front.flatMap Piece.source ∧
    tag.reference r = .link target target ∧ pieceWarnings r context (.hit tag u) = []

/-- The reference of a tag that holds an address is an anchor to the address if it has no bar
and leads to itself. -/
theorem reference_eq_link_iff {p v : List Char} {d : Char} (r : Registry)
    (hform : WebAddress.Form u p d v) :
    (⟨none, .default, u⟩ : LinkTag).reference r = .link (String.ofList u) (String.ofList u) ↔
      '|' ∉ u ∧ (Reference.isAbsolute (String.ofList u) = true ∨
        r.resolve? (String.ofList u) = some (String.ofList u)) := by
  have htight := hform.tight.1
  by_cases hbar : '|' ∈ u
  · simp only [hbar, not_true_eq_false, false_and, iff_false]
    exact fun h => text_of_bar htight hbar (Reference.text_of_ofTarget_eq_link h).symm
  · have htarget : (⟨none, .default, u⟩ : LinkTag).target = String.ofList u := by
      rw [target, splitBody_of_bare htight hbar]
    have htext : (⟨none, .default, u⟩ : LinkTag).text = String.ofList u := by
      rw [text, splitBody_of_bare htight hbar]
      rfl
    simp only [hbar, not_false_eq_true, true_and]
    rw [reference, htarget, htext]
    exact Reference.ofTarget_eq_link_iff (by simp [hform.eq]) hform.separator

end Targets

end LinkTag

namespace Segment

/-- What is written for a segment is the segment itself, or it ends in a brace. -/
theorem written_eq_or (x : Segment) :
    x.written = x.source ∨ ∃ w, x.written = w ++ ['}'] := by
  cases x with
  | text s => exact .inl rfl
  | kept s => exact .inl rfl
  | member s owner m => exact .inr ⟨_, rfl⟩
  | address s => exact .inr ⟨_, rfl⟩
  | ticket s base => exact .inr ⟨_, rfl⟩

/-- Behind the last brace of what is written, nothing was changed. -/
theorem suffix_of_written {xs : List Segment} {z : List Char} (hz : z <:+ xs.flatMap written)
    (hout : '}' ∉ z) : z <:+ xs.flatMap source := by
  induction xs using List.reverseRecOn generalizing z with
  | nil => exact hz
  | append_singleton xs x ih =>
      obtain ⟨y, hy⟩ := hz
      simp only [List.flatMap_append, List.flatMap_singleton] at hy ⊢
      rcases written_eq_or x with hx | ⟨w, hw⟩
      · rw [hx] at hy
        rcases List.append_eq_append_iff.1 hy with ⟨v, hv, rfl⟩ | ⟨v, rfl, hv⟩
        · have hout' : '}' ∉ v := fun h => hout (List.mem_append_left _ h)
          obtain ⟨k, hk⟩ := ih ⟨y, hv.symm⟩ hout'
          exact ⟨k, by rw [← hk, List.append_assoc]⟩
        · exact ⟨xs.flatMap source ++ v, by rw [hv, List.append_assoc]⟩
      · by_cases hne : z = []
        · rw [hne]
          exact List.nil_suffix
        · rw [hw, ← List.append_assoc] at hy
          obtain ⟨z', rfl, -⟩ :=
            Text.exists_of_append_eq_append hy.symm (List.length_pos_iff.2 hne)
          exact absurd (List.mem_append_right z' (by simp)) hout

end Segment

namespace Expander

section Anchors

variable {e : Expander} {longname t u : List Char} {x y : List Segment}

/-- An address among the segments of a text has the form of an address. -/
theorem form_of_mem_segments (h : Segment.address u ∈ e.segments longname t) :
    ∃ p d v, WebAddress.Form u p d v := by
  have hmarkers : ∀ s, Segment.address s ∉ Segment.cutMarkers longname t := by
    intro s hs
    obtain ⟨piece, -, hpiece⟩ := List.mem_map.1 hs
    cases piece with
    | gap s => cases hpiece
    | hit m s =>
        rw [Segment.ofMarker] at hpiece
        split at hpiece
        · cases hpiece
        · cases hpiece
  have htickets : ∀ s, Segment.address u ∉ e.cutTickets s := by
    intro s hs
    rw [cutTickets] at hs
    split at hs
    · obtain ⟨piece, -, hpiece⟩ := List.mem_map.1 hs
      cases piece with
      | gap s => cases hpiece
      | hit digits s => cases hpiece
    · cases List.mem_singleton.1 hs
  rw [segments, Segment.mem_refine] at h
  obtain ⟨h, -⟩ := h.resolve_left (by
    rintro ⟨s, -, hs⟩
    exact htickets s hs)
  obtain ⟨g, -, h⟩ := (Segment.mem_refine.1 h).resolve_right fun hkept => hmarkers u hkept.1
  obtain ⟨piece, hmem, hpiece⟩ := List.mem_map.1 h
  cases piece with
  | gap s => cases hpiece
  | hit a s =>
      rw [Segment.ofAddress] at hpiece
      split at hpiece
      · cases hpiece
      · obtain rfl := Segment.address.inj hpiece
        have hcuts := Text.Pattern.cuts_cutFrom (WebAddress.pattern_bounded.upTo e.halt) [] g
        obtain ⟨_, _, -, hfinds⟩ := hcuts.exists_finds hmem
        exact (WebAddress.form_of_finds hfinds.of_upTo).1

/-- In front of the marker of an address no braces of a tag are open: what is open in the
expansion was open in the text. -/
theorem closed_of_segments (hfree : ¬ "\x7b@link".toList <:+: t)
    (hsplit : e.segments longname t = x ++ .address u :: y) :
    LinkTag.Closed (x.flatMap Segment.written)
      (Marker.write u none ++ y.flatMap Segment.written) := by
  intro w z hbefore hz hout
  have hopening : ∀ v, z ≠ "\x7b@link".toList ++ v := by
    rintro v rfl
    obtain ⟨k, hk⟩ := Segment.suffix_of_written ⟨w, hbefore.symm⟩ hout
    refine hfree ⟨k, v ++ (u ++ y.flatMap Segment.source), ?_⟩
    rw [← e.flatMap_source_segments longname t, hsplit]
    rw [List.flatMap_append, ← hk]
    simp [Segment.source]
  refine Option.eq_none_iff_forall_not_mem.2 ?_
  rintro ⟨tag, rest⟩ hbraces
  obtain ⟨s, hs⟩ := LinkTag.eq_append_of_braces? hbraces
  rcases List.append_eq_append_iff.1 hs with ⟨v, hv, hw⟩ | ⟨v, hv, -⟩
  · cases v with
    | nil => exact hopening [] (by rw [hv]; simp)
    | cons d v =>
        obtain ⟨c, z, rfl⟩ := List.exists_cons_of_ne_nil hz
        obtain ⟨rfl, -⟩ := List.cons.inj hw
        have hname : ['{', '@', 'l', 'i', 'n', 'k'] = (c :: z) ++ '{' :: v := hv
        have hbrace : '{' ∈ ['@', 'l', 'i', 'n', 'k'] := by
          rw [(List.cons.inj hname).2]
          simp
        exact absurd hbrace (by decide)
  · exact hopening v hv

/-- The marker of an address is read as a tag that holds the address, unless the address
closes it. -/
theorem braces?_write {p v : List Char} {d : Char} (hform : WebAddress.Form u p d v)
    (hbrace : '}' ∉ u) (rest : List Char) :
    LinkTag.braces? none (Marker.write u none ++ rest) =
      some (⟨none, .default, u⟩, rest) := by
  have hread : Marker.read? (Marker.write u none ++ rest) = some (⟨[], u⟩, rest) := by
    refine Marker.read?_eq_some_iff.2 ⟨[], ' ', [], by rw [Marker.write_none]; simp, by simp,
      by simp, by decide, by simp, fun c hc => ?_, hbrace⟩
    exact hform.tight.1 c (List.mem_of_head? hc)
  refine LinkTag.braces?_eq_some_iff.2 ⟨⟨[], u⟩, hread, ?_, ⟨_, rfl⟩, rfl, ?_⟩
  · simp [LinkTag.styleNames]
  · exact (Text.trimEnd_of_tight hform.tight.1).symm

/-- A tag that is the marker of an address holds that address. -/
theorem tag_of_cut {p v : List Char} {d : Char} {s : List Char}
    {front back : List (Piece LinkTag)}
    {tag : LinkTag} (hform : WebAddress.Form u p d v)
    (hcut : LinkTag.pattern.cut s = front ++ .hit tag (Marker.write u none) :: back) :
    '}' ∉ u ∧ tag = ⟨none, .default, u⟩ := by
  obtain ⟨w, hu, hw, -, hbraces⟩ := LinkTag.parts_of_cut hcut
  have hnone : tag.caption = none := by
    cases hc : tag.caption with
    | none => rfl
    | some c =>
        rw [hc] at hu
        cases (List.cons.inj hu).1
  rw [hnone, LinkTag.captionText_none, List.nil_append] at hu
  have hbrace : '}' ∉ u := by
    rw [Marker.write_none] at hu
    rw [← (List.append_inj' hu rfl).1] at hw
    exact fun h => hw (List.mem_append_right _ h)
  have hwrite := braces?_write hform hbrace (back.flatMap Piece.source)
  rw [hu, List.append_assoc, List.singleton_append] at hwrite
  rw [← hnone, hbraces] at hwrite
  refine ⟨hbrace, ?_⟩
  rw [← hnone]
  exact (Prod.mk.inj (Option.some.inj hwrite)).1

/-- What is known of an address whose marker is replaced by an anchor to the address. -/
theorem of_anchored {p v before : List Char} {d : Char} {r : Registry} {context s : String}
    (hform : WebAddress.Form u p d v)
    (h : LinkTag.Anchored r context s before (Marker.write u none) (String.ofList u)) :
    '}' ∉ u ∧ '|' ∉ u ∧
      (Reference.isAbsolute (String.ofList u) = true ∨
        r.resolve? (String.ofList u) = some (String.ofList u)) ∧
      ∀ excess, ¬ LinkTag.CaptionReaches (LinkTag.cut s) before excess := by
  obtain ⟨front, tag, back, hcut, hbefore, hreference, -⟩ := h
  obtain ⟨hbrace, rfl⟩ := tag_of_cut hform hcut
  obtain ⟨hbar, hself⟩ := (LinkTag.reference_eq_link_iff r hform).1 hreference
  have htag : LinkTag.HasBraces (LinkTag.cut s) before (Marker.write u none)
      ⟨none, .default, u⟩ :=
    ⟨front, back, hcut, by simpa using hbefore⟩
  exact ⟨hbrace, hbar, hself, htag.not_captionReaches rfl⟩

/-- An address that was linked in a text becomes an anchor to itself, without a warning,
exactly if it holds neither the brace that closes its marker nor the bar that divides it, if
it leads to itself, and if no caption begins in front of its marker that reaches up to it or
into it.  This holds of all addresses that are found before the search for them is given
up. -/
theorem address_anchored_iff {longname t : String} (r : Registry) (context : String)
    (hfree : ¬ "\x7b@link".toList <:+: t.toList)
    (hsplit : e.segments longname.toList t.toList = x ++ .address u :: y) :
    LinkTag.Anchored r context (e.expand longname t) (x.flatMap Segment.written)
        (Segment.address u).written (String.ofList u) ↔
      '}' ∉ u ∧ '|' ∉ u ∧
        (Reference.isAbsolute (String.ofList u) = true ∨
          r.resolve? (String.ofList u) = some (String.ofList u)) ∧
        ∀ excess, ¬ LinkTag.CaptionReaches (LinkTag.cut (e.expand longname t))
          (x.flatMap Segment.written) excess := by
  have hmem : Segment.address u ∈ e.segments longname.toList t.toList := by
    rw [hsplit]
    simp
  obtain ⟨p, d, v, hform⟩ := form_of_mem_segments hmem
  have htext : (e.expand longname t).toList =
      x.flatMap Segment.written ++ (Marker.write u none ++ y.flatMap Segment.written) := by
    rw [expand, String.toList_ofList]
    rw [expandList, hsplit]
    simp [Segment.written]
  constructor
  · exact of_anchored hform
  · rintro ⟨hbrace, hbar, habsolute, hcaptions⟩
    have hplace := LinkTag.braces_or_caption (closed_of_segments hfree hsplit)
      (braces?_write hform hbrace _)
    rw [← htext] at hplace
    obtain ⟨caption, htag⟩ := hplace.resolve_right (by
      rintro ⟨excess, -, hreach⟩
      exact hcaptions excess hreach)
    have hnone : caption = none :=
      Classical.byContradiction fun hcaption => hcaptions [] (htag.captionReaches hcaption)
    subst hnone
    obtain ⟨front, back, hcut, hbefore⟩ := htag
    have hreference := (LinkTag.reference_eq_link_iff r hform).2 ⟨hbar, habsolute⟩
    refine ⟨front, _, back, hcut, by simpa using hbefore, hreference, ?_⟩
    rw [LinkTag.pieceWarnings, hreference]
    rfl

/-- A text that is an address has one segment. -/
theorem segments_of_address (hmarkers : Segment.cutMarkers longname u = [.text u])
    (haddress : Segment.cutAddresses e.halt u = [.address u]) :
    e.segments longname u = [] ++ .address u :: [] := by
  rw [segments, hmarkers]
  simp [Segment.refine, haddress]

theorem finds_http : WebAddress.pattern.Finds [] "http://ab".toList [] ⟨.full, false⟩ := by
  have htail : WebAddress.tail? false ['a', 'b'] = some [] := by
    rw [WebAddress.tail?_cons (by decide), WebAddress.tail?_cons (by decide)]
    rw [WebAddress.tail?_nil]
    decide
  have hfull : WebAddress.full? "http://ab".toList = some [] := by
    have hscheme : WebAddress.afterScheme? "http://ab".toList =
        some "//ab".toList := by decide
    have hstarts : WebAddress.colonStarts "//ab".toList =
        [['a', 'b'], "/ab".toList] := by decide
    rw [WebAddress.full?_eq_or, hscheme, Option.bind_some]
    rw [WebAddress.afterColon?_eq_findSome?, hstarts]
    rw [List.findSome?_cons, htail]
    exact Option.some_or
  exact WebAddress.pattern_finds_iff.2 ⟨by decide, by decide +kernel,
    WebAddress.read?_eq_some_iff.2 (.inl ⟨hfull, rfl⟩), by decide⟩

/-- An address with a scheme becomes an anchor to itself, with no registration. -/
theorem anchored_http :
    ¬ "\x7b@link".toList <:+: "http://ab".toList ∧
      Expander.default.segments "Foo".toList "http://ab".toList =
        [] ++ .address "http://ab".toList :: [] ∧
      LinkTag.Anchored Registry.new "Foo" (Expander.default.expand "Foo" "http://ab") []
        (Segment.address "http://ab".toList).written "http://ab" := by
  have hfree : ¬ "\x7b@link".toList <:+: "http://ab".toList := fun h =>
    absurd (h.subset (List.mem_cons_self (a := '{'))) (by decide)
  have haddress : Segment.cutAddresses Expander.default.halt "http://ab".toList =
      [.address "http://ab".toList] := by
    rw [Expander.default, halt_new, Segment.cutAddresses]
    rw [Text.Pattern.upTo_never, Text.Pattern.cut_of_finds finds_http]
    rfl
  have hsegments : Expander.default.segments "Foo".toList "http://ab".toList =
      [] ++ .address "http://ab".toList :: [] :=
    segments_of_address (by decide +kernel) haddress
  refine ⟨hfree, hsegments, (address_anchored_iff Registry.new "Foo" hfree hsegments).2
    ⟨by decide, by decide, .inl (by decide), ?_⟩⟩
  rintro excess ⟨front, tag, u, back, y, -, hbefore, hy, -⟩
  exact hy (List.append_eq_nil_iff.1 hbefore.symm).2

/-- A bare domain is linked in a text, and is then taken for the name of a symbol that nobody
knows. -/
theorem not_anchored :
    ¬ "\x7b@link".toList <:+: "ab.de".toList ∧
      Expander.default.segments "Foo".toList "ab.de".toList =
        [] ++ .address "ab.de".toList :: [] ∧
      ¬ LinkTag.Anchored Registry.new "Foo" (Expander.default.expand "Foo" "ab.de") []
        (Segment.address "ab.de".toList).written "ab.de" := by
  have hfree : ¬ "\x7b@link".toList <:+: "ab.de".toList := fun h =>
    absurd (h.subset (List.mem_cons_self (a := '{'))) (by decide)
  have hsegments : Expander.default.segments "Foo".toList "ab.de".toList =
      [] ++ .address "ab.de".toList :: [] :=
    segments_of_address (by decide +kernel) (by decide +kernel)
  refine ⟨hfree, hsegments, fun h => ?_⟩
  have hmem : Segment.address "ab.de".toList ∈
      Expander.default.segments "Foo".toList "ab.de".toList := by
    rw [hsegments]
    exact List.mem_cons_self
  obtain ⟨p, d, v, hform⟩ := form_of_mem_segments hmem
  obtain ⟨-, -, hself, -⟩ := of_anchored hform h
  have hnone : Registry.new.resolve? "ab.de" = none := by decide +kernel
  have hrelative : Reference.isAbsolute "ab.de" = false := by decide
  rcases hself with hself | hself
  · exact absurd (hrelative.symm.trans hself) (by simp)
  · exact absurd (hnone.symm.trans hself) (by simp)

end Anchors

end Expander

end DocLinks
