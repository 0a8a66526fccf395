import DocLinks.Proofs.ExpansionWeaving

/-!
# Expanding a text twice

What has been expanded is expanded again: nothing happens, unless the first expansion has
left behind a frayed text between two markers in which the second one finds something.  A
text is frayed if the marker of an address ends at a closing brace inside the address, if a
ticket was cut off from a letter beyond ASCII that a domain name could have, or if the search
for addresses was given up.

**Results.**
* `expandList_eq_or_longer`: the expansion of a text without markers is longer if it differs.
* `exists_cuts_of_expansion`: the markers of an expansion, and what stands between them.
* `expand_expand_iff`: when a second expansion changes nothing.
-/

namespace DocLinks
namespace Expander

open Text (Piece)

section Lengths

theorem flatMap_eq_or_longer {α β : Type} {f g : α → List β} {xs : List α}
    (h : ∀ x ∈ xs, f x = g x ∨ (g x).length < (f x).length) :
    xs.flatMap f = xs.flatMap g ∨ (xs.flatMap g).length < (xs.flatMap f).length := by
  induction xs with
  | nil => exact .inl rfl
  | cons x xs ih =>
      have hrest := ih fun y hy => h y (List.mem_cons_of_mem _ hy)
      simp only [List.flatMap_cons, List.length_append]
      rcases h x List.mem_cons_self with hx | hx
      · rcases hrest with hrest | hrest
        · exact .inl (by rw [hx, hrest])
        · exact .inr (by rw [hx]; omega)
      · rcases hrest with hrest | hrest
        · exact .inr (by rw [hrest]; omega)
        · exact .inr (by omega)

/-- Texts that are not shortened are equal if they are equal together. -/
theorem eq_of_flatMap_eq {α β : Type} {f g : α → List β} {xs : List α}
    (h : ∀ x ∈ xs, f x = g x ∨ (g x).length < (f x).length)
    (heq : xs.flatMap f = xs.flatMap g) :
    ∀ x ∈ xs, f x = g x := by
  induction xs with
  | nil => simp
  | cons x xs ih =>
      have hrest := flatMap_eq_or_longer fun y hy => h y (List.mem_cons_of_mem x hy)
      have hlen := congrArg List.length heq
      simp only [List.flatMap_cons, List.length_append] at heq hlen
      rcases h x List.mem_cons_self with hx | hx
      · rw [hx] at heq
        intro y hy
        rcases List.mem_cons.1 hy with rfl | hy
        · exact hx
        · exact ih (fun y hy => h y (List.mem_cons_of_mem _ hy))
            (List.append_cancel_left heq) y hy
      · rcases hrest with hrest | hrest
        · rw [hrest] at hlen
          omega
        · omega

theorem length_address (u : List Char) : u.length < (Segment.address u).written.length := by
  have hwritten : (Segment.address u).written = "\x7b@link ".toList ++ u ++ ['}'] :=
    Marker.write_none u
  rw [hwritten]
  simp only [List.length_append, List.length_cons]
  omega

theorem length_ticket (u base : List Char) :
    u.length < (Segment.ticket u base).written.length := by
  have hwritten : (Segment.ticket u base).written =
      "\x7b@link ".toList ++ (base ++ u) ++ [' '] ++ u ++ ['}'] :=
    Marker.write_some (base ++ u) u
  rw [hwritten]
  simp only [List.length_append, List.length_cons]
  omega

end Lengths

section WithoutMarkers

variable {e : Expander}

theorem written_eq_or_longer {ps : List (Piece WebAddress)} {x : Segment}
    (hx : x ∈ addressSegments e ps) :
    x.written = x.source ∨ x.source.length < x.written.length := by
  rcases Segment.mem_refine.1 hx with ⟨s, -, hx⟩ | ⟨hx, -⟩
  · rw [cutTickets] at hx
    split at hx
    · obtain ⟨piece, -, rfl⟩ := List.mem_map.1 hx
      cases piece with
      | gap g => exact .inl rfl
      | hit digits u => exact .inr (length_ticket u _)
    · obtain rfl := List.mem_singleton.1 hx
      exact .inl rfl
  · obtain ⟨piece, -, rfl⟩ := List.mem_map.1 hx
    cases piece with
    | gap g => exact .inl rfl
    | hit a u =>
        rw [Segment.ofAddress]
        split
        · exact .inl rfl
        · exact .inr (length_address u)

theorem free_of_not_mem {s : List Char} (h : '{' ∉ s) : Marker.Free s := by
  intro x y hxy
  refine Option.eq_none_iff_forall_ne_some.2 fun ⟨m, rest⟩ hm => h ?_
  obtain ⟨a, b, c, rfl, -⟩ := Marker.read?_eq_some_iff.1 hm
  simp [hxy]

theorem expandList_of_free {s : List Char} (hs : Marker.Free s) (longname : List Char) :
    e.expandList longname s = addressText e ((WebAddress.pattern.upTo e.halt).cut s) := by
  rw [expandList_eq]
  by_cases hne : s = []
  · subst hne
    rw [Text.Pattern.cut_nil, Text.Pattern.cut_nil]
    rfl
  · have hsilent : Marker.pattern.Silent [] s [] := by
      intro x y hxy _
      rw [Marker.pattern_eq_none_iff, List.append_nil]
      exact hs x y hxy
    rw [Text.Pattern.cut_of_silent hne hsilent, markerText_gap]
    exact List.append_nil _

/-- The expansion of a text without markers is longer if it differs. -/
theorem expandList_eq_or_longer {s : List Char} (hs : Marker.Free s) (longname : List Char) :
    e.expandList longname s = s ∨ s.length < (e.expandList longname s).length := by
  have h := flatMap_eq_or_longer fun x
    (hx : x ∈ addressSegments e ((WebAddress.pattern.upTo e.halt).cut s)) =>
      written_eq_or_longer hx
  rw [flatMap_source_addressSegments] at h
  rwa [expandList_of_free hs]

theorem flatMap_written_cutTickets {g : List Char} (h : e.Quiet g) :
    (e.cutTickets g).flatMap Segment.written = g := by
  rw [cutTickets]
  split
  · rename_i links hlinks
    by_cases hne : g = []
    · subst hne
      rw [TicketLinks.cut, Text.Pattern.cut_nil]
      rfl
    · rw [TicketLinks.cut, Text.Pattern.cut_of_silent hne (h links hlinks)]
      exact List.append_nil g
  · exact List.append_nil g

theorem addressText_of_settled {ps : List (Piece WebAddress)} (h : e.Settled ps) :
    addressText e ps = ps.flatMap Piece.source := by
  induction ps with
  | nil => rfl
  | cons piece ps ih =>
      have hrest : e.Settled ps :=
        ⟨fun a u hm => h.hits a u (List.mem_cons_of_mem _ hm),
          fun g hg => h.gaps g (List.mem_cons_of_mem _ hg)⟩
      rw [List.flatMap_cons, ← ih hrest]
      cases piece with
      | gap g =>
          rw [addressText_gap, flatMap_written_cutTickets (h.gaps g List.mem_cons_self)]
          rfl
      | hit a u =>
          rw [addressText_hit, if_pos (h.hits a u List.mem_cons_self)]
          rfl

theorem expandList_of_stable {s : List Char} (hs : Marker.Free s) (h : e.Stable s)
    (hshort : ¬ e.CutShort s) (longname : List Char) : e.expandList longname s = s := by
  obtain ⟨ps, hcuts, hps⟩ := h
  rw [CutShort, Classical.not_not] at hshort
  rw [expandList_of_free hs, hshort, Text.Pattern.cut]
  rw [hcuts.eq_cutFrom, addressText_of_settled hps]
  exact hcuts.flatMap_source

end WithoutMarkers

section Twice

/-- A text that an expansion of `t` may leave behind and that another reading sees in another
way: it has a closing brace, and an address with a closing brace was linked; or it starts or
ends in a letter that a domain name knows and a ticket does not, and a ticket was linked; or
the search for addresses was given up too early, in the text or in what it was left over
from. -/
def Frayed (e : Expander) (longname t s : List Char) : Prop :=
  ('}' ∈ s ∧ ∃ u, .address u ∈ e.segments longname t ∧ '}' ∈ u) ∨
    (Folded s ∧ ∃ u base, .ticket u base ∈ e.segments longname t) ∨
    (e.CutShort s ∨ ∃ g ∈ Text.gapsOf (Marker.pattern.cut t), e.CutShort g)

variable {e : Expander} {longname t : List Char}

/-- The markers of an expansion are no shorthand, and what stands between them and is not
frayed is left as it is. -/
theorem exists_cuts_of_expansion (hname : '}' ∉ longname)
    (hbase : ∀ links, e.tickets = some links → '}' ∉ links.baseUrl) :
    ∃ ps, Marker.pattern.Cuts [] (e.expandList longname t) [] ps ∧
      (∀ m u, Piece.hit m u ∈ ps → m.member? = none) ∧
      ∀ g, Piece.gap g ∈ ps → e.Stable g ∨ Frayed e longname t g := by
  obtain ⟨⟨z, w, htext, hrun, hwoven⟩, -⟩ := woven_of_cuts
    (p := ∃ u base, .ticket u base ∈ e.segments longname t)
    (f := ∃ u, .address u ∈ e.segments longname t ∧ '}' ∈ u)
    (k := fun g => e.Stable g ∨ Frayed e longname t g) hbase hname
    (Text.Pattern.cuts_cutFrom Marker.pattern_bounded [] t) (fun u base hu => ⟨u, base, hu⟩)
    (fun u hu hbrace => ⟨u, hu, hbrace⟩)
    (fun g hg => hg.imp_right fun ⟨hp, hfolded⟩ => .inr (.inl ⟨hfolded, hp⟩))
    (fun g hg hshort _ => .inr (.inr (.inr (.inr ⟨g, Text.mem_gapsOf.2 hg, hshort⟩))))
  obtain ⟨ps, hcuts, hsound⟩ := Marker.cuts_of_woven hwoven [] Marker.leftOver_nil hrun
  refine ⟨ps, ?_, hsound.hits, fun g hg => ?_⟩
  · have hexpand : e.expandList longname t = z ++ w := htext
    rwa [hexpand]
  · rcases hsound.gaps g hg with hcalm | ⟨hf, hbrace⟩
    · exact hcalm
    · exact .inr (.inl ⟨hbrace, hf⟩)

/-- What is written for a piece between markers that are no shorthand. -/
def rewritten (e : Expander) (longname : List Char) : Piece Marker → List Char
  | .gap g => e.expandList longname g
  | .hit _ u => u

theorem markerText_eq_flatMap {before s rest : List Char} {ps : List (Piece Marker)}
    (hcuts : Marker.pattern.Cuts before s rest ps)
    (hhits : ∀ m u, Piece.hit m u ∈ ps → m.member? = none) :
    markerText e longname ps = ps.flatMap (rewritten e longname) := by
  induction hcuts with
  | done => rfl
  | @gap before g s rest ps _ hsilent _ _ ih =>
      rw [markerText_gap, ih fun m u hm => hhits m u (List.mem_cons_of_mem _ hm),
        List.flatMap_cons, rewritten, expandList_of_free (free_of_silent hsilent)]
  | @hit before u s rest m ps _ _ ih =>
      rw [markerText_hit, ih fun m u hm => hhits m u (List.mem_cons_of_mem _ hm),
        List.flatMap_cons, rewritten, Segment.ofMarker, hhits m u List.mem_cons_self]
      rfl

theorem free_of_mem_cuts {before s rest g : List Char} {ps : List (Piece Marker)}
    (hcuts : Marker.pattern.Cuts before s rest ps) (hg : Piece.gap g ∈ ps) :
    Marker.Free g := by
  induction hcuts with
  | done => simp at hg
  | gap _ hsilent _ _ ih =>
      rcases List.mem_cons.1 hg with hg | hg
      · obtain rfl := Piece.gap.inj hg
        exact free_of_silent hsilent
      · exact ih hg
  | hit _ _ ih => exact ih (by simpa using hg)

/-- A second expansion changes nothing exactly if it changes no frayed text between two
markers. -/
theorem expandList_expandList_iff (hname : '}' ∉ longname)
    (hbase : ∀ links, e.tickets = some links → '}' ∉ links.baseUrl) :
    e.expandList longname (e.expandList longname t) = e.expandList longname t ↔
      ∀ g ∈ Text.gapsOf (Marker.pattern.cut (e.expandList longname t)),
        Frayed e longname t g → e.expandList longname g = g := by
  obtain ⟨ps, hcuts, hhits, hgaps⟩ := exists_cuts_of_expansion (t := t) hname hbase
  have hcut : Marker.pattern.cut (e.expandList longname t) = ps := hcuts.eq_cutFrom
  have hsource := hcuts.flatMap_source
  rw [expandList_eq e longname (e.expandList longname t), hcut]
  rw [markerText_eq_flatMap hcuts hhits]
  constructor
  · intro h g hg _
    rw [Text.mem_gapsOf] at hg
    rw [← hsource] at h
    refine eq_of_flatMap_eq (fun piece hpiece => ?_) h (.gap g) hg
    cases piece with
    | gap g => exact expandList_eq_or_longer (free_of_mem_cuts hcuts hpiece) longname
    | hit m u => exact .inl rfl
  · intro h
    rw [← hsource]
    refine congrArg List.flatten (List.map_congr_left fun piece hpiece => ?_)
    cases piece with
    | gap g =>
        have hfrayed := h g (Text.mem_gapsOf.2 hpiece)
        by_cases hshort : e.CutShort g
        · exact hfrayed (.inr (.inr (.inl hshort)))
        · rcases hgaps g hpiece with hstable | hfray
          · exact expandList_of_stable
              (free_of_mem_cuts hcuts hpiece) hstable hshort longname
          · exact hfrayed hfray
    | hit m u => rfl

theorem not_cutShort_of_never (h : e.halt = Text.Halt.never) (s : List Char) :
    ¬ e.CutShort s := by
  rw [CutShort, h]
  rw [Text.Pattern.upTo_never, Classical.not_not]

/-- Unless an address with a closing brace is linked, only a folded letter can fray a text,
if the search for addresses is never given up. -/
theorem expandList_expandList (hname : '}' ∉ longname)
    (hbase : ∀ links, e.tickets = some links → '}' ∉ links.baseUrl)
    (hhalt : e.halt = Text.Halt.never)
    (haddress : ∀ u, .address u ∈ e.segments longname t → '}' ∉ u)
    (hfolded : ∀ c ∈ e.expandList longname t, WebAddress.isFolded c = false) :
    e.expandList longname (e.expandList longname t) = e.expandList longname t := by
  refine (expandList_expandList_iff hname hbase).2 fun g hg hfrayed => ?_
  have hmem : ∀ c ∈ g, c ∈ e.expandList longname t := by
    intro c hc
    rw [← Marker.pattern.flatMap_source_cut (e.expandList longname t), List.mem_flatMap]
    exact ⟨.gap g, Text.mem_gapsOf.1 hg, hc⟩
  have hends : ∀ x : Option Char, (∀ c, x = some c → c ∈ g) →
      Text.endsIn WebAddress.isFolded x = false := by
    intro x hx
    cases x with
    | none => rfl
    | some c => exact hfolded c (hmem c (hx c rfl))
  rcases hfrayed with ⟨-, u, hu, hbrace⟩ | ⟨hfold | hfold, -⟩ | hshort | ⟨s, -, hshort⟩
  · exact absurd hbrace (haddress u hu)
  · rw [hends _ fun c hc => List.mem_of_head? hc] at hfold
    exact absurd hfold (by simp)
  · rw [hends _ fun c hc => List.mem_of_getLast? hc] at hfold
    exact absurd hfold (by simp)
  · exact absurd hshort (not_cutShort_of_never hhalt g)
  · exact absurd hshort (not_cutShort_of_never hhalt s)

/-- Expanding a text twice is expanding it once exactly if the second expansion changes no
frayed text between two markers of the first one. -/
theorem expand_expand_iff (e : Expander) (longname t : String)
    (hname : '}' ∉ longname.toList)
    (hbase : ∀ links, e.tickets = some links → '}' ∉ links.baseUrl) :
    e.expand longname (e.expand longname t) = e.expand longname t ↔
      ∀ g ∈ Text.gapsOf (Marker.pattern.cut (e.expand longname t).toList),
        Frayed e longname.toList t.toList g → e.expandList longname.toList g = g := by
  have htwice := expandList_expandList_iff (t := t.toList) hname hbase
  simp only [expand, String.toList_ofList]
  rw [← htwice]
  exact String.ofList_inj

/-- The expansion of a text with an address, a ticket and a member is not changed by another
one. -/
theorem expand_expand_of_text :
    '}' ∉ "Foo#bar".toList ∧
      (∀ links, Expander.default.tickets = some links → '}' ∉ links.baseUrl) ∧
      Expander.default.expand "Foo#bar"
          (Expander.default.expand "Foo#bar" "T1 ab.de \x7b@link #m\x7d") =
        Expander.default.expand "Foo#bar" "T1 ab.de \x7b@link #m\x7d" := by
  have hname : '}' ∉ "Foo#bar".toList := by decide
  have hbase : ∀ links, Expander.default.tickets = some links → '}' ∉ links.baseUrl := by
    rintro links ⟨⟩
    decide
  have hgaps : ∀ g ∈ Text.gapsOf (Marker.pattern.cut
      (Expander.default.expand "Foo#bar" "T1 ab.de \x7b@link #m\x7d").toList),
      Expander.default.expandList "Foo#bar".toList g = g := by
    decide +kernel
  exact ⟨hname, hbase,
    (expand_expand_iff Expander.default "Foo#bar" "T1 ab.de \x7b@link #m\x7d"
    hname hbase).2 fun g hg _ => hgaps g hg⟩

/-- A pair of parentheses belongs to an address with all that is in it. -/
theorem finds_braced :
    WebAddress.pattern.Finds [] "http://ab(\x7dT1)".toList [] ⟨.full, false⟩ := by
  have hloose : WebAddress.viaLoose? ['\x7d', 'T', '1', ')'] = none := by
    have hends : WebAddress.pairEnds ['\x7d', 'T', '1', ')'] = [[]] := by decide
    rw [WebAddress.viaLoose?_eq_findSome?, hends]
    rw [List.findSome?_cons, WebAddress.tail?_nil]
    rfl
  have hpair : WebAddress.tail? true ['(', '\x7d', 'T', '1', ')'] = some [] := by
    have hnested : WebAddress.nested? ['(', '\x7d', 'T', '1', ')'] = none := by decide
    rw [WebAddress.tail?_paren, hnested, hloose]
    decide
  have htail : WebAddress.tail? false ['a', 'b', '(', '\x7d', 'T', '1', ')'] = some [] := by
    rw [WebAddress.tail?_cons (by decide), WebAddress.tail?_cons (by decide), hpair]
    decide
  have hfull : WebAddress.full? "http://ab(\x7dT1)".toList = some [] := by
    have hscheme : WebAddress.afterScheme? "http://ab(\x7dT1)".toList =
        some "//ab(\x7dT1)".toList := by decide
    have hstarts : WebAddress.colonStarts "//ab(\x7dT1)".toList =
        [['a', 'b', '(', '\x7d', 'T', '1', ')'], "/ab(\x7dT1)".toList] := by decide
    rw [WebAddress.full?_eq_or, hscheme, Option.bind_some]
    rw [WebAddress.afterColon?_eq_findSome?, hstarts]
    rw [List.findSome?_cons, htail]
    exact Option.some_or
  exact WebAddress.pattern_finds_iff.2 ⟨by decide, by decide +kernel,
    WebAddress.read?_eq_some_iff.2 (.inl ⟨hfull, rfl⟩), by decide⟩

/-- The closing brace in an address ends its marker, and a ticket behind it is linked by
another expansion. -/
theorem not_expand_expand :
    '}' ∉ "Foo".toList ∧
      (∀ links, Expander.default.tickets = some links → '}' ∉ links.baseUrl) ∧
      Expander.default.expand "Foo" (Expander.default.expand "Foo" "http://ab(\x7dT1)") ≠
        Expander.default.expand "Foo" "http://ab(\x7dT1)" := by
  refine ⟨by decide, ?_, ?_⟩
  · rintro links ⟨⟩
    decide
  · have hfree : Marker.Free "http://ab(\x7dT1)".toList := free_of_not_mem (by decide)
    have honce : Expander.default.expand "Foo" "http://ab(\x7dT1)" =
        "\x7b@link http://ab(\x7dT1)\x7d" := by
      rw [expand, expandList_of_free hfree, Expander.default]
      rw [halt_new, Text.Pattern.upTo_never, Text.Pattern.cut_of_finds finds_braced]
      decide +kernel
    have htwice :
        Expander.default.expandList "Foo".toList "\x7b@link http://ab(\x7dT1)\x7d".toList =
        ("\x7b@link http://ab(\x7d\x7b@link https://phabricator.wikimedia.org/T1 T1\x7d)" ++
          "\x7d").toList := by
      decide +kernel
    rw [honce, expand, htwice]
    decide

end Twice

end Expander
end DocLinks
