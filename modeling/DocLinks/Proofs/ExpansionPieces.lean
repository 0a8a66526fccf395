import DocLinks.Expansion.Segment
import DocLinks.Proofs.MarkerGrammar
import DocLinks.Proofs.TicketGrammar

/-!
# What expansion does to the pieces of a text

A text and its expansion fall into pieces that correspond to each other one by one.  A piece
is kept, or it is one of the three things that are rewritten; a marker that is not shorthand
is a piece of its own, and it is kept.

**Results.**
* `rewrites_of_mem_segments`: what is written for a segment.
* `expand_pieces`: the pieces of a text and those of its expansion.
-/

namespace DocLinks
namespace Segment

section Refinement

variable (step : List Char → List Segment)

theorem refine_append (x y : List Segment) :
    refine step (x ++ y) = refine step x ++ refine step y :=
  List.flatMap_append

theorem refine_kept (s : List Char) (x : List Segment) :
    refine step (kept s :: x) = kept s :: refine step x := rfl

variable {step}

/-- After a step there are the segments that it has made of running text, and those of before
that were none. -/
theorem mem_refine {segments : List Segment} {x : Segment} :
    x ∈ refine step segments ↔
      (∃ s, text s ∈ segments ∧ x ∈ step s) ∨ (x ∈ segments ∧ ∀ s, x ≠ text s) := by
  rw [refine, List.mem_flatMap]
  constructor
  · rintro ⟨y, hy, hx⟩
    cases y with
    | text s => exact .inl ⟨s, hy, hx⟩
    | kept _ | member _ _ _ | address _ | ticket _ _ =>
        obtain rfl := List.mem_singleton.1 hx
        exact .inr ⟨hy, by simp⟩
  · rintro (⟨s, hs, hx⟩ | ⟨hx, hne⟩)
    · exact ⟨text s, hs, hx⟩
    · refine ⟨x, hx, ?_⟩
      cases x with
      | text s => exact absurd rfl (hne s)
      | kept _ | member _ _ _ | address _ | ticket _ _ => exact List.mem_singleton.2 rfl

end Refinement

theorem text_mem_cutMarkers {longname t s : List Char} :
    text s ∈ cutMarkers longname t ↔ s ∈ Text.gapsOf (Marker.pattern.cut t) := by
  rw [cutMarkers, List.mem_map, Text.mem_gapsOf]
  constructor
  · rintro ⟨piece, hmem, h⟩
    cases piece with
    | gap u =>
        obtain rfl := text.inj h
        exact hmem
    | hit m u =>
        rw [ofMarker] at h
        split at h
        · cases h
        · cases h
  · intro h
    exact ⟨_, h, rfl⟩

end Segment

namespace Expander

/-- How a piece `p` of the text `t` may be rewritten to `q` when the text is expanded for the
symbol with the given long name. -/
inductive Rewrites (e : Expander) (longname t : List Char) : (p q : List Char) → Prop
  | same (s : List Char) : Rewrites e longname t s s
  | shorthand {a b c name : List Char} {separator : Char} :
      (∀ x ∈ a, Text.isBlank x = true) → b ≠ [] → (∀ x ∈ b, Text.isBlank x = true) →
      separator = '#' ∨ separator = '.' →
      name ≠ [] → (∀ x ∈ name, Text.isWord x = true ∨ x = '$') →
      (∀ x ∈ c, Text.isBlank x = true) →
      Rewrites e longname t
        (['{'] ++ a ++ "@link".toList ++ b ++ separator :: name ++ c ++ ['}'])
        ("\x7b@link ".toList ++ longname.takeWhile (fun x => x != '#' && x != '.') ++
          separator :: name ++ [' '] ++ separator :: name ++ ['}'])
  | address {gap p : List Char} {a : WebAddress} :
      gap ∈ Text.gapsOf (Marker.pattern.cut t) → .hit a p ∈ WebAddress.pattern.cut gap →
      a.inMarkup = false →
      Rewrites e longname t p ("\x7b@link ".toList ++ p ++ ['}'])
  | ticket {links : TicketLinks} {digits : List Char} :
      e.tickets = some links → digits ≠ [] → (∀ x ∈ digits, x.isDigit = true) →
      Rewrites e longname t (links.mark ++ digits)
        ("\x7b@link ".toList ++ links.baseUrl ++ (links.mark ++ digits) ++ [' '] ++
          (links.mark ++ digits) ++ ['}'])

section Rules

variable (e : Expander) (longname t : List Char)

theorem rewrites_of_shorthand {m : Marker} {k : Marker.Member} {s rest : List Char}
    (hread : Marker.read? (s ++ rest) = some (m, rest)) (hk : m.member? = some k) :
    Rewrites e longname t s (Segment.member s (Segment.ownerOf longname) k).written := by
  obtain ⟨a, b, c, hs, ha, -, hb, hc, -, -⟩ := Marker.read?_eq_some_iff.1 hread
  obtain ⟨blanks, htail, hbody, hsep, hne, hname, hblanks⟩ := Marker.member?_eq_some_iff.1 hk
  rw [htail, hbody] at hs
  have hsource : s = ['{'] ++ a ++ "@link".toList ++ (b :: c) ++
      k.separator :: k.name ++ blanks ++
      ['}'] := by
    apply (List.append_left_inj rest).1
    simpa using hs
  have hwritten : (Segment.member s (Segment.ownerOf longname) k).written =
      "\x7b@link ".toList ++ longname.takeWhile (fun x => x != '#' && x != '.') ++
        k.separator :: k.name ++ [' '] ++ k.separator :: k.name ++ ['}'] := by
    have howner : Segment.ownerOf longname =
        longname.takeWhile fun x => x != '#' && x != '.' := by
      simp [Segment.ownerOf, Text.beforeFirst, Marker.isSeparator, bne]
    have hwrite := Marker.write_some (Segment.ownerOf longname ++ k.text) k.text
    rw [← List.append_assoc] at hwrite
    rw [← howner]
    exact hwrite
  rw [hwritten, hsource]
  refine .shorthand ha (by simp) ?_ ?_ hne ?_ hblanks
  · intro x hx
    rcases List.mem_cons.1 hx with rfl | hx
    · exact hb
    · exact hc x hx
  · simpa [Marker.isSeparator] using hsep
  · intro x hx
    simpa [Marker.isMemberChar] using hname x hx

theorem rewrites_of_mem_cutMarkers {x : Segment} (hx : x ∈ Segment.cutMarkers longname t) :
    Rewrites e longname t x.source x.written := by
  rw [Segment.cutMarkers, List.mem_map] at hx
  obtain ⟨piece, hmem, rfl⟩ := hx
  cases piece with
  | gap s => exact .same s
  | hit m s =>
      have hcuts := Text.Pattern.cuts_cutFrom Marker.pattern_bounded [] t
      obtain ⟨y, z, -, hfind⟩ := hcuts.exists_finds hmem
      have hread := (Marker.pattern_finds_iff.1 hfind).2
      rw [Segment.ofMarker]
      split
      · rename_i k hk
        exact rewrites_of_shorthand e longname t hread hk
      · exact .same s

theorem rewrites_of_mem_cutAddresses {gap : List Char}
    (hgap : gap ∈ Text.gapsOf (Marker.pattern.cut t)) {x : Segment}
    (hx : x ∈ Segment.cutAddresses e.halt gap) :
    Rewrites e longname t x.source x.written := by
  rw [Segment.cutAddresses, List.mem_map] at hx
  obtain ⟨piece, hmem, rfl⟩ := hx
  cases piece with
  | gap s => exact .same s
  | hit a s =>
      rw [Segment.ofAddress]
      split
      · exact .same s
      · rename_i ha
        have hwritten : (Segment.address s).written = "\x7b@link ".toList ++ s ++ ['}'] :=
          Marker.write_none s
        rw [hwritten]
        exact .address hgap (Text.Pattern.hit_mem_cut_of_upTo hmem) (by simpa using ha)

theorem rewrites_of_mem_cutTickets {s : List Char} {x : Segment} (hx : x ∈ e.cutTickets s) :
    Rewrites e longname t x.source x.written := by
  rw [cutTickets] at hx
  split at hx
  · rename_i links hlinks
    rw [TicketLinks.cut, List.mem_map] at hx
    obtain ⟨piece, hmem, rfl⟩ := hx
    cases piece with
    | gap u => exact .same u
    | hit digits u =>
        have hcuts := Text.Pattern.cuts_cutFrom (Ticket.pattern_bounded links.mark) [] s
        obtain ⟨y, z, -, hfind⟩ := hcuts.exists_finds hmem
        obtain ⟨rfl, -, -, hne, hdigits, -⟩ := Ticket.pattern_finds_iff.1 hfind
        have hwritten : (Segment.ticket (links.mark ++ digits) links.baseUrl).written =
            "\x7b@link ".toList ++ links.baseUrl ++ (links.mark ++ digits) ++ [' '] ++
              (links.mark ++ digits) ++ ['}'] := by
          have hwrite := Marker.write_some (links.baseUrl ++ (links.mark ++ digits))
            (links.mark ++ digits)
          rw [← List.append_assoc _ links.baseUrl] at hwrite
          exact hwrite
        rw [Segment.ofTicket, hwritten]
        exact .ticket hlinks hne hdigits
  · obtain rfl := List.mem_singleton.1 hx
    exact .same s

theorem rewrites_of_mem_segments {x : Segment} (hx : x ∈ e.segments longname t) :
    Rewrites e longname t x.source x.written := by
  rw [segments, Segment.mem_refine] at hx
  rcases hx with ⟨s, -, hx⟩ | ⟨hx, -⟩
  · exact rewrites_of_mem_cutTickets e longname t hx
  · rcases Segment.mem_refine.1 hx with ⟨gap, hgap, hx⟩ | ⟨hx, -⟩
    · exact rewrites_of_mem_cutAddresses e longname t (Segment.text_mem_cutMarkers.1 hgap) hx
    · exact rewrites_of_mem_cutMarkers e longname t hx

/-- A marker that is not shorthand is a segment of its own, at the place where it was. -/
theorem segments_of_cut_marker {front back : List (Text.Piece Marker)}
    {m : Marker} {s : List Char}
    (h : Marker.pattern.cut t = front ++ .hit m s :: back) (hm : m.member? = none) :
    ∃ x y, e.segments longname t = x ++ .kept s :: y ∧
      x.flatMap Segment.source = front.flatMap Text.Piece.source := by
  have hsplit : Segment.cutMarkers longname t =
      front.map (Segment.ofMarker longname) ++
        .kept s :: back.map (Segment.ofMarker longname) := by
    rw [Segment.cutMarkers, h, List.map_append]
    rw [List.map_cons, Segment.ofMarker.eq_2, hm]
  let refined (ps : List (Text.Piece Marker)) : List Segment :=
    Segment.refine e.cutTickets
      (Segment.refine (Segment.cutAddresses e.halt) (ps.map (Segment.ofMarker longname)))
  refine ⟨refined front, refined back, ?_, ?_⟩
  · rw [segments, hsplit, Segment.refine_append]
    rw [Segment.refine_kept, Segment.refine_append, Segment.refine_kept]
  · rw [Segment.flatMap_source_refine e.flatMap_source_cutTickets]
    rw [Segment.flatMap_source_refine (Segment.flatMap_source_cutAddresses e.halt)]
    simp only [List.flatMap_map, Segment.source_ofMarker]

end Rules

/-- Expansion loses, repeats and moves nothing: the text and its expansion fall into pieces
that correspond to each other, and a marker that is not shorthand is a piece that is kept.
This holds wherever the search for addresses is given up. -/
theorem expand_pieces (e : Expander) (longname t : String) :
    ∃ pieces : List (List Char × List Char),
      pieces.flatMap Prod.fst = t.toList ∧
      pieces.flatMap Prod.snd = (e.expand longname t).toList ∧
      (∀ piece ∈ pieces, Rewrites e longname.toList t.toList piece.1 piece.2) ∧
      ∀ front m s back, Marker.pattern.cut t.toList = front ++ .hit m s :: back →
        m.member? = none →
        ∃ x y, pieces = x ++ (s, s) :: y ∧
          x.flatMap Prod.fst = front.flatMap Text.Piece.source := by
  refine ⟨(e.segments longname.toList t.toList).map
    fun x => (x.source, x.written), ?_, ?_, ?_, ?_⟩
  · rw [List.flatMap_map]
    exact e.flatMap_source_segments longname.toList t.toList
  · rw [List.flatMap_map, expand, String.toList_ofList]
    rfl
  · intro piece hpiece
    obtain ⟨x, hx, rfl⟩ := List.mem_map.1 hpiece
    exact rewrites_of_mem_segments e longname.toList t.toList hx
  · intro front m s back hcut hm
    obtain ⟨x, y, hsegments, hsource⟩ :=
      segments_of_cut_marker e longname.toList t.toList hcut hm
    refine ⟨x.map fun x => (x.source, x.written),
      y.map fun x => (x.source, x.written), ?_, ?_⟩
    · rw [hsegments, List.map_append, List.map_cons]
      rfl
    · rw [List.flatMap_map]
      exact hsource

end Expander
end DocLinks
