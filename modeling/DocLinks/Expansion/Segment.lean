import DocLinks.Expansion.Marker
import DocLinks.Expansion.Ticket
import DocLinks.Expansion.WebAddress

/-!
# Expanding references in a text

A text is cut into segments three times: at its markers, then at the web addresses in what is
left, then at the tickets in what is left again.  What one step has found is out of reach for
the next ones.  The search for addresses may be given up, because it takes too many steps;
where, is known to the expander.  In the end every segment is written: members and addresses
and tickets as explicit markers, all else as it was.

**Results.**  `flatMap_source_segments`: the segments put together are the text, so nothing
is lost, repeated or moved.
-/

namespace DocLinks

/-- A piece of a text between its expansion steps.  Later steps look at running text only; a
marker or an address inside markup is kept as it is.  A member has the long name of its owner
with it, and a ticket what its link starts with. -/
inductive Segment where
  | text (s : List Char)
  | kept (s : List Char)
  | member (s : List Char) (owner : List Char) (m : Marker.Member)
  | address (s : List Char)
  | ticket (s : List Char) (baseUrl : List Char)
  deriving DecidableEq, Repr

namespace Segment

/-- The characters that a segment was cut from. -/
def source : Segment → List Char
  | text s => s
  | kept s => s
  | member s _ _ => s
  | address s => s
  | ticket s _ => s

/-- What is written for a segment. -/
def written : Segment → List Char
  | text s => s
  | kept s => s
  | member _ owner m => Marker.write (owner ++ m.text) (some m.text)
  | address s => Marker.write s none
  | ticket s baseUrl => Marker.write (baseUrl ++ s) (some s)

/-- Applies a step to the running text among segments. -/
def refine (step : List Char → List Segment) (segments : List Segment) : List Segment :=
  segments.flatMap fun
    | text s => step s
    | segment => [segment]

/-- The long name of which a member in shorthand is a member: it ends before the first
separator. -/
def ownerOf (longname : List Char) : List Char :=
  Text.beforeFirst Marker.isSeparator longname

/-- The segment of a piece that was cut at markers. -/
def ofMarker (longname : List Char) : Text.Piece Marker → Segment
  | .gap s => text s
  | .hit m s =>
      match m.member? with
      | some short => member s (ownerOf longname) short
      | none => kept s

/-- The segment of a piece that was cut at addresses. -/
def ofAddress : Text.Piece WebAddress → Segment
  | .gap s => text s
  | .hit a s => if a.inMarkup then kept s else address s

/-- The segment of a piece that was cut at tickets. -/
def ofTicket (baseUrl : List Char) : Text.Piece (List Char) → Segment
  | .gap s => text s
  | .hit _ s => ticket s baseUrl

/-- Cuts a text at its markers. -/
def cutMarkers (longname s : List Char) : List Segment :=
  (Marker.pattern.cut s).map (ofMarker longname)

/-- Cuts running text at its addresses; where the search for them is given up, the rest is
running text. -/
def cutAddresses (halt : Text.Halt) (s : List Char) : List Segment :=
  ((WebAddress.pattern.upTo halt).cut s).map ofAddress

end Segment

/-- How tickets are linked: what the links start with, and the letters of the tickets. -/
structure TicketLinks where
  baseUrl : List Char
  mark : List Char
  deriving DecidableEq, Repr

/-- Cuts running text at its tickets. -/
def TicketLinks.cut (t : TicketLinks) (s : List Char) : List Segment :=
  ((Ticket.pattern t.mark).cut s).map (Segment.ofTicket t.baseUrl)

/-- What the expansion of a text depends on besides the text: how tickets are linked, if they
are, and where the search for addresses is given up. -/
structure Expander where
  tickets : Option TicketLinks
  halt : Text.Halt := Text.Halt.never

namespace Expander

/-- What the links of tickets start with if nothing else is configured. -/
def defaultBaseUrl : String := "https://phabricator.wikimedia.org/"

/-- The letters of tickets if nothing else is configured. -/
def defaultMark : String := "T"

/-- Links tickets, unless the links would not start like those of the web. -/
def new (baseUrl mark : String) : Expander :=
  if "http".toList.isPrefixOf baseUrl.toList then
    { tickets := some ⟨baseUrl.toList, mark.toList⟩ }
  else { tickets := none }

theorem halt_new (baseUrl mark : String) : (new baseUrl mark).halt = Text.Halt.never := by
  unfold new
  split
  · rfl
  · rfl

/-- The expander if nothing is configured. -/
def default : Expander :=
  new defaultBaseUrl defaultMark

/-- Whether tickets are linked. -/
def linksTickets (e : Expander) : Bool :=
  e.tickets.isSome

/-- Cuts running text at its tickets, if they are linked. -/
def cutTickets (e : Expander) (s : List Char) : List Segment :=
  match e.tickets with
  | some t => t.cut s
  | none => [.text s]

/-- The segments of a text that was written for the symbol with the given long name. -/
def segments (e : Expander) (longname s : List Char) : List Segment :=
  Segment.refine e.cutTickets
    (Segment.refine (Segment.cutAddresses e.halt) (Segment.cutMarkers longname s))

/-- The expansion of a text that was written for the symbol with the given long name. -/
def expandList (e : Expander) (longname s : List Char) : List Char :=
  (e.segments longname s).flatMap Segment.written

/-- The expansion of a text that was written for the symbol with the given long name. -/
def expand (e : Expander) (longname s : String) : String :=
  String.ofList (e.expandList longname.toList s.toList)

end Expander

namespace Segment

theorem source_ofMarker (longname : List Char) (p : Text.Piece Marker) :
    (ofMarker longname p).source = p.source := by
  cases p with
  | gap s => rfl
  | hit m s =>
      simp only [ofMarker, Text.Piece.source]
      split <;> rfl

theorem source_ofAddress (p : Text.Piece WebAddress) : (ofAddress p).source = p.source := by
  cases p with
  | gap s => rfl
  | hit a s =>
      simp only [ofAddress, Text.Piece.source]
      split <;> rfl

theorem source_ofTicket (baseUrl : List Char) (p : Text.Piece (List Char)) :
    (ofTicket baseUrl p).source = p.source := by
  cases p <;> rfl

theorem flatMap_source_cutMarkers (longname s : List Char) :
    (cutMarkers longname s).flatMap source = s := by
  simp only [cutMarkers, List.flatMap_map, source_ofMarker]
  exact Marker.pattern.flatMap_source_cut s

theorem flatMap_source_cutAddresses (halt : Text.Halt) (s : List Char) :
    (cutAddresses halt s).flatMap source = s := by
  simp only [cutAddresses, List.flatMap_map, source_ofAddress]
  exact (WebAddress.pattern.upTo halt).flatMap_source_cut s

theorem flatMap_source_refine {step : List Char → List Segment}
    (h : ∀ s, (step s).flatMap source = s) (segments : List Segment) :
    (refine step segments).flatMap source = segments.flatMap source := by
  simp only [refine, List.flatMap_assoc]
  congr 1
  funext segment
  cases segment <;> simp [h, source]

end Segment

namespace Expander

theorem flatMap_source_cutTickets (e : Expander) (s : List Char) :
    (e.cutTickets s).flatMap Segment.source = s := by
  unfold cutTickets
  split
  · rename_i t _
    simp only [TicketLinks.cut, List.flatMap_map, Segment.source_ofTicket]
    exact (Ticket.pattern t.mark).flatMap_source_cut s
  · simp [Segment.source]

/-- The segments put together are the text. -/
theorem flatMap_source_segments (e : Expander) (longname s : List Char) :
    (e.segments longname s).flatMap Segment.source = s := by
  unfold segments
  rw [Segment.flatMap_source_refine e.flatMap_source_cutTickets]
  rw [Segment.flatMap_source_refine (Segment.flatMap_source_cutAddresses e.halt)]
  rw [Segment.flatMap_source_cutMarkers]

end Expander

end DocLinks
