import DocLinks.Proofs.AddressSurroundings
import DocLinks.Proofs.ExpansionPieces
import DocLinks.Proofs.MarkerWeaving

/-!
# The text between the markers of an expansion

An expansion consists of markers and of what stands between them.  What stands between two of
them was left over by one reading of the text, and mostly it has nothing in it that another
reading would find.

**Invariant.**  From the end of the text to its start: what is written behind a place is a
run that is still open, in which addresses are found where they were, and then markers with
runs between them.

**Results.**
* `Written.run`: a run that is closed has nothing in it, unless it is frayed by a ticket.
* `writes_of_tickets`, `writes_of_addresses`: what is written for a text without markers.
* `woven_of_gap`: the same where the search for addresses is given up.
* `woven_of_cuts`: an expansion is a text between markers.
-/

namespace DocLinks
namespace Expander

open Text (Piece)

section Stability

/-- A text in which no tickets are found when it stands alone. -/
def Quiet (e : Expander) (s : List Char) : Prop :=
  ∀ links, e.tickets = some links → (Ticket.pattern links.mark).Silent [] s []

/-- Pieces of a text of which none is rewritten: addresses in markup, and gaps without
tickets. -/
structure Settled (e : Expander) (ps : List (Piece WebAddress)) : Prop where
  hits : ∀ a u, Piece.hit a u ∈ ps → a.inMarkup = true
  gaps : ∀ g, Piece.gap g ∈ ps → e.Quiet g

/-- A text without markers in which nothing is rewritten. -/
def Stable (e : Expander) (s : List Char) : Prop :=
  ∃ ps, WebAddress.pattern.Cuts [] s [] ps ∧ e.Settled ps

/-- Whether a text starts or ends in a letter that a domain name knows and a word of ASCII
does not. -/
def Folded (s : List Char) : Prop :=
  Text.endsIn WebAddress.isFolded s.head? = true ∨
  Text.endsIn WebAddress.isFolded s.getLast? = true

/-- What is left of a run: nothing is rewritten in it, or `p` holds and it has a folded
letter at an end. -/
def Calm (e : Expander) (p : Prop) (s : List Char) : Prop :=
  e.Stable s ∨ p ∧ Folded s

variable {e : Expander}

theorem settled_nil : e.Settled [] :=
  ⟨by simp, by simp⟩

theorem Settled.hit {a : WebAddress} {u : List Char} {ps : List (Piece WebAddress)}
    (h : e.Settled ps) (ha : a.inMarkup = true) : e.Settled (.hit a u :: ps) := by
  refine ⟨fun a' u' hm => ?_, fun g hg => h.gaps g (by simpa using hg)⟩
  rcases List.mem_cons.1 hm with hm | hm
  · obtain ⟨rfl, rfl⟩ := Piece.hit.inj hm
    exact ha
  · exact h.hits a' u' hm

theorem Settled.gap {g : List Char} {ps : List (Piece WebAddress)} (h : e.Settled ps)
    (hg : e.Quiet g) : e.Settled (.gap g :: ps) := by
  refine ⟨fun a u hm => h.hits a u (by simpa using hm), fun g' hg' => ?_⟩
  rcases List.mem_cons.1 hg' with hg' | hg'
  · obtain rfl := Piece.gap.inj hg'
    exact hg
  · exact h.gaps g' hg'

/-- The start of a text without tickets has none, if it ends where a marker opens. -/
theorem Quiet.left {g g' : List Char} (h : e.Quiet (g ++ g'))
    (hend : g' = [] ∨ ∃ t, g' = '{' :: t) : e.Quiet g := by
  intro links hlinks
  refine Ticket.silent_alone (h links hlinks).left (by simp [Text.endsIn]) fun hword => ?_
  rcases hend with rfl | ⟨t, rfl⟩
  · simp [Text.endsIn] at hword
  · have hbrace : Text.isAsciiWord '{' = false := by decide
    simp [Text.endsIn, hbrace] at hword

end Stability

section Invariant

/-- What is written as `out` for the text `s` behind `before`: the run `z`, which is still
open, with the pieces `ps`, and then `t`, which is written for `rest`.  If `p` holds, the run
may end in a folded letter where it does not end with a word. -/
structure Written (e : Expander) (p f : Prop) (before s out z rest t : List Char)
    (ps : List (Piece WebAddress)) : Prop where
  source : s = z ++ rest
  target : out = z ++ t
  woven : Marker.Woven f (e.Calm p) t
  cuts : WebAddress.pattern.Cuts before z rest ps
  settled : e.Settled ps
  edge : WebAddress.Edge (before.reverse ++ z) rest ∨
    p ∧ Text.endsIn WebAddress.isFolded (before.reverse ++ z).getLast? = true

variable {e : Expander} {p f : Prop} {before s out z rest t : List Char}
  {ps : List (Piece WebAddress)}

theorem written_nil (before : List Char) : Written e p f before [] [] [] [] [] [] where
  source := rfl
  target := rfl
  woven := .done
  cuts := .done
  settled := settled_nil
  edge := .inl (WebAddress.edge_nil _)

/-- An address in markup is kept, and the run goes on. -/
theorem Written.keep {u : List Char} {a : WebAddress}
    (h : Written e p f (u.reverse ++ before) s out z rest t ps)
    (hu : WebAddress.pattern.Finds before u s a) (ha : a.inMarkup = true) :
    Written e p f before (u ++ s) (u ++ out) (u ++ z) rest t (.hit a u :: ps) where
  source := by rw [h.source, List.append_assoc]
  target := by rw [h.target, List.append_assoc]
  woven := h.woven
  cuts := by
    have hsource := h.source
    subst hsource
    exact .hit hu h.cuts
  settled := h.settled.hit ha
  edge := by simpa using h.edge

/-- A gap is kept, and the run goes on. -/
theorem Written.gap {g : List Char}
    (h : Written e p f (g.reverse ++ before) s out z rest t ps)
    (hg : g ≠ []) (hsilent : WebAddress.pattern.Silent before g s) (hquiet : e.Quiet g)
    (hps : ∀ g rs, ps ≠ .gap g :: rs) :
    Written e p f before (g ++ s) (g ++ out) (g ++ z) rest t (.gap g :: ps) where
  source := by rw [h.source, List.append_assoc]
  target := by rw [h.target, List.append_assoc]
  woven := h.woven
  cuts := by
    have hsource := h.source
    subst hsource
    exact .gap hg hsilent hps h.cuts
  settled := h.settled.gap hquiet
  edge := by simpa using h.edge

/-- A run that is closed has nothing in it, unless it is frayed by a ticket. -/
theorem Written.run (h : Written e p f before s out z rest t ps)
    (hparted : WebAddress.Parted before s ∨
      p ∧ Text.endsIn WebAddress.isFolded s.head? = true)
    (howns : WebAddress.OwnsMarkup before s) (hfree : Marker.Free s) :
    Marker.Run (e.Calm p) z := by
  have hsource := h.source
  subst hsource
  refine ⟨hfree.left, fun x y hz hy hx => ?_⟩
  subst hz
  obtain ⟨c, x, rfl⟩ := List.exists_cons_of_ne_nil hx
  rcases hparted with hparted | ⟨hp, hfolded⟩
  · rcases hy with rfl | hy
    · rw [List.append_nil] at h hparted howns
      rcases h.edge with hedge | ⟨hp, hfolded⟩
      · exact .inl ⟨ps,
          WebAddress.Cuts.alone h.cuts h.settled.hits hparted howns hedge.right, h.settled⟩
      · rw [List.getLast?_append, List.getLast?_eq_some_getLast hx] at hfolded
        rw [Option.some_or, ← List.getLast?_eq_some_getLast hx] at hfolded
        exact .inr ⟨hp, .inr hfolded⟩
    · obtain ⟨qs, hcuts, hhits, hgaps, -⟩ := WebAddress.Cuts.truncate h.cuts hy
      obtain ⟨y, rfl⟩ := WebAddress.head?_of_opening hy
      rw [List.append_assoc] at hparted howns
      have hsettled : ∀ a u, Piece.hit a u ∈ qs → a.inMarkup = true :=
        fun a u hu => h.settled.hits a u (hhits a u hu)
      have halone :=
        WebAddress.Cuts.alone hcuts hsettled hparted howns (WebAddress.edge_brace _ _)
      refine .inl ⟨qs, halone, hsettled, fun g hg => ?_⟩
      obtain ⟨g', hg', hend⟩ := hgaps g hg
      exact (h.settled.gaps _ hg').left hend
  · exact .inr ⟨hp, .inl hfolded⟩

/-- A run is closed, and a marker is written before it. -/
theorem Written.close {u c w : List Char}
    (h : Written e p f (u.reverse ++ before) s out z rest t ps)
    (hrun : Marker.Run (e.Calm p) z)
    (hmark : Marker.Mark f c w)
    (hedge : WebAddress.Edge before.reverse (u ++ s) ∨
      p ∧ Text.endsIn WebAddress.isFolded before.head? = true) :
    Written e p f before (u ++ s) (c ++ '}' :: (w ++ out)) [] (u ++ s)
      (c ++ '}' :: (w ++ out)) [] where
  source := rfl
  target := rfl
  woven := by
    rw [h.target]
    exact .mark hmark hrun h.woven
  cuts := .done
  settled := settled_nil
  edge := by simpa using hedge

end Invariant

section Marks

variable {f : Prop}

/-- The start of an address up to a closing brace in it is no shorthand. -/
theorem mark_of_start {p v w : List Char} {d : Char}
    (hp : ∀ c ∈ p, WebAddress.isHostChar c = true) (hne : p ≠ [])
    (hd : d ∈ [':', '/', '.', '-']) (hclosed : '}' ∉ p ++ d :: v)
    (hw : Marker.LeftOver f w) :
    Marker.Mark f ("\x7b@link ".toList ++ (p ++ d :: v)) w := by
  refine Marker.mark_of_target hclosed ?_ hw
  have htrim : Text.trimStart (p ++ d :: v) = p ++ d :: v := by
    obtain ⟨c, p, rfl⟩ := List.exists_cons_of_ne_nil hne
    have hinner := WebAddress.isInner_of_isHostChar (hp c (by simp))
    exact Text.trimStart_of_not_isBlank (WebAddress.isBlank_of_isInner hinner)
  have hchars : Marker.isMemberChar d = false ∧ Text.isBlank d = false := by
    simp only [List.mem_cons, List.not_mem_nil, or_false] at hd
    rcases hd with rfl | rfl | rfl | rfl <;> decide +kernel
  exact Marker.member?_eq_none_of_split htrim hne hchars.1 ⟨d, by simp, hchars.2⟩

/-- The marker of an address; a closing brace in the address ends it. -/
theorem exists_mark_of_form {u p v : List Char} {d : Char} (h : WebAddress.Form u p d v)
    (hf : '}' ∈ u → f) :
    ∃ c w, (Segment.address u).written = c ++ '}' :: w ∧ Marker.Mark f c w := by
  have hwritten : (Segment.address u).written = "\x7b@link ".toList ++ u ++ ['}'] :=
    Marker.write_none u
  have hne : p ≠ [] := by
    obtain ⟨c, hc, -⟩ := h.label
    exact List.ne_nil_of_mem hc
  rw [hwritten]
  by_cases hu : '}' ∈ u
  · obtain ⟨a, b, hab, ha⟩ := List.eq_append_cons_of_mem hu
    have hsplit : p ++ d :: v = a ++ '}' :: b := by rw [← h.eq, hab]
    have hleft : Marker.LeftOver f (b ++ ['}']) := by
      refine ⟨fun c hc => ?_, fun _ => ⟨hf hu, by simp⟩⟩
      rcases List.mem_append.1 hc with hc | hc
      · exact h.tight.1 c (by simp [hab, hc])
      · obtain rfl := List.mem_singleton.1 hc
        decide
    refine ⟨"\x7b@link ".toList ++ a, b ++ ['}'], by simp [hab], ?_⟩
    rcases List.append_eq_append_iff.1 hsplit with ⟨x, rfl, hx⟩ | ⟨x, hx, hrest⟩
    · cases x with
      | nil =>
          have hd := h.separator
          rw [(List.cons.inj hx).1] at hd
          exact absurd hd (by decide)
      | cons y x =>
          obtain ⟨rfl, -⟩ := List.cons.inj hx
          exact mark_of_start h.host hne h.separator ha hleft
    · cases x with
      | nil =>
          have hd := h.separator
          rw [← (List.cons.inj hrest).1] at hd
          exact absurd hd (by decide)
      | cons y x =>
          obtain ⟨rfl, -⟩ := List.cons.inj hrest
          exact absurd (h.host '}' (by simp [hx])) (by decide)
  · refine ⟨"\x7b@link ".toList ++ u, [], by simp, ?_⟩
    have heq := h.eq
    subst heq
    exact mark_of_start h.host hne h.separator hu Marker.leftOver_nil

/-- The marker of a ticket. -/
theorem exists_mark_of_ticket {u base : List Char} (hbase : '}' ∉ base) (hne : u ≠ [])
    (hu : ∀ c ∈ u, Text.isAsciiWord c = true) :
    ∃ c, (Segment.ticket u base).written = c ++ ['}'] ∧ Marker.Mark f c [] := by
  obtain ⟨c, u, rfl⟩ := List.exists_cons_of_ne_nil hne
  have hblank : Text.isBlank c = false := by
    cases hc : Text.isBlank c with
    | false => rfl
    | true =>
        have := Text.isWord_of_isBlank hc
        rw [Text.isWord_of_isAsciiWord (hu c (by simp))] at this
        exact absurd this (by simp)
  have hout : '}' ∉ c :: u := fun h => absurd (hu _ h) (by decide)
  refine Marker.mark_of_write ?_ hout ⟨c, by simp, hblank⟩ ⟨c, by simp, hblank⟩
  intro h
  rcases List.mem_append.1 h with h | h
  · exact hbase h
  · exact hout h

/-- The marker of a member in shorthand. -/
theorem exists_mark_of_member {m : Marker} {k : Marker.Member} {u owner : List Char}
    (hk : m.member? = some k) (howner : '}' ∉ owner) :
    ∃ c, (Segment.member u owner k).written = c ++ ['}'] ∧ Marker.Mark f c [] := by
  obtain ⟨blanks, -, -, hsep, -, hname, -⟩ := Marker.member?_eq_some_iff.1 hk
  have hsep' : k.separator = '#' ∨ k.separator = '.' := by
    simpa [Marker.isSeparator] using hsep
  have hblank : Text.isBlank k.separator = false := by
    rcases hsep' with h | h <;> rw [h] <;> decide
  have hout : '}' ∉ k.text := by
    intro h
    rcases List.mem_cons.1 h with h | h
    · rw [← h] at hsep
      exact absurd hsep (by decide)
    · exact absurd (hname _ h) (by decide +kernel)
  have hfirst : k.separator ∈ k.text := by simp [Marker.Member.text]
  refine Marker.mark_of_write ?_ hout ⟨k.separator, List.mem_append_right _ hfirst, hblank⟩
    ⟨k.separator, hfirst, hblank⟩
  intro h
  rcases List.mem_append.1 h with h | h
  · exact howner h
  · exact hout h

end Marks

section Induction

variable {e : Expander} {p f : Prop}

/-- A text that is written as a run and markers; if it may not start with a gap, nor may the
run. -/
def Writes (e : Expander) (p f gapless : Prop) (before s out : List Char) : Prop :=
  ∃ z rest t ps, Written e p f before s out z rest t ps ∧
  (gapless → ∀ g rs, ps ≠ .gap g :: rs)

/-- What is written for pieces of a text that was cut at tickets. -/
def ticketText (links : TicketLinks) (ps : List (Piece (List Char))) : List Char :=
  (ps.map (Segment.ofTicket links.baseUrl)).flatMap Segment.written

theorem ticketText_gap (links : TicketLinks) (g : List Char)
    (ts : List (Piece (List Char))) :
    ticketText links (.gap g :: ts) = g ++ ticketText links ts := rfl

theorem ticketText_hit (links : TicketLinks) (digits u : List Char)
    (ts : List (Piece (List Char))) :
    ticketText links (.hit digits u :: ts) =
      (Segment.ticket u links.baseUrl).written ++ ticketText links ts := rfl

theorem isLabelChar_of_isCapital {c : Char} (h : Ticket.isCapital c = true) :
    WebAddress.isLabelChar c = true := by
  have hall : ∀ n < 91, 65 ≤ n → WebAddress.isLabelChar (Char.ofNat n) = true := by decide
  simp only [Ticket.isCapital, Bool.and_eq_true, decide_eq_true_eq, Char.le_def,
    UInt32.le_iff_toNat_le] at h
  have := hall c.toNat (by exact Nat.lt_succ_of_le h.2) h.1
  rwa [Char.ofNat_toNat] at this

/-- Behind a gap between tickets the text ends, or a ticket follows that is a whole word. -/
theorem eq_nil_or_of_cuts {mark b g : List Char} {ts : List (Piece (List Char))}
    (h : (Ticket.pattern mark).Cuts b g [] ts) (hts : ∀ x rs, ts ≠ .gap x :: rs) :
    g = [] ∨ Text.endsIn Text.isAsciiWord b.head? = false := by
  cases h with
  | done => exact .inl rfl
  | gap => exact absurd rfl (hts _ _)
  | hit hfinds =>
      obtain ⟨-, -, -, -, -, hbefore, -⟩ := Ticket.pattern_finds_iff.1 hfinds
      exact .inr hbefore

/-- A ticket is no part of a bare domain that ends before it, unless the domain ends in a
folded letter. -/
theorem edge_of_ticket {b before u s : List Char} {c : Char} (hc : Ticket.isCapital c = true)
    (hb : Text.endsIn Text.isAsciiWord b.head? = false)
    (hparted : b = [] → WebAddress.Parted before (c :: u ++ s)) :
    WebAddress.Edge (b ++ before).reverse (c :: u ++ s) ∨
      Text.endsIn WebAddress.isFolded (b ++ before).head? = true := by
  have hlabel := isLabelChar_of_isCapital hc
  cases hlast : Text.endsIn WebAddress.isLabelChar (b ++ before).head? with
  | false =>
      refine .inl fun d t hd => ?_
      obtain ⟨rfl, -⟩ := List.cons.inj hd
      refine ⟨?_, fun h => ?_⟩
      · rintro rfl
        exact absurd hc (by decide)
      · rw [List.getLast?_reverse, hlast] at h
        exact absurd h (by simp)
  | true =>
      right
      cases b with
      | nil =>
          have hword := hparted rfl c (u ++ s) rfl hlabel
          rw [List.nil_append] at hlast
          cases hhead : before.head? with
          | none => simp [hhead, Text.endsIn] at hlast
          | some d =>
              rw [hhead] at hlast hword
              rw [Text.endsIn, WebAddress.isWord_of_isLabelChar hlast] at hword
              exact absurd hword (by simp)
      | cons d b => exact WebAddress.isFolded_of_isLabelChar hlast hb

/-- The run behind a ticket is closed, and a letter at its start may be frayed. -/
theorem Written.run_of_ticket {before g s out z rest t u : List Char} {c : Char}
    {ps : List (Piece WebAddress)}
    (h : Written e p f (u.reverse ++ before) (g ++ s) out z rest t ps) (hp : p)
    (hu : u.getLast? = some c) (hc : c.isDigit = true)
    (hword : Text.endsIn Text.isAsciiWord g.head? = false)
    (hnext : WebAddress.Parted (g.reverse ++ (u.reverse ++ before)) s)
    (hfree : Marker.Free (g ++ s)) : Marker.Run (e.Calm p) z := by
  refine h.run ?_ (WebAddress.ownsMarkup_of_digit hu hc) hfree
  cases g with
  | nil => exact .inl hnext
  | cons d g =>
      cases hd : WebAddress.isLabelChar d with
      | true => exact .inr ⟨hp, WebAddress.isFolded_of_isLabelChar hd hword⟩
      | false =>
          refine .inl fun x y hxy hx => ?_
          obtain ⟨rfl, -⟩ := List.cons.inj hxy
          rw [hd] at hx
          exact absurd hx (by simp)

/-- A gap between tickets has no tickets when it stands alone. -/
theorem quiet_of_gap {links : TicketLinks} (hlinks : e.tickets = some links)
    {b x g : List Char} (hne : x ≠ []) (h : (Ticket.pattern links.mark).Silent b x g)
    (happart : Text.endsIn Text.isAsciiWord b.head? = true →
      Text.endsIn Text.isAsciiWord x.head? = false)
    (hend : g = [] ∨ Text.endsIn Text.isAsciiWord (x.reverse ++ b).head? = false) :
    e.Quiet x := by
  intro links' hlinks'
  obtain rfl : links' = links := Option.some.inj (hlinks'.symm.trans hlinks)
  refine Ticket.silent_alone h happart fun hword => ?_
  rcases hend with rfl | hend
  · simp [Text.endsIn] at hword
  · rwa [WebAddress.head?_reverse_append _ _ hne, List.head?_reverse] at hend

/-- A ticket is written as a marker, in front of a text for which it is known what is
written. -/
theorem Writes.ticket {links : TicketLinks} (hbase : '}' ∉ links.baseUrl)
    {b g s out digits : List Char} {ts : List (Piece (List Char))} {before : List Char}
    {gapless gapless' : Prop} (hp : p) (hne : links.mark ≠ [])
    (hmark : ∀ c ∈ links.mark, Ticket.isCapital c = true) (hdne : digits ≠ [])
    (hdigits : ∀ c ∈ digits, c.isDigit = true)
    (hbefore : Text.endsIn Text.isAsciiWord b.head? = false)
    (hbehind : Text.endsIn Text.isAsciiWord g.head? = false)
    (hparted : b = [] → WebAddress.Parted before ((links.mark ++ digits) ++ (g ++ s)))
    (hnext : WebAddress.Parted
      (g.reverse ++ ((links.mark ++ digits).reverse ++ (b ++ before))) s)
    (hfree : Marker.Free (g ++ s))
    (h : Writes e p f gapless ((links.mark ++ digits).reverse ++ (b ++ before)) (g ++ s)
      (ticketText links ts ++ out)) :
    Writes e p f gapless' (b ++ before) ((links.mark ++ digits) ++ (g ++ s))
      (ticketText links (.hit digits (links.mark ++ digits) :: ts) ++ out) := by
  obtain ⟨z, rest, t, ps, hwritten, -⟩ := h
  have hword := fun c hc => Ticket.isAsciiWord_of_mem hmark hdigits (c := c) hc
  have hune : links.mark ++ digits ≠ [] := by simp [hne]
  have hlast : (links.mark ++ digits).getLast? = some (digits.getLast hdne) := by
    rw [List.getLast?_append, List.getLast?_eq_some_getLast hdne, Option.some_or]
  have hrun := hwritten.run_of_ticket hp hlast (hdigits _ (List.getLast_mem hdne)) hbehind
    hnext hfree
  obtain ⟨c, hwrite, hmark'⟩ := exists_mark_of_ticket (f := f) hbase hune hword
  have hedge : WebAddress.Edge (b ++ before).reverse ((links.mark ++ digits) ++ (g ++ s)) ∨
      Text.endsIn WebAddress.isFolded (b ++ before).head? = true := by
    obtain ⟨d, mark, hd⟩ := List.exists_cons_of_ne_nil hne
    rw [hd] at hparted ⊢
    exact edge_of_ticket (hmark d (by simp [hd])) hbefore hparted
  have hclose := hwritten.close hrun hmark' (hedge.imp_right fun h => ⟨hp, h⟩)
  have htext : ticketText links (.hit digits (links.mark ++ digits) :: ts) ++ out =
      c ++ '}' :: ([] ++ (ticketText links ts ++ out)) := by
    rw [ticketText_hit, hwrite]
    simp
  rw [htext]
  exact ⟨[], _, _, [], hclose, fun _ => by simp⟩

/-- What is written for a text between addresses, in front of a text for which it is
known. -/
theorem writes_of_tickets {links : TicketLinks} (hlinks : e.tickets = some links)
    (hbase : '}' ∉ links.baseUrl) {b g s out : List Char} {ts : List (Piece (List Char))}
    {before : List Char} (hcuts : (Ticket.pattern links.mark).Cuts b g [] ts)
    (hp : ∀ digits u, Piece.hit digits u ∈ ts → p)
    (happart : Text.endsIn Text.isAsciiWord b.head? = true →
      Text.endsIn Text.isAsciiWord g.head? = false)
    (hparted : b = [] → WebAddress.Parted before (g ++ s))
    (hnext : WebAddress.Parted (g.reverse ++ (b ++ before)) s)
    (hsilent : WebAddress.pattern.Silent (b ++ before) g s) (hfree : Marker.Free (g ++ s))
    (hafter : Writes e p f True (g.reverse ++ (b ++ before)) s out) :
    Writes e p f (∀ x rs, ts ≠ .gap x :: rs) (b ++ before) (g ++ s)
      (ticketText links ts ++ out) := by
  generalize hr : ([] : List Char) = r at hcuts
  induction hcuts with
  | done =>
      obtain ⟨z, rest, t, ps, hwritten, hps⟩ := hafter
      exact ⟨z, rest, t, ps, hwritten, fun _ => hps trivial⟩
  | @gap b x g r ts hne hquiet hmax htail ih =>
      subst hr
      have hend := eq_nil_or_of_cuts htail hmax
      have happart' : Text.endsIn Text.isAsciiWord (x.reverse ++ b).head? = true →
          Text.endsIn Text.isAsciiWord g.head? = false := by
        intro hword
        rcases hend with rfl | hend
        · rfl
        · rw [hend] at hword
          exact absurd hword (by simp)
      rw [List.append_assoc] at hparted hfree
      obtain ⟨z, rest, t, ps, hwritten, hps⟩ := ih
        (fun digits u hu => hp digits u (List.mem_cons_of_mem _ hu)) happart'
        (fun hnil => absurd hnil (by simp [hne])) (by simpa using hnext)
        (by simpa using hsilent.right) hfree.right (by simpa using hafter) rfl
      rw [List.append_nil] at hquiet
      have happart : Text.endsIn Text.isAsciiWord b.head? = true →
          Text.endsIn Text.isAsciiWord x.head? = false := by
        obtain ⟨c, x, rfl⟩ := List.exists_cons_of_ne_nil hne
        exact happart
      have hx := quiet_of_gap hlinks hne hquiet happart hend
      refine ⟨x ++ z, rest, t, .gap x :: ps, ?_, fun h => absurd rfl (h _ _)⟩
      rw [List.append_assoc] at hwritten
      rw [ticketText_gap, List.append_assoc, List.append_assoc]
      exact hwritten.gap hne hsilent.left hx (hps hmax)
  | @hit b u g r digits ts hfinds htail ih =>
      subst hr
      obtain ⟨rfl, hne, hmark, hdne, hdigits, hbefore, hbehind⟩ :=
        Ticket.pattern_finds_iff.1 hfinds
      rw [List.append_nil] at hbehind
      rw [List.append_assoc] at hparted hfree
      have hrest := ih (fun digits' u hu => hp digits' u (List.mem_cons_of_mem _ hu))
        (fun _ => hbehind) (fun hnil => absurd hnil (by simp [hne])) (by simpa using hnext)
        (by simpa using hsilent.right) hfree.right (by simpa using hafter) rfl
      rw [List.append_assoc] at hrest
      rw [List.append_assoc (links.mark ++ digits)]
      exact hrest.ticket hbase (hp digits _ List.mem_cons_self) hne hmark hdne hdigits
        hbefore hbehind hparted (by simpa using hnext) hfree.right

/-- The segments of pieces of a text that was cut at addresses. -/
def addressSegments (e : Expander) (ps : List (Piece WebAddress)) : List Segment :=
  Segment.refine e.cutTickets (ps.map Segment.ofAddress)

/-- What is written for pieces of a text that was cut at addresses. -/
def addressText (e : Expander) (ps : List (Piece WebAddress)) : List Char :=
  (addressSegments e ps).flatMap Segment.written

theorem addressSegments_gap (g : List Char) (ps : List (Piece WebAddress)) :
    addressSegments e (.gap g :: ps) = e.cutTickets g ++ addressSegments e ps := rfl

theorem addressSegments_hit (a : WebAddress) (u : List Char) (ps : List (Piece WebAddress)) :
    addressSegments e (.hit a u :: ps) =
      (if a.inMarkup then .kept u else .address u) :: addressSegments e ps := by
  rw [addressSegments, List.map_cons, Segment.ofAddress]
  split <;> rfl

theorem addressText_gap (g : List Char) (ps : List (Piece WebAddress)) :
    addressText e (.gap g :: ps) =
      (e.cutTickets g).flatMap Segment.written ++ addressText e ps := by
  rw [addressText, addressSegments_gap, List.flatMap_append]
  rfl

theorem addressText_hit (a : WebAddress) (u : List Char) (ps : List (Piece WebAddress)) :
    addressText e (.hit a u :: ps) =
      (if a.inMarkup then u else (Segment.address u).written) ++ addressText e ps := by
  rw [addressText, addressSegments_hit]
  split <;> rfl

/-- What is written for a gap between addresses, in front of a text for which it is known. -/
theorem writes_of_gap {before g s out : List Char}
    (hbase : ∀ links, e.tickets = some links → '}' ∉ links.baseUrl)
    (hp : ∀ u base, .ticket u base ∈ e.cutTickets g → p) (hg : g ≠ [])
    (hparted : WebAddress.Parted before (g ++ s))
    (hnext : WebAddress.Parted (g.reverse ++ before) s)
    (hsilent : WebAddress.pattern.Silent before g s) (hfree : Marker.Free (g ++ s))
    (hafter : Writes e p f True (g.reverse ++ before) s out) :
    Writes e p f False before (g ++ s)
      ((e.cutTickets g).flatMap Segment.written ++ out) := by
  cases hlinks : e.tickets with
  | none =>
      obtain ⟨z, rest, t, ps, hwritten, hps⟩ := hafter
      have hquiet : e.Quiet g := by
        intro links h
        rw [hlinks] at h
        exact absurd h (by simp)
      have htext : (e.cutTickets g).flatMap Segment.written = g := by
        rw [cutTickets, hlinks]
        exact List.append_nil g
      rw [htext]
      exact ⟨g ++ z, rest, t, _,
        hwritten.gap hg hsilent hquiet (hps trivial), fun h => h.elim⟩
  | some links =>
      have hcuts := Text.Pattern.cuts_cutFrom (Ticket.pattern_bounded links.mark) [] g
      have hcut : e.cutTickets g =
          ((Ticket.pattern links.mark).cut g).map (Segment.ofTicket links.baseUrl) := by
        rw [cutTickets, hlinks]
        rfl
      have hp' : ∀ digits u, Piece.hit digits u ∈ (Ticket.pattern links.mark).cut g → p := by
        intro digits u hu
        refine hp u links.baseUrl ?_
        rw [hcut]
        exact List.mem_map.2 ⟨_, hu, rfl⟩
      obtain ⟨z, rest, t, ps, hwritten, -⟩ := writes_of_tickets (b := []) hlinks
        (hbase links hlinks) hcuts hp' (by simp [Text.endsIn])
          (fun _ => hparted) hnext hsilent hfree
        hafter
      rw [hcut]
      exact ⟨z, rest, t, ps, hwritten, fun h => h.elim⟩

/-- What is written for a text without markers. -/
theorem writes_of_addresses {before s : List Char} {qs : List (Piece WebAddress)}
    (hbase : ∀ links, e.tickets = some links → '}' ∉ links.baseUrl)
    (hcuts : WebAddress.pattern.Cuts before s [] qs)
    (hp : ∀ u base, .ticket u base ∈ addressSegments e qs → p)
    (hf : ∀ u, .address u ∈ addressSegments e qs → '}' ∈ u → f)
    (hparted : WebAddress.Parted before s) (hfree : Marker.Free s) :
    Writes e p f (∀ g rs, qs ≠ .gap g :: rs) before s (addressText e qs) := by
  generalize hr : ([] : List Char) = r at hcuts
  induction hcuts with
  | done => exact ⟨[], [], [], [], written_nil _, fun _ => by simp⟩
  | @gap before g s r qs hne hsilent hmax htail ih =>
      subst hr
      have hnext : WebAddress.Parted (g.reverse ++ before) s := by
        cases htail with
        | done => exact fun c t h => absurd h (by simp)
        | gap => exact absurd rfl (hmax _ _)
        | hit hfinds => exact WebAddress.parted_of_finds (by simpa using hfinds)
      have hafter := ih (fun u base hu => hp u base (List.mem_append_right _ hu))
        (fun u hu => hf u (List.mem_append_right _ hu)) hnext hfree.right rfl
      obtain ⟨z, rest, t, ps, hwritten, hps⟩ := hafter
      rw [List.append_nil] at hsilent
      rw [addressText_gap]
      have hbefore := fun u base hu => hp u base (List.mem_append_left _ hu)
      obtain ⟨z', rest', t', ps', hwritten', -⟩ := writes_of_gap hbase
        hbefore hne hparted hnext hsilent hfree
        ⟨z, rest, t, ps, hwritten, fun _ => hps hmax⟩
      exact ⟨z', rest', t', ps', hwritten', fun h => absurd rfl (h _ _)⟩
  | @hit before u s r a qs hfinds htail ih =>
      subst hr
      rw [List.append_nil] at hfinds
      obtain ⟨⟨p', d, v, hform⟩, hfinal⟩ := WebAddress.form_of_finds hfinds
      have hune : u ≠ [] := (WebAddress.pattern_finds_iff.1 hfinds).1
      rw [addressSegments_hit] at hp hf
      obtain ⟨z, rest, t, ps, hwritten, -⟩ := ih
        (fun u base hu => hp u base (List.mem_cons_of_mem _ hu))
        (fun u hu => hf u (List.mem_cons_of_mem _ hu))
        (WebAddress.parted_of_final hune hfinal) hfree.right rfl
      rw [addressText_hit]
      cases ha : a.inMarkup with
      | true => exact ⟨u ++ z, rest, t, _, hwritten.keep hfinds ha, fun _ => by simp⟩
      | false =>
          have hrun := hwritten.run (.inl (WebAddress.parted_of_final hune hfinal))
            (WebAddress.ownsMarkup_of_final hform hfinal) hfree.right
          obtain ⟨c, w, hwrite, hmark⟩ := exists_mark_of_form hform
            (hf u (by rw [ha]; exact List.mem_cons_self))
          have hclose := hwritten.close hrun hmark (.inl (WebAddress.edge_of_finds hfinds))
          have htext : (Segment.address u).written ++ addressText e qs =
              c ++ '}' :: (w ++ addressText e qs) := by
            rw [hwrite]
            simp
          rw [if_neg (by simp), htext]
          exact ⟨[], _, _, [], hclose, fun _ => by simp⟩

end Induction

section GivingUp

variable {e : Expander} {p f : Prop} {k : List Char → Prop}

/-- Whether the search for addresses is given up so early that some are missed. -/
def CutShort (e : Expander) (s : List Char) : Prop :=
  (WebAddress.pattern.upTo e.halt).cut s ≠ WebAddress.pattern.cut s

theorem flatMap_source_addressSegments (e : Expander) (s : List Char) :
    (addressSegments e ((WebAddress.pattern.upTo e.halt).cut s)).flatMap Segment.source =
      s := by
  rw [addressSegments, Segment.flatMap_source_refine e.flatMap_source_cutTickets]
  exact Segment.flatMap_source_cutAddresses e.halt s

/-- Segments that are kept or written as markers are a text between markers, if nothing else
is asked of what stands between them. -/
theorem woven_of_segments (hk : ∀ s, k s) {xs : List Segment}
    (hmarks : ∀ x ∈ xs, x.written = x.source ∨
      ∃ c w, x.written = c ++ '}' :: w ∧ Marker.Mark f c w)
    (hfree : Marker.Free (xs.flatMap Segment.source)) :
    ∃ z y w, xs.flatMap Segment.source = z ++ y ∧ xs.flatMap Segment.written = z ++ w ∧
      Marker.Woven f k w := by
  induction xs with
  | nil => exact ⟨[], [], [], rfl, rfl, .done⟩
  | cons x xs ih =>
      rw [List.flatMap_cons] at hfree
      obtain ⟨z, y, w, hsource, htarget, hwoven⟩ :=
        ih (fun x' hx' => hmarks x' (List.mem_cons_of_mem _ hx')) hfree.right
      rcases hmarks x List.mem_cons_self with hkept | ⟨c, v, hwrite, hmark⟩
      · refine ⟨x.source ++ z, y, w, ?_, ?_, hwoven⟩
        · rw [List.flatMap_cons, hsource, List.append_assoc]
        · rw [List.flatMap_cons, hkept]
          rw [htarget, List.append_assoc]
      · rw [hsource] at hfree
        have hrun : Marker.Run k z := ⟨hfree.right.left, fun x _ _ _ _ => hk x⟩
        refine ⟨[], _, _, rfl, ?_, .mark hmark hrun hwoven⟩
        rw [List.flatMap_cons, hwrite, htarget]
        simp

theorem mark_of_mem_cutTickets (hbase : ∀ links, e.tickets = some links →
    '}' ∉ links.baseUrl)
    {s : List Char} {x : Segment} (hx : x ∈ e.cutTickets s) :
    x.written = x.source ∨ ∃ c w, x.written = c ++ '}' :: w ∧ Marker.Mark f c w := by
  rw [cutTickets] at hx
  split at hx
  · rename_i links hlinks
    obtain ⟨piece, hmem, rfl⟩ := List.mem_map.1 hx
    cases piece with
    | gap g => exact .inl rfl
    | hit digits u =>
        have hcuts := Text.Pattern.cuts_cutFrom (Ticket.pattern_bounded links.mark) [] s
        obtain ⟨_, _, -, hfinds⟩ := hcuts.exists_finds hmem
        obtain ⟨rfl, hne, hmark, -, hdigits, -⟩ := Ticket.pattern_finds_iff.1 hfinds
        obtain ⟨c, hwrite, hmark'⟩ := exists_mark_of_ticket (f := f) (hbase links hlinks)
          (List.append_ne_nil_of_left_ne_nil hne digits)
          fun c hc => Ticket.isAsciiWord_of_mem hmark hdigits hc
        exact .inr ⟨c, [], hwrite, hmark'⟩
  · obtain rfl := List.mem_singleton.1 hx
    exact .inl rfl

theorem mark_of_mem_addressSegments
    (hbase : ∀ links, e.tickets = some links → '}' ∉ links.baseUrl) {s : List Char}
    (hf : ∀ u, .address u ∈ addressSegments e ((WebAddress.pattern.upTo e.halt).cut s) →
      '}' ∈ u → f) {x : Segment}
    (hx : x ∈ addressSegments e ((WebAddress.pattern.upTo e.halt).cut s)) :
    x.written = x.source ∨ ∃ c w, x.written = c ++ '}' :: w ∧ Marker.Mark f c w := by
  rcases Segment.mem_refine.1 hx with ⟨g, -, hg⟩ | ⟨hpiece, -⟩
  · exact mark_of_mem_cutTickets hbase hg
  · obtain ⟨piece, hmem, rfl⟩ := List.mem_map.1 hpiece
    cases piece with
    | gap g => exact .inl rfl
    | hit a u =>
        cases ha : a.inMarkup with
        | true =>
            rw [Segment.ofAddress, if_pos ha]
            exact .inl rfl
        | false =>
            have hcuts :=
              Text.Pattern.cuts_cutFrom (WebAddress.pattern_bounded.upTo e.halt) [] s
            obtain ⟨_, _, -, hfinds⟩ := hcuts.exists_finds hmem
            obtain ⟨⟨p', d, v, hform⟩, -⟩ := WebAddress.form_of_finds hfinds.of_upTo
            have haddress : Segment.ofAddress (.hit a u) = .address u := by
              rw [Segment.ofAddress, ha]
              rfl
            rw [haddress] at hx ⊢
            exact .inr (exists_mark_of_form hform (hf u hx))

/-- What is written for a text without markers is a text between markers.  If the search for
addresses misses some, nothing is known of what stands between the markers. -/
theorem woven_of_gap (hbase : ∀ links, e.tickets = some links → '}' ∉ links.baseUrl)
    {g : List Char} (hfree : Marker.Free g)
    (hp : ∀ u base,
      .ticket u base ∈ addressSegments e ((WebAddress.pattern.upTo e.halt).cut g) → p)
    (hf : ∀ u, .address u ∈ addressSegments e ((WebAddress.pattern.upTo e.halt).cut g) →
      '}' ∈ u → f)
    (hcalm : ∀ s, e.Calm p s → k s) (hshort : e.CutShort g → ∀ s, k s) :
    ∃ z w, addressText e ((WebAddress.pattern.upTo e.halt).cut g) = z ++ w ∧
      Marker.Run k z ∧ Marker.Woven f k w := by
  by_cases hcut : e.CutShort g
  · have hsource := flatMap_source_addressSegments e g
    obtain ⟨z, y, w, hz, htext, hwoven⟩ := woven_of_segments (f := f) (hshort hcut)
      (fun x hx => mark_of_mem_addressSegments hbase hf hx) (by rwa [hsource])
    rw [hsource] at hz
    subst hz
    exact ⟨z, w, htext, ⟨hfree.left, fun x _ _ _ _ => hshort hcut x⟩, hwoven⟩
  · rw [CutShort, Classical.not_not] at hcut
    rw [hcut] at hp hf ⊢
    obtain ⟨z, rest, w, qs, hwritten, -⟩ := writes_of_addresses (p := p) (f := f) hbase
      (Text.Pattern.cuts_cutFrom WebAddress.pattern_bounded [] g) hp hf
        (WebAddress.parted_nil g)
      hfree
    have hrun :=
      hwritten.run (.inl (WebAddress.parted_nil g)) (WebAddress.ownsMarkup_nil g) hfree
    exact ⟨z, w, hwritten.target, hrun.mono hcalm, hwritten.woven.mono hcalm⟩

end GivingUp

section Markers

variable {e : Expander} {p f : Prop}

/-- The segments of pieces of a text that was cut at markers. -/
def markerSegments (e : Expander) (longname : List Char)
    (ps : List (Piece Marker)) : List Segment :=
  Segment.refine e.cutTickets
    (Segment.refine (Segment.cutAddresses e.halt) (ps.map (Segment.ofMarker longname)))

/-- What is written for pieces of a text that was cut at markers. -/
def markerText (e : Expander) (longname : List Char)
    (ps : List (Piece Marker)) : List Char :=
  (markerSegments e longname ps).flatMap Segment.written

theorem expandList_eq (e : Expander) (longname t : List Char) :
    e.expandList longname t = markerText e longname (Marker.pattern.cut t) := rfl

theorem markerSegments_gap (longname g : List Char) (ps : List (Piece Marker)) :
    markerSegments e longname (.gap g :: ps) =
      addressSegments e ((WebAddress.pattern.upTo e.halt).cut g) ++
      markerSegments e longname ps :=
  Segment.refine_append e.cutTickets (Segment.cutAddresses e.halt g) _

theorem markerSegments_hit (longname : List Char) (m : Marker) (u : List Char)
    (ps : List (Piece Marker)) :
    markerSegments e longname (.hit m u :: ps) =
      Segment.ofMarker longname (.hit m u) :: markerSegments e longname ps := by
  rw [markerSegments, List.map_cons, Segment.ofMarker]
  split <;> rfl

theorem markerText_gap (longname g : List Char) (ps : List (Piece Marker)) :
    markerText e longname (.gap g :: ps) =
      addressText e ((WebAddress.pattern.upTo e.halt).cut g) ++
      markerText e longname ps := by
  rw [markerText, markerSegments_gap, List.flatMap_append]
  rfl

theorem markerText_hit (longname : List Char) (m : Marker) (u : List Char)
    (ps : List (Piece Marker)) :
    markerText e longname (.hit m u :: ps) =
      (Segment.ofMarker longname (.hit m u)).written ++ markerText e longname ps := by
  rw [markerText, markerSegments_hit]
  rfl

theorem exists_mark_of_hit {longname u rest : List Char} {m : Marker}
    (hname : '}' ∉ longname)
    (hread : Marker.read? (u ++ rest) = some (m, rest)) :
    ∃ c, (Segment.ofMarker longname (.hit m u)).written = c ++ ['}'] ∧
    Marker.Mark f c [] := by
  rw [Segment.ofMarker]
  split
  · rename_i k hk
    refine exists_mark_of_member hk fun h => hname ?_
    exact (List.takeWhile_sublist _).mem h
  · rename_i hm
    exact Marker.mark_of_read? hread hm

theorem free_of_silent {before g rest : List Char}
    (h : Marker.pattern.Silent before g rest) :
    Marker.Free g := by
  intro x y hxy
  by_cases hy : y = []
  · subst hy
    rfl
  · have hnone := h x y hxy hy
    rw [Marker.pattern_eq_none_iff] at hnone
    refine Option.eq_none_iff_forall_ne_some.2 fun ⟨m, r⟩ hm => ?_
    rw [Marker.read?_append rest hm] at hnone
    exact absurd hnone (by simp)

/-- An expansion is a text between markers, of which `k` holds if it holds of calm texts, and
of all texts once an address was missed. -/
theorem woven_of_cuts {before t longname : List Char} {ps : List (Piece Marker)}
    {k : List Char → Prop} (hbase : ∀ links, e.tickets = some links → '}' ∉ links.baseUrl)
    (hname : '}' ∉ longname) (hcuts : Marker.pattern.Cuts before t [] ps)
    (hp : ∀ u base, .ticket u base ∈ markerSegments e longname ps → p)
    (hf : ∀ u, .address u ∈ markerSegments e longname ps → '}' ∈ u → f)
    (hcalm : ∀ s, e.Calm p s → k s)
    (hshort : ∀ g, Piece.gap g ∈ ps → e.CutShort g → ∀ s, k s) :
    (∃ z w, markerText e longname ps = z ++ w ∧ Marker.Run k z ∧ Marker.Woven f k w) ∧
      ((∀ g rs, ps ≠ .gap g :: rs) → Marker.Woven f k (markerText e longname ps)) := by
  generalize hr : ([] : List Char) = r at hcuts
  induction hcuts with
  | done => exact ⟨⟨[], [], rfl, Marker.run_nil, .done⟩, fun _ => .done⟩
  | @gap before g s r ps hne hsilent hmax _ ih =>
      subst hr
      rw [markerSegments_gap] at hp hf
      obtain ⟨-, hwoven⟩ := ih (fun u base hu => hp u base (List.mem_append_right _ hu))
        (fun u hu => hf u (List.mem_append_right _ hu))
        (fun g' hg' => hshort g' (List.mem_cons_of_mem _ hg')) rfl
      obtain ⟨z, w, htext, hrun, hwoven'⟩ := woven_of_gap hbase (free_of_silent hsilent)
        (fun u base hu => hp u base (List.mem_append_left _ hu))
        (fun u hu => hf u (List.mem_append_left _ hu)) hcalm (hshort g List.mem_cons_self)
      refine ⟨⟨z, w ++ markerText e longname ps, ?_, hrun, hwoven'.append (hwoven hmax)⟩,
        fun h => absurd rfl (h _ _)⟩
      rw [markerText_gap, htext, List.append_assoc]
  | @hit before u s r m ps hfinds _ ih =>
      subst hr
      rw [markerSegments_hit] at hp hf
      obtain ⟨⟨z, w, htext, hrun, hwoven⟩, -⟩ := ih
        (fun u base hu => hp u base (List.mem_cons_of_mem _ hu))
        (fun u hu => hf u (List.mem_cons_of_mem _ hu))
        (fun g hg => hshort g (List.mem_cons_of_mem _ hg)) rfl
      obtain ⟨c, hwrite, hmark⟩ := exists_mark_of_hit (f := f) hname
        (Marker.pattern_finds_iff.1 hfinds).2
      have hall : Marker.Woven f k (markerText e longname (.hit m u :: ps)) := by
        rw [markerText_hit, hwrite, htext]
        simpa using Marker.Woven.mark hmark hrun hwoven
      exact ⟨⟨[], _, rfl, Marker.run_nil, hall⟩, fun _ => hall⟩

end Markers

end Expander
end DocLinks
