import DocLinks.Expansion.Segment
import DocLinks.Proofs.AddressSurroundings

/-!
# Addresses are cut cleanly

Where the addresses of a text begin and end.  The reader tries longer ways to go on before
shorter ones, and steps back when they lead to no end, so the end of an address is told by
the end of the way that is left: its last step.

**Invariant.**  Whatever stands in front of a text that ends cleanly, the whole ends cleanly,
since an opening parenthesis stays in front of the closing one.  So only the last step of a
reading counts, and all steps before it are put in front.

**Results.**
* `pairwise_hitSpans`, `mem_hitSpans_of_split`: the spans of hits are apart and in order.
* `Goes.endsClean`, `exists_lastLabel`: the ends of full addresses and of bare domains.
* `cut_clean`: what is known about each address of a text at its place.
-/

namespace DocLinks
namespace Text

section Spans

variable {α : Type}

/-- The spans of the hits among the pieces of a text, of which the first one starts at an
index. -/
def hitSpans : (i : Nat) → List (Piece α) → List (Nat × Nat)
  | _, [] => []
  | i, .gap s :: ps => hitSpans (i + s.length) ps
  | i, .hit _ u :: ps => (i, i + u.length) :: hitSpans (i + u.length) ps

theorem le_of_mem_hitSpans {i : Nat} {ps : List (Piece α)} {x : Nat × Nat}
    (h : x ∈ hitSpans i ps) :
    i ≤ x.1 := by
  induction ps generalizing i with
  | nil => simp [hitSpans] at h
  | cons q ps ih =>
      cases q with
      | gap s =>
          have := ih h
          omega
      | hit v u =>
          rcases List.mem_cons.1 h with rfl | h
          · exact Nat.le_refl i
          · have := ih h
            omega

/-- No hit begins before the one in front of it has ended. -/
theorem pairwise_hitSpans (i : Nat) (ps : List (Piece α)) :
    (hitSpans i ps).Pairwise fun x y => x.2 ≤ y.1 := by
  induction ps generalizing i with
  | nil => exact .nil
  | cons q ps ih =>
      cases q with
      | gap s => exact ih _
      | hit v u => exact .cons (fun y hy => le_of_mem_hitSpans hy) (ih _)

theorem hitSpans_append (i : Nat) (front ps : List (Piece α)) :
    hitSpans i (front ++ ps) =
      hitSpans i front ++ hitSpans (i + (front.flatMap Piece.source).length) ps := by
  induction front generalizing i with
  | nil => rfl
  | cons q front ih =>
      rw [List.flatMap_cons, List.length_append, ← Nat.add_assoc]
      cases q with
      | gap s => exact ih _
      | hit v u => exact congrArg ((i, i + u.length) :: ·) (ih _)

theorem mem_hitSpans_of_split (i : Nat) (front back : List (Piece α))
    (v : α) (u : List Char) :
    (i + (front.flatMap Piece.source).length,
        i + (front.flatMap Piece.source).length + u.length) ∈
      hitSpans i (front ++ .hit v u :: back) := by
  rw [hitSpans_append, hitSpans]
  exact List.mem_append_right _ List.mem_cons_self

end Spans

end Text

namespace WebAddress

open Text (Piece)

/-- A text ends cleanly: not in a blank, and in no punctuation but a closing parenthesis with
an opening one in front of it. -/
def EndsClean (u : List Char) : Prop :=
  ∃ v c, u = v ++ [c] ∧ Text.isBlank c = false ∧ (c ∉ endPunctuation ∨ c = ')' ∧ '(' ∈ v)

section Ends

theorem EndsClean.append {u : List Char} (h : EndsClean u) (w : List Char) :
    EndsClean (w ++ u) := by
  obtain ⟨v, c, rfl, hblank, hend⟩ := h
  refine ⟨w ++ v, c, by rw [List.append_assoc], hblank, ?_⟩
  exact hend.imp_right fun ⟨hclose, hopen⟩ => ⟨hclose, List.mem_append_right _ hopen⟩

theorem endsClean_of_isLast {c : Char} (h : isLast c = true) : EndsClean [c] := by
  simp only [isLast, Bool.and_eq_true, Bool.not_eq_true', List.contains_eq_mem,
    decide_eq_false_iff_not] at h
  exact ⟨[], c, rfl, h.1, .inl h.2⟩

theorem Pair.endsClean {s t : List Char} (h : Pair s t) : ∃ u, s = u ++ t ∧ EndsClean u := by
  obtain ⟨c, x, rfl, -⟩ := h
  refine ⟨'(' :: c :: x ++ [')'], by simp, '(' :: c :: x, ')', rfl,
    by decide, .inr ⟨rfl, ?_⟩⟩
  exact List.mem_cons_self

/-- The ways in which a full address goes on end cleanly. -/
theorem Goes.endsClean {begun : Bool} {s rest : List Char} (h : Goes begun s rest) :
    ∃ u, s = u ++ rest ∧ EndsClean u := by
  induction h with
  | @inner _ c _ _ _ _ ih =>
      obtain ⟨u, rfl, hu⟩ := ih
      exact ⟨[c] ++ u, rfl, hu.append [c]⟩
  | @last c s _ hlast => exact ⟨[c], rfl, endsClean_of_isLast hlast⟩
  | pair hpair _ ih =>
      obtain ⟨v, rfl, -⟩ := hpair.endsClean
      obtain ⟨u, rfl, hu⟩ := ih
      exact ⟨v ++ u, by rw [List.append_assoc], hu.append v⟩
  | lastPair hpair => exact hpair.endsClean

theorem full?_endsClean {s rest : List Char} (h : full? s = some rest) :
    ∃ u, s = u ++ rest ∧ EndsClean u := by
  rw [full?_eq_or] at h
  rcases Option.or_eq_some_iff.1 h with h | ⟨-, h⟩
  · obtain ⟨x, hscheme, hx⟩ := Option.bind_eq_some_iff.1 h
    obtain ⟨p, rfl, -⟩ := afterScheme?_eq_some_iff.1 hscheme
    rw [afterColon?_eq_findSome?] at hx
    obtain ⟨y, hy, hrest⟩ := List.exists_of_findSome?_eq_some hx
    obtain ⟨w, -, rfl, -⟩ := exists_of_mem_colonStarts hy
    obtain ⟨u, rfl, hu⟩ := (goes_of_tail? hrest).endsClean
    exact ⟨p ++ ':' :: w ++ u, by simp, hu.append _⟩
  · obtain ⟨x, hhost, hrest⟩ := Option.bind_eq_some_iff.1 h
    obtain ⟨host, rfl, -⟩ := afterHost?_eq_some_iff.1 hhost
    obtain ⟨u, rfl, hu⟩ := (goes_of_tail? hrest).endsClean
    exact ⟨host ++ ['/'] ++ u, by simp, hu.append _⟩

end Ends

section Domains

/-- The end of a bare domain: a top-level domain, perhaps with a slash behind it. -/
def EndsInDomain (u : List Char) : Prop :=
  ∃ w top slash, u = w ++ '.' :: (top ++ slash) ∧ top ≠ [] ∧
  (∀ c ∈ top, isLabelChar c = true) ∧
    isTopLevel TopLevel.all top = true ∧ (slash = [] ∨ slash = ['/'])

theorem EndsInDomain.append {u : List Char} (h : EndsInDomain u) (w : List Char) :
    EndsInDomain (w ++ u) := by
  obtain ⟨v, top, slash, rfl, htop⟩ := h
  exact ⟨w ++ v, top, slash, by rw [List.append_assoc], htop⟩

theorem EndsInDomain.endsClean {u : List Char} (h : EndsInDomain u) : EndsClean u := by
  obtain ⟨w, top, slash, rfl, hne, hlabel, -, hslash⟩ := h
  rcases hslash with rfl | rfl
  · obtain ⟨v, c, rfl⟩ := (List.eq_nil_or_concat top).resolve_left hne
    have hc := endsClean_of_isLast (isLast_of_isLabelChar (hlabel c (by simp)))
    simpa using hc.append (w ++ '.' :: v)
  · have hc : EndsClean ['/'] := endsClean_of_isLast (by decide)
    simpa using hc.append (w ++ '.' :: top)

/-- Behind a bare domain stands no at sign: the slash that it could follow is given back. -/
theorem domainEnd?_end {s rest : List Char} (h : domainEnd? s = some rest) :
    ∃ slash, s = slash ++ rest ∧ (slash = [] ∨ slash = ['/']) ∧ rest.head? ≠ some '@' := by
  cases s with
  | nil =>
      obtain rfl := Option.some.inj h
      exact ⟨[], rfl, .inl rfl, by simp⟩
  | cons c t =>
      by_cases hc : c = '/'
      · subst hc
        rw [domainEnd?_slash] at h
        obtain rfl := Option.some.inj h
        split
        · exact ⟨[], rfl, .inl rfl, by simp⟩
        · rename_i hat
          exact ⟨['/'], rfl, .inr rfl, hat⟩
      · rw [domainEnd?_cons hc] at h
        split at h
        · simp at h
        · rename_i hword
          obtain rfl := Option.some.inj h
          exact ⟨[], rfl, .inl rfl, by simpa using (not_or.1 hword).1⟩

/-- The last label of a bare domain is a top-level domain, and no at sign follows. -/
theorem exists_lastLabel {s rest : List Char} (h : moreLabels? s = some rest) :
    ∃ u, s = u ++ rest ∧ EndsInDomain u ∧ rest.head? ≠ some '@' := by
  generalize hn : s.length = n
  induction n using Nat.strongRecOn generalizing s with
  | ind n ih =>
      cases s with
      | nil => simp [moreLabels?_nil] at h
      | cons d t =>
          have hdrop := length_dropWhile_le isLabelChar t
          have hsplit := List.takeWhile_append_dropWhile (p := isLabelChar) (l := t)
          rw [moreLabels?_cons] at h
          split at h
          · rename_i hlabel
            rcases Option.or_eq_some_iff.1 h with h | ⟨-, h⟩
            · obtain ⟨u, hu, hend, hat⟩ := ih _ (by rw [← hn, List.length_cons]; omega) h rfl
              refine ⟨d :: t.takeWhile isLabelChar ++ u, ?_, hend.append _, hat⟩
              rw [List.append_assoc, ← hu]
              rw [List.cons_append, hsplit]
            · split at h
              · rename_i htop
                obtain ⟨slash, hslash, hform, hat⟩ := domainEnd?_end h
                refine ⟨'.' :: (t.takeWhile isLabelChar ++ slash), ?_,
                  ⟨[], _, slash, rfl, hlabel.2, fun c hc => Text.mem_takeWhile hc,
                    htop.2, hform⟩, hat⟩
                rw [List.cons_append, List.append_assoc, ← hslash]
                rw [hsplit, htop.1]
              · simp at h
          · simp at h

theorem domain?_end {s rest : List Char} (h : domain? s = some rest) :
    ∃ u, s = u ++ rest ∧ EndsInDomain u ∧ rest.head? ≠ some '@' := by
  obtain ⟨-, hmore⟩ := domain?_eq_some_iff.1 h
  obtain ⟨u, hu, hend, hat⟩ := exists_lastLabel hmore
  refine ⟨s.takeWhile isLabelChar ++ u, ?_, hend.append _, hat⟩
  rw [List.append_assoc, ← hu, List.takeWhile_append_dropWhile]

end Domains

/-- What is known about an address between what stands before and after it.  It has
characters, begins at a boundary of words, has no blanks and ends cleanly.  A bare domain
ends in a top-level domain and is not the host of a mail address.  An address is written as a
marker unless it belongs to markup already; then it is written as it is. -/
structure CleanlyCut (before u after : List Char) (a : WebAddress) : Prop where
  ne_nil : u ≠ []
  boundary : Text.atBoundary Text.isWord before.getLast? u.head? = true
  noBlanks : ∀ c ∈ u, Text.isBlank c = false
  endsClean : EndsClean u
  ofDomain : a.shape = .domain → EndsInDomain u ∧ after.head? ≠ some '@'
  wrapped_iff : (Segment.ofAddress (.hit a u)).written = "\x7b@link ".toList ++ u ++ ['}'] ↔
    ¬ ∃ lead ∈ markupLeads, lead <:+ before
  kept : (∃ lead ∈ markupLeads, lead <:+ before) → (Segment.ofAddress (.hit a u)).written = u

section Places

variable {before u rest : List Char} {a : WebAddress}

theorem followsMarkup_reverse_iff :
    followsMarkup before.reverse = true ↔ ∃ lead ∈ markupLeads, lead <:+ before := by
  rw [followsMarkup, List.any_eq_true]
  simp only [List.isPrefixOf_iff_prefix, List.reverse_prefix]

theorem written_ofAddress (a : WebAddress) (u : List Char) :
    (Segment.ofAddress (.hit a u)).written =
      if a.inMarkup then u else "\x7b@link ".toList ++ u ++ ['}'] := by
  rw [← Marker.write_none, Segment.ofAddress]
  split <;> rfl

/-- What the pattern of addresses finds is cut cleanly. -/
theorem cleanlyCut_of_finds (h : pattern.Finds before.reverse u rest a) :
    CleanlyCut before u rest a := by
  obtain ⟨⟨p, d, v, hform⟩, -⟩ := form_of_finds h
  obtain ⟨hne, hboundary, hread, hmarkup⟩ := pattern_finds_iff.1 h
  have hwritten := written_ofAddress a u
  rw [hmarkup] at hwritten
  refine ⟨hne, by rwa [List.head?_reverse] at hboundary, hform.tight.1, ?_, ?_, ?_, ?_⟩
  · rcases read?_eq_some_iff.1 hread with ⟨hfull, -⟩ | ⟨-, hdomain, -⟩
    · obtain ⟨u', hu, hend⟩ := full?_endsClean hfull
      rwa [List.append_cancel_right hu]
    · obtain ⟨u', hu, hend, -⟩ := domain?_end hdomain
      rw [List.append_cancel_right hu]
      exact hend.endsClean
  · intro hshape
    rcases read?_eq_some_iff.1 hread with ⟨-, hfull⟩ | ⟨-, hdomain, -⟩
    · rw [hshape] at hfull
      cases hfull
    · obtain ⟨u', hu, hend⟩ := domain?_end hdomain
      rwa [List.append_cancel_right hu]
  · rw [← followsMarkup_reverse_iff, hwritten]
    cases followsMarkup before.reverse with
    | false => simp
    | true =>
        refine iff_of_false (fun heq => ?_) (by simp)
        have hlength := congrArg List.length heq
        simp at hlength
        omega
  · intro hlead
    rw [hwritten, if_pos (followsMarkup_reverse_iff.2 hlead)]

end Places

/-- The addresses of a text are cut out of it in order and apart from each other, wherever
the search for them is given up.  Each begins at a boundary of words, has no blanks and ends
cleanly; a bare domain is not the host of a mail address; and a marker is written for it
unless it belongs to markup already. -/
theorem cut_clean (halt : Text.Halt) (s : List Char) :
    Segment.cutAddresses halt s = ((pattern.upTo halt).cut s).map Segment.ofAddress ∧
    (Text.hitSpans 0 ((pattern.upTo halt).cut s)).Pairwise (fun x y => x.2 ≤ y.1) ∧
    ∀ front a u back, (pattern.upTo halt).cut s = front ++ .hit a u :: back →
      let before := front.flatMap Piece.source
      let after := back.flatMap Piece.source
      s = before ++ (u ++ after) ∧
      (before.length, before.length + u.length) ∈
        Text.hitSpans 0 ((pattern.upTo halt).cut s) ∧
      CleanlyCut before u after a := by
  refine ⟨rfl, Text.pairwise_hitSpans 0 _, fun front a u back hpieces => ?_⟩
  intro before after
  have hcuts : (pattern.upTo halt).Cuts [] s [] ((pattern.upTo halt).cut s) :=
    Text.Pattern.cuts_cutFrom (pattern_bounded.upTo halt) [] s
  have hfinds := (hcuts.finds_of_split hpieces).of_upTo
  rw [List.append_nil, List.append_nil] at hfinds
  refine ⟨?_, ?_, cleanlyCut_of_finds hfinds⟩
  · rw [← hcuts.flatMap_source, hpieces]
    rw [List.flatMap_append, List.flatMap_cons]
    rfl
  · have hspan := Text.mem_hitSpans_of_split 0 front back a u
    rwa [Nat.zero_add, ← hpieces] at hspan

end WebAddress
end DocLinks
