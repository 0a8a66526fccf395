import DocLinks.Proofs.AddressReading
import DocLinks.Proofs.Cutting
import DocLinks.Proofs.MarkerGrammar

/-!
# Addresses and what stands around them

A part of a text is cut at the same addresses when it stands alone, provided that nothing
around it takes part in reading them: no letter before or behind that belongs to the same
word, and no markup.

**Results.**
* `pattern_finds_iff`, `pattern_ne_none_iff`: what the pattern of addresses finds.
* `Cuts.alone`: the cut of a part of a text is that of the part alone.
* `Cuts.truncate`: no address reaches into a marker that opens behind it.
* `parted_of_final`, `ownsMarkup_of_final`: nothing of an address takes part in reading what
  follows it.
* `edge_of_finds`: nor does an address take part in reading what precedes it.
-/

namespace DocLinks
namespace WebAddress

open Text (Piece)

section Patterns

/-- Reads an address at a boundary of words. -/
def readAt? (before s : List Char) : Option (WebAddress × List Char) :=
  if Text.atBoundary Text.isWord before.head? s.head? then
    (read? s).map fun (shape, rest) => (⟨shape, followsMarkup before⟩, rest)
  else none

theorem pattern_eq_ofReader : pattern = Text.Pattern.ofReader readAt? := by
  funext before s
  simp only [pattern, Text.Pattern.ofReader, readAt?]
  split
  · rw [Option.map_map]
    rfl
  · rfl

theorem readAt?_eq_some_iff {before s rest : List Char} {a : WebAddress} :
    readAt? before s = some (a, rest) ↔
      Text.atBoundary Text.isWord before.head? s.head? = true ∧
        read? s = some (a.shape, rest) ∧ a.inMarkup = followsMarkup before := by
  unfold readAt?
  split
  · rename_i hboundary
    simp only [Option.map_eq_some_iff, Prod.mk.injEq]
    constructor
    · rintro ⟨⟨shape, rest⟩, hread, rfl, rfl⟩
      exact ⟨hboundary, hread, rfl⟩
    · rintro ⟨-, hread, hmarkup⟩
      exact ⟨(a.shape, rest), hread, by rw [← hmarkup], rfl⟩
  · rename_i hboundary
    simp [hboundary]

theorem advances_readAt? : Text.Pattern.Advances readAt? := by
  intro before s a rest h
  obtain ⟨-, hread, -⟩ := readAt?_eq_some_iff.1 h
  obtain ⟨u, p, d, v, rfl, hform, -⟩ := read?_spec hread
  exact ⟨u, by simp [hform.eq], rfl⟩

theorem pattern_bounded : pattern.Bounded := by
  rw [pattern_eq_ofReader]
  exact Text.Pattern.ofReader_bounded advances_readAt?

theorem pattern_finds_iff {before u rest : List Char} {a : WebAddress} :
    pattern.Finds before u rest a ↔
      u ≠ [] ∧ Text.atBoundary Text.isWord before.head? u.head? = true ∧
        read? (u ++ rest) = some (a.shape, rest) ∧ a.inMarkup = followsMarkup before := by
  rw [pattern_eq_ofReader, Text.Pattern.ofReader_finds_iff advances_readAt?]
  rw [readAt?_eq_some_iff]
  constructor
  · rintro ⟨hne, hboundary, h⟩
    obtain ⟨c, u, rfl⟩ := List.exists_cons_of_ne_nil hne
    exact ⟨hne, hboundary, h⟩
  · rintro ⟨hne, hboundary, h⟩
    obtain ⟨c, u, rfl⟩ := List.exists_cons_of_ne_nil hne
    exact ⟨hne, hboundary, h⟩

theorem pattern_ne_none_iff {before s : List Char} :
    pattern before s ≠ none ↔
      Text.atBoundary Text.isWord before.head? s.head? = true ∧ read? s ≠ none := by
  unfold pattern
  split
  · rename_i hboundary
    simp [hboundary]
  · rename_i hboundary
    simp [hboundary]

/-- What an address looks like where it is found. -/
theorem form_of_finds {before u rest : List Char} {a : WebAddress}
    (h : pattern.Finds before u rest a) : (∃ p d v, Form u p d v) ∧ Final u rest := by
  obtain ⟨-, -, hread, -⟩ := pattern_finds_iff.1 h
  obtain ⟨u', p, d, v, hsplit, hform, hfinal⟩ := read?_spec hread
  obtain rfl := List.append_cancel_right hsplit
  exact ⟨⟨p, d, v, hform⟩, hfinal⟩

end Patterns

section Leads

/-- A text behind which an address belongs to markup is long enough to show it, or it
continues the end of what stands before it. -/
theorem lead_of_followsMarkup {y b : List Char} (h : followsMarkup (y.reverse ++ b) = true) :
    followsMarkup y.reverse = true ∨
      ∃ lead a w, lead ∈ markupLeads ∧ lead = a ++ y ∧ a ≠ [] ∧ b.reverse = w ++ a := by
  obtain ⟨lead, hlead, hstart⟩ := List.any_eq_true.1 h
  obtain ⟨t, ht⟩ := List.isPrefixOf_iff_prefix.1 hstart
  rcases List.append_eq_append_iff.1 ht with ⟨a, hy, -⟩ | ⟨a, hl, hb⟩
  · refine .inl (List.any_eq_true.2 ⟨lead, hlead, ?_⟩)
    rw [List.isPrefixOf_iff_prefix, hy]
    exact List.prefix_append _ _
  · have hlead' : lead = a.reverse ++ y := by
      have := congrArg List.reverse hl
      simpa using this
    cases a with
    | nil =>
        rw [List.append_nil] at hl
        refine .inl (List.any_eq_true.2 ⟨lead, hlead, ?_⟩)
        exact List.isPrefixOf_iff_prefix.2 (hl ▸ List.prefix_rfl)
    | cons c a =>
        exact .inr ⟨lead, (c :: a).reverse, t.reverse, hlead, hlead',
          by simp, by rw [hb]; simp⟩

end Leads

section Alone

/-- What stands before a text is of another word than a letter or digit that the text starts
with. -/
def Parted (before s : List Char) : Prop :=
  ∀ c t, s = c :: t → isLabelChar c = true → Text.endsIn Text.isWord before.head? = false

/-- An address in a text belongs to markup only if the markup is in the text as well. -/
def OwnsMarkup (before s : List Char) : Prop :=
  ∀ y z, s = y ++ z → read? z ≠ none → followsMarkup (y.reverse ++ before) = true →
    followsMarkup y.reverse = true

theorem parted_nil (s : List Char) : Parted [] s := by
  intro c t _ _
  rfl

theorem ownsMarkup_nil (s : List Char) : OwnsMarkup [] s := by
  intro y z _ _ h
  simpa using h

theorem isLabelChar_of_isHostChar {c : Char} (h : isHostChar c = true)
    (hword : Text.isWord c = true) : isLabelChar c = true := by
  simp only [isHostChar, Bool.or_eq_true, beq_iff_eq] at h
  rcases h with (h | rfl) | rfl
  · exact h
  · exact absurd hword (by decide +kernel)
  · exact absurd hword (by decide +kernel)

/-- At the start of a text that stands alone an address is a boundary. -/
theorem atBoundary_of_parted {before s : List Char} (hparted : Parted before s)
    (hread : read? s ≠ none) (h : Text.atBoundary Text.isWord none s.head? = true) :
    Text.atBoundary Text.isWord before.head? s.head? = true := by
  obtain ⟨c, t, rfl, hhost⟩ := isHostChar_of_read? hread
  have hword : Text.isWord c = true := by
    simpa [Text.atBoundary, Text.endsIn] using h
  have hbefore := hparted c t rfl (isLabelChar_of_isHostChar hhost hword)
  rw [Text.atBoundary, hbefore]
  simp [Text.endsIn, hword]

theorem head?_reverse_append (y before : List Char) (hy : y ≠ []) :
    (y.reverse ++ before).head? = y.reverse.head? := by
  have hne : y.reverse ≠ [] := by simpa using hy
  obtain ⟨c, t, hct⟩ := List.exists_cons_of_ne_nil hne
  rw [hct]
  rfl

variable {before z rest : List Char} {ps : List (Piece WebAddress)}

theorem alone_eq_none (hparted : Parted before (z ++ rest)) (hedge : Edge z rest)
    {x y : List Char} (hz : z = x ++ y) (hy : y ≠ [])
    (h : pattern (x.reverse ++ before) (y ++ rest) = none) : pattern x.reverse y = none := by
  subst hz
  refine Classical.byContradiction fun hne => ?_
  obtain ⟨hboundary, hread⟩ := pattern_ne_none_iff.1 hne
  have hlong := read?_ne_none_append hedge.right hread
  refine absurd h (pattern_ne_none_iff.2 ⟨?_, hlong⟩)
  cases x with
  | nil =>
      obtain ⟨d, y, rfl⟩ := List.exists_cons_of_ne_nil hy
      exact atBoundary_of_parted hparted hlong hboundary
  | cons c x =>
      rw [head?_reverse_append _ _ (by simp)]
      obtain ⟨d, y, rfl⟩ := List.exists_cons_of_ne_nil hy
      exact hboundary

theorem alone_finds (howns : OwnsMarkup before (z ++ rest)) (hedge : Edge z rest)
    {x u y : List Char} {a : WebAddress} (hz : z = x ++ (u ++ y)) (ha : a.inMarkup = true)
    (h : pattern.Finds (x.reverse ++ before) u (y ++ rest) a) :
    pattern.Finds x.reverse u y a := by
  subst hz
  obtain ⟨hne, hboundary, hread, hmarkup⟩ := pattern_finds_iff.1 h
  have hread' : read? ((u ++ y) ++ rest) = some (a.shape, y ++ rest) := by
    rwa [List.append_assoc]
  rw [ha] at hmarkup
  have hown := howns x (u ++ (y ++ rest)) (by simp) (by simp [hread]) hmarkup.symm
  refine pattern_finds_iff.2 ⟨hne, ?_, read?_of_append hedge.right hread', by rw [ha, hown]⟩
  cases x with
  | nil => exact absurd hown (by decide)
  | cons c x =>
      rwa [head?_reverse_append _ _ (by simp)] at hboundary

/-- The cut of a part of a text is that of the part alone, if nothing around it takes
part. -/
theorem Cuts.alone (h : pattern.Cuts before z rest ps)
    (hps : ∀ a u, Piece.hit a u ∈ ps → a.inMarkup = true)
    (hparted : Parted before (z ++ rest))
    (howns : OwnsMarkup before (z ++ rest)) (hedge : Edge z rest) :
    pattern.Cuts [] z [] ps := by
  refine h.transfer ?_ ?_
  · intro x y hz hy hnone
    simpa using alone_eq_none hparted hedge hz hy hnone
  · intro x u y a hz hmem hfinds
    simpa using alone_finds howns hedge hz (hps a u hmem) hfinds

end Alone

section Surroundings

/-- Nothing of an address belongs to the same word as a letter or digit behind it. -/
theorem parted_of_final {u before rest : List Char} (hne : u ≠ []) (h : Final u rest) :
    Parted (u.reverse ++ before) rest := by
  intro c t hrest hc
  subst hrest
  rcases h with htail | ⟨-, hslash | hword⟩
  · have hgoes : Goes true (c :: t) t :=
      .last (isInner_of_isLabelChar hc) (isLast_of_isLabelChar hc)
    exact absurd htail (tail?_ne_none hgoes)
  · rw [head?_reverse_append _ _ hne, List.head?_reverse, hslash]
    have hword : Text.isWord '/' = false := by decide +kernel
    exact hword
  · have := isWord_of_isLabelChar hc
    rw [List.head?_cons, Text.endsIn, this] at hword
    exact absurd hword (by simp)

/-- An address is no part of the start of a marker. -/
theorem not_brace_of_form {u p v a w : List Char} {d : Char} {before : List Char}
    (hform : Form u p d v) (ha : ∀ c ∈ a, c ∈ "@link".toList)
    (h : (u.reverse ++ before).reverse = w ++ '{' :: a) : False := by
  have hsplit : before.reverse ++ u = w ++ '{' :: a := by simpa using h
  rcases List.append_eq_append_iff.1 hsplit with ⟨x, -, hx⟩ | ⟨x, -, hx⟩
  · have hparen := hform.tight.2 x a hx
    exact absurd (ha _ hparen) (by decide)
  · have hd : d ∈ '{' :: a := by
      rw [hx, hform.eq]
      simp
    have hsep := hform.separator
    rcases List.mem_cons.1 hd with rfl | hd
    · exact absurd hsep (by decide)
    · simp only [List.mem_cons, List.not_mem_nil, or_false] at hsep
      have hlink := ha d hd
      rcases hsep with rfl | rfl | rfl | rfl <;> exact absurd hlink (by decide)

theorem getLast?_eq_of_split {u before w a : List Char} (hu : u ≠ []) (ha : a ≠ [])
    (h : (u.reverse ++ before).reverse = w ++ a) : a.getLast? = u.getLast? := by
  have hlast := congrArg List.getLast? h
  simp only [List.reverse_append, List.reverse_reverse, List.getLast?_append] at hlast
  rw [List.getLast?_eq_some_getLast hu, List.getLast?_eq_some_getLast ha] at hlast ⊢
  exact hlast.symm

/-- The start of a lead ends in a character that no bare domain ends in, and the rest of the
lead could be a part of a full address; or it is the start of a marker before its blank. -/
theorem take_lead : ∀ lead ∈ markupLeads, ∀ n ≤ lead.length, n ≠ 0 →
    ((lead.drop n).all isInner = true ∧
      (lead.take n).getLast?.any (fun c => isHostChar c || c == '/') = false) ∨
    ((lead.take n).head? = some '{' ∧
      (lead.take n).tail.all "@link".toList.contains = true) := by
  decide +kernel

/-- An address is no part of the markup in front of an address behind it. -/
theorem ownsMarkup_of_final {u p v before rest : List Char} {d : Char} (hform : Form u p d v)
    (h : Final u rest) : OwnsMarkup (u.reverse ++ before) rest := by
  intro y z hrest hread hmarkup
  rcases lead_of_followsMarkup hmarkup with h' | ⟨lead, a, w, hlead, hl, ha, hb⟩
  · exact h'
  exfalso
  have hu : u ≠ [] := by simp [hform.eq]
  have hcases := take_lead lead hlead a.length (by simp [hl]) (by simpa using ha)
  rw [hl, List.drop_left] at hcases
  rw [List.take_left, getLast?_eq_of_split hu ha hb] at hcases
  rcases hcases with ⟨hinner, hlast⟩ | ⟨hhead, htail⟩
  · rcases h with hnone | ⟨hchars, -⟩
    · obtain ⟨r, hr⟩ := Option.ne_none_iff_exists'.1 (tail?_ne_none_of_read? hread)
      have hgoes : Goes true (y ++ z) r := by
        clear hrest hmarkup hl
        induction y with
        | nil => exact goes_of_tail? hr
        | cons c y ih =>
            simp only [List.all_cons, Bool.and_eq_true] at hinner
            exact .inner hinner.1 (ih hinner.2)
      rw [hrest] at hnone
      exact tail?_ne_none hgoes hnone
    · rw [List.getLast?_eq_some_getLast hu] at hlast
      have hmem := hchars _ (List.getLast_mem hu)
      simp only [Option.any_some, Bool.or_eq_false_iff, beq_eq_false_iff_ne] at hlast
      rcases hmem with hmem | hmem
      · rw [hmem] at hlast
        exact absurd hlast.1 (by simp)
      · exact hlast.2 hmem
  · obtain ⟨c, a, rfl⟩ := List.exists_cons_of_ne_nil ha
    obtain rfl := Option.some.inj hhead
    refine not_brace_of_form hform (fun c hc => ?_) hb
    exact List.contains_iff_mem.1 (List.all_eq_true.1 htail c hc)

end Surroundings

section Edges

theorem edge_brace (s t : List Char) : Edge s ('{' :: t) := by
  intro c t' h
  obtain ⟨rfl, -⟩ := List.cons.inj h
  exact ⟨by decide, fun _ => by decide +kernel⟩

variable {before u rest : List Char} {a : WebAddress}

/-- What stands before an address is of another word than the start of the address. -/
theorem parted_of_finds (h : pattern.Finds before u rest a) : Parted before (u ++ rest) := by
  obtain ⟨hne, hboundary, -⟩ := pattern_finds_iff.1 h
  obtain ⟨d, u, rfl⟩ := List.exists_cons_of_ne_nil hne
  intro c t hct hc
  obtain ⟨rfl, -⟩ := List.cons.inj hct
  simpa [Text.atBoundary, Text.endsIn, isWord_of_isLabelChar hc] using hboundary

/-- An address is no part of a bare domain that ends before it. -/
theorem edge_of_finds (h : pattern.Finds before u rest a) :
    Edge before.reverse (u ++ rest) := by
  obtain ⟨hne, hboundary, hread, -⟩ := pattern_finds_iff.1 h
  intro c t hct
  obtain ⟨d, s, hs, hhost⟩ := isHostChar_of_read? (s := u ++ rest) (by simp [hread])
  rw [hct] at hs
  obtain ⟨rfl, -⟩ := List.cons.inj hs
  refine ⟨?_, fun hlast => ?_⟩
  · rintro rfl
    exact absurd hhost (by decide)
  · have hhead : u.head? = some c := by
      obtain ⟨x, u, rfl⟩ := List.exists_cons_of_ne_nil hne
      obtain ⟨rfl, -⟩ := List.cons.inj hct
      rfl
    have hword : Text.endsIn Text.isWord before.head? = true := by
      rw [List.getLast?_reverse] at hlast
      cases hb : before.head? with
      | none => simp [hb, Text.endsIn] at hlast
      | some x =>
          rw [hb] at hlast
          exact isWord_of_isLabelChar hlast
    rw [hhead, Text.atBoundary, hword] at hboundary
    simpa [Text.endsIn] using hboundary

/-- What ends in a digit is no part of the markup in front of an address behind it. -/
theorem ownsMarkup_of_digit {u before rest : List Char} {c : Char} (hu : u.getLast? = some c)
    (hc : c.isDigit = true) : OwnsMarkup (u.reverse ++ before) rest := by
  intro y z _ _ hmarkup
  rcases lead_of_followsMarkup hmarkup with h | ⟨lead, x, w, hlead, hl, hx, hb⟩
  · exact h
  · have hne : u ≠ [] := by
      rintro rfl
      simp at hu
    have hlast := getLast?_eq_of_split hne hx hb
    rw [hu] at hlast
    have hmem : c ∈ lead := by
      rw [hl]
      exact List.mem_append_left _ (List.mem_of_getLast? hlast)
    have hout : ∀ lead ∈ markupLeads, lead.any Char.isDigit = false := by decide
    have hany : lead.any Char.isDigit = true := List.any_eq_true.2 ⟨c, hmem, hc⟩
    rw [hout lead hlead] at hany
    exact absurd hany (by simp)

/-- The two letters beyond ASCII that count as letters of domain names. -/
def isFolded (c : Char) : Bool :=
  c == '\u017f' || c == '\u212a'

theorem isFolded_of_isLabelChar {c : Char} (h : isLabelChar c = true)
    (hascii : Text.isAsciiWord c = false) : isFolded c = true := by
  rcases cases_of_isLabelChar h with h | rfl | rfl
  · simp [Text.isAsciiWord, h] at hascii
  · decide
  · decide

end Edges

section Truncation

/-- A marker does not open inside an address, since the address would hold a parenthesis or a
blank of its opening. -/
theorem not_opening_of_tight {a c t : List Char} (hc : c ≠ []) (h : Tight (a ++ c)) :
    Marker.opening? (c ++ t) = none := by
  refine Classical.byContradiction fun hne => ?_
  obtain ⟨⟨tail, r⟩, hopen⟩ := Option.ne_none_iff_exists'.1 hne
  obtain ⟨x, b, hct, hx, htail, hblank⟩ := Marker.opening?_eq_some_iff.1 hopen
  obtain ⟨d, c, rfl⟩ := List.exists_cons_of_ne_nil hc
  have hd : d = '{' := (List.cons.inj hct).1
  have hrest : c ++ t = x ++ ("@link".toList ++ (tail ++ b :: r)) := (List.cons.inj hct).2
  subst hd
  have hparen := h.2 a c rfl
  have hsplit : c ++ t = (x ++ ("@link".toList ++ (tail ++ [b]))) ++ r := by
    rw [hrest]
    simp
  rcases List.append_eq_append_iff.1 hsplit with ⟨w, hw, -⟩ | ⟨w, rfl, -⟩
  · refine Marker.not_mem_opening hx htail hblank (x := ')') (by simp) ?_
    rw [hw]
    exact List.mem_append_left _ hparen
  · have hfree := h.1 b (by simp)
    rw [hblank] at hfree
    exact absurd hfree (by simp)

theorem head?_of_opening {y : List Char} (h : Marker.opening? y ≠ none) :
    ∃ t, y = '{' :: t := by
  obtain ⟨⟨tail, r⟩, hopen⟩ := Option.ne_none_iff_exists'.1 h
  obtain ⟨a, b, rfl, -⟩ := Marker.opening?_eq_some_iff.1 hopen
  exact ⟨_, rfl⟩

/-- The cut of a text up to the opening of a marker: no address reaches into it, and at most
one gap does. -/
theorem Cuts.truncate {before x y rest : List Char} {ps : List (Piece WebAddress)}
    (h : pattern.Cuts before (x ++ y) rest ps) (hy : Marker.opening? y ≠ none) :
    ∃ qs, pattern.Cuts before x (y ++ rest) qs ∧
    (∀ a u, Piece.hit a u ∈ qs → Piece.hit a u ∈ ps) ∧
      (∀ g, Piece.gap g ∈ qs → ∃ g', Piece.gap (g ++ g') ∈ ps ∧
        (g' = [] ∨ ∃ t, g' = '{' :: t)) ∧
      ((∀ g rs, ps ≠ .gap g :: rs) → ∀ g rs, qs ≠ .gap g :: rs) := by
  generalize hs : x ++ y = s at h
  induction h generalizing x with
  | done =>
      obtain ⟨rfl, rfl⟩ := List.append_eq_nil_iff.1 hs
      exact ⟨[], .done, by simp, by simp, by simp⟩
  | @gap before g s rest ps hne hsilent hmax _ ih =>
      rcases List.append_eq_append_iff.1 hs with ⟨w, rfl, hw⟩ | ⟨w, rfl, hw⟩
      · cases x with
        | nil => exact ⟨[], .done, by simp, by simp, by simp⟩
        | cons c x =>
            refine ⟨[.gap (c :: x)], ?_, by simp, fun g hg => ⟨w, ?_, ?_⟩,
              fun h => absurd rfl (h _ _)⟩
            · refine Text.Pattern.cuts_of_silent (by simp) ?_
              rw [hw]
              simpa using hsilent.left
            · obtain rfl := Piece.gap.inj (List.mem_singleton.1 hg)
              exact List.mem_cons_self
            · obtain ⟨t, ht⟩ := head?_of_opening hy
              rw [hw] at ht
              cases w with
              | nil => exact .inl rfl
              | cons d w => exact .inr ⟨w, by rw [(List.cons.inj ht).1]⟩
      · obtain ⟨qs, hcuts, hhits, hgaps, hfirst⟩ := ih hw.symm
        refine ⟨.gap g :: qs, ?_, fun a u hu => ?_, fun g' hg => ?_,
          fun h => absurd rfl (h _ _)⟩
        · exact .gap hne (by rw [hw] at hsilent; simpa using hsilent) (hfirst hmax) hcuts
        · exact List.mem_cons_of_mem _ (hhits a u (by simpa using hu))
        · rcases List.mem_cons.1 hg with hg | hg
          · obtain rfl := Piece.gap.inj hg
            exact ⟨[], by simp, .inl rfl⟩
          · obtain ⟨w', hw', hend⟩ := hgaps g' hg
            exact ⟨w', List.mem_cons_of_mem _ hw', hend⟩
  | @hit before u s rest a ps hfinds _ ih =>
      rcases List.append_eq_append_iff.1 hs with ⟨w, rfl, hw⟩ | ⟨w, rfl, hw⟩
      · cases w with
        | nil =>
            obtain rfl : y = s := hw
            rw [List.append_nil] at hfinds ⊢
            refine ⟨[.hit a x], ?_, fun b u hu => ?_, by simp, fun _ => by simp⟩
            · exact Text.Pattern.cuts_of_finds hfinds
            · rw [List.mem_singleton.1 hu]
              exact List.mem_cons_self
        | cons d w =>
            obtain ⟨⟨p, e, v, hform⟩, -⟩ := form_of_finds hfinds
            rw [hw] at hy
            exact absurd (not_opening_of_tight (by simp) hform.tight) hy
      · obtain ⟨qs, hcuts, hhits, hgaps, hfirst⟩ := ih hw.symm
        refine ⟨.hit a u :: qs, ?_, fun b u' hu => ?_, fun g' hg => ?_, fun _ => by simp⟩
        · exact .hit (by rw [hw] at hfinds; simpa using hfinds) hcuts
        · rcases List.mem_cons.1 hu with hu | hu
          · rw [hu]
            exact List.mem_cons_self
          · exact List.mem_cons_of_mem _ (hhits b u' hu)
        · obtain ⟨w', hw', hend⟩ := hgaps g' (by simpa using hg)
          exact ⟨w', List.mem_cons_of_mem _ hw', hend⟩

end Truncation

end WebAddress
end DocLinks
