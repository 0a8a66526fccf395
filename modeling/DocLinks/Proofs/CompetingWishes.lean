import Mathlib.Data.List.DropRight
import DocLinks.Proofs.AnchorRuns
import DocLinks.Proofs.FirstUses

/-!
# Wishes that compete for a fragment

A wish for a fragment is given low lines until it is new on its page.  So two wishes can only
get in each other's way if they are on one page and are the same up to blanks, case and low
lines at the end: then they have one stem.  What a wish gets is decided by the wishes with
its stem on its page, and if these are all different, by itself.

**Results.**
* `anchorFor_congr`: the fragment for a wish depends on the fragments with its stem only.
* `Alike.ask_rival`, `Alike.ask_other`: what one wish does to the fragments with a stem.
* `foldl_ask_rivals`: the fragments for a stem on a page are decided by the wishes with that
  stem.
* `foldl_ask_unrivalled`: wishes that are all different are granted as they are.
* `SameOrder.registry_eq`: links that are made in the same order are the same.
-/

namespace DocLinks
namespace Filename

section Stems

variable {taken taken' : List String} {wish : String}

/-- The lower case of a fragment without the low lines at its end. -/
def stemOf (key : String) : List Char :=
  key.toList.rdropWhile (· == '_')

/-- What is left of a wish if blanks, case and low lines at its end do not count. -/
def stem (wish : String) : List Char :=
  stemOf (Text.caseKey (withoutBlanks wish))

theorem rdropWhile_pad (s : List Char) (k : Nat) :
    (pad s k).rdropWhile (· == '_') = s.rdropWhile (· == '_') := by
  induction k with
  | zero => rw [pad_zero]
  | succ k ih =>
      have hpad : pad s (k + 1) = pad s k ++ ['_'] := by
        rw [pad, pad]
        rw [List.replicate_succ', List.append_assoc]
      rw [hpad, List.rdropWhile_concat]
      rw [if_pos (beq_self_eq_true '_'), ih]

theorem stemOf_caseKey_pad (s : List Char) (k : Nat) :
    stemOf (Text.caseKey (pad s k)) = stemOf (Text.caseKey s) := by
  rw [caseKey_pad, stemOf, String.toList_ofList]
  rw [rdropWhile_pad, stemOf]
  rw [Text.caseKey, String.toList_ofList]

theorem stemOf_anchorKey_anchorFor (taken : List String) (wish : String) :
    stemOf (anchorKey (anchorFor taken wish)) = stem wish := by
  rw [anchorKey, anchorFor]
  rw [String.toList_ofList, stemOf_caseKey_pad]
  rfl

/-- The fragment for a wish depends on the fragments with its stem only. -/
theorem anchorFor_congr (h : ∀ key, stemOf key = stem wish → (key ∈ taken ↔ key ∈ taken')) :
    anchorFor taken wish = anchorFor taken' wish := by
  have hsame : ∀ k, Text.caseKey (pad (withoutBlanks wish) k) ∉ taken ↔
      Text.caseKey (pad (withoutBlanks wish) k) ∉ taken' :=
    fun k => not_congr (h _ (stemOf_caseKey_pad _ k))
  have hleast := isLeast_padding taken (withoutBlanks wish)
  have hleast' := isLeast_padding taken' (withoutBlanks wish)
  simp only [hsame] at hleast
  rw [anchorFor, anchorFor, hleast.unique hleast']

/-- A wish that is new is granted as it is. -/
theorem anchorFor_of_new (h : Text.caseKey (withoutBlanks wish) ∉ taken) :
    anchorFor taken wish = String.ofList (withoutBlanks wish) := by
  have hfree : Text.caseKey (pad (withoutBlanks wish) 0) ∉ taken := by rwa [pad_zero]
  have hzero : padding taken (withoutBlanks wish) = 0 :=
    Nat.le_zero.1 ((isLeast_padding taken (withoutBlanks wish)).2 hfree)
  rw [anchorFor, hzero, pad_zero]

end Stems

end Filename

namespace Publication

open Filename (anchorFor anchorFor_congr anchorFor_of_new anchorKey stem
  stemOf withoutBlanks)

section Rivals

variable {final r r' : Registry} {d : Doclet} {l : List Doclet}

/-- The wishes on a page that compete for the fragments with one stem. -/
def rivals (final : Registry) (file : String) (x : List Char)
    (l : List Doclet) : List Doclet :=
  l.filter fun d => finalPage final d == file && stem (Registry.fragmentWish d) == x

/-- The lower case of the fragment that a doclet wishes for. -/
def wishKey (d : Doclet) : String :=
  Text.caseKey (withoutBlanks (Registry.fragmentWish d))

theorem mem_rivals {file : String} {x : List Char} :
    d ∈ rivals final file x l ↔
      d ∈ l ∧ finalPage final d = file ∧ stem (Registry.fragmentWish d) = x := by
  simp [rivals]

theorem rivals_concat (final : Registry) (file : String) (x : List Char) (l : List Doclet)
    (d : Doclet) :
    rivals final file x (l ++ [d]) = rivals final file x l ++
      if finalPage final d = file ∧ stem (Registry.fragmentWish d) = x then [d] else [] := by
  rw [rivals, List.filter_append]
  congr 1
  split
  · rename_i h
    simp [h]
  · rename_i h
    simpa using h

/-- What a new wish gets on its page, and what is in use there then. -/
theorem ask_granted (final : Registry) (hnew : r.fragments.lookup d.longname = none)
    (hwish : Registry.fragmentWish d ≠ "") :
    let given :=
      anchorFor (r.files.takenAnchors (finalPage final d)) (Registry.fragmentWish d)
    (ask final r d).fragments.lookup d.longname = some given ∧
      (ask final r d).files.takenAnchors (finalPage final d) =
        anchorKey given :: r.files.takenAnchors (finalPage final d) := by
  intro given
  rw [ask_of_new hnew hwish]
  refine ⟨?_, ?_⟩
  · simp only [List.lookup_append, hnew, Option.none_or, List.lookup_cons, beq_self_eq_true]
    rfl
  · exact Filename.Call.takenAnchors_ask_anchor r.files _ _

theorem takenAnchors_ask_of_ne {file : String} (hnew : r.fragments.lookup d.longname = none)
    (hwish : Registry.fragmentWish d ≠ "") (hne : finalPage final d ≠ file) :
    (ask final r d).files.takenAnchors file = r.files.takenAnchors file := by
  rw [ask_of_new hnew hwish]
  exact Filename.Allocator.takenAnchors_claimAnchor_of_ne hne _ _

/-- Two registries have the same fragments with one stem in use on a page, and have given the
same fragments to some doclets. -/
structure Alike (file : String) (x : List Char) (l : List Doclet) (r r' : Registry) :
    Prop where
  taken (key : String) : Filename.stemOf key = x →
    (key ∈ r.files.takenAnchors file ↔ key ∈ r'.files.takenAnchors file)
  given : ∀ d ∈ l, r.fragments.lookup d.longname = r'.fragments.lookup d.longname

/-- A wish with the stem on the page gets the same in both. -/
theorem Alike.ask_rival {file : String} {x : List Char} (h : Alike file x l r r')
    (hnew : r.fragments.lookup d.longname = none)
    (hnew' : r'.fragments.lookup d.longname = none) (hwish : Registry.fragmentWish d ≠ "")
    (hother : ∀ e ∈ l, e.longname ≠ d.longname) (hpage : finalPage final d = file)
    (hstem : stem (Registry.fragmentWish d) = x) :
    Alike file x (l ++ [d]) (ask final r d) (ask final r' d) := by
  obtain ⟨hgranted, htaken⟩ := ask_granted final hnew hwish
  obtain ⟨hgranted', htaken'⟩ := ask_granted final hnew' hwish
  rw [hpage] at hgranted htaken hgranted' htaken'
  have hsame : anchorFor (r.files.takenAnchors file) (Registry.fragmentWish d) =
      anchorFor (r'.files.takenAnchors file) (Registry.fragmentWish d) :=
    anchorFor_congr fun key hkey => h.taken key (hkey.trans hstem)
  refine ⟨fun key hkey => ?_, fun e he => ?_⟩
  · rw [htaken, htaken', hsame]
    rw [List.mem_cons, List.mem_cons, h.taken key hkey]
  · rcases List.mem_append.1 he with he | he
    · rw [lookup_ask_of_ne (hother e he), lookup_ask_of_ne (hother e he)]
      exact h.given e he
    · obtain rfl := List.mem_singleton.1 he
      rw [hgranted, hgranted', hsame]

/-- Any other wish leaves what is in use with the stem on the page as it is. -/
theorem Alike.ask_other {file : String} {x : List Char} (h : Alike file x l r r')
    (hnew : r.fragments.lookup d.longname = none) (hwish : Registry.fragmentWish d ≠ "")
    (hother : ∀ e ∈ l, e.longname ≠ d.longname)
    (hrival : ¬ (finalPage final d = file ∧ stem (Registry.fragmentWish d) = x)) :
    Alike file x l (ask final r d) r' := by
  refine ⟨fun key hkey => ?_, fun e he => ?_⟩
  · rw [← h.taken key hkey]
    by_cases hpage : finalPage final d = file
    · obtain ⟨-, htaken⟩ := ask_granted final hnew hwish
      rw [hpage] at htaken
      have hne : key ≠
          anchorKey (anchorFor (r.files.takenAnchors file) (Registry.fragmentWish d)) := by
        rintro rfl
        rw [Filename.stemOf_anchorKey_anchorFor] at hkey
        exact hrival ⟨hpage, hkey⟩
      rw [htaken, List.mem_cons, or_iff_right hne]
    · rw [takenAnchors_ask_of_ne hnew hwish hpage]
  · rw [lookup_ask_of_ne (hother e he)]
    exact h.given e he

/-- The fragments for a stem on a page are decided by the wishes with that stem on that page,
if every long name wishes once. -/
theorem foldl_ask_rivals (file : String) (x : List Char) (hwishes : ∀ d ∈ l, wishes d = true)
    (hdistinct : l.Pairwise fun a b => b.longname ≠ a.longname)
    (hnew : ∀ d ∈ l, r.fragments.lookup d.longname = none) :
    Alike file x (rivals final file x l) (l.foldl (ask final) r)
      ((rivals final file x l).foldl (ask final) r) := by
  induction l using List.reverseRecOn with
  | nil => exact ⟨fun _ _ => Iff.rfl, by simp [rivals]⟩
  | append_singleton l d ih =>
      obtain ⟨hpairs, -, hlast⟩ := List.pairwise_append.1 hdistinct
      have hlast : ∀ e ∈ l, d.longname ≠ e.longname := fun e he => hlast e he d (by simp)
      have hrest := ih (fun e he => hwishes e (by simp [he])) hpairs
        fun e he => hnew e (by simp [he])
      have hmem : ∀ e ∈ rivals final file x l, e ∈ l := fun e he => (mem_rivals.1 he).1
      have hother : ∀ e ∈ rivals final file x l, e.longname ≠ d.longname :=
        fun e he => (hlast e (hmem e he)).symm
      have hwish := fragmentWish_of_wishes (hwishes d (by simp))
      have hfree : (l.foldl (ask final) r).fragments.lookup d.longname = none := by
        rw [lookup_foldl_ask_of_not_mem hlast, hnew d (by simp)]
      have hfree' : ((rivals final file x l).foldl (ask final) r).fragments.lookup
          d.longname = none := by
        rw [lookup_foldl_ask_of_not_mem fun e he => hlast e (hmem e he), hnew d (by simp)]
      rw [List.foldl_append, List.foldl_cons, List.foldl_nil]
      rw [rivals_concat]
      by_cases hrival : finalPage final d = file ∧ stem (Registry.fragmentWish d) = x
      · rw [if_pos hrival, List.foldl_append]
        rw [List.foldl_cons, List.foldl_nil]
        exact hrest.ask_rival hfree hfree' hwish hother hrival.1 hrival.2
      · rw [if_neg hrival, List.append_nil]
        exact hrest.ask_other hfree hwish hother hrival

/-- Wishes on a page on which nothing is in use are granted as they are, if they are all
different. -/
theorem foldl_ask_unrivalled {file : String} (hwishes : ∀ d ∈ l, wishes d = true)
    (hdistinct : l.Pairwise fun a b => b.longname ≠ a.longname)
    (hnew : ∀ d ∈ l, r.fragments.lookup d.longname = none)
    (hpage : ∀ d ∈ l, finalPage final d = file) (hempty : r.files.takenAnchors file = [])
    (hkeys : (l.map wishKey).Nodup) :
    (l.foldl (ask final) r).files.takenAnchors file = (l.map wishKey).reverse ∧
      ∀ d ∈ l, (l.foldl (ask final) r).fragments.lookup d.longname =
        some (String.ofList (withoutBlanks (Registry.fragmentWish d))) := by
  induction l using List.reverseRecOn with
  | nil => exact ⟨hempty, by simp⟩
  | append_singleton l d ih =>
      obtain ⟨hpairs, -, hlast⟩ := List.pairwise_append.1 hdistinct
      have hlast : ∀ e ∈ l, d.longname ≠ e.longname := fun e he => hlast e he d (by simp)
      rw [List.map_append, List.nodup_append] at hkeys
      obtain ⟨htaken, hgiven⟩ := ih (fun e he => hwishes e (by simp [he])) hpairs
        (fun e he => hnew e (by simp [he])) (fun e he => hpage e (by simp [he])) hkeys.1
      have hwish := fragmentWish_of_wishes (hwishes d (by simp))
      have hfree : (l.foldl (ask final) r).fragments.lookup d.longname = none := by
        rw [lookup_foldl_ask_of_not_mem hlast, hnew d (by simp)]
      have hkey : wishKey d ∉ (l.map wishKey).reverse := by
        rw [List.mem_reverse]
        exact fun hmem => hkeys.2.2 _ hmem _ (by simp) rfl
      obtain ⟨hgranted, htakenAfter⟩ := ask_granted final hfree hwish
      rw [hpage d (by simp), htaken, anchorFor_of_new hkey] at hgranted htakenAfter
      rw [List.foldl_append, List.foldl_cons, List.foldl_nil]
      refine ⟨?_, fun e he => ?_⟩
      · rw [htakenAfter, anchorKey, String.toList_ofList]
        rw [List.map_append, List.reverse_append]
        rfl
      · rcases List.mem_append.1 he with he | he
        · rw [lookup_ask_of_ne (hlast e he).symm, hgiven e he]
        · rw [List.mem_singleton.1 he, hgranted]

end Rivals

section Orders

variable {r : Registry} {early later early' later' : List Doclet}

/-- The first use of every name that is new is the same, in the same order; the same long
names wish for a fragment at first, as far as they are registered with one; and the first
wishes that compete for the fragments with one stem on a page are the same, in the same order
unless they are all different. -/
structure SameOrder (r : Registry) (early later early' later' : List Doclet) : Prop where
  visits : firstVisits r early later = firstVisits r early' later'
  wishes (d : Doclet) : .link d ∈ firstVisits r early later → isPart d = true →
    wishesFirst (asks early later) d.longname = wishesFirst (asks early' later') d.longname
  competing (file : String) (x : List Char) :
    let here := rivals (linkAll early later r) file x (firstAsks early later)
    let there := rivals (linkAll early' later' r) file x (firstAsks early' later')
    here = there ∨ here.Perm there ∧ (here.map wishKey).Nodup

theorem wishes_of_mem_firstAsks {d : Doclet} (h : d ∈ firstAsks early later) :
    wishes d = true :=
  (List.mem_filter.1 (mem_of_mem_firsts h)).2

/-- The fragment of a long name is decided by the first wishes that compete with it. -/
theorem lookup_linkAll (early : List Doclet) (hne : ∀ d ∈ later, d.longname ≠ "")
    (hr : r.fragments = []) (file : String) (x : List Char) (d : Doclet)
    (hd : d ∈ rivals (linkAll early later r) file x (firstAsks early later)) :
    (linkAll early later r).fragments.lookup d.longname =
      ((rivals (linkAll early later r) file x (firstAsks early later)).foldl
        (ask (linkAll early later r)) (onlyFragments r)).fragments.lookup d.longname := by
  have hfragments : (linkAll early later r).fragments = ((firstAsks early later).foldl
      (ask (linkAll early later r)) (onlyFragments r)).fragments := by
    rw [← onlyFragments_linkAll_eq hne]
    rfl
  have hnew : ∀ e ∈ firstAsks early later,
      (onlyFragments r).fragments.lookup e.longname = none := by
    intro e _
    rw [onlyFragments, hr]
    rfl
  conv_lhs => rw [hfragments]
  exact (foldl_ask_rivals file x (fun e he => wishes_of_mem_firstAsks he)
    (pairwise_firsts _) hnew).given d hd

/-- A long name whose first wish is different from all that compete with it gets what it
wishes for. -/
theorem lookup_linkAll_of_unrivalled (early : List Doclet)
    (hne : ∀ d ∈ later, d.longname ≠ "")
    (hr : r.fragments = []) (hanchors : r.files.anchors = []) (file : String) (x : List Char)
    (hkeys :
      ((rivals (linkAll early later r) file x (firstAsks early later)).map wishKey).Nodup)
    (d : Doclet) (hd : d ∈ rivals (linkAll early later r) file x (firstAsks early later)) :
    (linkAll early later r).fragments.lookup d.longname =
      some (String.ofList (withoutBlanks (Registry.fragmentWish d))) := by
  have hempty : (onlyFragments r).files.takenAnchors file = [] := by
    rw [onlyFragments, hanchors]
    rfl
  have hnew : ∀ longname, (onlyFragments r).fragments.lookup longname = none := by
    intro longname
    rw [onlyFragments, hr]
    rfl
  rw [lookup_linkAll early hne hr file x d hd]
  exact (foldl_ask_unrivalled (fun e he => wishes_of_mem_firstAsks (mem_rivals.1 he).1)
    ((pairwise_firsts _).filter _) (fun e _ => hnew e.longname)
    (fun e he => (mem_rivals.1 he).2.1) hempty hkeys).2 d hd

/-- Apart from fragments, what is registered depends on the first visits only. -/
theorem SameOrder.withoutFragments_eq (h : SameOrder r early later early' later')
    (hne : ∀ d ∈ later, d.longname ≠ "") (hne' : ∀ d ∈ later', d.longname ≠ "") :
    (linkAll early later r).withoutFragments =
      (linkAll early' later' r).withoutFragments := by
  rw [withoutFragments_linkAll_eq hne, withoutFragments_linkAll_eq hne', h.visits]

theorem pageFor_eq_of_withoutFragments {final final' : Registry}
    (h : final.withoutFragments = final'.withoutFragments) (name : String) :
    (final.pageFor name).1 = (final'.pageFor name).1 := by
  have hboth := congrArg (fun r => (r.pageFor name).1) h
  simpa only [Registry.pageFor_withoutFragments] using hboth

theorem finalPage_eq_of_withoutFragments {final final' : Registry}
    (h : final.withoutFragments = final'.withoutFragments) :
    finalPage final = finalPage final' :=
  funext fun d => pageFor_eq_of_withoutFragments h (owner d)

/-- Long names that wish first get the same fragments: their rivals are the same, or all of
them get what they wish for. -/
theorem SameOrder.lookup_eq (h : SameOrder r early later early' later')
    (hne : ∀ d ∈ later, d.longname ≠ "") (hne' : ∀ d ∈ later', d.longname ≠ "")
    (hr : r.fragments = []) (hanchors : r.files.anchors = []) {c : Doclet}
    (hc : c ∈ firstAsks early later) :
    (linkAll early later r).fragments.lookup c.longname =
      (linkAll early' later' r).fragments.lookup c.longname := by
  have hlookup := lookup_linkAll early hne hr
  have hlookup' := lookup_linkAll early' hne' hr
  have hsole := lookup_linkAll_of_unrivalled early hne hr hanchors
  have hsole' := lookup_linkAll_of_unrivalled early' hne' hr hanchors
  have hfinal := finalPage_eq_of_withoutFragments (h.withoutFragments_eq hne hne')
  have hcompeting := h.competing
  generalize linkAll early later r = final at hlookup hsole hfinal hcompeting ⊢
  generalize linkAll early' later' r = final' at hlookup' hsole' hfinal hcompeting ⊢
  have hask : ask final = ask final' := by
    funext r d
    rw [ask, ask, hfinal]
  have hon : c ∈ rivals final (finalPage final c) (stem (Registry.fragmentWish c))
      (firstAsks early later) := mem_rivals.2 ⟨hc, rfl, rfl⟩
  rcases hcompeting (finalPage final c) (stem (Registry.fragmentWish c))
    with hsame | ⟨hperm, hkeys⟩
  · have hon' := hon
    rw [hsame] at hon'
    rw [hlookup _ _ c hon, hlookup' _ _ c hon']
    rw [hask, hsame]
  · have hkeys' := (hperm.map wishKey).nodup_iff.1 hkeys
    rw [hsole _ _ hkeys c hon, hsole' _ _ hkeys' c (hperm.mem_iff.1 hon)]

/-- What is first visited as a part of a page has the same fragment. -/
theorem SameOrder.givenFragment_eq (h : SameOrder r early later early' later')
    (hne : ∀ d ∈ later, d.longname ≠ "") (hne' : ∀ d ∈ later', d.longname ≠ "")
    (hr : r.fragments = []) (hanchors : r.files.anchors = []) {d : Doclet}
    (hd : .link d ∈ firstVisits r early later) (hpart : isPart d = true) :
    givenFragment (linkAll early later r) (asks early later) d =
      givenFragment (linkAll early' later' r) (asks early' later') d := by
  unfold givenFragment
  rw [← h.wishes d hd hpart]
  split
  · rename_i hfirst
    obtain ⟨a, ha, hwish⟩ := (Option.any_eq_true _ _).1 hfirst
    have hname : a.longname = d.longname := by simpa using List.find?_some ha
    obtain ⟨c, hc, hsamename⟩ : ∃ c ∈ firstAsks early later, c.longname = a.longname :=
      exists_mem_firsts (List.mem_filter.2 ⟨List.mem_of_find?_eq_some ha, hwish⟩)
    rw [← hname, ← hsamename, h.lookup_eq hne hne' hr hanchors hc]
  · rfl

/-- If links are made in the same order, the registries have the same entries and the same
files. -/
theorem SameOrder.registry_eq (h : SameOrder r early later early' later')
    (hne : ∀ d ∈ later, d.longname ≠ "") (hne' : ∀ d ∈ later', d.longname ≠ "")
    (hr : r.fragments = []) (hanchors : r.files.anchors = []) :
    (linkAll early later r).entries = (linkAll early' later' r).entries ∧
      (linkAll early later r).withoutFragments =
        (linkAll early' later' r).withoutFragments := by
  have hpages := h.withoutFragments_eq hne hne'
  refine ⟨?_, hpages⟩
  have hfinal := finalPage_eq_of_withoutFragments hpages
  rw [entries_linkAll hne hr, entries_linkAll hne' hr, ← h.visits]
  refine List.foldl_ext _ _ _ fun es v hv => ?_
  have hentry : entryOf (linkAll early later r) (asks early later) v =
      entryOf (linkAll early' later' r) (asks early' later') v := by
    cases v with
    | page name => rw [entryOf, entryOf, pageFor_eq_of_withoutFragments hpages]
    | link d =>
        rw [entryOf, entryOf, hfinal]
        split
        · rename_i hpart
          rw [h.givenFragment_eq hne hne' hr hanchors hv hpart]
        · rfl
  rw [enter, enter, hentry]

end Orders

end Publication
end DocLinks
