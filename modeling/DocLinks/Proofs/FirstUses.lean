import Mathlib.Data.List.Induction
import DocLinks.Proofs.LinkSteps
import DocLinks.Proofs.ListSteps
import DocLinks.Proofs.ParentPages

/-!
# The order in which names are used

Links are made of some doclets, and then doclets are registered.  A name gets its page, or
its link, when it is used for the first time, and a long name gets its fragment when it is
asked for one for the first time.  Whatever comes later changes nothing, so the first uses
decide what is registered.

**Results.**
* `withoutFragments_linkAll_eq`: the first uses of names decide which pages there are.
* `onlyFragments_linkAll_eq`: the first wishes of long names decide which fragments there
  are.
* `entries_linkAll`: the entries by the first uses of their names.
-/

namespace DocLinks

namespace Registry

section Pages

theorem pageOf_pageOf (url : String) : pageOf (pageOf url) = pageOf url :=
  pageOf_of_not_mem (hash_not_mem_pageOf url)

theorem pageOf_urlOf_eq {file : String} (hfile : '#' ∉ file.toList) (fragment : String) :
    pageOf (urlOf file fragment) = urlOf file "" := by
  rw [← String.toList_inj, pageOf_urlOf hfile, toList_urlOf]
  simp

/-- A registry in which the fragments are left out. -/
def withoutFragments (r : Registry) : Registry :=
  { entries := r.entries.map fun e => { e with url := pageOf e.url }
    tutorials := r.tutorials
    files := { files := r.files.files } }

variable (r : Registry)

theorem resolve?_withoutFragments (name : String) :
    r.withoutFragments.resolve? name = (r.resolve? name).map pageOf := by
  unfold resolve? find? withoutFragments
  rw [List.find?_map]
  simp only [Option.map_map]
  rfl

theorem contains_withoutFragments (name : String) :
    r.withoutFragments.contains name = r.contains name := by
  unfold contains withoutFragments
  rw [List.any_map]
  rfl

theorem withoutFragments_add (e : Entry) :
    (r.add e).withoutFragments = r.withoutFragments.add { e with url := pageOf e.url } := by
  unfold add
  rw [contains_withoutFragments]
  split
  · rfl
  · simp [withoutFragments]

theorem pageFor_withoutFragments (name : String) :
    r.withoutFragments.pageFor name =
      ((r.pageFor name).1, (r.pageFor name).2.withoutFragments) := by
  unfold pageFor
  rw [resolve?_withoutFragments]
  cases r.resolve? name with
  | some url => simp [pageOf_pageOf]
  | none =>
      have hpage := pageOf_of_not_mem (r.files.hash_not_mem_claimFile name)
      dsimp only [Option.map_none]
      rw [register, register, withoutFragments_add]
      exact congrArg (fun url => ((r.claimFile name).1,
        (r.claimFile name).2.withoutFragments.add ⟨name, url, false⟩)) hpage.symm

theorem withoutFragments_createLink (d : Doclet) :
    (r.createLink d).2.withoutFragments =
      (r.pageFor (placement d).owner).2.withoutFragments := by
  have hfragment : ∀ (r : Registry) (file : String),
      (r.fragmentFor file d).2.withoutFragments = r.withoutFragments := by
    intro r file
    unfold fragmentFor
    split
    · rfl
    · dsimp only
      split
      · rfl
      · rfl
  unfold createLink
  dsimp only
  split
  · exact hfragment _ _
  · rfl

theorem pageOf_createLink_eq_urlOf (d : Doclet) :
    pageOf (r.createLink d).1 = urlOf (r.pageFor (placement d).owner).1 "" := by
  have hfile := r.hash_not_mem_pageFor (placement d).owner
  unfold createLink
  dsimp only
  exact pageOf_urlOf_eq hfile _

end Pages

end Registry

namespace Publication

section Visits

/-- How the links of doclets make use of names: the page of a name is asked for, or the link
of a doclet is registered under its long name. -/
inductive Visit where
  | page (name : String)
  | link (d : Doclet)

/-- The name that is used. -/
def Visit.name : Visit → String
  | page name => name
  | link d => d.longname

/-- All uses of names when the links of some doclets are made, and then others are
registered. -/
def visits (early later : List Doclet) : List Visit :=
  early.map (fun d => .page (owner d)) ++ later.flatMap fun d => [.page (owner d), .link d]

/-- What a use of a name does to a registry without fragments. -/
def visit (r : Registry) : Visit → Registry
  | .page name => (r.pageFor name).2
  | .link d => r.register d.longname (Registry.urlOf (r.pageFor (owner d)).1 "")

/-- The links of some doclets are made, and then others are registered. -/
def linkAll (early later : List Doclet) (r : Registry) : Registry :=
  later.foldl registerLink (early.foldl (fun r d => (r.createLink d).2) r)

variable {r : Registry} {early later : List Doclet} {d : Doclet}

theorem registerLink_of_named (hne : d.longname ≠ "") :
    registerLink r d = (r.createLink d).2.register d.longname (r.createLink d).1 :=
  SamePlace.registerLink_eq ⟨rfl, rfl⟩ hne r

theorem oncePerKey_visit :
    OncePerKey visit Visit.name fun r name => r.contains name = true := by
  refine ⟨fun {r name} v hmade => ?_, fun {r v} hmade => ?_⟩
  · obtain ⟨url, hurl⟩ := (r.contains_iff name).1 hmade
    refine (Registry.contains_iff _ _).2 ⟨url, ?_⟩
    cases v with
    | page other => exact (r.extends_pageFor other).resolve? hurl
    | link d => exact (r.extends_add _).resolve? hurl
  · cases v with
    | page name =>
        obtain ⟨url, hurl⟩ := (r.contains_iff name).1 hmade
        rw [visit, Registry.pageFor, hurl]
    | link d => exact Registry.add_of_contains hmade

theorem contains_visit (r : Registry) (v : Visit) : (visit r v).contains v.name = true := by
  cases v with
  | page name =>
      obtain ⟨url, hurl, -⟩ := r.pageFor_spec name
      exact (Registry.contains_iff _ _).2 ⟨url, hurl⟩
  | link d =>
      rw [visit, Registry.register, Registry.add]
      split
      · assumption
      · simp [Registry.contains, Visit.name]

theorem withoutFragments_registerLink (hne : d.longname ≠ "") :
    (registerLink r d).withoutFragments =
      visit (visit r.withoutFragments (.page (owner d))) (.link d) := by
  have hpage : visit r.withoutFragments (.page (owner d)) =
      (r.createLink d).2.withoutFragments := by
    rw [visit, r.pageFor_withoutFragments, r.withoutFragments_createLink]
    rfl
  -- the page of the owner is there already when the doclet is registered
  have hagain : ((r.createLink d).2.withoutFragments.pageFor (owner d)).1 =
      (r.pageFor (owner d)).1 := by
    obtain ⟨url, hurl, hfile⟩ := r.pageFor_spec (owner d)
    rw [Registry.withoutFragments_createLink, Registry.pageFor_withoutFragments]
    have hsame : ((r.pageFor (owner d)).2.pageFor (owner d)).1 =
        (r.pageFor (owner d)).1 := by
      rw [hfile, Registry.pageFor, hurl]
    exact hsame
  rw [registerLink_of_named hne, hpage, visit]
  rw [hagain, Registry.register]
  rw [Registry.withoutFragments_add, Registry.pageOf_createLink_eq_urlOf]
  rfl

/-- The uses of names decide which pages there are. -/
theorem withoutFragments_linkAll (hne : ∀ d ∈ later, d.longname ≠ "") :
    (linkAll early later r).withoutFragments =
      (visits early later).foldl visit r.withoutFragments := by
  have hearly : ∀ r : Registry,
      (early.foldl (fun r d => (r.createLink d).2) r).withoutFragments =
      (early.map fun d => Visit.page (owner d)).foldl visit r.withoutFragments := by
    induction early with
    | nil => exact fun r => rfl
    | cons d early ih =>
        intro r
        rw [List.foldl_cons, List.map_cons, List.foldl_cons]
        rw [ih, visit]
        rw [r.pageFor_withoutFragments, r.withoutFragments_createLink]
        rfl
  have hlater : ∀ r : Registry, (later.foldl registerLink r).withoutFragments =
      (later.flatMap fun d => [Visit.page (owner d), Visit.link d]).foldl visit
        r.withoutFragments := by
    induction later with
    | nil => exact fun r => rfl
    | cons d later ih =>
        intro r
        rw [List.foldl_cons, List.flatMap_cons, List.foldl_append,
          ih fun e he => hne e (List.mem_cons_of_mem _ he),
          withoutFragments_registerLink (hne d List.mem_cons_self)]
        rfl
  rw [linkAll, hlater, hearly]
  rw [visits, List.foldl_append]

/-- The first uses of names that are new. -/
def firstVisits (r : Registry) (early later : List Doclet) : List Visit :=
  firsts Visit.name ((visits early later).filter fun v => !r.contains v.name)

/-- The first uses of names decide which pages there are. -/
theorem withoutFragments_linkAll_eq (hne : ∀ d ∈ later, d.longname ≠ "") :
    (linkAll early later r).withoutFragments =
      (firstVisits r early later).foldl visit r.withoutFragments := by
  rw [withoutFragments_linkAll hne, firstVisits,
    oncePerKey_visit.foldl_firsts fun v _ r => contains_visit r v,
    oncePerKey_visit.foldl_filter]
  intro v _ hv
  rw [r.contains_withoutFragments]
  simpa using hv

end Visits

section Wishes

/-- Whether a doclet is only a part of its page. -/
def isPart (d : Doclet) : Bool :=
  (Registry.placement d).isPart

/-- Whether the link of a doclet needs a fragment. -/
def wishes (d : Doclet) : Bool :=
  isPart d && Registry.fragmentWish d != ""

theorem fragmentWish_of_wishes {d : Doclet} (h : wishes d = true) :
    Registry.fragmentWish d ≠ "" := by
  simp only [wishes, Bool.and_eq_true, bne_iff_ne] at h
  exact h.2

/-- A registry of which only the fragments are left. -/
def onlyFragments (r : Registry) : Registry :=
  { fragments := r.fragments, files := { anchors := r.files.anchors } }

/-- The page of a long name at the end. -/
def finalPage (final : Registry) (d : Doclet) : String :=
  (final.pageFor (owner d)).1

/-- A doclet asks for its fragment, when all pages are known. -/
def ask (final : Registry) (r : Registry) (d : Doclet) : Registry :=
  (r.fragmentFor (finalPage final d) d).2

variable {r r' final : Registry} {d : Doclet} {early later : List Doclet}

theorem fragmentFor_onlyFragments (r : Registry) (file : String) (d : Doclet) :
    (onlyFragments r).fragmentFor file d =
      ((r.fragmentFor file d).1, onlyFragments (r.fragmentFor file d).2) := by
  unfold Registry.fragmentFor onlyFragments
  dsimp only
  cases r.fragments.lookup d.longname with
  | some fragment => rfl
  | none =>
      dsimp only
      split
      · rfl
      · rfl

theorem onlyFragments_add (r : Registry) (e : Entry) :
    onlyFragments (r.add e) = onlyFragments r := by
  unfold Registry.add
  split
  · rfl
  · rfl

theorem onlyFragments_pageFor (r : Registry) (name : String) :
    onlyFragments (r.pageFor name).2 = onlyFragments r := by
  unfold Registry.pageFor
  split
  · rfl
  · exact onlyFragments_add _ _

/-- A page that has been asked for is the same at the end. -/
theorem finalPage_eq (h : (r.createLink d).2.Extends final) :
    finalPage final d = (r.pageFor (owner d)).1 := by
  obtain ⟨url, hurl, hfile⟩ := r.pageFor_spec (owner d)
  have hkept : (r.createLink d).2.resolve? (owner d) = some url := by
    rw [Registry.resolve?_congr (r.entries_createLink d)]
    exact hurl
  rw [finalPage, Registry.pageFor]
  rw [h.resolve? hkept, hfile]

theorem onlyFragments_createLink (h : (r.createLink d).2.Extends final) :
    onlyFragments (r.createLink d).2 =
      if isPart d then ask final (onlyFragments r) d else onlyFragments r := by
  have hpage := finalPage_eq h
  unfold ask
  rw [hpage, ← onlyFragments_pageFor r (owner d), fragmentFor_onlyFragments]
  unfold Registry.createLink isPart
  dsimp only
  split
  · rfl
  · rfl

theorem extends_createLinks (early : List Doclet) (r : Registry) :
    r.Extends (early.foldl (fun r d => (r.createLink d).2) r) :=
  (Reaches.refl.early (List.Subset.refl early)).extends

theorem extends_registerLinks (later : List Doclet) (r : Registry) :
    r.Extends (later.foldl registerLink r) :=
  (Reaches.refl.foldl_registerLink (List.Subset.refl later)).extends

theorem onlyFragments_createLinks
    (h : (early.foldl (fun r d => (r.createLink d).2) r).Extends final) :
    onlyFragments (early.foldl (fun r d => (r.createLink d).2) r) =
      (early.filter isPart).foldl (ask final) (onlyFragments r) := by
  induction early generalizing r with
  | nil => rfl
  | cons d early ih =>
      have hstep := (extends_createLinks early _).trans h
      rw [List.foldl_cons, ih h]
      rw [onlyFragments_createLink hstep, List.filter_cons]
      split
      · rfl
      · rfl

theorem onlyFragments_registerLinks (hne : ∀ d ∈ later, d.longname ≠ "")
    (h : (later.foldl registerLink r).Extends final) :
    onlyFragments (later.foldl registerLink r) =
      (later.filter isPart).foldl (ask final) (onlyFragments r) := by
  induction later generalizing r with
  | nil => rfl
  | cons d later ih =>
      have hregister := registerLink_of_named (r := r) (hne d List.mem_cons_self)
      have hstep : (r.createLink d).2.Extends final := by
        refine Registry.Extends.trans ?_ ((extends_registerLinks later _).trans h)
        rw [hregister]
        exact Registry.extends_add _ _
      rw [List.foldl_cons, ih (fun e he => hne e (List.mem_cons_of_mem _ he)) h, hregister,
        Registry.register, onlyFragments_add, onlyFragments_createLink hstep,
        List.filter_cons]
      split
      · rfl
      · rfl

theorem ask_of_empty (hwish : Registry.fragmentWish d = "") : ask final r d = r := by
  unfold ask Registry.fragmentFor
  split
  · rfl
  · simp [hwish]

theorem ask_of_new (hnew : r.fragments.lookup d.longname = none)
    (hwish : Registry.fragmentWish d ≠ "") :
    let claim := r.files.claimAnchor (finalPage final d) (Registry.fragmentWish d)
    ask final r d =
      { r with files := claim.2, fragments := r.fragments ++ [(d.longname, claim.1)] } := by
  simp [ask, Registry.fragmentFor, hnew, hwish]

theorem lookup_ask_of_ne {longname : String} (hne : longname ≠ d.longname) :
    (ask final r d).fragments.lookup longname = r.fragments.lookup longname := by
  cases hlookup : r.fragments.lookup d.longname with
  | some fragment => rw [ask, Registry.fragmentFor, hlookup]
  | none =>
      by_cases hwish : Registry.fragmentWish d = ""
      · rw [ask_of_empty hwish]
      · rw [ask_of_new hlookup hwish]
        have hother : (longname == d.longname) = false := by simpa using hne
        simp [List.lookup_append, List.lookup_cons, hother]

theorem lookup_foldl_ask_of_not_mem {longname : String} {l : List Doclet} {r : Registry}
    (h : ∀ d ∈ l, longname ≠ d.longname) :
    (l.foldl (ask final) r).fragments.lookup longname = r.fragments.lookup longname := by
  induction l generalizing r with
  | nil => rfl
  | cons d l ih =>
      rw [List.foldl_cons, ih fun e he => h e (List.mem_cons_of_mem _ he),
        lookup_ask_of_ne (h d List.mem_cons_self)]

theorem oncePerKey_ask : OncePerKey (ask final) Doclet.longname fun r longname =>
    ∃ fragment, r.fragments.lookup longname = some fragment := by
  refine ⟨fun {r longname} d hmade => ?_, fun {r d} hmade => ?_⟩
  · obtain ⟨fragment, hfragment⟩ := hmade
    exact ⟨fragment, (r.givesFragment_fragmentFor _ d).extends.fragment hfragment⟩
  · obtain ⟨fragment, hfragment⟩ := hmade
    rw [ask, Registry.fragmentFor, hfragment]

theorem exists_lookup_ask (hwish : Registry.fragmentWish d ≠ "") (r : Registry) :
    ∃ fragment, (ask final r d).fragments.lookup d.longname = some fragment := by
  cases hlookup : r.fragments.lookup d.longname with
  | some fragment =>
      exact ⟨fragment, (r.givesFragment_fragmentFor _ d).extends.fragment hlookup⟩
  | none =>
      rw [ask_of_new hlookup hwish]
      exact ⟨_, by simp [List.lookup_append, hlookup]; rfl⟩

/-- A doclet that wishes for nothing changes nothing. -/
theorem foldl_ask_wishes (l : List Doclet) (r : Registry) :
    (l.filter wishes).foldl (ask final) r = (l.filter isPart).foldl (ask final) r := by
  induction l generalizing r with
  | nil => rfl
  | cons d l ih =>
      by_cases hpart : isPart d = true
      · by_cases hwish : Registry.fragmentWish d = ""
        · rw [List.filter_cons_of_neg (by simp [wishes, hwish])]
          rw [List.filter_cons_of_pos hpart]
          rw [List.foldl_cons]
          rw [ask_of_empty hwish]
          rw [ih]
        · rw [List.filter_cons_of_pos (by simp [wishes, hpart, hwish])]
          rw [List.filter_cons_of_pos hpart]
          rw [List.foldl_cons]
          rw [List.foldl_cons]
          rw [ih]
      · rw [List.filter_cons_of_neg (by simp [wishes, hpart]), List.filter_cons_of_neg hpart]
        rw [ih]

theorem filter_wishes_filter_isPart (l : List Doclet) :
    (l.filter isPart).filter wishes = l.filter wishes := by
  rw [List.filter_filter]
  refine List.filter_congr fun d _ => ?_
  simp only [wishes, Bool.and_right_comm, Bool.and_self]

/-- The wishes for fragments when the links of some doclets are made, and then others are
registered; of the former, a doclet that wishes for nothing leaves no trace. -/
def asks (early later : List Doclet) : List Doclet :=
  early.filter wishes ++ later.filter isPart

/-- The first wishes of long names. -/
def firstAsks (early later : List Doclet) : List Doclet :=
  firsts Doclet.longname ((asks early later).filter wishes)

/-- The wishes for fragments decide which fragments there are. -/
theorem onlyFragments_linkAll (hne : ∀ d ∈ later, d.longname ≠ "")
    (h : (linkAll early later r).Extends final) :
    onlyFragments (linkAll early later r) =
      ((asks early later).filter wishes).foldl (ask final) (onlyFragments r) := by
  rw [linkAll, onlyFragments_registerLinks hne h]
  rw [onlyFragments_createLinks ((extends_registerLinks later _).trans h), asks]
  rw [List.filter_append, List.foldl_append]
  rw [List.filter_filter, filter_wishes_filter_isPart]
  simp only [Bool.and_self]
  rw [foldl_ask_wishes, foldl_ask_wishes]

/-- The first wishes of long names decide which fragments there are. -/
theorem onlyFragments_linkAll_eq (hne : ∀ d ∈ later, d.longname ≠ "") (r : Registry) :
    onlyFragments (linkAll early later r) =
      (firstAsks early later).foldl (ask (linkAll early later r)) (onlyFragments r) := by
  have hmade : ∀ a ∈ (asks early later).filter wishes, ∀ r' : Registry,
      ∃ fragment, (ask (linkAll early later r) r' a).fragments.lookup a.longname =
        some fragment :=
    fun a ha => exists_lookup_ask (fragmentWish_of_wishes (List.mem_filter.1 ha).2)
  rw [onlyFragments_linkAll hne (Registry.Extends.refl _), firstAsks]
  rw [oncePerKey_ask.foldl_firsts hmade]

end Wishes

section Entries

/-- Whether a long name wishes for a fragment when its link is made for the first time. -/
def wishesFirst (asked : List Doclet) (longname : String) : Bool :=
  (asked.find? (·.longname == longname)).any wishes

/-- The fragment with which a doclet is registered: that of its long name, unless the long
name did not wish for one at first. -/
def givenFragment (final : Registry) (asked : List Doclet) (d : Doclet) : String :=
  if wishesFirst asked d.longname then
    (final.fragments.lookup d.longname).getD ""
  else ""

/-- The entry that a first use of a name leaves. -/
def entryOf (final : Registry) (asked : List Doclet) : Visit → Entry
  | .page name => ⟨name, (final.pageFor name).1, false⟩
  | .link d => ⟨d.longname, Registry.urlOf (finalPage final d)
      (if isPart d then givenFragment final asked d else ""), false⟩

/-- Adds the entry that a use of a name leaves, unless the name is there. -/
def enter (final : Registry) (asked : List Doclet) (es : List Entry)
    (v : Visit) : List Entry :=
  if es.any (·.name == v.name) then es else es ++ [entryOf final asked v]

variable {r final : Registry} {asked early later front back : List Doclet} {d : Doclet}

theorem oncePerKey_enter :
    OncePerKey (enter final asked) Visit.name fun es name =>
      es.any (·.name == name) = true := by
  refine ⟨fun {es name} v hmade => ?_, fun {es v} hmade => ?_⟩
  · unfold enter
    split
    · exact hmade
    · rw [List.any_append, hmade, Bool.true_or]
  · rw [enter, if_pos hmade]

theorem any_enter (es : List Entry) (v : Visit) :
    (enter final asked es v).any (·.name == v.name) = true := by
  unfold enter
  split
  · assumption
  · cases v <;> simp [entryOf, Visit.name]

theorem entries_createLink_eq_enter (h : (r.createLink d).2.Extends final) :
    (r.createLink d).2.entries = enter final asked r.entries (.page (owner d)) := by
  rw [Registry.entries_createLink, enter]
  have hpage := finalPage_eq h
  cases hurl : r.resolve? (owner d) with
  | some url =>
      have hcontains : r.entries.any (·.name == (Visit.page (owner d)).name) = true :=
        (r.contains_iff (owner d)).2 ⟨url, hurl⟩
      have hsame : (r.pageFor (owner d)).2 = r := by rw [Registry.pageFor, hurl]
      rw [if_pos hcontains]
      exact congrArg Registry.entries hsame
  | none =>
      have hcontains : r.contains (owner d) = false := Registry.contains_eq_false_iff.2 hurl
      have hnew : ¬ r.entries.any (·.name == (Visit.page (owner d)).name) = true :=
        Bool.not_eq_true _ ▸ hcontains
      have hentries : (r.pageFor (owner d)).2.entries =
          r.entries ++ [⟨owner d, (r.pageFor (owner d)).1, false⟩] := by
        have hclaimed : (r.claimFile (owner d)).2.contains (owner d) = false := hcontains
        rw [Registry.pageFor, hurl]
        dsimp only
        rw [Registry.entries_register, hclaimed]
        rfl
      rw [if_neg hnew, entryOf]
      rw [← finalPage, hpage]
      exact hentries

/-- A long name has a fragment if it has wished for one, and only then. -/
theorem lookup_linkAll_iff (early : List Doclet) (hne : ∀ d ∈ later, d.longname ≠ "")
    (hr : r.fragments = []) (longname : String) :
    (∃ fragment, (linkAll early later r).fragments.lookup longname = some fragment) ↔
      ∃ d ∈ (asks early later).filter wishes, d.longname = longname := by
  have hfragments : (linkAll early later r).fragments =
      (((asks early later).filter wishes).foldl (ask (linkAll early later r))
        (onlyFragments r)).fragments := by
    rw [← onlyFragments_linkAll hne (Registry.Extends.refl _)]
    rfl
  rw [hfragments]
  constructor
  · rintro ⟨fragment, hfragment⟩
    by_contra hnone
    push Not at hnone
    rw [lookup_foldl_ask_of_not_mem fun d hd => (hnone d hd).symm] at hfragment
    rw [onlyFragments] at hfragment
    rw [hr] at hfragment
    simp at hfragment
  · rintro ⟨d, hd, rfl⟩
    exact oncePerKey_ask.made_foldl hd
      (exists_lookup_ask (fragmentWish_of_wishes (List.mem_filter.1 hd).2)) _

theorem contains_linkAll (hne : ∀ d ∈ later, d.longname ≠ "") (hd : d ∈ later) :
    (linkAll early later r).contains d.longname = true := by
  have hvisit : Visit.link d ∈ visits early later :=
    List.mem_append_right _ (List.mem_flatMap.2 ⟨d, hd, by simp⟩)
  rw [← Registry.contains_withoutFragments, withoutFragments_linkAll hne]
  exact oncePerKey_visit.made_foldl hvisit (fun r => contains_visit r (.link d)) _

theorem linkAll_append (early front back : List Doclet) (r : Registry) :
    linkAll early (front ++ back) r = back.foldl registerLink (linkAll early front r) :=
  List.foldl_append

theorem extends_createLink_final (hne : d.longname ≠ "")
    (hfinal : linkAll early (front ++ d :: back) r = final) :
    ((linkAll early front r).createLink d).2.Extends final := by
  rw [← hfinal, linkAll_append]
  rw [List.foldl_cons, registerLink_of_named hne]
  exact (Registry.extends_add _ _).trans (extends_registerLinks back _)

/-- What the first wish of a long name is, when a doclet is registered and the long name is
new. -/
theorem find?_asks (hpart : isPart d = true)
    (hfront : ∀ e ∈ front, e.longname ≠ d.longname) :
    (asks early (front ++ d :: back)).find? (·.longname == d.longname) =
      ((early.filter wishes).find? (·.longname == d.longname)).or (some d) := by
  have hnone : (front.filter isPart).find? (·.longname == d.longname) = none := by
    rw [List.find?_eq_none]
    intro e he
    simpa using hfront e (List.mem_filter.1 he).1
  rw [asks, List.filter_append, List.filter_cons_of_pos hpart]
  rw [List.find?_append, List.find?_append, hnone]
  rw [Option.none_or, List.find?_cons_of_pos (by simp)]

/-- A fragment is that of the long name at the end, unless there is none and nothing is
wished for. -/
theorem fragmentFor_fst {file : String} (h : (r.fragmentFor file d).2.Extends final) :
    (r.fragmentFor file d).1 =
      if (r.fragments.lookup d.longname).isSome || Registry.fragmentWish d != "" then
        (final.fragments.lookup d.longname).getD ""
      else "" := by
  unfold Registry.fragmentFor at h ⊢
  cases hlookup : r.fragments.lookup d.longname with
  | some fragment =>
      rw [hlookup] at h
      simp [h.fragment hlookup]
  | none =>
      rw [hlookup] at h
      by_cases hwish : Registry.fragmentWish d = ""
      · simp [hwish]
      · have hgiven : final.fragments.lookup d.longname =
            some (r.files.claimAnchor file (Registry.fragmentWish d)).1 :=
          h.fragment (by simp [hwish, List.lookup_append, hlookup])
        simp [hwish, hgiven]

theorem createLink_eq_urlOf (h : (r.createLink d).2.Extends final) :
    (r.createLink d).1 = Registry.urlOf (finalPage final d)
      (if isPart d then
        if (r.fragments.lookup d.longname).isSome || Registry.fragmentWish d != "" then
          (final.fragments.lookup d.longname).getD ""
        else ""
      else "") := by
  rw [finalPage_eq h]
  have hfragments := r.fragments_pageFor (owner d)
  unfold Registry.createLink isPart at *
  dsimp only at *
  split
  · rename_i hpart
    rw [if_pos hpart] at h
    have hfragment := fragmentFor_fst h
    rw [← owner, hfragments] at hfragment
    exact congrArg _ hfragment
  · rfl

/-- A doclet that is registered when its long name is new has the link that its entry is to
have. -/
theorem createLink_eq_entryOf (hne : ∀ e ∈ front ++ d :: back, e.longname ≠ "")
    (hr : r.fragments = []) (hfinal : linkAll early (front ++ d :: back) r = final)
    (hnew : ((linkAll early front r).createLink d).2.contains d.longname = false) :
    ((linkAll early front r).createLink d).1 =
      (entryOf final (asks early (front ++ d :: back)) (.link d)).url := by
  have hnefront : ∀ e ∈ front, e.longname ≠ "" :=
    fun e he => hne e (List.mem_append_left _ he)
  have hext := extends_createLink_final (hne d (by simp)) hfinal
  have hfront : ∀ e ∈ front, e.longname ≠ d.longname := by
    intro e he hname
    obtain ⟨url, hurl⟩ :=
      (Registry.contains_iff _ _).1 (contains_linkAll (r := r) hnefront he)
    have hkept := (Registry.extends_createLink (linkAll early front r) d).resolve? hurl
    rw [hname, Registry.contains_eq_false_iff.1 hnew] at hkept
    simp at hkept
  have hasked := lookup_linkAll_iff early hnefront hr d.longname
  generalize linkAll early front r = before at hnew hext hasked ⊢
  rw [createLink_eq_urlOf hext, entryOf]
  split
  · rename_i hpart
    have hfirst : ((before.fragments.lookup d.longname).isSome ||
        Registry.fragmentWish d != "") =
        wishesFirst (asks early (front ++ d :: back)) d.longname := by
      rw [wishesFirst, find?_asks hpart hfront]
      cases hearly : (early.filter wishes).find? (·.longname == d.longname) with
      | some a =>
          have ha := List.mem_of_find?_eq_some hearly
          have hname : a.longname = d.longname := by simpa using List.find?_some hearly
          have hwishes := (List.mem_filter.1 ha).2
          obtain ⟨fragment, hfragment⟩ := hasked.2
            ⟨a, List.mem_filter.2 ⟨List.mem_append_left _ ha, hwishes⟩, hname⟩
          simp [hfragment, hwishes]
      | none =>
          have hnone : before.fragments.lookup d.longname = none := by
            rw [Option.eq_none_iff_forall_ne_some]
            intro fragment hfragment
            obtain ⟨e, he, hname⟩ := hasked.1 ⟨fragment, hfragment⟩
            rcases List.mem_append.1 (List.mem_filter.1 he).1 with he | he
            · exact List.find?_eq_none.1 hearly e he (by simpa using hname)
            · exact hfront e (List.mem_filter.1 he).1 hname
          simp [hnone, wishes, hpart]
    rw [givenFragment, ← hfirst]
  · rfl

theorem entries_createLinks
    (h : (early.foldl (fun r d => (r.createLink d).2) r).Extends final) :
    (early.foldl (fun r d => (r.createLink d).2) r).entries =
      (early.map fun d => Visit.page (owner d)).foldl (enter final asked) r.entries := by
  induction early generalizing r with
  | nil => rfl
  | cons d early ih =>
      have hstep := (extends_createLinks early _).trans h
      rw [List.foldl_cons, ih h, entries_createLink_eq_enter hstep]
      rfl

theorem entries_linkAll_of_append (hne : ∀ d ∈ front ++ back, d.longname ≠ "")
    (hr : r.fragments = [])
    (hfinal : linkAll early (front ++ back) r = final) :
    (linkAll early front r).entries =
      (visits early front).foldl (enter final (asks early (front ++ back))) r.entries := by
  generalize hasked : asks early (front ++ back) = asked
  induction front using List.reverseRecOn generalizing back with
  | nil =>
      have hext : (early.foldl (fun r d => (r.createLink d).2) r).Extends final := by
        rw [← hfinal]
        exact extends_registerLinks back _
      rw [linkAll, List.foldl_nil, entries_createLinks hext]
      rw [visits, List.flatMap_nil, List.append_nil]
  | append_singleton front d ih =>
      rw [List.append_assoc, List.singleton_append] at hne hfinal hasked
      have hext := extends_createLink_final (hne d (by simp)) hfinal
      have hvisits : visits early (front ++ [d]) =
          visits early front ++ [.page (owner d), .link d] := by
        simp [visits, List.flatMap_append]
      have hregister := registerLink_of_named (r := linkAll early front r) (hne d (by simp))
      rw [linkAll_append, List.foldl_cons, List.foldl_nil]
      rw [hregister, hvisits, List.foldl_append]
      rw [← ih hne hfinal hasked, List.foldl_cons, ← entries_createLink_eq_enter hext]
      rw [List.foldl_cons, List.foldl_nil]
      rw [Registry.entries_register, enter]
      cases hcontains : ((linkAll early front r).createLink d).2.contains d.longname with
      | true => exact (if_pos hcontains).symm
      | false =>
          have hnew : ¬ ((linkAll early front r).createLink d).2.entries.any
              (·.name == (Visit.link d).name) = true := Bool.not_eq_true _ ▸ hcontains
          rw [if_neg hnew, createLink_eq_entryOf hne hr hfinal hcontains, hasked]
          rfl

/-- The entries by the first uses of their names. -/
theorem entries_linkAll (hne : ∀ d ∈ later, d.longname ≠ "") (hr : r.fragments = []) :
    (linkAll early later r).entries =
      (firstVisits r early later).foldl (enter (linkAll early later r) (asks early later))
        r.entries := by
  have hall : (linkAll early later r).entries =
      (visits early later).foldl
        (enter (linkAll early later r) (asks early later)) r.entries := by
    have hne' : ∀ d ∈ later ++ [], d.longname ≠ "" := by simpa using hne
    have happend : _ = (visits early later).foldl
        (enter _ (asks early (later ++ []))) r.entries :=
      entries_linkAll_of_append hne' hr rfl
    rwa [List.append_nil] at happend
  rw [hall, firstVisits, oncePerKey_enter.foldl_firsts fun v _ es => any_enter es v,
    oncePerKey_enter.foldl_filter]
  intro v _ hv
  simpa [Registry.contains] using hv

end Entries

end Publication
end DocLinks
