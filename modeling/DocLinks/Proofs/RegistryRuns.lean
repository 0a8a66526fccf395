import DocLinks.Proofs.RegistryGrowth

/-!
# The links of a registry do not collide

A registry is asked for pages, fragments and links in any order.  A fragment belongs to one
long name and to one page, the page of the owner of that long name; so links of different
long names differ.

**Invariant.**  `Kept`: the fragment of a long name is in use on the page of its owner, and
no other long name has it there.  The owner is known from the long name and its parent alone.

**Results.**
* `kept_run`: the invariant holds after every run, and every link that was made is told by
  it.
* `fragment_links_distinct`: links with fragments of different long names are different.
-/

namespace DocLinks
namespace Registry

/-- A call that changes a registry. -/
inductive Call where
  | register (name url : String)
  | registerAlias (name url : String)
  | claimFile (name : String)
  | addTutorial (name title : String)
  | createLink (d : Doclet)

/-- The doclet whose link is made. -/
def Call.doclet? : Call → Option Doclet
  | .createLink d => some d
  | _ => none

/-- The links that a call makes, and the registry after it. -/
def call (r : Registry) : Call → List (Doclet × String) × Registry
  | .register name url => ([], r.register name url)
  | .registerAlias name url => ([], r.registerAlias name url)
  | .claimFile name => ([], (r.claimFile name).2)
  | .addTutorial name title => ([], (r.addTutorial name title).2)
  | .createLink d => ([(d, (r.createLink d).1)], (r.createLink d).2)

/-- The links that calls make one after the other, and the registry after them. -/
def run (r : Registry) : List Call → List (Doclet × String) × Registry
  | [] => ([], r)
  | c :: calls =>
      let (links, r) := r.call c
      let (more, r) := r.run calls
      (links ++ more, r)

/-- On whose page a symbol that is only a part of a page is documented. -/
def partOwner (longname : String) (memberof : Option String) : String :=
  memberof.getD (if hasContainerMark longname then longname else globalName)

theorem owner_of_isPart {d : Doclet} (h : (placement d).isPart = true) :
    (placement d).owner = partOwner d.longname d.memberof := by
  unfold placement partOwner at *
  dsimp only at *
  split
  · rename_i hown
    rw [if_pos hown] at h
    simp at h
  · split
    · rfl
    · rfl

section Invariant

variable (parent : String → Option String)

/-- The fragment of a long name is in use on the page of its owner, and no other long name
has it there, case aside. -/
structure Kept (r : Registry) : Prop where
  claimed {longname fragment : String} : r.fragments.lookup longname = some fragment →
    ∃ url, r.resolve? (partOwner longname (parent longname)) = some url ∧
      Filename.Anchor.mk (pageOf url) (Text.caseKey fragment.toList) ∈ r.files.anchors
  distinct {longname longname' fragment fragment' url url' : String} :
    r.fragments.lookup longname = some fragment →
    r.fragments.lookup longname' = some fragment' →
    r.resolve? (partOwner longname (parent longname)) = some url →
    r.resolve? (partOwner longname' (parent longname')) = some url' →
    longname ≠ longname' → pageOf url = pageOf url' →
    Text.caseKey fragment.toList ≠ Text.caseKey fragment'.toList

/-- A link with a fragment is that of the long name to the page of its owner. -/
def Linked (r : Registry) (link : Doclet × String) : Prop :=
  '#' ∈ link.2.toList → ∃ fragment url, fragment ≠ "" ∧
    r.fragments.lookup link.1.longname = some fragment ∧
    r.resolve? (partOwner link.1.longname (parent link.1.longname)) = some url ∧
    link.2 = urlOf (pageOf url) fragment

variable {parent} {r r' : Registry}

theorem kept_new : Kept parent new :=
  ⟨fun {_ _} h => by simp [new] at h, fun {_ _ _ _ _ _} h => by simp [new] at h⟩

theorem Kept.of_extends (h : Kept parent r) (he : r.Extends r')
    (hfragments : r'.fragments = r.fragments) : Kept parent r' := by
  -- the pages of the owners are known before, and they stay
  have hpage : ∀ {longname fragment url : String},
      r'.fragments.lookup longname = some fragment →
      r'.resolve? (partOwner longname (parent longname)) = some url →
      r.resolve? (partOwner longname (parent longname)) = some url := by
    intro longname fragment url hlookup hurl
    rw [hfragments] at hlookup
    obtain ⟨url', hurl', -⟩ := h.claimed hlookup
    rw [he.resolve? hurl'] at hurl
    rw [hurl', hurl]
  refine ⟨fun {longname fragment} hlookup => ?_,
    fun {_ _ _ _ _ _} hl hl' hu hu' hne hpages => ?_⟩
  · rw [hfragments] at hlookup
    obtain ⟨url, hurl, hanchor⟩ := h.claimed hlookup
    exact ⟨url, he.resolve? hurl, he.anchors hanchor⟩
  · have hold := hpage hl hu
    have hold' := hpage hl' hu'
    rw [hfragments] at hl hl'
    exact h.distinct hl hl' hold hold' hne hpages

theorem Linked.of_extends {link : Doclet × String} (h : Linked parent r link)
    (he : r.Extends r') : Linked parent r' link := by
  intro hhash
  obtain ⟨fragment, url, hne, hlookup, hurl, hlink⟩ := h hhash
  exact ⟨fragment, url, hne, he.fragment hlookup, he.resolve? hurl, hlink⟩

/-- What is found behind a new pair was there before, or it is that pair. -/
theorem lookup_concat {pairs : List (String × String)} {key value name found : String}
    (h : (pairs ++ [(key, value)]).lookup name = some found) :
    pairs.lookup name = some found ∨ name = key ∧ found = value := by
  rw [List.lookup_append] at h
  cases hold : pairs.lookup name with
  | some old =>
      rw [hold, Option.some_or] at h
      exact .inl h
  | none =>
      rw [hold, Option.none_or, List.lookup_cons] at h
      split at h
      · rename_i heq
        simp only [Option.some.injEq] at h
        exact .inr ⟨by simpa using heq, h.symm⟩
      · simp at h

/-- A fragment that is new on a page differs from those that long names have there. -/
theorem Kept.caseKey_ne (h : Kept parent r) {file fragment : String}
    (hnew : ⟨file, Text.caseKey fragment.toList⟩ ∉ r.files.anchors)
    {name f page : String} (hf : r.fragments.lookup name = some f)
    (hpage : r.resolve? (partOwner name (parent name)) = some page)
    (hfile : pageOf page = file) :
    Text.caseKey f.toList ≠ Text.caseKey fragment.toList := by
  intro hkey
  obtain ⟨page', hpage', hanchor⟩ := h.claimed hf
  rw [hpage'] at hpage
  obtain rfl := Option.some.inj hpage
  rw [hfile, hkey] at hanchor
  exact hnew hanchor

/-- A fragment that is claimed on the page of the owner keeps the invariant. -/
theorem Kept.of_givesFragment (h : Kept parent r) {longname fragment url : String}
    (hurl : r.resolve? (partOwner longname (parent longname)) = some url)
    (hgives : r.GivesFragment (pageOf url) longname fragment r') : Kept parent r' := by
  cases hgives with
  | known _ => exact h
  | none => exact h
  | claimed hnone hnew hanchors =>
      rename_i files
      refine ⟨fun {name f} hf => ?_,
        fun {name name' f f' page page'} hf hf' hp hp' hne hpages => ?_⟩
      · rcases lookup_concat hf with hf | ⟨rfl, rfl⟩
        · obtain ⟨page, hpage, hanchor⟩ := h.claimed hf
          refine ⟨page, hpage, ?_⟩
          rw [hanchors]
          exact List.mem_cons_of_mem _ hanchor
        · refine ⟨url, hurl, ?_⟩
          rw [hanchors]
          exact List.mem_cons_self
      · change r.resolve? (partOwner name (parent name)) = some page at hp
        change r.resolve? (partOwner name' (parent name')) = some page' at hp'
        rcases lookup_concat hf with hold | ⟨rfl, rfl⟩
        · rcases lookup_concat hf' with hold' | ⟨rfl, rfl⟩
          · exact h.distinct hold hold' hp hp' hne hpages
          · rw [hurl] at hp'
            obtain rfl := Option.some.inj hp'
            exact h.caseKey_ne hnew hold hp hpages
        · rcases lookup_concat hf' with hold' | ⟨rfl, rfl⟩
          · rw [hurl] at hp
            obtain rfl := Option.some.inj hp
            exact (h.caseKey_ne hnew hold' hp' hpages.symm).symm
          · exact absurd rfl hne

/-- The link of a doclet whose parent is known keeps the invariant, and it is told by it. -/
theorem kept_createLink (h : Kept parent r) (d : Doclet)
    (hd : d.memberof = parent d.longname) :
    Kept parent (r.createLink d).2 ∧
    Linked parent (r.createLink d).2 (d, (r.createLink d).1) := by
  obtain ⟨url, hurl, hfile⟩ := r.pageFor_spec (placement d).owner
  have hpage := h.of_extends (r.extends_pageFor _) (r.fragments_pageFor (placement d).owner)
  unfold createLink
  dsimp only
  rw [hfile]
  split
  · rename_i hpart
    rw [owner_of_isPart hpart, hd] at hurl hpage ⊢
    have hgives :=
      (r.pageFor (partOwner d.longname (parent d.longname))).2.givesFragment_fragmentFor
      (pageOf url) d
    refine ⟨hpage.of_givesFragment hurl hgives, ?_⟩
    intro hhash
    have hne := (hash_mem_urlOf_iff (hash_not_mem_pageOf url)).1 hhash
    refine ⟨_, url, hne, ?_, hgives.extends.resolve? hurl, rfl⟩
    exact hgives.lookup_of_ne hne
  · refine ⟨hpage, ?_⟩
    intro hhash
    exact absurd rfl ((hash_mem_urlOf_iff (hash_not_mem_pageOf url)).1 hhash)

theorem extends_call (c : Call) : r.Extends (r.call c).2 := by
  cases c with
  | register name url => exact r.extends_add _
  | registerAlias name url => exact r.extends_add _
  | claimFile name => exact r.extends_claimFile name
  | addTutorial name title => exact r.extends_addTutorial name title
  | createLink d => exact r.extends_createLink d

/-- One call keeps the invariant, and the link that it makes is told by it. -/
theorem kept_call (h : Kept parent r) (c : Call)
    (hc : ∀ d, c = .createLink d → d.memberof = parent d.longname) :
    Kept parent (r.call c).2 ∧ ∀ link ∈ (r.call c).1, Linked parent (r.call c).2 link := by
  cases c with
  | register name url =>
      exact ⟨h.of_extends (r.extends_add _) (r.fragments_add _), by simp [call]⟩
  | registerAlias name url =>
      exact ⟨h.of_extends (r.extends_add _) (r.fragments_add _), by simp [call]⟩
  | claimFile name => exact ⟨h.of_extends (r.extends_claimFile name) rfl, by simp [call]⟩
  | addTutorial name title =>
      exact ⟨h.of_extends (r.extends_addTutorial name title)
        (r.fragments_addTutorial name title),
        by simp [call]⟩
  | createLink d =>
      obtain ⟨hkept, hlinked⟩ := kept_createLink h d (hc d rfl)
      refine ⟨hkept, fun link hlink => ?_⟩
      obtain rfl := List.mem_singleton.1 hlink
      exact hlinked

theorem extends_run (r : Registry) (calls : List Call) : r.Extends (r.run calls).2 := by
  induction calls generalizing r with
  | nil => exact Extends.refl r
  | cons c calls ih => exact (extends_call c).trans (ih (r.call c).2)

/-- Whatever is called, the invariant holds afterwards and tells every link that was made. -/
theorem kept_run (h : Kept parent r) {calls : List Call}
    (hcalls : ∀ d, Call.createLink d ∈ calls → d.memberof = parent d.longname) :
    Kept parent (r.run calls).2 ∧ ∀ link ∈ (r.run calls).1,
    Linked parent (r.run calls).2 link := by
  induction calls generalizing r with
  | nil => exact ⟨h, by simp [run]⟩
  | cons c calls ih =>
      obtain ⟨hkept, hlinked⟩ := kept_call h c fun d hd => hcalls d (hd ▸ List.mem_cons_self)
      obtain ⟨hkept', hlinked'⟩ := ih hkept fun d hd => hcalls d (List.mem_cons_of_mem _ hd)
      refine ⟨hkept', fun link hlink => ?_⟩
      rcases List.mem_append.1 hlink with hlink | hlink
      · exact (hlinked link hlink).of_extends (extends_run _ calls)
      · exact hlinked' link hlink

/-- Two links that the invariant tells are different if their long names are. -/
theorem Kept.links_ne (h : Kept parent r) {d e : Doclet} {u v : String}
    (hu : Linked parent r (d, u)) (hv : Linked parent r (e, v)) (hhash : '#' ∈ u.toList)
    (hhash' : '#' ∈ v.toList) (hne : d.longname ≠ e.longname) : u ≠ v := by
  obtain ⟨f, page, hf, hlookup, hpage, rfl⟩ := hu hhash
  obtain ⟨f', page', hf', hlookup', hpage', rfl⟩ := hv hhash'
  intro heq
  obtain ⟨hpages, rfl⟩ :=
    urlOf_inj (hash_not_mem_pageOf page) (hash_not_mem_pageOf page') hf hf' heq
  exact h.distinct hlookup hlookup' hpage hpage' hne hpages rfl

end Invariant

/-- The parent that the first of some doclets with a long name has. -/
def parentIn (ds : List Doclet) (longname : String) : Option String :=
  (Doclet.find? ds longname).bind (·.memberof)

theorem parentIn_eq {ds : List Doclet} {d : Doclet} (hd : d ∈ ds)
    (hsame : ∀ e ∈ ds, e.longname = d.longname → e.memberof = d.memberof) :
    parentIn ds d.longname = d.memberof := by
  unfold parentIn Doclet.find?
  cases hfind : ds.find? (·.longname == d.longname) with
  | none =>
      have := List.find?_eq_none.1 hfind d hd
      simp at this
  | some e =>
      have hname := List.find?_some hfind
      exact hsame e (List.mem_of_find?_eq_some hfind) (by simpa using hname)

theorem mem_doclets {calls : List Call} {d : Doclet} :
    d ∈ calls.filterMap Call.doclet? ↔ Call.createLink d ∈ calls := by
  rw [List.mem_filterMap]
  constructor
  · rintro ⟨c, hc, hcd⟩
    cases c with
    | createLink d' =>
        obtain rfl := Option.some.inj hcd
        exact hc
    | _ => simp [Call.doclet?] at hcd
  · intro h
    exact ⟨_, h, rfl⟩

/-- Links with fragments that belong to different long names are different, whatever else was
asked of the registry, if doclets of one long name have one parent. -/
theorem fragment_links_distinct {calls : List Call} {d e : Doclet} {u v : String}
    (hsame : ∀ d e, Call.createLink d ∈ calls → Call.createLink e ∈ calls →
      d.longname = e.longname → d.memberof = e.memberof)
    (hd : (d, u) ∈ (new.run calls).1) (he : (e, v) ∈ (new.run calls).1)
    (hu : '#' ∈ u.toList) (hv : '#' ∈ v.toList) (hne : d.longname ≠ e.longname) : u ≠ v := by
  have hparent : ∀ d, Call.createLink d ∈ calls →
      d.memberof = parentIn (calls.filterMap Call.doclet?) d.longname := by
    intro d hcall
    refine (parentIn_eq (mem_doclets.2 hcall) fun e he hname => ?_).symm
    exact hsame e d (mem_doclets.1 he) hcall hname
  obtain ⟨hkept, hlinked⟩ := kept_run kept_new hparent
  exact hkept.links_ne (hlinked _ hd) (hlinked _ he) hu hv hne

/-- A member `f` of the class `A` with the given long name. -/
def memberF (longname : String) : Doclet :=
  { longname := longname, name := some "f", kind := .function, memberof := some "A" }

/-- An instance and an inner member of one name get different fragments on one page. -/
theorem links_of_members_of_one_name :
    let calls := [Call.createLink (memberF "A#f"), .createLink (memberF "A~f")]
    let u := (new.createLink (memberF "A#f")).1
    let v := ((new.createLink (memberF "A#f")).2.createLink (memberF "A~f")).1
    (∀ d e, Call.createLink d ∈ calls → Call.createLink e ∈ calls → d.longname = e.longname →
      d.memberof = e.memberof) ∧
    (memberF "A#f", u) ∈ (new.run calls).1 ∧ (memberF "A~f", v) ∈ (new.run calls).1 ∧
    '#' ∈ u.toList ∧ '#' ∈ v.toList ∧ u ≠ v := by
  intro calls u v
  have hsame : ∀ d e, Call.createLink d ∈ calls → Call.createLink e ∈ calls →
      d.longname = e.longname → d.memberof = e.memberof := by
    intro d e hd he _
    simp only [calls, List.mem_cons, List.not_mem_nil, or_false,
      Call.createLink.injEq] at hd he
    rcases hd with rfl | rfl <;> rcases he with rfl | rfl <;> rfl
  have hd : (memberF "A#f", u) ∈ (new.run calls).1 := List.mem_cons_self
  have he : (memberF "A~f", v) ∈ (new.run calls).1 :=
    List.mem_cons_of_mem _ List.mem_cons_self
  have hu : '#' ∈ u.toList := by decide +kernel
  have hv : '#' ∈ v.toList := by decide +kernel
  exact ⟨hsame, hd, he, hu, hv, fragment_links_distinct hsame hd he hu hv (by decide)⟩

end Registry
end DocLinks
