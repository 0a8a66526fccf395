import DocLinks.Proofs.LinkSteps
import DocLinks.Proofs.PagesOfTheirOwn
import DocLinks.Proofs.ParentPages

/-!
# The link that is stored and the link that is computed

The link of a doclet is registered under its long name, unless that name is registered.  It
is if its page has been asked for: by a member of it that came first, by a doclet that owns
the page and is a part of it at the same time, or by any doclet that owns a page.

**Results.**
* `resolve?_registerLink_of_new`, `exists_file_of_used`: what is stored under a long name.
* `stored_link_iff`: when the link that is stored is the link of the doclet.
-/

namespace DocLinks
namespace Publication

section Stored

variable {ds front back : List Doclet} {r : Registry} {d : Doclet}
  {book : List (Subject × List Char)}

/-- The uses of names up to the link of a doclet. -/
def usesUpTo (ds front : List Doclet) (d : Doclet) : List Use :=
  earlyUses ds ++ laterUses front ++ [.page (owner d)]

theorem uses_eq_usesUpTo (hds : ds = front ++ d :: back) :
    uses ds = usesUpTo ds front d ++ .longname d.longname :: laterUses back := by
  have hlater : laterUses ds = laterUses front ++ .page (owner d) :: .longname d.longname ::
      laterUses back := by
    rw [hds, laterUses]
    rw [List.flatMap_append, List.flatMap_cons]
    rfl
  rw [uses, usesUpTo, hlater]
  simp

theorem placed_usesUpTo (h : Placed ds r book (earlyUses ds)) (hds : ds = front ++ d :: back)
    (hne : ∀ d ∈ ds, d.longname ≠ "") :
    ∃ book', Placed ds ((front.foldl registerLink r).createLink d).2 book'
      (usesUpTo ds front d) := by
  have hsub : front ⊆ ds := hds ▸ List.subset_append_left _ _
  have hnamed : front.filter (fun d => d.longname != "") = front := by
    rw [List.filter_eq_self]
    intro e he
    simpa using hne e (hsub he)
  obtain ⟨book', hfront⟩ :=
    h.foldl_registerLink hsub (List.forall₂_same.2 fun e _ => ⟨rfl, rfl⟩)
  rw [hnamed] at hfront
  exact hfront.createLink d

/-- A long name that has not been used before its doclet is registered is stored with the
link of that doclet. -/
theorem resolve?_registerLink_of_new (hne : d.longname ≠ "")
    (hnew : (r.createLink d).2.contains d.longname = false) :
    (registerLink r d).resolve? d.longname = some (r.createLink d).1 := by
  rw [SamePlace.registerLink_eq ⟨rfl, rfl⟩ hne, Registry.resolve?_register]
  rw [if_pos ⟨hnew, rfl⟩]

theorem not_hasPage_of_new (h : Placed ds r book (usesUpTo ds front d))
    (hds : ds = front ++ d :: back) (hnew : r.contains d.longname = false) :
    ¬ HasPage ds d.longname := by
  rintro (hglobal | hfirst)
  · have hnone := Registry.contains_eq_false_iff.1 hnew
    rw [hglobal, h.globals] at hnone
    simp at hnone
  · have hlongname : (usesUpTo ds front d ++ [Use.longname d.longname]).find?
        (·.name == d.longname) =
        some (.longname d.longname) := Placed.find?_eq h (u := Use.longname d.longname) hnew
    rw [uses_eq_usesUpTo hds, ← List.singleton_append, ← List.append_assoc] at hfirst
    rw [List.find?_append, hlongname] at hfirst
    simp at hfirst

/-- A long name that has been used before its doclet is registered is stored with the file of
its own page. -/
theorem exists_file_of_used (h : Placed ds r book (usesUpTo ds front d))
    (halias : ∀ e ∈ r.entries, e.isAlias = false) (hds : ds = front ++ d :: back)
    (hdistinct : (ds.map (·.longname)).Nodup) (hused : r.contains d.longname = true) :
    HasPage ds d.longname ∧ ∃ file, r.resolve? d.longname = some file ∧
    '#' ∉ file.toList := by
  obtain ⟨url, hurl⟩ := (r.contains_iff _).1 hused
  obtain ⟨e, he, rfl⟩ := Option.map_eq_some_iff.1 hurl
  have hname : e.name = d.longname := by simpa using List.find?_some he
  have hmem := List.mem_of_find?_eq_some he
  cases h.entries hmem (halias e hmem) with
  | globals hglobal hfile =>
      refine ⟨.inl (hname ▸ hglobal), e.url, hurl, ?_⟩
      rw [hfile]
      exact (h.shelved.books.handedOut h.shelved.globals).hash_not_mem
  | own _ hfirst hbook hfile =>
      refine ⟨.inr ?_, e.url, hurl, ?_⟩
      · rw [uses_eq_usesUpTo hds, List.find?_append]
        rw [← hname, hfirst]
        rfl
      · rw [hfile]
        exact (h.shelved.books.handedOut hbook).hash_not_mem
  | part _ hfirst _ =>
      have hmem := List.mem_of_find?_eq_some hfirst
      have hfront : ∃ e ∈ front, d.longname = e.longname := by
        rw [hname] at hmem
        simpa [usesUpTo, earlyUses, laterUses] using hmem
      obtain ⟨e', he', hsame⟩ := hfront
      rw [hds, List.map_append] at hdistinct
      rw [List.map_cons, List.nodup_append] at hdistinct
      exact absurd hsame.symm
        (hdistinct.2.2 _ (List.mem_map_of_mem he') _ List.mem_cons_self)

/-- If its file is one that encoding leaves alone, the page that is stored under the long
name of a doclet is its link exactly if the doclet is all of that page. -/
theorem file_eq_link_iff {file : String} (hfile : '#' ∉ file.toList)
    (hencoded : Percent.encode file.toList = file.toList) :
    file = (r.createLink d).1 ↔
      '#' ∉ (r.createLink d).1.toList ∧ (r.pageFor (owner d)).1 = file := by
  have hpage := r.pageOf_createLink_eq d
  constructor
  · intro heq
    rw [← heq, Registry.pageOf_of_not_mem hfile, ← hencoded] at hpage
    exact ⟨heq ▸ hfile, String.toList_inj.1 (Percent.encode_injective hpage).symm⟩
  · rintro ⟨hlink, hown⟩
    have hown : (r.pageFor (Registry.placement d).owner).1 = file := hown
    rw [Registry.pageOf_of_not_mem hlink, hown, hencoded] at hpage
    exact (String.toList_inj.1 hpage).symm

end Stored

section Publishing

variable {s : PublishSettings} {ds front back : List Doclet} {d : Doclet}

/-- When nothing is documented elsewhere, there are no aliases as long as links are made. -/
theorem isAlias_of_mem_links {ls : List Doclet} {e : Entry} (hlinks : s.linkMap = [])
    (he : e ∈ ((front.foldl registerLink
      (ls.foldl (fun r d => (r.createLink d).2) (initial s))).createLink d).2.entries) :
    e.isAlias = false := by
  rcases mem_entries_createLink he with he | halias
  · rcases mem_entries_links he with he | halias
    · rw [initial_eq_new hlinks] at he
      rw [List.mem_singleton.1 he]
    · exact halias
  · exact halias

/-- When nothing is documented elsewhere, a long name that belongs to one doclet has been
stored with the link of the doclet or with the file of its own page, and the link is the same
in the end. -/
theorem stored_or_page (hlinks : s.linkMap = []) (hne : ∀ d ∈ kept ds, d.longname ≠ "")
    (hdistinct : ((kept ds).map (·.longname)).Nodup) (hd : d ∈ kept ds)
    (tutorials : List Tutorial) :
    let r := final s ds tutorials
    (¬ HasPage (kept ds) d.longname ∧ r.resolve? d.longname = some (r.createLink d).1) ∨
    (HasPage (kept ds) d.longname ∧ ∃ file, r.resolve? d.longname = some file ∧
      '#' ∉ file.toList) := by
  intro r
  obtain ⟨front, back, hds⟩ := List.append_of_mem hd
  let before := front.foldl registerLink
    ((early (kept ds)).foldl (fun r d => (r.createLink d).2) (initial s))
  have hregistered : registered s ds = back.foldl registerLink (registerLink before d) := by
    rw [registered_eq]
    conv_lhs => rw [hds, List.foldl_append, List.foldl_cons, ← hds]
  have hsub : back ⊆ kept ds := fun e he =>
    hds ▸ List.mem_append_right _ (List.mem_cons_of_mem _ he)
  have hreach : Reaches (kept ds) (registerLink before d) r := by
    refine Reaches.final ?_ tutorials
    rw [hregistered]
    exact Reaches.refl.foldl_registerLink hsub
  have hwished : Wished (kept ds) r :=
    (reaches_final_of_new s ds tutorials).wished wished_new
  have hregister : registerLink before d =
      (before.createLink d).2.register d.longname (before.createLink d).1 :=
    SamePlace.registerLink_eq ⟨rfl, rfl⟩ (hne d hd) before
  have hextends : (before.createLink d).2.Extends (registerLink before d) := by
    rw [hregister]
    exact Registry.extends_add _ _
  have hlink : (r.createLink d).1 = (before.createLink d).1 := by
    rw [Registry.createLink_of_extends (hextends.trans hreach.extends)
      fun _ => hwished.lookup_eq_none hdistinct hd]
  -- Either the name is new when it is registered, or it was used for a page before.
  obtain ⟨book, hprepared⟩ : ∃ book,
      Placed (kept ds) (prepareAll (initial s) (kept ds)).2 book
      ([] ++ earlyUses (kept ds)) := (placed_initial s).prepareAll (kept ds)
  rw [List.nil_append, prepareAll_snd] at hprepared
  obtain ⟨book', hplaced⟩ := placed_usesUpTo hprepared hds hne
  cases hcontains : (before.createLink d).2.contains d.longname with
  | false =>
      refine .inl ⟨not_hasPage_of_new hplaced hds hcontains, ?_⟩
      rw [hlink]
      exact hreach.extends.resolve? (resolve?_registerLink_of_new (hne d hd) hcontains)
  | true =>
      have halias : ∀ e ∈ (before.createLink d).2.entries, e.isAlias = false :=
        fun e he => isAlias_of_mem_links hlinks he
      obtain ⟨hpage, file, hfile, hhash⟩ :=
        exists_file_of_used hplaced halias hds hdistinct hcontains
      refine .inr ⟨hpage, file, hreach.extends.resolve? ?_, hhash⟩
      rw [hregister, Registry.register, Registry.add_of_contains hcontains]
      exact hfile

/-- Publishing succeeds.  Suppose that nothing is documented elsewhere, and that the doclets
have long names that differ from each other.  Whatever is published, taken with the kind that
it had before: if its long name has no page, its link is stored under that name.  If the long
name has a page, the file of that page is stored, and this is the link of the doclet exactly
if the doclet is all of that page, provided that encoding leaves the file alone. -/
theorem stored_link_iff (s : PublishSettings) (ds : List Doclet) (tutorials : List Tutorial)
    (hlinks : s.linkMap = []) (hne : ∀ d ∈ kept ds, d.longname ≠ "")
    (hdistinct : ((kept ds).map (·.longname)).Nodup) :
    ∃ p, run s ds tutorials = .ok p ∧ List.Forall₂ (fun d out =>
      let link := (p.registry.createLink { out with kind := d.kind }).1
      let file := (p.registry.pageFor d.longname).1
      (¬ HasPage (kept ds) d.longname → p.registry.resolve? out.longname = some link) ∧
      (HasPage (kept ds) d.longname → p.registry.resolve? out.longname = some file ∧
        (Percent.encode file.toList = file.toList →
          (p.registry.resolve? out.longname = some link ↔
            '#' ∉ link.toList ∧ (p.registry.pageFor (owner d)).1 = file))))
              (kept ds) p.doclets := by
  obtain ⟨p, -, hrun, -⟩ := exists_recorded s ds tutorials
  have hall := (List.forall₂_and_left _ _).2 ⟨fun d hd => hd, essence_doclets hrun⟩
  refine ⟨p, hrun, hall.imp fun d out ⟨hd, hsame⟩ => ?_⟩
  have hlongname := longname_congr hsame
  have hname : out.longname = d.longname := hlongname
  have hstored := stored_or_page hlinks hne hdistinct hd tutorials
  dsimp only at hstored ⊢
  rw [registry_of_run hrun, createLink_congr hsame, hname]
  rcases hstored with ⟨hpart, hurl⟩ | ⟨hpage, file, hurl, hhash⟩
  · exact ⟨fun _ => hurl, fun hpage => absurd hpage hpart⟩
  · refine ⟨fun hpart => absurd hpage hpart, fun _ => ?_⟩
    have hown : ((final s ds tutorials).pageFor d.longname).1 = file := by
      rw [Registry.pageFor, hurl]
      exact Registry.pageOf_of_not_mem hhash
    rw [hown, hurl]
    exact ⟨rfl, fun hencoded => Option.some_inj.trans (file_eq_link_iff hhash hencoded)⟩

/-- The links of a class, of its method and of a global function are stored. -/
theorem stored_link_of_class_with_method :
    ({} : PublishSettings).linkMap = [] ∧ (∀ d ∈ kept classWithMethod, d.longname ≠ "") ∧
    ((kept classWithMethod).map (·.longname)).Nodup ∧
    ∃ p, run {} classWithMethod [] = .ok p ∧ List.Forall₂ (fun d out =>
      let link := (p.registry.createLink { out with kind := d.kind }).1
      let file := (p.registry.pageFor d.longname).1
      (¬ HasPage (kept classWithMethod) d.longname →
        p.registry.resolve? out.longname = some link) ∧
      (HasPage (kept classWithMethod) d.longname →
        p.registry.resolve? out.longname = some file ∧
        (Percent.encode file.toList = file.toList →
          (p.registry.resolve? out.longname = some link ↔
            '#' ∉ link.toList ∧ (p.registry.pageFor (owner d)).1 = file))))
      (kept classWithMethod) p.doclets := by
  have hne : ∀ d ∈ kept classWithMethod, d.longname ≠ "" := by
    rw [kept_classWithMethod]
    decide +kernel
  have hdistinct : ((kept classWithMethod).map (·.longname)).Nodup := by
    rw [kept_classWithMethod]
    decide +kernel
  exact ⟨rfl, hne, hdistinct, stored_link_iff {} classWithMethod [] rfl hne hdistinct⟩

/-- Whether something other than the link of a published doclet is stored under its long
name. -/
def storesOther (ds : List Doclet) (p : Publication) : Bool :=
  ((kept ds).zip p.doclets).any fun (d, out) =>
    p.registry.resolve? out.longname != some
      (p.registry.createLink { out with kind := d.kind }).1

/-- The doclets have long names that differ from each other, and something other than the
link of one of them is stored under its long name. -/
def StoresOther (ds : List Doclet) : Prop :=
  (∀ d ∈ kept ds, d.longname ≠ "") ∧ ((kept ds).map (·.longname)).Nodup ∧
    ∃ p, run {} ds [] = .ok p ∧ ∃ d out, (d, out) ∈ (kept ds).zip p.doclets ∧
      p.registry.resolve? out.longname ≠
        some (p.registry.createLink { out with kind := d.kind }).1

theorem storesOther_of_publishes {ds : List Doclet} (hkept : kept ds = ds)
    (hnames : ds.all (fun d => d.longname != "") = true)
    (hdistinct : (ds.map (·.longname)).Nodup) (h : publishes ds (storesOther ds) = true) :
    StoresOther ds := by
  obtain ⟨p, hrun, hother⟩ := exists_of_publishes h
  obtain ⟨⟨d, out⟩, hmem, hne⟩ := List.any_eq_true.1 hother
  rw [StoresOther, hkept]
  refine ⟨fun d hd => by simpa using List.all_eq_true.1 hnames d hd, hdistinct, p,
    hrun, d, out, ?_, ?_⟩
  · rwa [hkept] at hmem
  · simpa using hne

/-- A variable that stands for a module. -/
def moduleVariable : List Doclet :=
  [symbol "module:m" "m" .member none]

theorem publishes_laterParent : publishes laterParent (storesOther laterParent) = true := by
  have hsort : Doclet.sortByLongname (Doclet.prune laterParent) = laterParent :=
    kept_eq_of_sorted rfl (by decide +kernel)
  have hkept : kept laterParent = laterParent := hsort
  unfold publishes run storesOther
  rw [hsort, hkept]
  decide +kernel

/-- The file of its own page is stored under the long name of a doclet instead of its link if
its page is asked for by a member that comes before it, or by itself when it is a part of
that page. -/
theorem links_not_stored : StoresOther laterParent ∧ StoresOther moduleVariable := by
  have hlater : kept laterParent = laterParent := kept_eq_of_sorted rfl (by decide +kernel)
  have hmodule : kept moduleVariable = moduleVariable :=
    kept_eq_of_sorted rfl (by decide +kernel)
  constructor
  · exact storesOther_of_publishes hlater (by decide +kernel) (by decide +kernel)
      publishes_laterParent
  · exact storesOther_of_publishes hmodule (by decide +kernel) (by decide +kernel)
      (by decide +kernel)

end Publishing

end Publication
end DocLinks
