import DocLinks.Proofs.PageOwners

/-!
# Pages with a file of their own

Every page is about a subject, and its file is that of its subject, if the subject owns one.
A container owns none if it is called like the global page, or if its long name is first used
by a part of another page: then the page of the container has the link of that part for its
file.

**Invariant.**  `Recorded`: the books of a publication say who has the files of its pages.

**Results.**
* `exists_recorded`: publishing always succeeds, and there are books about what comes out of
  it.
* `pages_apart`: pages of subjects that own a file have different files, none of which has a
  fragment.
-/

namespace DocLinks
namespace Publication

open Filename (fileOf)

/-- The file of a page, if case is ignored. -/
def fileKey (page : Page) : String :=
  Text.caseKey page.filename.toList

/-- A page of a publication is about a subject. -/
inductive About (p : Publication) (tutorials : List Tutorial) : Subject → Page → Prop
  | home : About p tutorials .home Page.home
  | globals {page : Page} : page ∈ Page.globals p.registry p.members →
      About p tutorials .globals page
  | container {page : Page} {name : String} : page ∈ Page.containers p.registry p.members →
      page.longname = some name → About p tutorials (.container name) page
  | tutorial {t : Tutorial} {page : TutorialPage} : t ∈ Tutorial.walkAll tutorials →
      p.registry.tutorial? t.name = some page →
      About p tutorials (.tutorial t.name) ⟨"Tutorial: " ++ page.title, page.url, none⟩
  | source {file : SourceFile} : file ∈ p.sourceFiles →
      About p tutorials (.source file.path) ⟨"Source: " ++ file.shortpath,
        file.filename, none⟩

theorem mem_all_iff_about {p : Publication} {tutorials : List Tutorial} {page : Page} :
    page ∈ Page.all p.registry p.members tutorials p.sourceFiles ↔
      ∃ subject, About p tutorials subject page := by
  simp only [Page.all, List.cons_append, List.mem_cons, List.mem_append]
  constructor
  · rintro (rfl | ((hpage | hpage) | hpage) | hpage)
    · exact ⟨_, .home⟩
    · exact ⟨_, .globals hpage⟩
    · obtain ⟨e, -, -, hname, -⟩ := Page.exists_entry_of_mem_containers hpage
      exact ⟨_, .container hpage hname⟩
    · obtain ⟨t, ht, htutorial⟩ := List.mem_filterMap.1 hpage
      obtain ⟨page, hfile, rfl⟩ := Option.map_eq_some_iff.1 htutorial
      exact ⟨_, .tutorial ht hfile⟩
    · obtain ⟨file, hfile, rfl⟩ := List.mem_map.1 hpage
      exact ⟨_, .source hfile⟩
  · rintro ⟨subject, habout⟩
    cases habout with
    | home => exact .inl rfl
    | globals hpage => exact .inr (.inl (.inl (.inl hpage)))
    | container hpage _ => exact .inr (.inl (.inl (.inr hpage)))
    | tutorial ht hfile =>
        exact .inr (.inl (.inr (List.mem_filterMap.2 ⟨_, ht, by rw [hfile]; rfl⟩)))
    | source hfile => exact .inr (.inr (List.mem_map.2 ⟨_, hfile, rfl⟩))

section Entries

variable {r : Registry} {ds : List Doclet} {tutorials : List Tutorial}
  {e : Entry} {page : Page}

/-- Source files take no name that is registered. -/
theorem mem_entries_registerSources {short : List (String × String)}
    (he : e ∈ (registerSources r short).2.entries) :
    e ∈ r.entries ∨ r.contains e.name = false := by
  induction short generalizing r with
  | nil => exact .inl he
  | cons path short ih =>
      obtain ⟨path, shortpath⟩ := path
      have hstart : r.entries <+:
          ((r.claimFile shortpath).2.register shortpath (r.claimFile shortpath).1).entries :=
        Registry.prefix_add (r.claimFile shortpath).2 _
      rcases ih (r := (r.claimFile shortpath).2.register shortpath
        (r.claimFile shortpath).1) he
        with he | hnew
      · rw [Registry.entries_register] at he
        split at he
        · exact .inl he
        · rename_i hcontains
          rcases List.mem_append.1 he with he | he
          · exact .inl he
          · obtain rfl := List.mem_singleton.1 he
            exact .inr (Bool.eq_false_iff.2 hcontains)
      · refine .inr ?_
        by_contra hcontains
        rw [Registry.contains_of_isPrefix hstart (by simpa using hcontains)] at hnew
        simp at hnew

theorem exists_kind_of_group {label : String} {group : List Member}
    (h : (label, group) ∈ (Members.categorize ds tutorials).containers) :
    ∃ kind, group = Members.ofKind kind ds := by
  simp only [Members.containers, Members.categorize, List.mem_cons, Prod.mk.injEq,
    List.not_mem_nil, or_false] at h
  rcases h with ⟨-, h⟩ | ⟨-, h⟩ | ⟨-, h⟩ | ⟨-, h⟩ | ⟨-, h⟩ | ⟨-, h⟩
  all_goals exact ⟨_, h⟩

/-- The page of an entry is that of a doclet of its name, which is not anonymous. -/
theorem exists_doclet_of_mem_ofEntry
    (h : page ∈ Page.ofEntry (Members.categorize ds tutorials) e) :
    ∃ d ∈ ds, d.longname = e.name ∧ e.name ≠ "" := by
  obtain ⟨⟨label, group⟩, hgroup, hmap⟩ := List.mem_filterMap.1 h
  obtain ⟨member, hfind, -⟩ := Option.map_eq_some_iff.1 hmap
  obtain ⟨kind, rfl⟩ := exists_kind_of_group hgroup
  have hname : member.longname = some e.name := by simpa using List.find?_some hfind
  obtain ⟨d, hd, rfl⟩ := List.mem_map.1 (List.mem_of_find?_eq_some hfind)
  exact ⟨d, (List.mem_filter.1 hd).1, Member.longname_ofDoclet_eq_some_iff.1 hname⟩

theorem mem_linkUses {d : Doclet} (hd : d ∈ ds) (hne : d.longname ≠ "") :
    Use.longname d.longname ∈ linkUses ds := by
  refine List.mem_append_right _
    (List.mem_flatMap.2 ⟨d, List.mem_filter.2 ⟨hd, ?_⟩, by simp⟩)
  simpa using hne

end Entries

/-- The books of a publication: who has the file of a page, and how the entry of a container
comes to its link. -/
structure Recorded (ds : List Doclet) (p : Publication) (book : List (Subject × List Char)) :
    Prop where
  shelved : Shelved p.registry book
  globals : p.registry.resolve? Registry.globalName = some (fileOf "global".toList)
  sources {file : SourceFile} : file ∈ p.sourceFiles →
    ∃ base, (.source file.path, base) ∈ book ∧ file.filename = fileOf base
  containers {page : Page} : page ∈ Page.containers p.registry p.members →
    ∃ e, Filed ds p.registry book (linkUses ds) e ∧ page.longname = some e.name ∧
      page.filename = e.url

/-- The long names of doclets are registered when all of these have been given their
links. -/
theorem exists_resolve?_registered (s : PublishSettings) (ds : List Doclet) {d : Doclet}
    (hd : d ∈ kept ds) (hne : d.longname ≠ "") :
    ∃ url, (registered s ds).resolve? d.longname = some url := by
  obtain ⟨book, hplaced⟩ := exists_placed_registered s ds
  exact (Registry.contains_iff _ _).1 (hplaced.used (mem_linkUses hd hne))

/-- Publishing succeeds, whatever is published, and there are books about it. -/
theorem exists_recorded (s : PublishSettings) (ds : List Doclet)
    (tutorials : List Tutorial) :
    ∃ p book, run s ds tutorials = .ok p ∧
      p.pages = Page.all p.registry p.members tutorials p.sourceFiles ∧
      Recorded (kept ds) p book := by
  obtain ⟨book, hplaced⟩ := exists_placed s ds tutorials
  have hlinked : ∀ d ∈ kept ds, d.longname ≠ "" →
      ∃ url, (linked s ds).resolve? d.longname = some url := fun d hd hne =>
    (exists_resolve?_registered s ds hd hne).imp fun _ =>
      Registry.resolve?_of_isPrefix (prefix_linked s ds)
  obtain ⟨signed, hrun, hcarried⟩ := exists_signed s ds tutorials hlinked
  obtain ⟨book', hsub, hshelved, hsources⟩ :=
    exists_shelved_sources hplaced.shelved (shortpaths ds)
  have hstart :=
    prefix_registerSources (registerTutorials (linked s ds) tutorials) (shortpaths ds)
  refine ⟨_, book', hrun, rfl, hshelved,
    Registry.resolve?_of_isPrefix hstart hplaced.globals,
    fun {file} hfile => hsources file hfile, fun {page} hpage => ?_⟩
  obtain ⟨e, he, hofEntry⟩ := List.mem_flatMap.1 hpage
  obtain ⟨he, halias⟩ := List.mem_filter.1 he
  obtain ⟨hname, hurl⟩ := Page.longname_of_mem_ofEntry hofEntry
  have hold : e ∈ (registerTutorials (linked s ds) tutorials).entries := by
    rcases mem_entries_registerSources he with he | hnew
    · exact he
    · obtain ⟨d, hd, hlongname, hne⟩ := exists_doclet_of_mem_ofEntry hofEntry
      obtain ⟨d₀, hd₀, hcarry⟩ := exists_of_forall₂ hcarried.flip hd
      rw [← hlongname, hcarry.longname] at hne hnew
      have hused := hplaced.used (mem_linkUses hd₀ hne)
      rw [Use.name, hnew] at hused
      simp at hused
  have hfiled := (hplaced.entries hold (by simpa using halias)).mono hstart hsub []
  rw [List.append_nil] at hfiled
  exact ⟨e, hfiled, hname, hurl⟩

section Files

variable {ds : List Doclet} {p : Publication} {tutorials : List Tutorial}
  {book : List (Subject × List Char)}

theorem Recorded.globalUrl_eq (h : Recorded ds p book) :
    p.registry.globalUrl = fileOf "global".toList := by
  rw [Registry.globalUrl, h.globals]
  rfl

theorem Recorded.exists_base (h : Recorded ds p book) {subject : Subject} {page : Page}
    (habout : About p tutorials subject page) (howns : OwnsFile ds subject) :
    ∃ base, (subject, base) ∈ book ∧ page.filename = fileOf base := by
  cases habout with
  | home => exact ⟨_, h.shelved.home, by decide +kernel⟩
  | globals hpage =>
      refine ⟨_, h.shelved.globals, ?_⟩
      have hfile : page.filename = p.registry.globalUrl := by
        unfold Page.globals at hpage
        split at hpage
        · simp at hpage
        · rw [List.mem_singleton.1 hpage]
      rw [hfile, h.globalUrl_eq]
  | @container _ name hpage hname =>
      obtain ⟨e, hfiled, hlongname, hurl⟩ := h.containers hpage
      obtain rfl : name = e.name := Option.some.inj (hname.symm.trans hlongname)
      obtain ⟨hglobal, hfirst⟩ := howns
      cases hfiled with
      | globals hname _ => exact absurd hname hglobal
      | own _ _ hmem hfile => exact ⟨_, hmem, hurl.trans hfile⟩
      | part _ hpart _ =>
          rw [hfirst] at hpart
          simp at hpart
  | tutorial _ hfile => exact h.shelved.tutorials hfile
  | source hfile => exact h.sources hfile

/-- The page of a container that owns no file has that of the global page, or the link of a
part. -/
theorem Recorded.filename_of_not_owns (h : Recorded ds p book) {name : String} {page : Page}
    (habout : About p tutorials (.container name) page)
    (howns : ¬ OwnsFile ds (.container name)) :
    name = Registry.globalName ∧ page.filename = p.registry.globalUrl ∨
      IsPartLink ds p.registry name page.filename := by
  cases habout with
  | container hpage hname =>
      obtain ⟨e, hfiled, hlongname, hurl⟩ := h.containers hpage
      obtain rfl : name = e.name := Option.some.inj (hname.symm.trans hlongname)
      rw [hurl]
      cases hfiled with
      | globals hname hfile => exact .inl ⟨hname, hfile.trans h.globalUrl_eq.symm⟩
      | own hglobal hfirst _ _ => exact absurd ⟨hglobal, hfirst⟩ howns
      | part _ _ hlink => exact .inr hlink

end Files

/-- Publishing succeeds.  Its pages are about the home page, the global page, containers,
tutorials and sources.  If the subject of a page owns a file, that file was handed out and
has no fragment.  The files of two such subjects differ, even if case is ignored, unless the
capital sigma is in them.  The page of any other container shares the file of the global
page, or has the link of a part of a page for its file. -/
theorem pages_apart (s : PublishSettings) (ds : List Doclet) (tutorials : List Tutorial) :
    ∃ p, run s ds tutorials = .ok p ∧
      (∀ page, page ∈ p.pages ↔ ∃ subject, About p tutorials subject page) ∧
      (∀ subject page, About p tutorials subject page → OwnsFile (kept ds) subject →
        Filename.HandedOut p.registry.files.files page.filename ∧
          '#' ∉ page.filename.toList) ∧
      (∀ subject page subject' page', About p tutorials subject page →
        About p tutorials subject' page' → OwnsFile (kept ds) subject →
        OwnsFile (kept ds) subject' → subject ≠ subject' → page.filename ≠ page'.filename ∧
          (Text.capitalSigma ∉ page.filename.toList →
            Text.capitalSigma ∉ page'.filename.toList →
            fileKey page ≠ fileKey page')) ∧
      ∀ name page, About p tutorials (.container name) page →
      ¬ OwnsFile (kept ds) (.container name) →
        name = Registry.globalName ∧ page.filename = p.registry.globalUrl ∨
          IsPartLink (kept ds) p.registry name page.filename := by
  obtain ⟨p, book, hrun, hpages, hrecorded⟩ := exists_recorded s ds tutorials
  refine ⟨p, hrun, fun page => ?_, fun subject page habout howns => ?_,
    fun subject page subject' page' habout habout' howns howns' hne => ?_,
    fun name page habout howns => hrecorded.filename_of_not_owns habout howns⟩
  · rw [hpages]
    exact mem_all_iff_about
  · obtain ⟨base, hmem, hfile⟩ := hrecorded.exists_base habout howns
    have hhanded := hrecorded.shelved.books.handedOut hmem
    rw [hfile]
    exact ⟨hhanded, hhanded.hash_not_mem⟩
  · obtain ⟨base, hmem, hfile⟩ := hrecorded.exists_base habout howns
    obtain ⟨base', hmem', hfile'⟩ := hrecorded.exists_base habout' howns'
    rw [fileKey, fileKey]
    rw [hfile, hfile']
    exact Filename.fileOf_ne (hrecorded.shelved.books.caseKey_ne hmem hmem' hne)

section Samples

/-- The global page and the pages of containers, with what they are about. -/
def labelled (p : Publication) : List (Subject × Page) :=
  (Page.globals p.registry p.members).map (fun page => (.globals, page)) ++
    (Page.containers p.registry p.members).map fun page =>
      (.container (page.longname.getD ""), page)

theorem about_of_mem_labelled {p : Publication} {tutorials : List Tutorial}
    {subject : Subject}
    {page : Page} (h : (subject, page) ∈ labelled p) : About p tutorials subject page := by
  rcases List.mem_append.1 h with h | h
  · obtain ⟨page, hpage, heq⟩ := List.mem_map.1 h
    obtain ⟨rfl, rfl⟩ := Prod.mk.inj heq
    exact .globals hpage
  · obtain ⟨page, hpage, heq⟩ := List.mem_map.1 h
    obtain ⟨rfl, rfl⟩ := Prod.mk.inj heq
    obtain ⟨e, -, -, hname, -⟩ := Page.exists_entry_of_mem_containers hpage
    exact .container hpage (by rw [hname]; rfl)

/-- Whether publishing succeeds with a result that passes a test. -/
def publishes (ds : List Doclet) (test : Publication → Bool) : Bool :=
  match run {} ds [] with
  | .ok p => test p
  | .error _ => false

def hasFragment (p : Publication) : Bool :=
  p.pages.any fun page => page.filename.toList.contains '#'

/-- Whether the files of two pages about different subjects are the same if case is
ignored. -/
def hasTwins (p : Publication) : Bool :=
  (labelled p).any fun a => (labelled p).any fun b => a.1 != b.1 &&
    fileKey a.2 == fileKey b.2

/-- The files of two pages about different subjects are the same if case is ignored. -/
def Twins (ds : List Doclet) : Prop :=
  ∃ p, run {} ds [] = .ok p ∧ ∃ subject page subject' page', About p [] subject page ∧
    About p [] subject' page' ∧ subject ≠ subject' ∧ fileKey page = fileKey page'

theorem exists_of_publishes {ds : List Doclet} {test : Publication → Bool}
    (h : publishes ds test = true) : ∃ p, run {} ds [] = .ok p ∧ test p = true := by
  unfold publishes at h
  split at h
  · rename_i p hrun
    exact ⟨p, hrun, h⟩
  · simp at h

theorem twins_of_hasTwins {ds : List Doclet}
    (h : publishes ds hasTwins = true) : Twins ds := by
  obtain ⟨p, hrun, htwins⟩ := exists_of_publishes h
  obtain ⟨a, ha, hany⟩ := List.any_eq_true.1 htwins
  obtain ⟨b, hb, hboth⟩ := List.any_eq_true.1 hany
  rw [Bool.and_eq_true, bne_iff_ne, beq_iff_eq] at hboth
  exact ⟨p, hrun, a.1, a.2, b.1, b.2, about_of_mem_labelled ha,
    about_of_mem_labelled hb, hboth⟩

/-- A function and a class of one long name. -/
def functionAndClass : List Doclet :=
  [symbol "A" "f" .function none, symbol "A" "A" .classDecl none]

/-- Two classes whose names differ in case only, one of which ends in the capital sigma. -/
def sigmaClasses : List Doclet :=
  [symbol "ΑΣ" "ΑΣ" .classDecl none, symbol "ασ" "ασ" .classDecl none]

/-- A global function, and a class that is called like the page it is on. -/
def globalClass : List Doclet :=
  [symbol "g" "g" .function none, symbol "global" "global" .classDecl none]

theorem hasFragment_functionAndClass : publishes functionAndClass hasFragment = true := by
  have hsort : Doclet.sortByLongname (Doclet.prune functionAndClass) = functionAndClass :=
    kept_eq_of_sorted rfl (by decide +kernel)
  unfold publishes run
  rw [hsort]
  decide +kernel

theorem hasTwins_sigmaClasses : publishes sigmaClasses hasTwins = true := by
  have hsort : Doclet.sortByLongname (Doclet.prune sigmaClasses) = sigmaClasses :=
    kept_eq_of_sorted rfl (by decide +kernel)
  unfold publishes run
  rw [hsort]
  decide +kernel

theorem hasTwins_globalClass : publishes globalClass hasTwins = true := by
  have hsort : Doclet.sortByLongname (Doclet.prune globalClass) = globalClass :=
    kept_eq_of_sorted rfl (by decide +kernel)
  unfold publishes run
  rw [hsort]
  decide +kernel

/-- The page of a class whose long name is first used by a global function has a fragment.
The files of two pages are the same if case is ignored when the capital sigma ends a
basename, and when a class is called like the global page. -/
theorem pages_not_apart :
    (∃ p, run {} functionAndClass [] = .ok p ∧ ∃ page ∈ p.pages,
      '#' ∈ page.filename.toList) ∧
    Twins sigmaClasses ∧ Twins globalClass := by
  obtain ⟨p, hrun, hfragment⟩ := exists_of_publishes hasFragment_functionAndClass
  obtain ⟨page, hpage, hhash⟩ := List.any_eq_true.1 hfragment
  exact ⟨⟨p, hrun, page, hpage, by simpa using hhash⟩,
    twins_of_hasTwins hasTwins_sigmaClasses, twins_of_hasTwins hasTwins_globalClass⟩

end Samples

end Publication
end DocLinks
