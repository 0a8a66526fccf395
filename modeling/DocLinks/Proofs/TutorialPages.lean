import DocLinks.Proofs.DocletEssence
import DocLinks.Proofs.PagesOfTheirOwn
import DocLinks.Proofs.RegistryHistory

/-!
# The pages of tutorials

All tutorials of a forest are visited, each before those below it.  The first one of a name
gets a page for it, and the page keeps its title.  A tutorial that comes later and is called
the same adds nothing.

**Invariant.**  `Allotted`: the books of a registry tell the files of tutorials from all
others.  A file is one of a name in the books if it is that of the page of the name, which
has the title of the first tutorial of the name.

**Results.**
* `tutorials_linked`: before tutorials are visited, none has a page.
* `Allotted.addTutorial`, `Allotted.addTutorials`: the invariant is kept by one tutorial, and
  so by all.
* `tutorials_have_pages`: every tutorial has a page; names share no file, and their files are
  apart from all files that are handed out.
* `tutorials_not_apart`: the files of two tutorials may differ in case only.
-/

namespace DocLinks

namespace Registry

theorem tutorials_foldl {β : Type} {f : Registry → β → Registry}
    (h : ∀ r b, (f r b).tutorials = r.tutorials) (l : List β) (r : Registry) :
    (l.foldl f r).tutorials = r.tutorials := by
  induction l generalizing r with
  | nil => rfl
  | cons b l ih => exact (ih (f r b)).trans (h r b)

theorem tutorials_createLink (r : Registry) (d : Doclet) :
    (r.createLink d).2.tutorials = r.tutorials := by
  refine (r.files_createLink d).2.trans ?_
  unfold pageFor
  split
  · rfl
  · exact tutorials_add _ _

end Registry

namespace Publication

open Filename (fileOf Books HandedOut Apart)

section Links

/-- Making links gives no tutorial a page. -/
theorem tutorials_linked (s : PublishSettings) (ds : List Doclet) :
    (linked s ds).tutorials = [] := by
  have hlink : ∀ (r : Registry) (d : Doclet),
      (registerLink r d).tutorials = r.tutorials := by
    intro r d
    unfold registerLink
    split
    · rfl
    · exact (Registry.tutorials_add _ _).trans (r.tutorials_createLink d)
  have hinitial : (initial s).tutorials = [] :=
    initial_induction (P := (·.tutorials = [])) s rfl fun r _ _ h =>
      (r.tutorials_add _).trans h
  have haliases : linked s ds = _ := Registry.register_eq_foldl_add _ (registered s ds)
  rw [haliases, Registry.tutorials_foldl Registry.tutorials_add]
  rw [registered_eq, Registry.tutorials_foldl hlink]
  rw [Registry.tutorials_foldl Registry.tutorials_createLink, hinitial]

end Links

section Steps

/-- The books of a registry say which files are those of tutorials, when some tutorials have
been given pages. -/
structure Allotted (r : Registry) (ts : List Tutorial)
    (book : List (Option String × List Char)) :
    Prop where
  books : Books r.files.files book
  owned (name file : String) :
    (∃ base, (some name, base) ∈ book ∧ file = fileOf base) ↔
      (r.tutorial? name).map (·.url) = some file
  titles (name : String) :
    (r.tutorial? name).map (·.title) = (ts.find? (·.name == name)).map Tutorial.displayTitle

variable {r : Registry} {ts : List Tutorial} {book : List (Option String × List Char)}

/-- A file that is handed out for something else belongs to no tutorial. -/
theorem Allotted.claimFile (h : Allotted r ts book) (name : String) :
    ∃ book', Allotted (r.claimFile name).2 ts book' := by
  obtain ⟨base, -, hbooks⟩ := h.books.exists_claim none name
  refine ⟨_, hbooks, fun other file => ?_, h.titles⟩
  have hmem : ∀ base', (some other, base') ∈ (none, base) :: book ↔
      (some other, base') ∈ book := by
    simp
  simp only [hmem]
  exact h.owned other file

theorem Allotted.add (h : Allotted r ts book) (e : Entry) : Allotted (r.add e) ts book where
  books := by
    rw [Registry.files_add]
    exact h.books
  owned name file := by
    rw [h.owned, Registry.tutorial?]
    rw [Registry.tutorial?, Registry.tutorials_add]
  titles name := by
    rw [← h.titles, Registry.tutorial?]
    rw [Registry.tutorial?, Registry.tutorials_add]

/-- A tutorial gets a file if it is the first one of its name, and nothing else. -/
theorem Allotted.addTutorial (h : Allotted r ts book) (t : Tutorial) :
    ∃ book', Allotted (r.addTutorial t.name t.displayTitle).2 (ts ++ [t]) book' := by
  have htitles : ∀ name,
      ((r.addTutorial t.name t.displayTitle).2.tutorial? name).map (·.title) =
      ((ts ++ [t]).find? (·.name == name)).map Tutorial.displayTitle := by
    intro name
    rw [Registry.tutorial?_addTutorial, List.find?_append, Option.map_or]
    rw [Option.map_or, h.titles]
    by_cases hname : name = t.name
    · rw [if_pos hname, List.find?_cons_of_pos (by simp [hname])]
      rfl
    · rw [if_neg hname, List.find?_cons_of_neg (by simpa using Ne.symm hname)]
      rfl
  cases hpage : r.tutorial? t.name with
  | some page =>
      rw [r.addTutorial_of_some hpage] at htitles ⊢
      exact ⟨book, h.books, h.owned, htitles⟩
  | none =>
      obtain ⟨hurl, hfiles⟩ := r.addTutorial_of_none hpage t.displayTitle
      obtain ⟨base, hfile, hbooks⟩ :=
        h.books.exists_claim (some t.name) ("tutorial-" ++ t.name)
      have hfirst : (r.addTutorial t.name t.displayTitle).1 = fileOf base := hurl.trans hfile
      refine ⟨(some t.name, base) :: book, ?_, fun name file => ?_, htitles⟩
      · rw [hfiles]
        exact hbooks
      · rw [Registry.tutorial?_addTutorial, hfirst, Option.map_or]
        by_cases hname : name = t.name
        · have hnone : ∀ base', (some t.name, base') ∉ book := fun base' hmem => by
            have hurl := (h.owned t.name (fileOf base')).1 ⟨base', hmem, rfl⟩
            rw [hpage] at hurl
            simp at hurl
          subst hname
          simp [hpage, hnone, eq_comm]
        · rw [if_neg hname, Option.map_none]
          rw [Option.or_none, ← h.owned name file]
          simp [hname]

/-- All tutorials get files, one for each name. -/
theorem Allotted.addTutorials (h : Allotted r ts book) (more : List Tutorial) :
    ∃ book',
    Allotted (more.foldl (fun r t => (r.addTutorial t.name t.displayTitle).2) r) (ts ++ more)
      book' := by
  induction more generalizing r ts book with
  | nil => exact ⟨book, by simpa using h⟩
  | cons t more ih =>
      obtain ⟨book', hstep⟩ := h.addTutorial t
      obtain ⟨book'', hrest⟩ := ih hstep
      rw [List.append_assoc, List.singleton_append] at hrest
      exact ⟨book'', hrest⟩

theorem Allotted.registerSources (h : Allotted r ts book) (short : List (String × String)) :
    ∃ book', Allotted (registerSources r short).2 ts book' := by
  induction short generalizing r book with
  | nil => exact ⟨book, h⟩
  | cons path short ih =>
      obtain ⟨path, shortpath⟩ := path
      obtain ⟨book', hclaim⟩ := h.claimFile shortpath
      exact ih (hclaim.add ⟨shortpath, _, false⟩)

/-- The invariant holds when everything is published. -/
theorem exists_allotted (s : PublishSettings) (ds : List Doclet)
    (tutorials : List Tutorial) :
    ∃ book, Allotted (final s ds tutorials) (Tutorial.walkAll tutorials) book := by
  obtain ⟨book, hplaced⟩ := exists_placed_registered s ds
  have hlinked : Allotted (linked s ds) [] (book.map fun entry => (none, entry.2)) := by
    have hnone : ∀ name, (linked s ds).tutorial? name = none := fun name => by
      rw [Registry.tutorial?, tutorials_linked, List.lookup_nil]
    refine ⟨hplaced.addAliases.shelved.books.map_owner fun _ => none, fun name file => ?_,
      fun name => ?_⟩
    · rw [hnone]
      simp
    · rw [hnone]
      rfl
  obtain ⟨book', htutorials⟩ := hlinked.addTutorials (Tutorial.walkAll tutorials)
  exact htutorials.registerSources (shortpaths ds)

end Steps

section Pages

/-- A tutorial has a page of its own in the books: its name has one file, which is apart from
all others, and its page has the title of the first tutorial of the name. -/
structure HasTutorialPage (r : Registry) (ts : List Tutorial)
    (book : List (Option String × List Char))
    (name : String) (page : TutorialPage) : Prop where
  registered : r.tutorial? name = some page
  owned : ∃ base, page.url = fileOf base ∧ (some name, base) ∈ book ∧
    (∀ base', (some name, base') ∈ book → base' = base) ∧
    ∀ entry ∈ book.erase (some name, base), Apart page.url (fileOf entry.2)
  titled : ∃ first, ts.find? (·.name == name) = some first ∧ page.title = first.displayTitle

variable {r : Registry} {ts : List Tutorial} {book : List (Option String × List Char)}
  {name name' : String} {page page' : TutorialPage}

theorem Allotted.hasTutorialPage (h : Allotted r ts book)
    (hpage : r.tutorial? name = some page) :
    HasTutorialPage r ts book name page where
  registered := hpage
  owned := by
    obtain ⟨base, hmem, hfile⟩ := (h.owned name page.url).2 (by rw [hpage]; rfl)
    refine ⟨base, hfile, hmem, fun base' hmem' => ?_, fun entry hentry => ?_⟩
    · have hurl := (h.owned name (fileOf base')).1 ⟨base', hmem', rfl⟩
      rw [hpage, Option.map_some] at hurl
      rw [Option.some_inj, hfile] at hurl
      exact Filename.fileOf_injective hurl.symm
    · rw [hfile]
      exact h.books.apart hmem hentry
  titled := by
    have htitle := h.titles name
    rw [hpage, Option.map_some] at htitle
    obtain ⟨first, hfirst, hdisplay⟩ := Option.map_eq_some_iff.1 htitle.symm
    exact ⟨first, hfirst, hdisplay.symm⟩

/-- Every tutorial that is visited has a page. -/
theorem Allotted.exists_hasTutorialPage (h : Allotted r ts book)
    {t : Tutorial} (ht : t ∈ ts) :
    ∃ page, HasTutorialPage r ts book t.name page := by
  have hsome : (ts.find? (·.name == t.name)).isSome = true :=
    List.find?_isSome.2 ⟨t, ht, by simp⟩
  obtain ⟨first, hfirst⟩ := Option.isSome_iff_exists.1 hsome
  have htitle := h.titles t.name
  rw [hfirst, Option.map_some] at htitle
  obtain ⟨page, hpage, -⟩ := Option.map_eq_some_iff.1 htitle
  exact ⟨page, h.hasTutorialPage hpage⟩

/-- Pages of different names have files that are apart. -/
theorem HasTutorialPage.apart (h : HasTutorialPage r ts book name page)
    (h' : HasTutorialPage r ts book name' page') (hne : name ≠ name') :
    Apart page.url page'.url := by
  obtain ⟨base, -, -, -, hothers⟩ := h.owned
  obtain ⟨base', hfile, hmem, -⟩ := h'.owned
  have hentry : (some name', base') ≠ (some name, base) := fun heq =>
    hne (Option.some.inj (Prod.mk.inj heq).1).symm
  rw [hfile]
  exact hothers (some name', base') ((List.mem_erase_of_ne hentry).2 hmem)

/-- Publishing succeeds, and all tutorials at any depth have pages.  There are books about
all files that are handed out: a tutorial has one file in them, under its name, and this is
apart from every other file there.  The page of a name has the title of the first tutorial
that is called so.  Tutorials have the same file if they have the same name, and files that
are apart otherwise. -/
theorem tutorials_have_pages (s : PublishSettings) (ds : List Doclet)
    (tutorials : List Tutorial) :
    ∃ p book, run s ds tutorials = .ok p ∧ Books p.registry.files.files book ∧
      (∀ file, HandedOut p.registry.files.files file → ∃ entry ∈ book,
        file = fileOf entry.2) ∧
      (∀ t ∈ Tutorial.walkAll tutorials, ∃ page,
        HasTutorialPage p.registry (Tutorial.walkAll tutorials) book t.name page) ∧
      ∀ name page name' page', p.registry.tutorial? name = some page →
        p.registry.tutorial? name' = some page' →
        (page.url = page'.url ↔ name = name') ∧
        (name ≠ name' → Apart page.url page'.url) := by
  obtain ⟨p, -, hrun, -⟩ := exists_recorded s ds tutorials
  obtain ⟨book, hbook⟩ := exists_allotted s ds tutorials
  rw [← registry_of_run hrun] at hbook
  refine ⟨p, book, hrun, hbook.books,
    fun file hfile => hbook.books.exists_of_handedOut hfile,
    fun t ht => hbook.exists_hasTutorialPage ht,
    fun name page name' page' hpage hpage' => ?_⟩
  have hapart : name ≠ name' → Apart page.url page'.url :=
    (hbook.hasTutorialPage hpage).apart (hbook.hasTutorialPage hpage')
  refine ⟨⟨fun hurl => ?_, ?_⟩, hapart⟩
  · by_contra hne
    exact (hapart hne).ne hurl
  · rintro rfl
    rw [Option.some.inj (hpage.symm.trans hpage')]

/-- Two tutorials whose names differ in case only, one of which ends in the capital sigma. -/
def sigmaTutorials : List Tutorial :=
  [.mk "ΑΣ" "" [], .mk "ασ" "" []]

/-- The files of two tutorials differ in case only, if one of their names ends in a capital
sigma. -/
theorem tutorials_not_apart :
    ∃ p, run {} [] sigmaTutorials = .ok p ∧
      p.registry.tutorial? "ΑΣ" = some ⟨"tutorial-ΑΣ.html", "ΑΣ"⟩ ∧
      p.registry.tutorial? "ασ" = some ⟨"tutorial-ασ.html", "ασ"⟩ ∧
      Text.caseKey "tutorial-ΑΣ.html".toList = Text.caseKey "tutorial-ασ.html".toList := by
  obtain ⟨p, -, hrun, -⟩ := exists_recorded {} [] sigmaTutorials
  have hregistry := registry_of_run hrun
  refine ⟨p, hrun, ?_, ?_, by decide +kernel⟩
  · rw [hregistry]
    decide +kernel
  · rw [hregistry]
    decide +kernel

end Pages

end Publication
end DocLinks
