import DocLinks.Proofs.FileBooks
import DocLinks.Proofs.GeneratedPages

/-!
# Who owns a file

In the course of publishing, files are handed out to the home page, to the global page, to
long names whose page is asked for, to tutorials and to sources.  A long name that is first
used by a part of another page gets no file: it is registered with the link of that part.

**Invariant.**  `Shelved`: the books say who has which file, and tutorials are registered
with theirs. `Placed`: every name that was used is registered, with its file or with the link
of a part.

**Results.**
* `Placed.page`, `Placed.registerLink`: what a use of a name preserves.
* `exists_placed`: the invariant holds when all doclets, short names and tutorials are
  registered.
* `exists_shelved_sources`: sources have files of their own as well.
-/

namespace DocLinks
namespace Publication

open Filename (fileOf Books)

/-- What a page is about. -/
inductive Subject where
  | home
  | globals
  | container (longname : String)
  | tutorial (name : String)
  | source (path : String)
  deriving DecidableEq

/-- The uses of names while links are made, in the order in which they happen; anonymous
doclets are not registered. -/
def linkUses (ds : List Doclet) : List Use :=
  earlyUses ds ++ laterUses (ds.filter fun d => d.longname != "")

/-- Every subject owns a file, apart from a container that is called like the global page or
whose long name is first used by a part of another page. -/
def OwnsFile (ds : List Doclet) : Subject → Prop
  | .container name => name ≠ Registry.globalName ∧
      (linkUses ds).find? (·.name == name) = some (.page name)
  | _ => True

/-- The link of a doclet of the given long name to the page of its owner. -/
def IsPartLink (ds : List Doclet) (r : Registry) (name url : String) : Prop :=
  ∃ d ∈ ds, d.longname = name ∧ ∃ page fragment, r.resolve? (owner d) = some page ∧
    url = Registry.urlOf (Registry.pageOf page) fragment

section Shelves

/-- The books of a registry: who has which file. -/
structure Shelved (r : Registry) (book : List (Subject × List Char)) : Prop where
  books : Books r.files.files book
  home : (.home, "index".toList) ∈ book
  globals : (.globals, "global".toList) ∈ book
  tutorials {name : String} {page : TutorialPage} : r.tutorial? name = some page →
    ∃ base, (.tutorial name, base) ∈ book ∧ page.url = fileOf base

variable {r r' : Registry} {book : List (Subject × List Char)}

theorem Shelved.congr (h : Shelved r book) (hfiles : r'.files.files = r.files.files)
    (htutorials : r'.tutorials = r.tutorials) : Shelved r' book := by
  refine ⟨hfiles ▸ h.books, h.home, h.globals, fun {name page} hpage => h.tutorials ?_⟩
  rwa [Registry.tutorial?, htutorials] at hpage

theorem Shelved.claim (h : Shelved r book) (subject : Subject) (name : String) :
    ∃ base, (r.claimFile name).1 = fileOf base ∧
      Shelved (r.claimFile name).2 ((subject, base) :: book) := by
  obtain ⟨base, hfile, hbooks⟩ := h.books.exists_claim subject name
  refine ⟨base, hfile, hbooks, List.mem_cons_of_mem _ h.home,
    List.mem_cons_of_mem _ h.globals, ?_⟩
  intro name page hpage
  obtain ⟨base', hmem, hurl⟩ := h.tutorials hpage
  exact ⟨base', List.mem_cons_of_mem _ hmem, hurl⟩

theorem Shelved.add (h : Shelved r book) (e : Entry) : Shelved (r.add e) book :=
  h.congr (congrArg (·.files) (r.files_add e)) (r.tutorials_add e)

theorem shelved_new :
    Shelved Registry.new [(.globals, "global".toList), (.home, "index".toList)] := by
  have hindex : Books (Filename.Allocator.empty.claimFile "index").2.files
      [(Subject.home, "index".toList)] :=
    @Books.claim Subject .empty [] .home "index" "index".toList .nil (by decide +kernel)
      (by decide +kernel) (by decide +kernel)
  have hglobal : Books Registry.new.files.files
      [(Subject.globals, "global".toList), (.home, "index".toList)] :=
    @Books.claim Subject (Filename.Allocator.empty.claimFile "index").2 _ .globals "global"
      "global".toList hindex (by decide +kernel) (by decide +kernel) (by decide +kernel)
  refine ⟨hglobal, by simp, by simp, fun {name page} hpage => ?_⟩
  simp [Registry.tutorial?, Registry.new] at hpage

theorem Shelved.addTutorial (h : Shelved r book) (name title : String) :
    ∃ book', book ⊆ book' ∧ Shelved (r.addTutorial name title).2 book' := by
  cases hpage : r.tutorial? name with
  | some page =>
      rw [r.addTutorial_of_some hpage]
      exact ⟨book, List.Subset.refl _, h⟩
  | none =>
      obtain ⟨hurl, hfiles⟩ := r.addTutorial_of_none hpage title
      obtain ⟨base, hfile, hclaim⟩ := h.claim (.tutorial name) ("tutorial-" ++ name)
      refine ⟨_, List.subset_cons_self _ _, ?_, hclaim.home, hclaim.globals,
        fun {name' page} hpage => ?_⟩
      · rw [hfiles]
        exact hclaim.books
      · rw [r.tutorial?_addTutorial, Option.or_eq_some_iff] at hpage
        rcases hpage with hpage | ⟨-, hpage⟩
        · exact hclaim.tutorials hpage
        · obtain ⟨rfl, hnew⟩ := Option.ite_none_right_eq_some.1 hpage
          obtain rfl := Option.some.inj hnew
          exact ⟨base, List.mem_cons_self, hurl.trans hfile⟩

theorem exists_shelved_tutorials (h : Shelved r book) (tutorials : List Tutorial) :
    ∃ book', book ⊆ book' ∧ Shelved (registerTutorials r tutorials) book' := by
  unfold registerTutorials
  generalize Tutorial.walkAll tutorials = ts
  induction ts generalizing r book with
  | nil => exact ⟨book, List.Subset.refl _, h⟩
  | cons t ts ih =>
      obtain ⟨book', hsub, hstep⟩ := h.addTutorial t.name t.displayTitle
      obtain ⟨book'', hsub', hrest⟩ := ih hstep
      exact ⟨book'', List.Subset.trans hsub hsub', hrest⟩

theorem exists_shelved_sources (h : Shelved r book) (short : List (String × String)) :
    ∃ book', book ⊆ book' ∧ Shelved (registerSources r short).2 book' ∧
      ∀ file ∈ (registerSources r short).1, ∃ base, (.source file.path, base) ∈ book' ∧
        file.filename = fileOf base := by
  induction short generalizing r book with
  | nil => exact ⟨book, List.Subset.refl _, h, by simp [registerSources]⟩
  | cons path short ih =>
      obtain ⟨path, shortpath⟩ := path
      obtain ⟨base, hfile, hclaim⟩ := h.claim (.source path) shortpath
      obtain ⟨book', hsub, hshelved, hsources⟩ := ih (hclaim.add ⟨shortpath, _, false⟩)
      refine ⟨book', fun entry hentry => hsub (List.mem_cons_of_mem _ hentry), hshelved, ?_⟩
      intro file hmem
      rcases List.mem_cons.1 hmem with rfl | hmem
      · exact ⟨base, hsub List.mem_cons_self, hfile⟩
      · exact hsources file hmem

end Shelves

section Places

/-- How an entry comes to its link: it is that of the global page, or of a name whose page
was asked for first, or of a name that was first used by a part of a page. -/
inductive Filed (ds : List Doclet) (r : Registry) (book : List (Subject × List Char))
    (us : List Use) (e : Entry) : Prop
  | globals : e.name = Registry.globalName → e.url = fileOf "global".toList →
      Filed ds r book us e
  | own {base : List Char} : e.name ≠ Registry.globalName →
      us.find? (·.name == e.name) = some (.page e.name) → (.container e.name, base) ∈ book →
      e.url = fileOf base → Filed ds r book us e
  | part : e.name ≠ Registry.globalName →
      us.find? (·.name == e.name) = some (.longname e.name) → IsPartLink ds r e.name e.url →
      Filed ds r book us e

/-- Every name that was used is registered, and every entry comes to its link in one of the
ways. -/
structure Placed (ds : List Doclet) (r : Registry) (book : List (Subject × List Char))
    (us : List Use) : Prop where
  shelved : Shelved r book
  globals : r.resolve? Registry.globalName = some (fileOf "global".toList)
  used {u : Use} : u ∈ us → r.contains u.name = true
  entries {e : Entry} : e ∈ r.entries → e.isAlias = false → Filed ds r book us e

variable {ds : List Doclet} {r r' : Registry} {book book' : List (Subject × List Char)}
  {us : List Use} {e : Entry}

theorem IsPartLink.mono {name url : String} (h : IsPartLink ds r name url)
    (hstart : r.entries <+: r'.entries) : IsPartLink ds r' name url := by
  obtain ⟨d, hd, hname, page, fragment, hpage, hurl⟩ := h
  exact ⟨d, hd, hname, page, fragment, Registry.resolve?_of_isPrefix hstart hpage, hurl⟩

theorem Filed.mono (h : Filed ds r book us e) (hstart : r.entries <+: r'.entries)
    (hbook : book ⊆ book') (more : List Use) : Filed ds r' book' (us ++ more) e := by
  cases h with
  | globals hname hurl => exact .globals hname hurl
  | own hname hfirst hmem hurl =>
      refine .own hname ?_ (hbook hmem) hurl
      rw [List.find?_append, hfirst]
      rfl
  | part hname hfirst hlink =>
      refine .part hname ?_ (hlink.mono hstart)
      rw [List.find?_append, hfirst]
      rfl

/-- A change that adds no entry, except aliases, keeps the invariant. -/
theorem Placed.extend (h : Placed ds r book us) (hshelved : Shelved r' book')
    (hbook : book ⊆ book')
    (more : List Entry) (hentries : r'.entries = r.entries ++ more)
    (hmore : ∀ e ∈ more, e.isAlias = true) : Placed ds r' book' us := by
  have hstart : r.entries <+: r'.entries := ⟨more, hentries.symm⟩
  refine ⟨hshelved, Registry.resolve?_of_isPrefix hstart h.globals,
    fun {u} hu => Registry.contains_of_isPrefix hstart (h.used hu), fun {e} he halias => ?_⟩
  rw [hentries] at he
  rcases List.mem_append.1 he with he | he
  · have hfiled := (h.entries he halias).mono hstart hbook []
    rwa [List.append_nil] at hfiled
  · rw [hmore e he] at halias
    exact absurd halias (by simp)

theorem Placed.unchanged (h : Placed ds r book us) (hshelved : Shelved r' book')
    (hbook : book ⊆ book')
    (hentries : r'.entries = r.entries) : Placed ds r' book' us :=
  h.extend hshelved hbook [] (by rw [hentries, List.append_nil]) (by simp)

/-- A use of a name that is registered changes nothing. -/
theorem Placed.again (h : Placed ds r book us) {u : Use} (hu : r.contains u.name = true) :
    Placed ds r book (us ++ [u]) := by
  refine ⟨h.shelved, h.globals, fun {v} hv => ?_, fun {e} he halias => ?_⟩
  · rcases List.mem_append.1 hv with hv | hv
    · exact h.used hv
    · obtain rfl := List.mem_singleton.1 hv
      exact hu
  · exact (h.entries he halias).mono List.prefix_rfl (List.Subset.refl _) [u]

/-- A use of a name that is not registered is the first one. -/
theorem Placed.find?_eq (h : Placed ds r book us) {u : Use}
    (hu : r.contains u.name = false) :
    (us ++ [u]).find? (·.name == u.name) = some u := by
  have hnone : us.find? (·.name == u.name) = none := by
    rw [List.find?_eq_none]
    intro v hv hname
    have hname : v.name = u.name := by simpa using hname
    have hcontains := h.used hv
    rw [hname, hu] at hcontains
    simp at hcontains
  rw [List.find?_append, hnone, Option.none_or]
  simp

/-- Registering a name that is used for the first time keeps the invariant, if its link comes
about in one of the ways. -/
theorem Placed.register (h : Placed ds r book us) {u : Use} {url : String}
    (hnew : r.contains u.name = false)
    (hfiled : Filed ds (r.register u.name url) book (us ++ [u]) ⟨u.name, url, false⟩) :
    Placed ds (r.register u.name url) book (us ++ [u]) := by
  have hentries : (r.register u.name url).entries = r.entries ++ [⟨u.name, url, false⟩] := by
    rw [Registry.entries_register, hnew]
    rfl
  have hstart : r.entries <+: (r.register u.name url).entries := ⟨_, hentries.symm⟩
  refine ⟨h.shelved.add _, Registry.resolve?_of_isPrefix hstart h.globals, fun {v} hv => ?_,
    fun {e} he halias => ?_⟩
  · rcases List.mem_append.1 hv with hv | hv
    · exact Registry.contains_of_isPrefix hstart (h.used hv)
    · obtain rfl := List.mem_singleton.1 hv
      rw [Registry.contains, hentries]
      simp
  · rw [hentries] at he
    rcases List.mem_append.1 he with he | he
    · exact (h.entries he halias).mono hstart (List.Subset.refl _) [u]
    · obtain rfl := List.mem_singleton.1 he
      exact hfiled

/-- Asking for the page of a name keeps the invariant. -/
theorem Placed.page (h : Placed ds r book us) (name : String) :
    ∃ book', Placed ds (r.pageFor name).2 book' (us ++ [.page name]) := by
  unfold Registry.pageFor
  split
  · rename_i url hurl
    exact ⟨book, h.again ((r.contains_iff name).2 ⟨url, hurl⟩)⟩
  · rename_i hnone
    obtain ⟨base, hfile, hclaim⟩ := h.shelved.claim (.container name) name
    have hclaimed : Placed ds (r.claimFile name).2 ((.container name, base) :: book) us :=
      h.unchanged hclaim (List.subset_cons_self _ _) rfl
    have hnew : (r.claimFile name).2.contains name = false :=
      Registry.contains_eq_false_iff.2 hnone
    refine ⟨_, hclaimed.register (u := .page name) hnew ?_⟩
    refine .own ?_ (hclaimed.find?_eq (u := .page name) hnew) List.mem_cons_self hfile
    rintro rfl
    rw [h.globals] at hnone
    simp at hnone

theorem Placed.createLink (h : Placed ds r book us) (d : Doclet) :
    ∃ book', Placed ds (r.createLink d).2 book' (us ++ [.page (owner d)]) := by
  obtain ⟨book', hpage⟩ := h.page (owner d)
  obtain ⟨hfiles, htutorials⟩ := r.files_createLink d
  exact ⟨book', hpage.unchanged (hpage.shelved.congr hfiles htutorials) (List.Subset.refl _)
    (r.entries_createLink d)⟩

theorem exists_createLink_eq (r : Registry) (d : Doclet) :
    ∃ page fragment, (r.createLink d).2.resolve? (owner d) = some page ∧
      (r.createLink d).1 = Registry.urlOf (Registry.pageOf page) fragment := by
  obtain ⟨page, hpage, hfile⟩ := r.pageFor_spec (owner d)
  refine ⟨page, (if (Registry.placement d).isPart then
    (r.pageFor (owner d)).2.fragmentFor (Registry.pageOf page) d
      else ("", (r.pageFor (owner d)).2)).1,
    ?_, ?_⟩
  · rw [Registry.resolve?_congr (r.entries_createLink d)]
    exact hpage
  · rw [← hfile]
    rfl

/-- Registering a doclet keeps the invariant; an anonymous one is not registered. -/
theorem Placed.registerLink (h : Placed ds r book us) {d d' : Doclet} (hd : d ∈ ds)
    (hsame : SamePlace d d') :
    ∃ book', Placed ds (registerLink r d') book'
      (us ++ laterUses ([d].filter fun d => d.longname != "")) := by
  have howner : owner d' = owner d := congrArg Registry.Placement.owner hsame.1
  by_cases hname : d.longname = ""
  · have hregister : Publication.registerLink r d' = r := by
      rw [Publication.registerLink, hsame.2, if_pos (by simpa using hname)]
    refine ⟨book, ?_⟩
    rw [hregister]
    simpa [hname, laterUses] using h
  · have huses : us ++ laterUses ([d].filter fun d => d.longname != "") =
        (us ++ [.page (owner d)]) ++ [.longname d.longname] := by
      simp [hname, laterUses]
    obtain ⟨book', hlink⟩ := h.createLink d'
    rw [howner] at hlink
    refine ⟨book', ?_⟩
    rw [hsame.registerLink_eq hname, huses]
    cases hcontains : (r.createLink d').2.contains d.longname with
    | true =>
        rw [Registry.register, Registry.add_of_contains hcontains]
        exact hlink.again hcontains
    | false =>
        refine hlink.register (u := .longname d.longname) hcontains (.part ?_ ?_ ?_)
        · intro hglobal
          have hnone := Registry.contains_eq_false_iff.1 hcontains
          rw [show d.longname = Registry.globalName from hglobal, hlink.globals] at hnone
          simp at hnone
        · exact hlink.find?_eq (u := .longname d.longname) hcontains
        · obtain ⟨page, fragment, hpage, hurl⟩ := exists_createLink_eq r d'
          rw [howner] at hpage
          exact ⟨d, hd, rfl, page, fragment,
            Registry.resolve?_of_isPrefix (Registry.prefix_add _ _) hpage, hurl⟩

theorem Placed.foldl_registerLink {later later' : List Doclet} (h : Placed ds r book us)
    (hsub : later ⊆ ds) (hsame : List.Forall₂ SamePlace later later') :
    ∃ book', Placed ds (later'.foldl Publication.registerLink r) book'
      (us ++ laterUses (later.filter fun d => d.longname != "")) := by
  induction hsame generalizing r book us with
  | nil => exact ⟨book, by simpa [laterUses] using h⟩
  | @cons d d' later later' hd _ ih =>
      obtain ⟨book', hstep⟩ := h.registerLink (hsub List.mem_cons_self) hd
      obtain ⟨book'', hrest⟩ := ih hstep fun e he => hsub (List.mem_cons_of_mem _ he)
      have huses : laterUses ((d :: later).filter fun d => d.longname != "") =
          laterUses ([d].filter fun d => d.longname != "") ++
            laterUses (later.filter fun d => d.longname != "") := by
        rw [← List.singleton_append, List.filter_append]
        rw [laterUses, List.flatMap_append]
        rfl
      rw [huses, ← List.append_assoc]
      exact ⟨book'', hrest⟩

theorem Placed.prepareAll (h : Placed ds r book us) (later : List Doclet) :
    ∃ book', Placed ds (prepareAll r later).2 book' (us ++ earlyUses later) := by
  induction later generalizing r book us with
  | nil => exact ⟨book, by simpa [earlyUses, Publication.prepareAll] using h⟩
  | cons d later ih =>
      obtain ⟨book', hstep⟩ : ∃ book', Placed ds (prepare r d).2 book'
          (us ++ if d.see.any isHashLink then [.page (owner d)] else []) := by
        rw [registry_prepare]
        split
        · exact h.createLink (tidy d)
        · exact ⟨book, by rwa [List.append_nil]⟩
      obtain ⟨book'', hrest⟩ := ih hstep
      rw [earlyUses_cons, ← List.append_assoc]
      exact ⟨book'', hrest⟩

theorem Placed.registerAlias (h : Placed ds r book us) (name url : String) :
    Placed ds (r.registerAlias name url) book us := by
  by_cases hcontains : r.contains name = true
  · rw [Registry.registerAlias, Registry.add_of_contains hcontains]
    exact h
  · refine h.extend (h.shelved.add _) (List.Subset.refl _) [⟨name, url, true⟩] ?_ (by simp)
    rw [Registry.registerAlias, Registry.add, if_neg hcontains]

theorem placed_new :
    Placed ds Registry.new [(.globals, "global".toList), (.home, "index".toList)] [] := by
  refine ⟨shelved_new, by decide +kernel, by simp, fun {e} he _ => ?_⟩
  obtain rfl : e = ⟨Registry.globalName, _, false⟩ := List.mem_singleton.1 he
  exact .globals rfl (by decide +kernel)

theorem placed_initial (s : PublishSettings) :
    Placed ds (initial s) [(.globals, "global".toList), (.home, "index".toList)] [] :=
  initial_induction (P := (Placed ds · _ [])) s placed_new fun _ name url h =>
    h.registerAlias name url

theorem Placed.addAliases (h : Placed ds r book us) :
    Placed ds (Shortname.addAliases r).2 book us := by
  have hregister : ∀ (all : List (String × String)) (r : Registry), Placed ds r book us →
      Placed ds (Shortname.register all r).2 book us := by
    intro all
    induction all with
    | nil => exact fun r h => h
    | cons c rest ih =>
        intro r h
        obtain ⟨short, url⟩ := c
        simp only [Shortname.register]
        split
        · exact ih r h
        · exact ih _ (h.registerAlias short url)
  exact hregister _ r h

/-- When all doclets are registered, every name that was used is. -/
theorem exists_placed_registered (s : PublishSettings) (ds : List Doclet) :
    ∃ book, Placed (kept ds) (registered s ds) book (linkUses (kept ds)) := by
  obtain ⟨book, hprepared⟩ := (placed_initial s).prepareAll (kept ds)
  exact hprepared.foldl_registerLink (List.Subset.refl _)
    (samePlace_prepareAll (initial s) (kept ds))

/-- They still are when short names and tutorials are registered. -/
theorem exists_placed (s : PublishSettings) (ds : List Doclet) (tutorials : List Tutorial) :
    ∃ book, Placed (kept ds) (Publication.registerTutorials (linked s ds) tutorials) book
      (linkUses (kept ds)) := by
  obtain ⟨book, hregistered⟩ := exists_placed_registered s ds
  have hlinked := hregistered.addAliases
  obtain ⟨book', hsub, hshelved⟩ := exists_shelved_tutorials hlinked.shelved tutorials
  exact ⟨book', hlinked.unchanged hshelved hsub (entries_registerTutorials tutorials _)⟩

end Places

end Publication
end DocLinks
