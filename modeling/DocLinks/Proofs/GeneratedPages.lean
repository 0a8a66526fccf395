import DocLinks.Proofs.PagePlaces

/-!
# No link leads to a page that is not generated

Which pages are generated is decided from the doclets that are containers or global symbols,
and on which page a symbol lives from the doclets' parents.  Where the two agree, every link
leads to a page.

**Results.**
* `run_eq_ok_iff`: when publishing succeeds, and with what.
* `exists_run`: publishing succeeds if every doclet has a long name, and what comes out of
  it.
* `exists_page_of_container`, `exists_page_of_global`: which pages are generated.
* `links_lead_to_pages`: every link of a doclet leads to a page that is generated.
-/

namespace DocLinks
namespace Publication

section Stages

/-- What places a doclet and puts it into its category is as before. -/
structure SameCore (d d' : Doclet) : Prop where
  longname : d'.longname = d.longname
  name : d'.name = d.name
  memberof : d'.memberof = d.memberof
  kind : d'.kind = d.kind

theorem SameCore.of_frame {d d' : Doclet} (h : frame d' = frame d) : SameCore d d' :=
  ⟨eq_of_frame h, eq_of_frame h, eq_of_frame h, eq_of_frame h⟩

/-- Signing succeeds for doclets that are registered or anonymous. -/
theorem exists_sign {r : Registry} {d : Doclet}
    (hurl : d.longname ≠ "" → ∃ url, r.resolve? d.longname = some url) :
    ∃ d', sign r d = .ok d' := by
  unfold sign
  split
  · exact ⟨d, rfl⟩
  · rename_i hne
    obtain ⟨url, hurl⟩ := hurl (by simpa using hne)
    rw [hurl]
    exact ⟨_, rfl⟩

/-- What the category and the page of a doclet depend on is carried over to the end. -/
structure Carried (d d' : Doclet) : Prop where
  longname : d'.longname = d.longname
  container : d.kind.isContainer = true → d'.kind = d.kind
  isGlobal : d.isGlobal = true → d'.isGlobal = true

/-- Constants become members, which changes neither containers nor the global symbols. -/
theorem carried_complete {r : Registry} {ds : List Doclet} {d e : Doclet}
    (h : SameCore d e) :
    Carried d (complete r ds e) := by
  unfold complete addDeclaredType
  split
  · rename_i hvalue
    have hkind : e.kind = .member ∨ e.kind = .constant := by
      simpa [isValue] using hvalue
    rw [h.kind] at hkind
    refine ⟨h.longname, fun hcontainer => ?_, fun hglobal => ?_⟩
    · rcases hkind with hkind | hkind <;> simp [hkind, Kind.isContainer] at hcontainer
    · have hmemberof : d.memberof = none := by
        simp only [Doclet.isGlobal, Bool.and_eq_true, Option.isNone_iff_eq_none] at hglobal
        exact hglobal.1.2
      have hexports : d.isModuleExports = false := by
        simp only [Doclet.isGlobal, Bool.and_eq_true, Bool.not_eq_true'] at hglobal
        exact hglobal.2
      have hmodule : d.kind ≠ .module := by rcases hkind with hkind | hkind <;> simp [hkind]
      have hnamed : (d.name == some d.longname &&
          Doclet.startsLikeModule d.longname) = false := by
        simpa [Doclet.isModuleExports, hmodule] using hexports
      simp only [Doclet.isGlobal, Doclet.isModuleExports, Signature.addAttributes,
        Signature.addTypes, h.memberof, h.longname, h.name, hmemberof, hnamed]
      rfl
  · refine ⟨h.longname, fun _ => h.kind, fun hglobal => ?_⟩
    simp only [Doclet.isGlobal, Doclet.isModuleExports, h.longname, h.name, h.memberof,
      h.kind] at hglobal ⊢
    exact hglobal

end Stages

section Run

variable (s : PublishSettings) (ds : List Doclet) (tutorials : List Tutorial)

/-- The doclets that are published, in their order. -/
def kept : List Doclet :=
  Doclet.sortByLongname (Doclet.prune ds)

/-- The registry when all doclets have been given their links. -/
def registered : Registry :=
  (prepareAll (initial s) (kept ds)).1.foldl registerLink
    (prepareAll (initial s) (kept ds)).2

/-- The registry when short names have been added. -/
def linked : Registry :=
  (Shortname.addAliases (registered s ds)).2

/-- The short forms of the source paths. -/
def shortpaths : List (String × String) :=
  SourcePath.shorten (SourcePath.ofDoclets (kept ds))

/-- The registry in the end. -/
def final : Registry :=
  (registerSources (registerTutorials (linked s ds) tutorials) (shortpaths ds)).2

/-- What holds of a new registry and is kept by aliases holds when the configured links are
known. -/
theorem initial_induction {P : Registry → Prop} (s : PublishSettings) (hnew : P Registry.new)
    (halias : ∀ (r : Registry) (name url : String), P r → P (r.registerAlias name url)) :
    P (initial s) :=
  List.foldlRecOn s.linkMap _ hnew fun r hr link _ => halias r link.1 link.2 hr

theorem initial_eq_new {s : PublishSettings} (hlinks : s.linkMap = []) :
    initial s = Registry.new := by
  rw [initial, hlinks, List.foldl_nil]

theorem entries_registerTutorials (r : Registry) :
    (registerTutorials r tutorials).entries = r.entries := by
  unfold registerTutorials
  generalize Tutorial.walkAll tutorials = ts
  induction ts generalizing r with
  | nil => rfl
  | cons t ts ih =>
      rw [List.foldl_cons, ih, Registry.entries_addTutorial]

theorem prefix_registerSources (r : Registry) (short : List (String × String)) :
    r.entries <+: (registerSources r short).2.entries := by
  induction short generalizing r with
  | nil => exact List.prefix_rfl
  | cons path short ih =>
      obtain ⟨file, shortpath⟩ := path
      exact (Registry.prefix_add (r.claimFile shortpath).2 _).trans (ih _)

theorem prefix_linked : (registered s ds).entries <+: (linked s ds).entries := by
  obtain ⟨more, hmore⟩ := Shortname.addAliases_entries_append (registered s ds)
  exact ⟨more, hmore.symm⟩

theorem prefix_final_of_linked :
    (linked s ds).entries <+: (final s ds tutorials).entries := by
  rw [← entries_registerTutorials tutorials (linked s ds)]
  exact prefix_registerSources _ _

theorem prefix_final : (registered s ds).entries <+: (final s ds tutorials).entries :=
  (prefix_linked s ds).trans (prefix_final_of_linked s ds tutorials)

/-- The doclets when their texts have been expanded. -/
def expanded : List Doclet :=
  (prepareAll (initial s) (kept ds)).1.map fun d =>
    (expander s).expandDoclet (setShortpath (shortpaths ds) d)

theorem frame_expanded :
    List.Forall₂ (fun d e => frame e = frame d) (kept ds) (expanded s ds) := by
  have hmap : (expanded s ds).map frame = (kept ds).map frame := by
    rw [expanded, List.map_map, ← frame_prepareAll (initial s) (kept ds)]
    refine List.map_congr_left fun d _ => ?_
    exact (frame_expandDoclet _ _).trans (frame_setShortpath _ d)
  exact (forall₂_of_map_eq hmap).flip

/-- What is published when the doclets have been signed. -/
def assembled (signed : List Doclet) : Publication where
  doclets := Doclet.attachExports (signed.map (complete (linked s ds) signed))
  registry := final s ds tutorials
  aliases := (Shortname.addAliases (registered s ds)).1
  members := Members.categorize (signed.map (complete (linked s ds) signed)) tutorials
  pages := Page.all (final s ds tutorials)
    (Members.categorize (signed.map (complete (linked s ds) signed)) tutorials) tutorials
    (registerSources (registerTutorials (linked s ds) tutorials) (shortpaths ds)).1
  sourceFiles :=
    (registerSources (registerTutorials (linked s ds) tutorials) (shortpaths ds)).1
  warnings := Shortname.warnings (registered s ds) ++
    (expanded s ds).flatMap (resultWarnings (linked s ds)) ++
    signed.flatMap (ancestorWarnings (linked s ds) signed) ++
    signed.flatMap (typeWarnings (linked s ds))

variable {s ds tutorials} in
/-- Publishing succeeds if signing does. -/
theorem run_eq_ok_iff {p : Publication} :
    run s ds tutorials = .ok p ↔ ∃ signed,
    (expanded s ds).mapM (sign (linked s ds)) = .ok signed ∧
      assembled s ds tutorials signed = p := by
  have hrun : run s ds tutorials =
      ((expanded s ds).mapM (sign (linked s ds)) >>= fun signed =>
      .ok (assembled s ds tutorials signed)) := rfl
  rw [hrun]
  cases (expanded s ds).mapM (sign (linked s ds)) with
  | error e => simp [bind, Except.bind]
  | ok signed => simp [bind, Except.bind]

/-- Publishing succeeds if every doclet that is published is registered or anonymous; what
comes out of it is made of doclets that carry over what they are. -/
theorem exists_signed (hlinked : ∀ d ∈ kept ds, d.longname ≠ "" →
      ∃ url, (linked s ds).resolve? d.longname = some url) :
    ∃ signed, run s ds tutorials = .ok (assembled s ds tutorials signed) ∧
      List.Forall₂ Carried (kept ds) (signed.map (complete (linked s ds) signed)) := by
  have hsigned : ∀ e ∈ expanded s ds, ∃ e', sign (linked s ds) e = .ok e' ∧
      frame e' = frame e := by
    intro e he
    obtain ⟨d, hd, hframe⟩ := exists_of_forall₂ (frame_expanded s ds).flip he
    have hname : e.longname = d.longname := eq_of_frame hframe
    obtain ⟨e', hsign⟩ := exists_sign (r := linked s ds) (d := e) fun hne => by
      rw [hname] at hne ⊢
      exact hlinked d hd hne
    exact ⟨e', hsign, frame_sign hsign⟩
  obtain ⟨signed, hmap, hframes⟩ := mapM_forall₂ hsigned
  refine ⟨signed, run_eq_ok_iff.2 ⟨signed, hmap, rfl⟩, List.forall₂_map_right_iff.2 ?_⟩
  exact forall₂_comp (fun d e e' he hsign => carried_complete (.of_frame (hsign.trans he)))
    (frame_expanded s ds) hframes

/-- Publishing succeeds if every doclet that is published is registered; its doclets and
pages are those of doclets that carry over what they are. -/
theorem exists_run
    (hregistered : ∀ d ∈ kept ds, ∃ url, (registered s ds).resolve? d.longname = some url) :
    ∃ p completed sources, run s ds tutorials = .ok p ∧
      List.Forall₂ Carried (kept ds) completed ∧
      p.doclets = Doclet.attachExports completed ∧
      p.registry = final s ds tutorials ∧
      p.pages = Page.all (final s ds tutorials)
        (Members.categorize completed tutorials) tutorials
        sources := by
  have hlinked : ∀ d ∈ kept ds, d.longname ≠ "" →
      ∃ url, (linked s ds).resolve? d.longname = some url := by
    intro d hd _
    obtain ⟨url, hurl⟩ := hregistered d hd
    exact ⟨url, Registry.resolve?_of_isPrefix (prefix_linked s ds) hurl⟩
  obtain ⟨signed, hrun, hcarried⟩ := exists_signed s ds tutorials hlinked
  exact ⟨_, _, _, hrun, hcarried, rfl, rfl, rfl⟩

end Run

section Pages

variable {r : Registry} {ds : List Doclet} (tutorials : List Tutorial)

theorem mem_ofKind {d : Doclet} (hd : d ∈ ds) (hne : d.longname ≠ "") :
    ∃ m ∈ Members.ofKind d.kind ds, m.longname = some d.longname := by
  refine ⟨Member.ofDoclet d, List.mem_map.2 ⟨d, List.mem_filter.2 ⟨hd, by simp⟩, rfl⟩, ?_⟩
  simp [Member.ofDoclet, hne]

/-- The doclets of a container kind are one of the groups that have pages. -/
theorem exists_group (ds : List Doclet) (tutorials : List Tutorial) {d : Doclet}
    (hd : d.kind.isContainer = true) :
    ∃ label, (label, Members.ofKind d.kind ds) ∈
      (Members.categorize ds tutorials).containers := by
  unfold Members.containers Members.categorize
  cases hkind : d.kind with
  | module => exact ⟨"Module", by simp⟩
  | classDecl => exact ⟨"Class", by simp⟩
  | namespaceDecl => exact ⟨"Namespace", by simp⟩
  | mixin => exact ⟨"Mixin", by simp⟩
  | external => exact ⟨"External", by simp⟩
  | interface => exact ⟨"Interface", by simp⟩
  | constant | event | file | function | member | package | typedef | other _ =>
      rw [hkind] at hd
      simp [Kind.isContainer] at hd

/-- The page of an entry is generated if its name is that of a container. -/
theorem exists_page_of_container {d : Doclet} {e : Entry} (hd : d ∈ ds)
    (hcontainer : d.kind.isContainer = true) (hne : d.longname ≠ "")
    (hname : e.name = d.longname)
    (he : e ∈ r.entries) (halias : e.isAlias = false) :
    ∃ page ∈ Page.containers r (Members.categorize ds tutorials), page.filename = e.url := by
  obtain ⟨label, hgroup⟩ := exists_group ds tutorials hcontainer
  obtain ⟨m, hm, hlongname⟩ := mem_ofKind hd hne
  have hfind : ((Members.ofKind d.kind ds).find? fun m => m.longname == some e.name).isSome =
      true := by
    rw [List.find?_isSome]
    exact ⟨m, hm, by simp [hlongname, hname]⟩
  obtain ⟨found, hfound⟩ := Option.isSome_iff_exists.1 hfind
  refine ⟨⟨label ++ ": " ++ found.name, e.url, some e.name⟩, ?_, rfl⟩
  refine List.mem_flatMap.2 ⟨e, List.mem_filter.2 ⟨he, by simp [halias]⟩, ?_⟩
  exact List.mem_filterMap.2 ⟨_, hgroup, by simp [hfound]⟩

/-- The global page is generated if there is a global symbol. -/
theorem exists_page_of_global (r : Registry) {d : Doclet} (hd : d ∈ ds)
    (hglobal : d.isGlobal = true) :
    ∃ page ∈ Page.globals r (Members.categorize ds tutorials),
    page.filename = r.globalUrl := by
  have hmem : Member.ofDoclet d ∈ (Members.categorize ds tutorials).globals :=
    List.mem_map.2 ⟨d, List.mem_filter.2 ⟨hd, hglobal⟩, rfl⟩
  have hempty : (Members.categorize ds tutorials).globals.isEmpty = false := by
    rw [List.isEmpty_eq_false_iff]
    exact List.ne_nil_of_mem hmem
  refine ⟨⟨"Global", r.globalUrl, some Registry.globalName⟩, ?_, rfl⟩
  rw [Page.globals, hempty]
  exact List.mem_singleton_self _

end Pages

/-- The doclets of a documentation agree about which pages there are.  A name that has a page
of its own, unless it is the global one, is that of a container.  If something is called like
the global page or lives on it, there is a global symbol or a container of that name.
Decoding leaves alone the names of pages, and encoding that of a page that a doclet gets to
through a part of it. -/
structure Agreeing (ds : List Doclet) : Prop where
  container {name : String} : HasPage ds name → name ≠ Registry.globalName →
    ∃ c ∈ ds, c.kind.isContainer = true ∧ c.longname = name
  global {d : Doclet} : d ∈ ds → d.longname = Registry.globalName ∨
  owner d = Registry.globalName →
    ∃ g ∈ ds, g.isGlobal = true ∨ g.kind.isContainer = true ∧
    g.longname = Registry.globalName
  decoded {name : String} : HasPage ds name →
    Percent.decode? (Filename.basename name) = some (Filename.basename name)
  encoded : EncodedOnce ds

section Links

variable {ds : List Doclet}

/-- What does not live on its own page comes to it through an owner. -/
theorem LivesWith.exists_owner {name root : String} (h : LivesWith ds name root) :
    name = root ∨ ∃ d ∈ ds, owner d = root := by
  induction h with
  | own _ => exact .inl rfl
  | @part d root hfind _ _ ih =>
      rcases ih with howner | hother
      · exact .inr ⟨d, List.mem_of_find?_eq_some hfind, howner⟩
      · exact .inr hother

/-- The page that a doclet lives on is generated. -/
theorem Agreeing.exists_page (h : Agreeing ds) (hne : ∀ d ∈ ds, d.longname ≠ "")
    {completed : List Doclet} (hcarried : List.Forall₂ Carried ds completed)
    (tutorials : List Tutorial) (sources : List SourceFile) {r : Registry}
    {d : Doclet} (hd : d ∈ ds)
    {root file : String} (hlives : LivesWith ds d.longname root)
    (hfind : r.find? root = some ⟨root, file, false⟩) :
    ∃ page ∈ Page.all r (Members.categorize completed tutorials) tutorials sources,
      page.filename = file := by
  have hentry := List.mem_of_find?_eq_some hfind
  have hcontainer : ∀ c ∈ ds, c.kind.isContainer = true → c.longname = root →
      ∃ page ∈ Page.all r (Members.categorize completed tutorials) tutorials sources,
        page.filename = file := by
    intro c hc hkind hname
    obtain ⟨c', hc', hcarry⟩ := exists_of_forall₂ hcarried hc
    have hkind' : c'.kind.isContainer = true := by rw [hcarry.container hkind, hkind]
    have hname' : c'.longname = root := hcarry.longname.trans hname
    obtain ⟨page, hpage, hfile⟩ := exists_page_of_container tutorials hc' hkind'
      (by rw [hcarry.longname]; exact hne c hc) hname'.symm hentry rfl
    refine ⟨page, ?_, hfile⟩
    simp [Page.all, hpage]
  by_cases hroot : root = Registry.globalName
  · have howner : d.longname = Registry.globalName ∨
        ∃ e ∈ ds, owner e = Registry.globalName :=
      hroot ▸ hlives.exists_owner
    have hglobal : ∃ g ∈ ds, g.isGlobal = true ∨
        g.kind.isContainer = true ∧ g.longname = Registry.globalName := by
      rcases howner with hname | ⟨e, he, howner⟩
      · exact h.global hd (.inl hname)
      · exact h.global he (.inr howner)
    obtain ⟨g, hg, hcases⟩ := hglobal
    rcases hcases with hglobal | ⟨hkind, hname⟩
    · obtain ⟨g', hg', hcarry⟩ := exists_of_forall₂ hcarried hg
      obtain ⟨page, hpage, hfile⟩ :=
        exists_page_of_global tutorials r hg' (hcarry.isGlobal hglobal)
      refine ⟨page, ?_, ?_⟩
      · simp [Page.all, hpage]
      · rw [hfile, Registry.globalUrl, Registry.resolve?]
        rw [← hroot, hfind]
        rfl
    · exact hcontainer g hg hkind (hname.trans hroot.symm)
  · obtain ⟨c, hc, hkind, hname⟩ := h.container hlives.hasPage hroot
    exact hcontainer c hc hkind hname

/-- If the doclets that are published agree about the pages, and nothing is documented
elsewhere, then publishing succeeds and every link of a doclet leads to a page that is
generated: the file of the page is what stands before the first number sign of the link,
decoded once. -/
theorem links_lead_to_pages (s : PublishSettings) (ds : List Doclet)
    (tutorials : List Tutorial)
    (hlinks : s.linkMap = []) (hne : ∀ d ∈ kept ds, d.longname ≠ "")
    (h : Agreeing (kept ds)) :
    ∃ p, run s ds tutorials = .ok p ∧ ∀ d ∈ p.doclets, ∃ url,
    p.registry.resolve? d.longname = some url ∧
      ∃ page ∈ p.pages,
        Percent.decode? (Registry.pageOf url).toList = some page.filename.toList := by
  have hsettled : Settled (kept ds) (registered s ds) (uses (kept ds)) := by
    rw [registered, initial_eq_new hlinks]
    exact settled_registered h.encoded hne
  have hknown : ∀ d ∈ kept ds, Known (uses (kept ds)) d.longname := by
    intro d hd
    refine .inr ⟨.longname d.longname, List.mem_append_right _ ?_, rfl⟩
    exact List.mem_flatMap.2 ⟨d, hd, by simp⟩
  obtain ⟨p, completed, sources, hrun, hcarried, hdoclets, hregistry, hpages⟩ :=
    exists_run s ds tutorials fun d hd => (hsettled.leads (hknown d hd)).resolve?
  refine ⟨p, hrun, fun d hd => ?_⟩
  rw [hdoclets, Doclet.attachExports, List.mem_map] at hd
  obtain ⟨d', hd', rfl⟩ := hd
  obtain ⟨d₀, hd₀, hcarry⟩ := exists_of_forall₂ hcarried.flip hd'
  rw [Doclet.longname_attachTo, hcarry.longname]
  rw [hregistry, hpages]
  obtain ⟨root, k, hlives, hroot, hcases⟩ :=
    (hsettled.leads (hknown d₀ hd₀)).of_isPrefix (prefix_final s ds tutorials)
  obtain ⟨page, hpage, hfile⟩ := h.exists_page hne hcarried tutorials sources hd₀
    hlives hroot
  rcases hcases with hown | ⟨-, url, hurl, hencoded⟩
  · refine ⟨Registry.pageFile root k, by
      rw [hown, Registry.resolve?, hroot]; rfl, page, hpage, ?_⟩
    rw [Registry.pageOf_of_not_mem (Registry.hash_not_mem_pageFile root k), hfile]
    exact Registry.decode?_pageFile k (h.decoded hlives.hasPage)
  · refine ⟨url, hurl, page, hpage, ?_⟩
    rw [hencoded, hfile]
    exact Percent.decode?_encode _

end Links

section Samples

/-- A symbol of which only its place is known. -/
def symbol (longname name : String) (kind : Kind) (memberof : Option String) : Doclet :=
  { longname := longname, name := some name, kind := kind, memberof := memberof }

/-- A class, a method of it and a global function. -/
def classWithMethod : List Doclet :=
  [symbol "A" "A" .classDecl none, symbol "A#f" "f" .function (some "A"),
    symbol "g" "g" .function none]

theorem kept_eq_of_sorted {ds : List Doclet} (hpublished : Doclet.prune ds = ds)
    (hsorted : ds.Pairwise fun a b => !(b.longname < a.longname)) : kept ds = ds := by
  rw [kept, hpublished]
  exact List.mergeSort_of_pairwise hsorted

theorem kept_classWithMethod : kept classWithMethod = classWithMethod :=
  kept_eq_of_sorted rfl (by decide +kernel)

theorem agreeing_classWithMethod : Agreeing classWithMethod := by
  have huses : uses classWithMethod =
      [.page "A", .longname "A", .page "A", .longname "A#f", .page "global",
        .longname "g"] := by
    decide +kernel
  have hpages : ∀ {name : String}, HasPage classWithMethod name → name = "A" ∨
      name = "global" := by
    rintro name (rfl | hfind)
    · exact .inr rfl
    · have hmem := List.mem_of_find?_eq_some hfind
      rw [huses] at hmem
      simpa using hmem
  have hclass : symbol "A" "A" .classDecl none ∈ classWithMethod := List.mem_cons_self
  refine ⟨fun {name} hpage hglobal => ?_, fun {d} hd _ => ?_, fun {name} hpage => ?_, ?_⟩
  · rcases hpages hpage with rfl | rfl
    · exact ⟨_, hclass, rfl, rfl⟩
    · exact absurd rfl hglobal
  · exact ⟨symbol "g" "g" .function none, by simp [classWithMethod],
      .inl (by decide +kernel)⟩
  · rcases hpages hpage with rfl | rfl
    · decide +kernel
    · decide +kernel
  · intro d hd root hpart
    have howners : ∀ d ∈ classWithMethod, owner d = "A" ∨ owner d = Registry.globalName := by
      decide +kernel
    rcases howners d hd with howner | howner
    · refine absurd (.inr ?_) hpart
      rw [howner, huses]
      rfl
    · exact absurd (.inl howner) hpart

/-- The links of a class, of its method and of a global function lead to pages. -/
theorem links_of_class_with_method :
    ({} : PublishSettings).linkMap = [] ∧ (∀ d ∈ kept classWithMethod, d.longname ≠ "") ∧
    Agreeing (kept classWithMethod) ∧
    ∃ p, run {} classWithMethod [] = .ok p ∧ ∀ d ∈ p.doclets,
      ∃ url, p.registry.resolve? d.longname = some url ∧ ∃ page ∈ p.pages,
        Percent.decode? (Registry.pageOf url).toList = some page.filename.toList := by
  have hne : ∀ d ∈ kept classWithMethod, d.longname ≠ "" := by
    rw [kept_classWithMethod]
    decide +kernel
  have hagree : Agreeing (kept classWithMethod) := by
    rw [kept_classWithMethod]
    exact agreeing_classWithMethod
  exact ⟨rfl, hne, hagree, links_lead_to_pages {} classWithMethod [] rfl hne hagree⟩

/-- The kinds of symbols, without files, packages and kinds that have no rules. -/
def symbolKinds : List Kind :=
  [.module, .classDecl, .namespaceDecl, .mixin, .external, .interface, .function, .member,
    .constant, .typedef, .event]

/-- Whether all doclets are symbols with a long name whose parents are published. -/
def areSymbols (ds : List Doclet) : Bool :=
  ds.all fun d => d.longname != "" && symbolKinds.contains d.kind &&
    d.memberof.all fun parent => (Doclet.prune ds).any (·.longname == parent)

/-- Whether the link of a doclet leads to a page. -/
def leadsToPage (p : Publication) (d : Doclet) : Bool :=
  (p.registry.resolve? d.longname).any fun url =>
    p.pages.any fun page => Percent.decode? (Registry.pageOf url).toList ==
      some page.filename.toList

/-- Whether some link of the documentation of doclets leads to no page. -/
def hasDangling (ds : List Doclet) : Bool :=
  match run {} ds [] with
  | .ok p => p.doclets.any fun d => !leadsToPage p d
  | .error _ => false

/-- Some link of the documentation of symbols leads to no page. -/
def Dangling (ds : List Doclet) : Prop :=
  areSymbols ds = true ∧ ∃ p, run {} ds [] = .ok p ∧ ∃ d ∈ p.doclets,
    ∀ url, p.registry.resolve? d.longname = some url → ∀ page ∈ p.pages,
      Percent.decode? (Registry.pageOf url).toList ≠ some page.filename.toList

theorem dangling_of_hasDangling {ds : List Doclet} (hsymbols : areSymbols ds = true)
    (h : hasDangling ds = true) : Dangling ds := by
  refine ⟨hsymbols, ?_⟩
  unfold hasDangling at h
  split at h
  · rename_i p hrun
    obtain ⟨d, hd, hnone⟩ := List.any_eq_true.1 h
    refine ⟨p, hrun, d, hd, fun url hurl page hpage hdecode => ?_⟩
    have hleads : leadsToPage p d = true := by
      rw [leadsToPage, hurl]
      exact List.any_eq_true.2 ⟨page, hpage, by simp [hdecode]⟩
    rw [hleads] at hnone
    simp at hnone
  · simp at h

/-- A function whose parent, itself a function, is registered after it. -/
def laterParent : List Doclet :=
  [symbol "A" "A" .function (some "B"), symbol "B" "B" .function none]

/-- A function inside a function inside a class with a name that is encoded. -/
def encodedTwice : List Doclet :=
  [symbol "é" "é" .classDecl none, symbol "é~f" "f" .function (some "é"),
    symbol "é~f~g" "g" .function (some "é~f")]

theorem hasDangling_laterParent : hasDangling laterParent = true := by
  have hsort : Doclet.sortByLongname (Doclet.prune laterParent) = laterParent :=
    kept_eq_of_sorted rfl (by decide +kernel)
  unfold hasDangling run
  rw [hsort]
  decide +kernel

theorem hasDangling_encodedTwice : hasDangling encodedTwice = true := by
  have hsort : Doclet.sortByLongname (Doclet.prune encodedTwice) = encodedTwice :=
    kept_eq_of_sorted rfl (by decide +kernel)
  unfold hasDangling run
  rw [hsort]
  decide +kernel

/-- Links lead to no page if only an event lives on the global page; if a page is asked for
by a function that stands for a module, or by a child that comes before its parent, and there
is no container of that name; if decoding changes the name of the page; and if its name is
encoded twice. -/
theorem dangling_links :
    Dangling [symbol "event:x" "x" .event none] ∧
    Dangling [symbol "module:m" "module:m" .function none] ∧
    Dangling laterParent ∧
    Dangling [symbol "a%41" "a%41" .classDecl none] ∧
    Dangling encodedTwice :=
  ⟨dangling_of_hasDangling (by decide +kernel) (by decide +kernel),
    dangling_of_hasDangling (by decide +kernel) (by decide +kernel),
    dangling_of_hasDangling (by decide +kernel) hasDangling_laterParent,
    dangling_of_hasDangling (by decide +kernel) (by decide +kernel),
    dangling_of_hasDangling (by decide +kernel) hasDangling_encodedTwice⟩

end Samples

end Publication
end DocLinks
