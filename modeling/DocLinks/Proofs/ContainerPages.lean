import DocLinks.Proofs.ConfiguredLinks

/-!
# The pages of containers

Every container gets its pages, one for each kind that documents its long name, and each
once.  The page is titled by the first doclet of that kind and long name.  Besides these
pages, only the global page documents a long name.

**Results.**
* `exists_entry_of_kept`: the long name of a doclet is registered, and not as an alias.
* `ofEntry_categorize`: the pages of an entry, told by the doclets of its name.
* `filter_isTitled_ofEntry`: of these, the page for one kind.
* `container_pages_complete`: which pages document a long name, and in what order.
-/

namespace DocLinks

namespace Kind

/-- The kinds of containers, in the order in which their pages come. -/
def containers : List Kind :=
  [.module, .classDecl, .namespaceDecl, .mixin, .external, .interface]

/-- The word for a container in the title of its page. -/
def word : Kind → String
  | .module => "Module"
  | .classDecl => "Class"
  | .namespaceDecl => "Namespace"
  | .mixin => "Mixin"
  | .external => "External"
  | .interface => "Interface"
  | _ => ""

theorem mem_containers_iff (kind : Kind) : kind ∈ containers ↔ kind.isContainer = true := by
  cases kind <;> simp [containers, isContainer]

/-- What the title of the page of a container starts with. -/
def lead (kind : Kind) : List Char :=
  kind.word.toList ++ ": ".toList

/-- No word for a container starts like another one. -/
theorem lead_isPrefixOf_iff {kind kind' : Kind} (h : kind ∈ containers)
    (h' : kind' ∈ containers)
    (rest : List Char) : (kind.lead.isPrefixOf (kind'.lead ++ rest)) = (kind' == kind) := by
  have hclosed : ∀ k ∈ containers, ∀ k' ∈ containers, k.lead <+: k'.lead → k' = k := by
    decide +kernel
  rw [Bool.eq_iff_iff, List.isPrefixOf_iff_prefix, beq_iff_eq]
  constructor
  · intro hstart
    rcases List.prefix_or_prefix_of_prefix hstart (List.prefix_append _ rest) with hle | hge
    · exact hclosed kind h kind' h' hle
    · exact (hclosed kind' h' kind h hge).symm
  · rintro rfl
    exact List.prefix_append _ rest

end Kind

namespace Doclet

/-- The first doclet of a kind that has the given long name. -/
def findKind? (ds : List Doclet) (kind : Kind) (longname : String) : Option Doclet :=
  ds.find? fun d => d.kind == kind && d.longname == longname

theorem of_findKind? {ds : List Doclet} {kind : Kind} {longname : String} {d : Doclet}
    (h : findKind? ds kind longname = some d) : d.kind = kind ∧ d.longname = longname := by
  simpa using List.find?_some h

end Doclet

namespace Page

/-- The page of a container, under the link of its entry. -/
def ofContainer (url : String) (d : Doclet) : Page :=
  ⟨d.kind.word ++ ": " ++ (Member.ofDoclet d).name, url, some d.longname⟩

/-- Whether the title of a page is that of a container of the given kind. -/
def isTitled (kind : Kind) (p : Page) : Bool :=
  kind.lead.isPrefixOf p.title.toList

theorem isTitled_ofContainer {kind : Kind} {d : Doclet} (h : kind ∈ Kind.containers)
    (hd : d.kind ∈ Kind.containers) (url : String) :
    (ofContainer url d).isTitled kind = (d.kind == kind) := by
  rw [isTitled, ofContainer]
  rw [String.toList_append, String.toList_append]
  exact Kind.lead_isPrefixOf_iff h hd _

section Entries

variable {ds : List Doclet} {tutorials : List Tutorial} {e : Entry}

theorem find?_ofKind {longname : String} (hne : longname ≠ "") (kind : Kind) :
    (Members.ofKind kind ds).find? (fun m => m.longname == some longname) =
      (Doclet.findKind? ds kind longname).map Member.ofDoclet := by
  have hsame : ∀ d : Doclet, ((Member.ofDoclet d).longname == some longname) =
      (d.longname == longname) := by
    intro d
    rw [Bool.eq_iff_iff, beq_iff_eq]
    rw [beq_iff_eq, Member.longname_ofDoclet_eq_some_iff]
    exact and_iff_left hne
  simp only [Members.ofKind, Members.select, List.find?_map, List.find?_filter,
    Doclet.findKind?, Function.comp_def, hsame, Bool.decide_and, Bool.decide_eq_true]

/-- The pages of an entry, one for each kind of the doclets of its name. -/
theorem ofEntry_categorize (hne : e.name ≠ "") :
    ofEntry (Members.categorize ds tutorials) e = Kind.containers.flatMap fun kind =>
      ((Doclet.findKind? ds kind e.name).map (ofContainer e.url)).toList := by
  have hgroups : (Members.categorize ds tutorials).containers =
      Kind.containers.map fun kind => (kind.word, Members.ofKind kind ds) := rfl
  rw [ofEntry, hgroups]
  rw [List.filterMap_map, List.filterMap_eq_flatMap_toList]
  refine congrArg (List.flatMap · Kind.containers)
    (funext fun kind => congrArg Option.toList ?_)
  simp only [Function.comp_def, find?_ofKind hne, Option.map_map]
  refine Option.map_congr fun d hd => ?_
  obtain ⟨hkind, hname⟩ := Doclet.of_findKind? hd
  rw [ofContainer, hkind, hname]

/-- Of the pages of an entry, at most one is that of a container of a given kind. -/
theorem filter_isTitled_ofEntry {kind : Kind} (hkind : kind ∈ Kind.containers)
    (hne : e.name ≠ "") :
    (ofEntry (Members.categorize ds tutorials) e).filter (isTitled kind) =
      ((Doclet.findKind? ds kind e.name).map (ofContainer e.url)).toList := by
  have htitled : ∀ kind' ∈ Kind.containers, ∀ page ∈
      ((Doclet.findKind? ds kind' e.name).map (ofContainer e.url)).toList,
      page.isTitled kind = (kind' == kind) := by
    intro kind' hkind' page hpage
    obtain ⟨d, hd, rfl⟩ := Option.map_eq_some_iff.1 (Option.mem_toList.1 hpage)
    obtain ⟨rfl, -⟩ := Doclet.of_findKind? hd
    exact isTitled_ofContainer hkind hkind' e.url
  rw [ofEntry_categorize hne, filter_flatMap_of_nodup (by decide) hkind]
  · exact List.filter_eq_self.2 fun page hpage => by simp [htitled kind hkind page hpage]
  · intro kind' hkind' hother
    exact List.filter_eq_nil_iff.2 fun page hpage => by
      simp [htitled kind' hkind' page hpage, hother]

end Entries

section Registered

variable {r : Registry} {ds : List Doclet} {tutorials : List Tutorial} {e : Entry}

/-- The pages of containers that document the name of an entry are those of the entry. -/
theorem filter_containers {m : Members} (hnodup : r.names.Nodup) (he : e ∈ r.entries)
    (halias : e.isAlias = false) (test : Page → Bool) :
    (containers r m).filter (fun p => p.longname == some e.name && test p) =
      (ofEntry m e).filter test := by
  have hnames : ∀ e' ∈ r.entries, e' ≠ e → e'.name ≠ e.name := fun e' he' hne hname =>
    hne (List.inj_on_of_nodup_map hnodup he' he hname)
  rw [containers]
  rw [filter_flatMap_of_nodup ((List.Nodup.of_map _ hnodup).filter _)
    (List.mem_filter.2 ⟨he, by rw [halias]; rfl⟩)]
  · exact List.filter_congr fun p hp => by simp [(longname_of_mem_ofEntry hp).1]
  · intro e' he' hne
    refine List.filter_eq_nil_iff.2 fun p hp => ?_
    have hother := hnames e' (List.mem_filter.1 he').1 hne
    simp [(longname_of_mem_ofEntry hp).1, hother]

/-- The pages of an entry are titled by kinds of containers. -/
theorem exists_isTitled_of_mem_ofEntry {p : Page}
    (hp : p ∈ ofEntry (Members.categorize ds tutorials) e) :
    ∃ kind ∈ Kind.containers, p.isTitled kind = true := by
  obtain ⟨-, -, -, hne⟩ := Publication.exists_doclet_of_mem_ofEntry hp
  rw [ofEntry_categorize hne] at hp
  obtain ⟨kind, hkind, hpage⟩ := List.mem_flatMap.1 hp
  obtain ⟨d, hd, rfl⟩ := Option.map_eq_some_iff.1 (Option.mem_toList.1 hpage)
  obtain ⟨hsame, -⟩ := Doclet.of_findKind? hd
  refine ⟨kind, hkind, ?_⟩
  rw [isTitled_ofContainer hkind (hsame ▸ hkind), hsame]
  exact beq_self_eq_true kind

theorem isTitled_globals {kind : Kind} {m : Members} {p : Page}
    (hkind : kind ∈ Kind.containers)
    (hp : p ∈ globals r m) : p.isTitled kind = false := by
  have htitle : ∀ kind ∈ Kind.containers, kind.lead.isPrefixOf "Global".toList = false := by
    decide +kernel
  unfold globals at hp
  split at hp
  · simp at hp
  · rw [List.mem_singleton.1 hp]
    exact htitle kind hkind

/-- The long name of a page is registered before that of another one, as far as they have
different ones. -/
def InOrder (r : Registry) (p q : Page) : Prop :=
  ∀ longname longname', p.longname = some longname → q.longname = some longname' →
    longname ≠ longname' → r.names.idxOf longname < r.names.idxOf longname'

theorem pairwise_inOrder_containers {m : Members} (hnodup : r.names.Nodup) :
    (containers r m).Pairwise (InOrder r) := by
  have hentries : r.entries.Pairwise fun e e' =>
      r.names.idxOf e.name < r.names.idxOf e'.name :=
    (pairwise_idxOf hnodup).of_map Entry.name fun _ _ h => h
  refine List.pairwise_flatMap.2 ⟨fun e _ => ?_,
    (hentries.filter _).imp fun {e e'} hlt => ?_⟩
  · refine List.pairwise_of_forall_mem_list
      fun p hp q hq longname longname' hname hname' hne => ?_
    rw [(longname_of_mem_ofEntry hp).1] at hname
    rw [(longname_of_mem_ofEntry hq).1] at hname'
    exact absurd (Option.some.inj (hname.symm.trans hname')) hne
  · intro p hp q hq longname longname' hname hname' _
    rw [(longname_of_mem_ofEntry hp).1] at hname
    rw [(longname_of_mem_ofEntry hq).1] at hname'
    rwa [← Option.some.inj hname, ← Option.some.inj hname']

/-- Pages that are chosen by their long names are the global page and those of containers. -/
theorem filter_all_of_named {m : Members} {files : List SourceFile} {test : Page → Bool}
    (h : ∀ p, test p = true → p.longname.isSome = true) :
    (all r m tutorials files).filter test = (globals r m).filter test ++
    (containers r m).filter test := by
  have hnamed : ∀ p : Page, test p = (test p && p.longname.isSome) := by
    intro p
    cases htest : test p with
    | false => rfl
    | true => rw [h p htest, Bool.and_self]
  rw [← List.filter_append, ← filter_named_all r m tutorials files, List.filter_filter]
  exact List.filter_congr fun p _ => hnamed p

/-- The page of a container of some kind and long name, if there is an entry of that name
whenever a doclet is of that kind and name. -/
theorem filter_titled_all {kind : Kind} {longname : String} {files : List SourceFile}
    (hnodup : r.names.Nodup) (hkind : kind ∈ Kind.containers) (hne : longname ≠ "")
    (hentry : ∀ d, Doclet.findKind? ds kind longname = some d →
      ∃ url, r.find? longname = some ⟨longname, url, false⟩) :
    (all r (Members.categorize ds tutorials) tutorials files).filter
        (fun p => p.longname == some longname && p.isTitled kind) =
      ((Doclet.findKind? ds kind longname).map
        (ofContainer ((r.resolve? longname).getD ""))).toList := by
  have hglobals : (globals r (Members.categorize ds tutorials)).filter
      (fun p => p.longname == some longname && p.isTitled kind) = [] :=
    List.filter_eq_nil_iff.2 fun p hp => by simp [isTitled_globals hkind hp]
  rw [filter_all_of_named fun p hp => by simp [beq_iff_eq.1 (Bool.and_eq_true_iff.1 hp).1],
    hglobals, List.nil_append]
  cases hfind : Doclet.findKind? ds kind longname with
  | none =>
      refine List.filter_eq_nil_iff.2 fun p hp htest => ?_
      obtain ⟨e, -, hofEntry⟩ := List.mem_flatMap.1 hp
      obtain ⟨hname, htitled⟩ := Bool.and_eq_true_iff.1 htest
      rw [(longname_of_mem_ofEntry hofEntry).1, beq_iff_eq] at hname
      obtain rfl := Option.some.inj hname
      have hmem := List.mem_filter.2 ⟨hofEntry, htitled⟩
      rw [filter_isTitled_ofEntry hkind hne, hfind] at hmem
      simp at hmem
  | some d =>
      obtain ⟨url, hurl⟩ := hentry d hfind
      have hpages := filter_containers (m := Members.categorize ds tutorials) hnodup
        (List.mem_of_find?_eq_some hurl) rfl (isTitled kind)
      rw [hpages, filter_isTitled_ofEntry hkind hne, hfind]
      rw [Registry.resolve?, hurl]
      rfl

/-- The pages of long names that are not those of containers are the global page. -/
theorem filter_untitled_all {files : List SourceFile} :
    (all r (Members.categorize ds tutorials) tutorials files).filter
        (fun p => p.longname.isSome && Kind.containers.all fun kind => !p.isTitled kind) =
      globals r (Members.categorize ds tutorials) := by
  rw [filter_all_of_named fun p hp => (Bool.and_eq_true_iff.1 hp).1]
  have huntitled : (globals r (Members.categorize ds tutorials)).filter
      (fun p => p.longname.isSome &&
      Kind.containers.all fun kind => !p.isTitled kind) =
        globals r (Members.categorize ds tutorials) := by
    refine List.filter_eq_self.2 fun p hp =>
      Bool.and_eq_true_iff.2 ⟨?_, List.all_eq_true.2 ?_⟩
    · rw [longname_of_mem_globals hp]
      rfl
    · intro kind hkind
      rw [isTitled_globals hkind hp]
      rfl
  have htitled : (containers r (Members.categorize ds tutorials)).filter
      (fun p => p.longname.isSome &&
      Kind.containers.all fun kind => !p.isTitled kind) = [] := by
    refine List.filter_eq_nil_iff.2 fun p hp htest => ?_
    obtain ⟨e, -, hofEntry⟩ := List.mem_flatMap.1 hp
    obtain ⟨kind, hkind, htitle⟩ := exists_isTitled_of_mem_ofEntry hofEntry
    have hnot := List.all_eq_true.1 (Bool.and_eq_true_iff.1 htest).2 kind hkind
    rw [htitle] at hnot
    simp at hnot
  rw [huntitled, htitled, List.append_nil]

/-- If the global page is registered first, the pages of long names come in the order of the
registration. -/
theorem pairwise_inOrder_all {m : Members} {files : List SourceFile} {rest : List String}
    (hnodup : r.names.Nodup) (hfirst : r.names = Registry.globalName :: rest) :
    (all r m tutorials files).Pairwise (InOrder r) := by
  have hnamed :
      ((all r m tutorials files).filter (·.longname.isSome)).Pairwise (InOrder r) := by
    rw [filter_named_all, List.pairwise_append]
    refine ⟨?_, pairwise_inOrder_containers hnodup,
      fun p hp q _ longname longname' hname _ hne => ?_⟩
    · unfold globals
      split
      · exact .nil
      · exact List.pairwise_singleton _ _
    · rw [longname_of_mem_globals hp] at hname
      obtain rfl := Option.some.inj hname
      rw [hfirst, List.idxOf_cons_self, List.idxOf_cons_ne _ hne]
      exact Nat.succ_pos _
  refine (List.pairwise_filter.1 hnamed).imp
    fun {p q} h longname longname' hname hname' => ?_
  exact h (by rw [hname]; rfl) (by rw [hname']; rfl) longname longname' hname hname'

end Registered

end Page

namespace Publication

section Documented

variable {s : PublishSettings} {ds : List Doclet} (tutorials : List Tutorial)

/-- The long name of a doclet is registered for the doclet, unless it is documented
elsewhere. -/
theorem exists_entry_of_kept {d : Doclet} (hd : d ∈ kept ds) (hne : d.longname ≠ "")
    (hfree : d.longname = Registry.globalName ∨ s.linkMap.lookup d.longname = none) :
    ∃ url, (final s ds tutorials).find? d.longname = some ⟨d.longname, url, false⟩ := by
  obtain ⟨url, hurl⟩ := exists_resolve?_registered s ds hd hne
  obtain ⟨e, he, -⟩ := Option.map_eq_some_iff.1 hurl
  have hname : e.name = d.longname := by simpa using List.find?_some he
  have halias : e.isAlias = false := by
    rcases mem_entries_registered (List.mem_of_find?_eq_some he) with hinitial | halias
    · have hfind := Registry.find?_of_mem (nodup_names_initial s) hinitial
      rw [find?_initial, hname] at hfind
      have hnew : Registry.new.find? d.longname = some e := by
        rcases hfree with hglobal | hnone
        · rw [hglobal] at hfind ⊢
          exact hfind
        · rwa [hnone, Option.map_none, Option.or_none] at hfind
      rw [List.mem_singleton.1 (List.mem_of_find?_eq_some hnew)]
    · exact halias
  refine ⟨e.url, ?_⟩
  rw [← hname, ← halias]
  rw [← hname] at he
  exact Registry.find?_of_isPrefix (prefix_final s ds tutorials) he

/-- Publishing succeeds.  A kind of containers and a long name that is documented here have
one page if some doclet is of that kind and name, titled by the first of these and under the
link of the name, and none otherwise.  Every other page of a long name is the global page,
which exists if there are global symbols.  Pages of different long names come in the order in
which these are registered. -/
theorem container_pages_complete (s : PublishSettings) (ds : List Doclet)
    (tutorials : List Tutorial) :
    ∃ p, run s ds tutorials = .ok p ∧
      (∀ kind longname, kind.isContainer = true → longname ≠ "" →
        (longname = Registry.globalName ∨ s.linkMap.lookup longname = none) →
        p.pages.filter (fun page => page.longname == some longname && page.isTitled kind) =
          ((Doclet.findKind? p.doclets kind longname).map
            (Page.ofContainer ((p.registry.resolve? longname).getD ""))).toList) ∧
      (∀ page ∈ p.pages, ∀ longname, page.longname = some longname →
        longname ≠ "" ∧ longname ∈ p.registry.names ∧
          (longname = Registry.globalName ∨ s.linkMap.lookup longname = none)) ∧
      p.pages.filter (fun page =>
          page.longname.isSome && Kind.containers.all fun kind => !page.isTitled kind) =
        (if p.members.globals.isEmpty then []
          else [⟨"Global", p.registry.globalUrl, some Registry.globalName⟩]) ∧
      p.pages.Pairwise (Page.InOrder p.registry) := by
  obtain ⟨p, -, hrun, hpages, -⟩ := exists_recorded s ds tutorials
  have hregistry := registry_of_run hrun
  have hnodup : p.registry.names.Nodup := hregistry ▸ nodup_names_final s ds tutorials
  obtain ⟨rest, hfirst⟩ := exists_names_final s ds tutorials
  rw [← hregistry] at hfirst
  have hmembers := members_of_run hrun
  rw [hmembers] at hpages
  refine ⟨p, hrun, ?_, ?_, ?_, ?_⟩
  · intro kind longname hkind hne hfree
    rw [hpages]
    refine Page.filter_titled_all hnodup ((Kind.mem_containers_iff kind).2 hkind) hne
      fun out hout => ?_
    obtain ⟨d, hd, hname⟩ := exists_kept_of_mem_doclets hrun (List.mem_of_find?_eq_some hout)
    rw [(Doclet.of_findKind? hout).2] at hname
    rw [hregistry]
    rw [← hname] at hne hfree ⊢
    exact exists_entry_of_kept tutorials hd hne hfree
  · intro page hpage longname hname
    rw [hpages] at hpage
    rcases Page.mem_globals_or_exists_entry hpage hname
      with hglobals | ⟨e, he, halias, rfl, hofEntry⟩
    · obtain rfl :=
        Option.some.inj (hname.symm.trans (Page.longname_of_mem_globals hglobals))
      exact ⟨by decide, by rw [hfirst]; exact List.mem_cons_self, .inl rfl⟩
    · obtain ⟨-, -, -, hne⟩ := exists_doclet_of_mem_ofEntry hofEntry
      refine ⟨hne, List.mem_map_of_mem he, ?_⟩
      rw [hregistry] at he
      exact lookup_of_mem_final s ds tutorials he halias
  · rw [hpages, hmembers]
    exact Page.filter_untitled_all
  · rw [hpages]
    exact Page.pairwise_inOrder_all hnodup hfirst

end Documented

end Publication
end DocLinks
