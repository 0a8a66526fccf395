import DocLinks.Proofs.DocletEssence
import DocLinks.Proofs.RegistryGrowth

/-!
# What publishing does to a registry

Publishing makes links of doclets, and whatever else it does to the registry makes none.

**Invariant.**  `Wished`: a long name has a fragment only if a doclet of that name wishes for
one.

**Results.**
* `createLink_of_extends`: a link that was made once is the same whenever it is made again,
  and making it again changes nothing.
* `Reaches.extends`: the registry only grows.
* `mem_entries_registered`: doclets are registered under their long names, not as aliases.
* `Reaches.fragments_induction`: what is to be shown of the fragments that long names get.
* `Reaches.wished`: the invariant holds in the course of publishing.
-/

namespace DocLinks
namespace Registry

variable {r r' : Registry} {d : Doclet}

/-- A fragment that was given once is given again, and nothing is claimed for it. -/
theorem fragmentFor_of_extends {file : String} (h : (r.fragmentFor file d).2.Extends r')
    (hwish : r.fragments.lookup d.longname = none → fragmentWish d = "" →
      r'.fragments.lookup d.longname = none) :
    r'.fragmentFor file d = ((r.fragmentFor file d).1, r') := by
  cases hlookup : r.fragments.lookup d.longname with
  | some fragment =>
      have hknown : r.fragmentFor file d = (fragment, r) := by
        simp [fragmentFor, hlookup]
      rw [hknown] at h ⊢
      simp [fragmentFor, h.fragment hlookup]
  | none =>
      by_cases hempty : fragmentWish d = ""
      · have hnothing : ∀ {r : Registry}, r.fragments.lookup d.longname = none →
            r.fragmentFor file d = ("", r) := by
          intro r hnone
          simp [fragmentFor, hnone, hempty]
        rw [hnothing hlookup, hnothing (hwish hlookup hempty)]
      · have hclaimed : (r.fragmentFor file d).2.fragments.lookup d.longname =
            some (r.fragmentFor file d).1 := by
          simp [fragmentFor, hlookup, hempty, List.lookup_append]
        rw [fragmentFor, h.fragment hclaimed]

/-- A link that was made once is the same when it is made again, and nothing is registered or
claimed for it. -/
theorem createLink_of_extends (h : (r.createLink d).2.Extends r')
    (hwish : r.fragments.lookup d.longname = none → fragmentWish d = "" →
      r'.fragments.lookup d.longname = none) :
    r'.createLink d = ((r.createLink d).1, r') := by
  obtain ⟨url, hurl, hfile⟩ := r.pageFor_spec (placement d).owner
  have hurl' : (r.createLink d).2.resolve? (placement d).owner = some url := by
    rw [resolve?_congr (r.entries_createLink d), hurl]
  have hpage : r'.pageFor (placement d).owner = (pageOf url, r') := by
    rw [pageFor, h.resolve? hurl']
  rw [← r.fragments_pageFor (placement d).owner] at hwish
  unfold createLink at h ⊢
  dsimp only at h ⊢
  rw [hfile] at h
  rw [hpage, hfile]
  by_cases hpart : (placement d).isPart = true
  · rw [if_pos hpart] at h ⊢
    rw [if_pos hpart, fragmentFor_of_extends h hwish]
  · rw [if_neg hpart, if_neg hpart]

end Registry

namespace Publication

section Steps

/-- What publishing does to a registry: links of the given doclets are made, and whatever
else is done makes no links. -/
inductive Reaches (ds : List Doclet) (r : Registry) : Registry → Prop
  | refl : Reaches ds r r
  | add {r' : Registry} (e : Entry) : Reaches ds r r' → Reaches ds r (r'.add e)
  | claimFile {r' : Registry} (name : String) :
      Reaches ds r r' → Reaches ds r (r'.claimFile name).2
  | addTutorial {r' : Registry} (name title : String) :
      Reaches ds r r' → Reaches ds r (r'.addTutorial name title).2
  | createLink {r' : Registry} {d : Doclet} :
      d ∈ ds → Reaches ds r r' → Reaches ds r (r'.createLink d).2

variable {ds : List Doclet} {r r' : Registry} {d : Doclet}

theorem Reaches.extends (h : Reaches ds r r') : r.Extends r' := by
  induction h with
  | refl => exact .refl r
  | add e _ ih => exact ih.trans (Registry.extends_add _ e)
  | claimFile name _ ih => exact ih.trans (Registry.extends_claimFile _ name)
  | addTutorial name title _ ih => exact ih.trans (Registry.extends_addTutorial _ name title)
  | createLink _ _ ih => exact ih.trans (Registry.extends_createLink _ _)

theorem Reaches.trans {r'' : Registry} (h : Reaches ds r r') (h' : Reaches ds r' r'') :
    Reaches ds r r'' := by
  induction h' with
  | refl => exact h
  | add e _ ih => exact ih.add e
  | claimFile name _ ih => exact ih.claimFile name
  | addTutorial name title _ ih => exact ih.addTutorial name title
  | createLink hd _ ih => exact ih.createLink hd

theorem Reaches.early (h : Reaches ds r r') {later : List Doclet} (hsub : later ⊆ ds) :
    Reaches ds r (later.foldl (fun r d => (r.createLink d).2) r') := by
  induction later generalizing r' with
  | nil => exact h
  | cons d later ih =>
      exact ih (h.createLink (hsub List.mem_cons_self)) fun e he =>
        hsub (List.mem_cons_of_mem _ he)

theorem Reaches.registerLink (h : Reaches ds r r') (hd : d ∈ ds) :
    Reaches ds r (registerLink r' d) := by
  unfold Publication.registerLink
  split
  · exact h
  · exact (h.createLink hd).add _

theorem Reaches.foldl_registerLink (h : Reaches ds r r') {later : List Doclet}
    (hsub : later ⊆ ds) :
    Reaches ds r (later.foldl Publication.registerLink r') := by
  induction later generalizing r' with
  | nil => exact h
  | cons d later ih =>
      exact ih (h.registerLink (hsub List.mem_cons_self)) fun e he =>
        hsub (List.mem_cons_of_mem _ he)

theorem Reaches.addAliases (h : Reaches ds r r') :
    Reaches ds r (Shortname.addAliases r').2 := by
  have hregister : ∀ (all : List (String × String)) (r' : Registry), Reaches ds r r' →
      Reaches ds r (Shortname.register all r').2 := by
    intro all
    induction all with
    | nil => exact fun _ h => h
    | cons c rest ih =>
        intro r' h
        obtain ⟨short, url⟩ := c
        simp only [Shortname.register]
        split
        · exact ih r' h
        · exact ih _ (h.add _)
  exact hregister _ r' h

theorem Reaches.registerTutorials (h : Reaches ds r r') (tutorials : List Tutorial) :
    Reaches ds r (registerTutorials r' tutorials) := by
  unfold Publication.registerTutorials
  generalize Tutorial.walkAll tutorials = ts
  induction ts generalizing r' with
  | nil => exact h
  | cons t ts ih => exact ih (h.addTutorial _ _)

theorem Reaches.registerSources (h : Reaches ds r r') (short : List (String × String)) :
    Reaches ds r (registerSources r' short).2 := by
  induction short generalizing r' with
  | nil => exact h
  | cons path short ih =>
      obtain ⟨path, shortpath⟩ := path
      exact ih ((h.claimFile _).add _)

theorem reaches_initial (s : PublishSettings) (ds : List Doclet) :
    Reaches ds Registry.new (initial s) :=
  initial_induction s .refl fun _ _ _ h => h.add _

theorem Reaches.final {s : PublishSettings} {ds : List Doclet}
    (h : Reaches (kept ds) r (registered s ds)) (tutorials : List Tutorial) :
    Reaches (kept ds) r (final s ds tutorials) :=
  (h.addAliases.registerTutorials tutorials).registerSources (shortpaths ds)

theorem reaches_registered (s : PublishSettings) (ds : List Doclet) :
    Reaches (kept ds) (initial s) (registered s ds) := by
  rw [registered_eq]
  exact (Reaches.refl.early List.filter_sublist.subset).foldl_registerLink
    (List.Subset.refl _)

theorem reaches_final (s : PublishSettings) (ds : List Doclet) (tutorials : List Tutorial) :
    Reaches (kept ds) (initial s) (final s ds tutorials) :=
  (reaches_registered s ds).final tutorials

/-- All steps of publishing, from a new registry on. -/
theorem reaches_final_of_new (s : PublishSettings) (ds : List Doclet)
    (tutorials : List Tutorial) :
    Reaches (kept ds) Registry.new (final s ds tutorials) :=
  (reaches_initial s (kept ds)).trans (reaches_final s ds tutorials)

end Steps

section Entries

variable {r : Registry} {d : Doclet} {e : Entry}

/-- What is registered when a link is made is no alias. -/
theorem mem_entries_createLink (he : e ∈ (r.createLink d).2.entries) :
    e ∈ r.entries ∨ e.isAlias = false := by
  rw [r.entries_createLink d] at he
  rcases r.entries_pageFor (Registry.placement d).owner with ⟨-, hentries⟩ | ⟨-, k, hentries⟩
  · rw [hentries] at he
    exact .inl he
  · rw [hentries] at he
    rcases List.mem_append.1 he with he | he
    · exact .inl he
    · exact .inr (List.mem_singleton.1 he ▸ rfl)

theorem mem_entries_registerLink (he : e ∈ (registerLink r d).entries) :
    e ∈ r.entries ∨ e.isAlias = false := by
  unfold registerLink at he
  split at he
  · exact .inl he
  · rw [Registry.entries_register] at he
    split at he
    · exact mem_entries_createLink he
    · rcases List.mem_append.1 he with he | he
      · exact mem_entries_createLink he
      · exact .inr (List.mem_singleton.1 he ▸ rfl)

/-- If no step registers an alias, no run does. -/
theorem mem_entries_foldl {step : Registry → Doclet → Registry}
    (hstep : ∀ {r d}, e ∈ (step r d).entries → e ∈ r.entries ∨ e.isAlias = false)
    (ds : List Doclet)
    (he : e ∈ (ds.foldl step r).entries) : e ∈ r.entries ∨ e.isAlias = false := by
  induction ds generalizing r with
  | nil => exact .inl he
  | cons d ds ih =>
      rcases ih he with he | halias
      · exact hstep he
      · exact .inr halias

/-- Links are made without registering an alias. -/
theorem mem_entries_links {early ds : List Doclet}
    (he : e ∈ (ds.foldl registerLink
      (early.foldl (fun r d => (r.createLink d).2) r)).entries) :
    e ∈ r.entries ∨ e.isAlias = false := by
  rcases mem_entries_foldl mem_entries_registerLink ds he with he | halias
  · exact mem_entries_foldl mem_entries_createLink early he
  · exact .inr halias

theorem mem_entries_registered {s : PublishSettings} {ds : List Doclet}
    (he : e ∈ (registered s ds).entries) : e ∈ (initial s).entries ∨ e.isAlias = false := by
  rw [registered_eq] at he
  exact mem_entries_links he

end Entries

section Fragments

variable {ds : List Doclet} {r r' : Registry} {d : Doclet}

section Invariants

variable {P : (longname fragment : String) → Prop}

/-- What holds of the fragments that long names have, and of any fragment that a doclet could
get, holds of them when the link of the doclet has been made. -/
theorem fragments_createLink_induction
    (hr : ∀ longname fragment, r.fragments.lookup longname = some fragment →
      P longname fragment)
    (hwish : ∀ (a : Filename.Allocator) (file : String), Registry.fragmentWish d ≠ "" →
      P d.longname (a.claimAnchor file (Registry.fragmentWish d)).1) :
    ∀ longname fragment, (r.createLink d).2.fragments.lookup longname = some fragment →
      P longname fragment := by
  rw [← r.fragments_pageFor (Registry.placement d).owner] at hr
  unfold Registry.createLink
  dsimp only
  split
  · unfold Registry.fragmentFor
    split
    · exact hr
    · dsimp only
      split
      · exact hr
      · rename_i hne
        intro longname fragment hlookup
        rw [List.lookup_append, Option.or_eq_some_iff] at hlookup
        rcases hlookup with hlookup | ⟨-, hlookup⟩
        · exact hr _ _ hlookup
        · rw [List.lookup_cons] at hlookup
          split at hlookup
          · rename_i heq
            obtain rfl := beq_iff_eq.1 heq
            obtain rfl := Option.some.inj hlookup
            exact hwish _ _ (by simpa using hne)
          · simp at hlookup
  · exact hr

/-- The same, in the course of publishing. -/
theorem Reaches.fragments_induction (h : Reaches ds r r')
    (hr : ∀ longname fragment, r.fragments.lookup longname = some fragment →
      P longname fragment)
    (hwish : ∀ d ∈ ds, ∀ (a : Filename.Allocator) (file : String),
      Registry.fragmentWish d ≠ "" →
      P d.longname (a.claimAnchor file (Registry.fragmentWish d)).1) :
    ∀ longname fragment, r'.fragments.lookup longname = some fragment →
    P longname fragment := by
  induction h with
  | refl => exact hr
  | add e _ ih => rwa [Registry.fragments_add]
  | claimFile name _ ih => exact ih
  | addTutorial name title _ ih => rwa [Registry.fragments_addTutorial]
  | createLink hd _ ih => exact fragments_createLink_induction ih (hwish _ hd)

end Invariants

/-- A long name has a fragment only if a doclet of that name wishes for one. -/
def Wished (ds : List Doclet) (r : Registry) : Prop :=
  ∀ longname fragment, r.fragments.lookup longname = some fragment →
    ∃ d ∈ ds, d.longname = longname ∧ Registry.fragmentWish d ≠ ""

theorem Reaches.wished (h : Reaches ds r r') (hr : Wished ds r) : Wished ds r' :=
  h.fragments_induction hr fun d hd _ _ hwish => ⟨d, hd, rfl, hwish⟩

theorem wished_new : Wished ds Registry.new := by
  intro longname fragment hlookup
  simp [Registry.new] at hlookup

/-- If the doclets have different long names, a doclet that wishes for no fragment never has
one. -/
theorem Wished.lookup_eq_none (h : Wished ds r)
    (hdistinct : (ds.map (·.longname)).Nodup) (hd : d ∈ ds)
    (hwish : Registry.fragmentWish d = "") : r.fragments.lookup d.longname = none := by
  rw [Option.eq_none_iff_forall_ne_some]
  intro fragment hlookup
  obtain ⟨e, he, hname, hne⟩ := h _ _ hlookup
  obtain rfl : e = d := List.inj_on_of_nodup_map hdistinct he hd hname
  exact hne hwish

end Fragments

end Publication
end DocLinks
