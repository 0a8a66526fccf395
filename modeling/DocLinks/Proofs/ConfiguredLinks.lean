import DocLinks.Proofs.LinkSteps
import DocLinks.Proofs.PagesOfTheirOwn
import DocLinks.Proofs.RegistryHistory

/-!
# Names that are documented elsewhere

The settings tell where some names are documented.  These names are registered first, as
aliases, and a registered name is never given to anything else.  So they keep their links,
whatever else has the same name, and no page is made for them.

**Results.**
* `Reaches.exists_after`: what publishing does to a registry is a history of steps.
* `find?_initial`: what is registered before any doclet.
* `configured_links_kept`: names that are documented elsewhere keep their links and own no
  page.
-/

namespace DocLinks
namespace Publication

section History

variable {ds : List Doclet} {r r' : Registry}

/-- What publishing does to a registry is done by some steps. -/
theorem Reaches.exists_after (h : Reaches ds r r') : ∃ steps, r' = r.after steps := by
  have hstep : ∀ {steps : List Registry.Step} (s : Registry.Step),
      (r.after steps).step s = r.after (steps ++ [s]) := by
    intro steps s
    rw [Registry.after, Registry.after, List.foldl_concat]
  induction h with
  | refl => exact ⟨[], rfl⟩
  | add e _ ih =>
      obtain ⟨steps, rfl⟩ := ih
      obtain ⟨name, url, isAlias⟩ := e
      cases isAlias with
      | false => exact ⟨_, hstep (.call (.register name url))⟩
      | true => exact ⟨_, hstep (.call (.registerAlias name url))⟩
  | claimFile name _ ih =>
      obtain ⟨steps, rfl⟩ := ih
      exact ⟨_, hstep (.call (.claimFile name))⟩
  | addTutorial name title _ ih =>
      obtain ⟨steps, rfl⟩ := ih
      exact ⟨_, hstep (.call (.addTutorial name title))⟩
  | @createLink _ d _ _ ih =>
      obtain ⟨steps, rfl⟩ := ih
      exact ⟨_, hstep (.call (.createLink d))⟩

/-- Publishing keeps the entries of a registry, in their order. -/
theorem Reaches.prefix_entries (h : Reaches ds r r') : r.entries <+: r'.entries := by
  obtain ⟨steps, rfl⟩ := h.exists_after
  exact r.prefix_after steps

theorem Reaches.nodup_names (h : Reaches ds Registry.new r) : r.names.Nodup := by
  obtain ⟨steps, rfl⟩ := h.exists_after
  exact Registry.nodup_names_after steps

variable (s : PublishSettings) (ds : List Doclet) (tutorials : List Tutorial)

theorem nodup_names_initial : (initial s).names.Nodup :=
  (reaches_initial s []).nodup_names

theorem nodup_names_final : (final s ds tutorials).names.Nodup :=
  (reaches_final_of_new s ds tutorials).nodup_names

/-- The name of the global page is registered in front of all others. -/
theorem exists_names_final :
    ∃ rest, (final s ds tutorials).names = Registry.globalName :: rest := by
  obtain ⟨more, hmore⟩ := (reaches_final_of_new s ds tutorials).prefix_entries
  exact ⟨more.map (·.name), by rw [Registry.names, ← hmore]; rfl⟩

end History

section Configured

/-- Of the entries that are added for a name, the first one counts, unless the name is
registered. -/
theorem find?_foldl_registerAlias (links : List (String × String))
    (r : Registry) (name : String) :
    (links.foldl (fun r (name, url) => r.registerAlias name url) r).find? name =
      (r.find? name).or ((links.lookup name).map fun url => ⟨name, url, true⟩) := by
  induction links generalizing r with
  | nil => simp
  | cons link links ih =>
      obtain ⟨name', url⟩ := link
      have hadd : (r.registerAlias name' url).find? name =
          (r.find? name).or (if name = name' then some ⟨name', url, true⟩ else none) :=
        r.find?_add _ name
      rw [List.foldl_cons, ih, hadd]
      rw [Option.or_assoc, List.lookup_cons]
      by_cases hname : name = name'
      · simp [hname]
      · simp only [if_neg hname, Option.none_or, beq_false_of_ne hname]

variable (s : PublishSettings) (ds : List Doclet) (tutorials : List Tutorial)

/-- Before any doclet, the global page is registered, and names that are documented
elsewhere. -/
theorem find?_initial (name : String) : (initial s).find? name =
    (Registry.new.find? name).or
      ((s.linkMap.lookup name).map fun url => ⟨name, url, true⟩) :=
  find?_foldl_registerAlias s.linkMap Registry.new name

/-- A name that is documented elsewhere has its alias in the end. -/
theorem find?_final_of_lookup {name url : String} (hurl : s.linkMap.lookup name = some url)
    (hglobal : name ≠ Registry.globalName) :
    (final s ds tutorials).find? name = some ⟨name, url, true⟩ := by
  refine Registry.find?_of_isPrefix (reaches_final s ds tutorials).prefix_entries ?_
  have hnew : Registry.new.find? name = none := by
    simp [Registry.find?, Registry.new, Ne.symm hglobal]
  rw [find?_initial, hnew, hurl]
  rfl

/-- An entry that is no alias is that of the global page, or its name is not documented
elsewhere. -/
theorem lookup_of_mem_final {e : Entry} (he : e ∈ (final s ds tutorials).entries)
    (halias : e.isAlias = false) :
    e.name = Registry.globalName ∨ s.linkMap.lookup e.name = none := by
  by_contra hother
  obtain ⟨hglobal, hlookup⟩ := not_or.1 hother
  obtain ⟨url, hurl⟩ := Option.ne_none_iff_exists'.1 hlookup
  have hfind := find?_final_of_lookup s ds tutorials hurl hglobal
  rw [Registry.find?_of_mem (nodup_names_final s ds tutorials) he] at hfind
  rw [Option.some.inj hfind] at halias
  simp at halias

/-- Publishing succeeds, and every name that is documented elsewhere leads where the settings
say, is an alias and has no page.  Only the name of the global page is not taken from the
settings. -/
theorem configured_links_kept (s : PublishSettings) (ds : List Doclet)
    (tutorials : List Tutorial) :
    ∃ p, run s ds tutorials = .ok p ∧
      ∀ name url, s.linkMap.lookup name = some url → name ≠ Registry.globalName →
        p.registry.resolve? name = some url ∧ p.registry.isAlias name = true ∧
          ∀ page ∈ p.pages, page.longname ≠ some name := by
  obtain ⟨p, -, hrun, hpages, -⟩ := exists_recorded s ds tutorials
  refine ⟨p, hrun, fun name url hurl hglobal => ?_⟩
  have hnodup := nodup_names_final s ds tutorials
  have hfind := find?_final_of_lookup s ds tutorials hurl hglobal
  rw [hpages, registry_of_run hrun]
  refine ⟨?_, ?_, fun page hpage hname => ?_⟩
  · rw [Registry.resolve?, hfind]
    rfl
  · rw [Registry.isAlias_eq_any hnodup, hfind]
    rfl
  · rcases Page.mem_globals_or_exists_entry hpage hname
      with hglobals | ⟨e, he, halias, rfl, -⟩
    · exact hglobal
        (Option.some.inj (hname.symm.trans (Page.longname_of_mem_globals hglobals)))
    · rcases lookup_of_mem_final s ds tutorials he halias with hsame | hnone
      · exact hglobal hsame
      · rw [hurl] at hnone
        simp at hnone

end Configured

end Publication
end DocLinks
