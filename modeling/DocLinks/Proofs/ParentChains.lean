import DocLinks.Proofs.DocletEssence

/-!
# The chains of parents

The parents of a doclet are found by long names and by the names of parents.  So publishing,
which changes neither, finds the parents of every doclet among the doclets that it publishes,
and the links that it stores in a doclet are those to these parents.

**Results.**
* `chain_map`: parents are found in the same way among doclets that keep their long names.
* `links_map`: so the links to them are the same.
* `ancestors_of_run`: the links to parents that are stored in the doclets that are published.
-/

namespace DocLinks
namespace Ancestors

section Chains

variable {remaining : List Doclet} {d p : Doclet}

theorem chain_of_parent?_eq_some (h : parent? remaining d = some p) :
    chain remaining d = p :: chain (without p.longname remaining) p := by
  rw [chain]
  split
  · rename_i p' hp'
    obtain rfl := Option.some.inj (h.symm.trans hp')
    rfl
  · rename_i hnone
    rw [h] at hnone
    simp at hnone

theorem chain_of_parent?_eq_none (h : parent? remaining d = none) :
    chain remaining d = [] := by
  rw [chain]
  split
  · rename_i p hp
    rw [h] at hp
    simp at hp
  · rfl

/-- A change of doclets that keeps their long names and those of their parents. -/
structure KeepsParents (f : Doclet → Doclet) : Prop where
  longname (d : Doclet) : (f d).longname = d.longname
  memberof (d : Doclet) : (f d).memberof = d.memberof

/-- A change of doclets that keeps their names and the names of their parents. -/
structure KeepsNames (f : Doclet → Doclet) : Prop where
  longname (d : Doclet) : (f d).longname = d.longname
  memberof (d : Doclet) : (f d).memberof = d.memberof
  name (d : Doclet) : (f d).name = d.name
  scope (d : Doclet) : (f d).scope = d.scope

variable {f : Doclet → Doclet}

theorem KeepsNames.keepsParents (hf : KeepsNames f) : KeepsParents f :=
  ⟨hf.longname, hf.memberof⟩

theorem without_map (hf : KeepsParents f) (longname : String) :
    without longname (remaining.map f) = (without longname remaining).map f := by
  simp only [without, List.filter_map, Function.comp_def, hf.longname]

theorem parent?_map (hf : KeepsParents f) :
    parent? (remaining.map f) (f d) = (parent? remaining d).map f := by
  rw [parent?, parent?, hf.memberof]
  cases d.memberof with
  | none => rfl
  | some m =>
      simp only [Option.bind_some, Doclet.find?, List.find?_map,
        Function.comp_def, hf.longname]

/-- Among doclets that keep their long names, parents are found in the same way. -/
theorem chain_map (hf : KeepsParents f) :
    chain (remaining.map f) (f d) = (chain remaining d).map f := by
  fun_induction chain remaining d with
  | case1 remaining d p hp ih =>
      have hparent : parent? (remaining.map f) (f d) = some (f p) := by
        rw [parent?_map hf, hp]
        rfl
      rw [chain_of_parent?_eq_some hparent, hf.longname, without_map hf]
      rw [ih, List.map_cons]
  | case2 remaining d hp =>
      have hparent : parent? (remaining.map f) (f d) = none := by
        rw [parent?_map hf, hp]
        rfl
      rw [chain_of_parent?_eq_none hparent, List.map_nil]

variable {ds : List Doclet} (r : Registry)

theorem of_map (hf : KeepsParents f) : of (ds.map f) (f d) = (of ds d).map f := by
  rw [of, of, hf.longname]
  rw [without_map hf, chain_map hf, List.map_reverse]

theorem references_map (hf : KeepsNames f) :
    references r (ds.map f) (f d) = references r ds d := by
  have hreference : ∀ a, reference r (f a) = reference r a := by
    intro a
    simp only [reference, punctuation, Doclet.displayName, hf.longname, hf.name, hf.scope]
  simp only [references, of_map hf.keepsParents, List.map_map, Function.comp_def, hreference]

theorem links_map (hf : KeepsNames f) : links r (ds.map f) (f d) = links r ds d := by
  rw [links, links, references_map r hf]
  rw [punctuation, punctuation, hf.scope]

theorem mem_of_mem_of {a : Doclet} (h : a ∈ of ds d) : a ∈ ds :=
  (List.mem_filter.1 (mem_of_mem_chain (List.mem_reverse.1 h))).1

end Chains
end Ancestors

namespace Publication

section Published

variable {s : PublishSettings} {ds : List Doclet}
  {tutorials : List Tutorial} {p : Publication}

/-- Signed doclets keep their names until they are published. -/
theorem keepsNames_published (r : Registry) (signed completed : List Doclet) :
    Ancestors.KeepsNames fun d => Doclet.attachTo completed (complete r signed d) := by
  have hframe :
      ∀ d, frame { Doclet.attachTo completed (complete r signed d) with kind := d.kind } =
      frame d :=
        fun d => (frame_attachTo completed _ d.kind).trans (frame_complete r signed d d.kind)
  exact {
    longname := fun d => congrArg (·.longname) (hframe d)
    memberof := fun d => congrArg (·.memberof) (hframe d)
    name := fun d => congrArg (·.name) (hframe d)
    scope := fun d => congrArg (·.scope) (hframe d) }

theorem ancestors_published (r : Registry) (signed completed : List Doclet) (d : Doclet) :
    (Doclet.attachTo completed (complete r signed d)).ancestors =
      Ancestors.links r signed d := by
  have hattach : ∀ d, (Doclet.attachTo completed d).ancestors = d.ancestors := by
    intro d
    unfold Doclet.attachTo
    dsimp only
    split
    · rfl
    · rfl
  rw [hattach, complete, addDeclaredType]
  split
  · rfl
  · rfl

/-- The doclets that are published hold the links to their parents among all that are
published, and this is what the log says about these links. -/
theorem ancestors_of_run (h : run s ds tutorials = .ok p) :
    (∀ out ∈ p.doclets, out.ancestors = Ancestors.links (linked s ds) p.doclets out) ∧
      ∃ before after, p.warnings =
        before ++ p.doclets.flatMap (ancestorWarnings (linked s ds) p.doclets) ++ after := by
  obtain ⟨signed, -, rfl⟩ := run_eq_ok_iff.1 h
  let publish := fun d => Doclet.attachTo (signed.map (complete (linked s ds) signed))
    (complete (linked s ds) signed d)
  have hkeeps : Ancestors.KeepsNames publish := keepsNames_published _ _ _
  have hdoclets : (assembled s ds tutorials signed).doclets = signed.map publish :=
    List.map_map
  have hwarnings : ∀ d, ancestorWarnings (linked s ds) (signed.map publish) (publish d) =
      ancestorWarnings (linked s ds) signed d := by
    intro d
    rw [ancestorWarnings, ancestorWarnings]
    rw [Ancestors.references_map _ hkeeps, hkeeps.longname]
  rw [hdoclets]
  refine ⟨fun out hout => ?_, ?_⟩
  · obtain ⟨d, -, rfl⟩ := List.mem_map.1 hout
    rw [Ancestors.links_map _ hkeeps]
    exact ancestors_published _ _ _ d
  · simp only [List.flatMap_map, hwarnings]
    exact ⟨_, _, rfl⟩

end Published

end Publication
end DocLinks
