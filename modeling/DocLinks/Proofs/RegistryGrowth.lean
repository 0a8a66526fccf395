import DocLinks.Proofs.Allocation
import DocLinks.Proofs.PercentDecoding
import DocLinks.Registry

/-!
# How a registry grows

Whatever is asked of a registry, nothing that it has given out is taken back: a name keeps
its page, a long name keeps its fragment, and a fragment stays in use.

**Results.**
* `extends_add`, `extends_pageFor`, `GivesFragment.extends`: a registry only grows.
* `pageFor_spec`, `givesFragment_fragmentFor`: what can happen when a page and a fragment are
  asked for.
* `urlOf_inj`: a link tells its page and its fragment.
* `tutorial?_addTutorial`: what a tutorial adds.
-/

namespace DocLinks
namespace Registry

section Urls

theorem hash_not_mem_pageOf (url : String) : '#' ∉ (pageOf url).toList := by
  rw [pageOf, String.toList_ofList]
  intro hmem
  have := List.all_eq_true.1 List.all_takeWhile _ hmem
  simp at this

theorem pageOf_of_not_mem {url : String} (h : '#' ∉ url.toList) : pageOf url = url := by
  have hall : ∀ c ∈ url.toList, (!(c == '#')) = true := by
    intro c hc
    have : c ≠ '#' := by
      rintro rfl
      exact h hc
    simpa using this
  rw [pageOf, Text.beforeFirst, ← List.append_nil url.toList]
  rw [List.takeWhile_append_of_pos hall, List.takeWhile_nil]
  rw [List.append_nil, String.ofList_toList]

theorem toList_urlOf (file fragment : String) :
    (urlOf file fragment).toList =
      Percent.encode (file.toList ++ if fragment = "" then []
        else '#' :: fragment.toList) := by
  rw [urlOf, String.toList_ofList]
  by_cases h : fragment = ""
  · simp [h]
  · simp [h, String.toList_append]

theorem hash_mem_urlOf_iff {file fragment : String} (hfile : '#' ∉ file.toList) :
    '#' ∈ (urlOf file fragment).toList ↔ fragment ≠ "" := by
  rw [toList_urlOf, Percent.mem_encode_hash_iff, List.mem_append]
  by_cases h : fragment = ""
  · simp [h, hfile]
  · simp [h]

/-- What stands before the first number sign of a link is the encoded name of its file. -/
theorem pageOf_urlOf {file fragment : String} (hfile : '#' ∉ file.toList) :
    (pageOf (urlOf file fragment)).toList = Percent.encode file.toList := by
  have hall : ∀ c ∈ file.toList, (!(c == '#')) = true := by
    intro c hc
    have : c ≠ '#' := by
      rintro rfl
      exact hfile hc
    simpa using this
  rw [pageOf, String.toList_ofList, toList_urlOf]
  rw [Percent.beforeFirst_encode, Text.beforeFirst, List.takeWhile_append_of_pos hall]
  split
  · simp
  · simp

/-- A link with a fragment tells its page and its fragment. -/
theorem urlOf_inj {file file' fragment fragment' : String} (hfile : '#' ∉ file.toList)
    (hfile' : '#' ∉ file'.toList) (hne : fragment ≠ "") (hne' : fragment' ≠ "")
    (h : urlOf file fragment = urlOf file' fragment') :
    file = file' ∧ fragment = fragment' := by
  have hpages := congrArg (fun url => (pageOf url).toList) h
  simp only [pageOf_urlOf hfile, pageOf_urlOf hfile'] at hpages
  have hfiles := Percent.encode_injective hpages
  have hlists := congrArg String.toList h
  rw [toList_urlOf, toList_urlOf, hfiles] at hlists
  rw [if_neg hne, if_neg hne'] at hlists
  have htails := List.append_cancel_left (Percent.encode_injective hlists)
  exact ⟨String.toList_inj.1 hfiles, String.toList_inj.1 (List.cons.inj htails).2⟩

end Urls

section Growth

/-- Nothing that a registry has given out is taken back: a name keeps its page, a long name
keeps its fragment, and a fragment stays in use. -/
structure Extends (r r' : Registry) : Prop where
  resolve? {name url : String} : r.resolve? name = some url → r'.resolve? name = some url
  fragment {longname fragment : String} :
    r.fragments.lookup longname = some fragment →
    r'.fragments.lookup longname = some fragment
  anchors {a : Filename.Anchor} : a ∈ r.files.anchors → a ∈ r'.files.anchors

theorem Extends.refl (r : Registry) : r.Extends r :=
  ⟨id, id, id⟩

theorem Extends.trans {r s t : Registry} (h : r.Extends s)
    (h' : s.Extends t) : r.Extends t :=
  ⟨fun hr => h'.resolve? (h.resolve? hr), fun hr => h'.fragment (h.fragment hr),
    fun hr => h'.anchors (h.anchors hr)⟩

variable (r : Registry)

theorem contains_iff (name : String) :
    r.contains name = true ↔ ∃ url, r.resolve? name = some url := by
  simp only [contains, resolve?, find?, List.any_eq_true, Option.map_eq_some_iff]
  constructor
  · rintro ⟨e, he, hname⟩
    have hsome : (r.entries.find? (·.name == name)).isSome = true :=
      List.find?_isSome.2 ⟨e, he, hname⟩
    obtain ⟨e', he'⟩ := Option.isSome_iff_exists.1 hsome
    exact ⟨e'.url, e', he', rfl⟩
  · rintro ⟨url, e, he, -⟩
    have hname := List.find?_some he
    exact ⟨e, List.mem_of_find?_eq_some he, by simpa using hname⟩

theorem find?_add (e : Entry) (name : String) :
    (r.add e).find? name = (r.find? name).or (if name = e.name then some e else none) := by
  unfold add
  split
  · rename_i hcontains
    obtain ⟨url, hurl⟩ := (r.contains_iff e.name).1 hcontains
    obtain ⟨e', he', -⟩ := Option.map_eq_some_iff.1 hurl
    by_cases hname : name = e.name
    · rw [hname, he']
      rfl
    · rw [if_neg hname, Option.or_none]
  · simp only [find?, List.find?_append]
    by_cases hname : name = e.name
    · simp [hname]
    · simp [hname, Ne.symm hname]

theorem resolve?_add (e : Entry) (name : String) :
    (r.add e).resolve? name = (r.resolve? name).or
      (if name = e.name then some e.url else none) := by
  rw [resolve?, find?_add]
  rw [Option.map_or, ← resolve?]
  split <;> rfl

theorem fragments_add (e : Entry) : (r.add e).fragments = r.fragments := by
  unfold add
  split <;> rfl

theorem files_add (e : Entry) : (r.add e).files = r.files := by
  unfold add
  split <;> rfl

theorem tutorials_add (e : Entry) : (r.add e).tutorials = r.tutorials := by
  unfold add
  split <;> rfl

theorem extends_add (e : Entry) : r.Extends (r.add e) := by
  refine ⟨fun {name url} h => ?_, fun {_ _} h => ?_, fun {_} h => ?_⟩
  · rw [resolve?_add, h]
    rfl
  · rwa [fragments_add]
  · rwa [files_add]

theorem extends_claimFile (name : String) : r.Extends (r.claimFile name).2 :=
  ⟨id, id, id⟩

theorem extends_addTutorial (name title : String) :
    r.Extends (r.addTutorial name title).2 := by
  unfold addTutorial
  split
  · exact Extends.refl r
  · exact ⟨id, id, id⟩

theorem fragments_addTutorial (name title : String) :
    (r.addTutorial name title).2.fragments = r.fragments := by
  unfold addTutorial
  split <;> rfl

theorem entries_addTutorial (name title : String) :
    (r.addTutorial name title).2.entries = r.entries := by
  unfold addTutorial
  split <;> rfl

theorem addTutorial_of_some {name : String} {page : TutorialPage}
    (h : r.tutorial? name = some page)
    (title : String) : r.addTutorial name title = (page.url, r) := by
  rw [addTutorial, h]

/-- The first tutorial of a name gets a file that is handed out for it. -/
theorem addTutorial_of_none {name : String} (h : r.tutorial? name = none) (title : String) :
    (r.addTutorial name title).1 = (r.claimFile ("tutorial-" ++ name)).1 ∧
      (r.addTutorial name title).2.files = (r.claimFile ("tutorial-" ++ name)).2.files := by
  rw [addTutorial, h]
  exact ⟨rfl, rfl⟩

/-- A tutorial is given a page unless there is one of its name. -/
theorem tutorial?_addTutorial (name title other : String) :
    (r.addTutorial name title).2.tutorial? other =
      (r.tutorial? other).or
        (if other = name then some ⟨(r.addTutorial name title).1, title⟩ else none) := by
  cases hpage : r.tutorial? name with
  | some page =>
      rw [r.addTutorial_of_some hpage]
      by_cases hname : other = name
      · rw [hname, hpage]
        rfl
      · rw [if_neg hname, Option.or_none]
  | none =>
      rw [addTutorial, hpage]
      change (r.tutorials ++ [(name, _)]).lookup other = (r.tutorials.lookup other).or _
      rw [List.lookup_append, List.lookup_cons, List.lookup_nil]
      by_cases hname : other = name
      · rw [if_pos hname, beq_iff_eq.2 hname]
      · rw [if_neg hname, beq_eq_false_iff_ne.2 hname]

/-- The page of a name is that of its entry, which is there from then on. -/
theorem pageFor_spec (name : String) :
    ∃ url, (r.pageFor name).2.resolve? name = some url ∧
    (r.pageFor name).1 = pageOf url := by
  unfold pageFor
  split
  · rename_i url hurl
    exact ⟨url, hurl, rfl⟩
  · rename_i hnone
    refine ⟨(r.claimFile name).1, ?_, ?_⟩
    · have hnone' : (r.claimFile name).2.resolve? name = none := hnone
      simp only [register, resolve?_add, hnone']
      simp
    · exact (pageOf_of_not_mem (r.files.hash_not_mem_claimFile name)).symm

theorem extends_pageFor (name : String) : r.Extends (r.pageFor name).2 := by
  unfold pageFor
  split
  · exact Extends.refl r
  · exact (r.extends_claimFile name).trans (extends_add _ _)

theorem fragments_pageFor (name : String) : (r.pageFor name).2.fragments = r.fragments := by
  unfold pageFor
  split
  · rfl
  · exact fragments_add _ _

/-- What can happen when the fragment of a doclet on a page is asked for: the long name has
one, there is nothing to wish for, or one is claimed that is new in the file. -/
inductive GivesFragment (file longname : String) : (fragment : String) → Registry → Prop
  | known {fragment : String} :
      r.fragments.lookup longname = some fragment → GivesFragment file longname fragment r
  | none : GivesFragment file longname "" r
  | claimed {fragment : String} {files : Filename.Allocator} :
      r.fragments.lookup longname = Option.none →
      Filename.Anchor.mk file (Text.caseKey fragment.toList) ∉ r.files.anchors →
      files.anchors = Filename.Anchor.mk file
        (Text.caseKey fragment.toList) :: r.files.anchors →
      GivesFragment file longname fragment
        { r with files := files, fragments := r.fragments ++ [(longname, fragment)] }

theorem givesFragment_fragmentFor (file : String) (d : Doclet) :
    r.GivesFragment file d.longname (r.fragmentFor file d).1 (r.fragmentFor file d).2 := by
  unfold fragmentFor
  split
  · rename_i fragment hlookup
    exact .known hlookup
  · rename_i hlookup
    dsimp only
    split
    · exact .none
    · obtain ⟨hnew, hanchors⟩ := r.files.claimAnchor_new file (fragmentWish d)
      exact .claimed hlookup hnew hanchors

variable {r}

theorem GivesFragment.extends {file longname fragment : String} {r' : Registry}
    (h : r.GivesFragment file longname fragment r') : r.Extends r' := by
  cases h with
  | known _ => exact Extends.refl r
  | none => exact Extends.refl r
  | claimed _ _ hanchors =>
      refine ⟨id, fun {_ _} hr => ?_, fun {_} hr => ?_⟩
      · simp only [List.lookup_append, hr, Option.some_or]
      · simp only [hanchors]
        exact List.mem_cons_of_mem _ hr

theorem GivesFragment.entries_eq {file longname fragment : String} {r' : Registry}
    (h : r.GivesFragment file longname fragment r') : r'.entries = r.entries := by
  cases h with
  | known _ => rfl
  | none => rfl
  | claimed _ _ _ => rfl

theorem GivesFragment.lookup_of_ne {file longname fragment : String} {r' : Registry}
    (h : r.GivesFragment file longname fragment r') (hne : fragment ≠ "") :
    r'.fragments.lookup longname = some fragment := by
  cases h with
  | known hlookup => exact hlookup
  | none => exact absurd rfl hne
  | claimed hnone _ _ =>
      rw [List.lookup_append, hnone, Option.none_or]
      rw [List.lookup_cons, beq_self_eq_true]

theorem extends_createLink (r : Registry) (d : Doclet) : r.Extends (r.createLink d).2 := by
  unfold createLink
  dsimp only
  split
  · exact (r.extends_pageFor _).trans (givesFragment_fragmentFor _ _ _).extends
  · exact r.extends_pageFor _

end Growth

end Registry
end DocLinks
