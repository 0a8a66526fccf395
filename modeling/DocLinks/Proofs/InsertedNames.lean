import DocLinks.Proofs.ParentChains
import DocLinks.Proofs.SidebarTags
import DocLinks.Signature

/-!
# Names that are inserted as they are

The sidebar, the links to parents and signatures show names of symbols, titles of tutorials
and names of parameters.  All of them are inserted as they are.  So the markup of two runs on
data that differ in such texts only opens equally many tags if and only if the texts do: a
name with a tag in it brings its tag.

**Links to parents.**  A parent is found by its long name, so the same parents are found
whatever they are called.

**Signatures.**  A signature is made in steps.  Each step adds to what is there; the names of
parameters are added by one of them, types are escaped.

**Results.**
* `map_tagCount_links`, `map_tagCount_links_eq_iff`: what the names of parents add to the
  links to them.
* `tagCount_step`, `tagCount_after`: what one step, and what any steps, add to a signature.
* `tagCounts_eq_iff_inserted`: the markup of two runs opens equally many tags if and only if
  what is inserted does.
* `names_open_tags`: a name can open a tag.
-/

namespace DocLinks

open Html (tagCount tagCounts)

/-- The doclet without its name. -/
def Doclet.unnamed (d : Doclet) : Doclet :=
  { d with name := none }

namespace Ancestors

section Links

variable {r r' : Registry} {ds ds' : List Doclet} {d d' a a' : Doclet}

/-- Parents do not depend on names. -/
theorem of_eq_of_map_unnamed (hds : ds.map Doclet.unnamed = ds'.map Doclet.unnamed)
    (hd : d.unnamed = d'.unnamed) :
    (of ds d).map Doclet.unnamed = (of ds' d').map Doclet.unnamed := by
  have hkeeps : KeepsParents Doclet.unnamed := ⟨fun _ => rfl, fun _ => rfl⟩
  rw [← of_map hkeeps, ← of_map hkeeps]
  rw [hds, hd]

/-- A single parent that has no parents. -/
theorem of_singleton {p : Doclet} (hmemberof : d.memberof = some p.longname)
    (hp : p.memberof = none)
    (hne : (p.longname != d.longname) = true) : of [p] d = [p] := by
  have hparent : parent? [p] d = some p := by simp [parent?, hmemberof, Doclet.find?]
  have hnone : parent? (without p.longname [p]) p = none := by
    rw [parent?, hp, Option.bind_none]
  have hothers : without d.longname [p] = [p] := by
    rw [without, List.filter_singleton, hne]
    rfl
  rw [of, hothers, chain_of_parent?_eq_some hparent]
  rw [chain_of_parent?_eq_none hnone, List.reverse_singleton]

theorem tagCount_punctuation (d : Doclet) : tagCount (punctuation d) = 0 := by
  unfold punctuation
  cases d.scope with
  | none => rfl
  | some scope => cases scope <;> rfl

theorem map_tagCount_appendToLast {after : String} (h : tagCount after = 0)
    (l : List String) :
    (appendToLast after l).map tagCount = l.map tagCount := by
  fun_induction appendToLast after l with
  | case1 => rfl
  | case2 s =>
      rw [List.map_singleton, List.map_singleton, Html.tagCount_append, h, Nat.add_zero]
  | case3 s t rest ih =>
      rw [List.map_cons, ih]
      rfl

/-- The tags of the link to a parent, besides those of its name. -/
def ownTags (r : Registry) (a : Doclet) : Nat :=
  tagCount (Reference.ofTarget r a.longname (some "")).html

/-- The names of parents are inserted as they are into the links to them. -/
theorem map_tagCount_links : (links r ds d).map tagCount =
    (of ds d).map fun a =>
      ownTags r a + if Reference.showsText a.longname
        then tagCount a.displayName else 0 := by
  rw [links, map_tagCount_appendToLast (tagCount_punctuation d), references]
  rw [List.map_map, List.map_map]
  refine List.map_congr_left fun a _ => ?_
  rw [Function.comp_apply, Function.comp_apply, reference]
  rw [Reference.tagCount_html_ofTarget, Html.tagCount_append, tagCount_punctuation]
  rw [Nat.zero_add, ownTags]

/-- The names of parents that are inserted as they are. -/
def shownNames (ds : List Doclet) (d : Doclet) : List String :=
  ((of ds d).filter fun a => Reference.showsText a.longname).map (·.displayName)

/-- The links to the parents of a doclet open equally many tags, one by one, if and only if
the names do that are shown. -/
theorem map_tagCount_links_eq_iff (hr : r.SameLinks r')
    (hds : ds.map Doclet.unnamed = ds'.map Doclet.unnamed)
    (hd : d.unnamed = d'.unnamed) :
    (links r ds d).map tagCount = (links r' ds' d').map tagCount ↔
      (shownNames ds d).map tagCount = (shownNames ds' d').map tagCount := by
  rw [map_tagCount_links, map_tagCount_links]
  rw [shownNames, shownNames]
  have hsame := forall₂_of_map_eq (of_eq_of_map_unnamed hds hd)
  generalize of ds d = parents, of ds' d' = parents' at hsame
  -- the induction is on the parents of the two runs, which go together one by one
  induction hsame with
  | nil => rfl
  | @cons a a' _ _ haa' _ ih =>
      have hlongname : a.unnamed.longname = a'.unnamed.longname := by rw [haa']
      have hlongname : a.longname = a'.longname := hlongname
      have hown : ownTags r a = ownTags r' a' := by
        rw [ownTags, ownTags, hr.ofTarget_eq, hlongname]
      rw [List.map_cons, List.map_cons, List.cons_eq_cons]
      rw [hown, hlongname, List.filter_cons]
      rw [List.filter_cons, hlongname, Nat.add_left_cancel_iff]
      refine (and_congr_right fun _ => ih).trans ?_
      split
      · rw [List.map_cons, List.map_cons, List.map_cons]
        rw [List.map_cons, List.cons_eq_cons]
      · exact and_iff_right rfl

end Links

end Ancestors

/-- The parameter under a name that says nothing, if it has a name. -/
def Param.masked (p : Param) : Param :=
  { p with name := p.name.map fun _ => "_" }

/-- The doclet with parameters whose names say nothing. -/
def Doclet.masked (d : Doclet) : Doclet :=
  { d with params := d.params.map Param.masked }

namespace Signature

section Steps

/-- A step in which a signature is made: the parameters are appended, it is wrapped and the
results are appended, or the declared type is. -/
inductive Step where
  | params
  | returns
  | types
  deriving DecidableEq

/-- Makes a step. -/
def Step.apply (r : Registry) : Step → Doclet → Doclet
  | params => addParams
  | returns => addReturns r
  | types => addTypes r

/-- The doclet after some steps. -/
def after (r : Registry) (steps : List Step) (d : Doclet) : Doclet :=
  steps.foldl (fun d step => step.apply r d) d

/-- The names of parameters. -/
def paramNames (d : Doclet) : List String :=
  d.params.filterMap Param.name

/-- No name of a parameter is empty, and none is that of a nested property. -/
def HasPlainNames (d : Doclet) : Prop :=
  ∀ name ∈ paramNames d, name ≠ "" ∧ '.' ∉ name.toList

/-- What a step finds, besides the signature so far and the names of parameters. -/
def frame (d : Doclet) : Doclet :=
  { d.masked with signature := none }

variable {r r' : Registry} {d d' : Doclet} {steps : List Step}

theorem params_apply (r : Registry) (step : Step) (d : Doclet) :
    (step.apply r d).params = d.params := by
  cases step <;> rfl

theorem frame_apply (r : Registry) (step : Step) (d : Doclet) :
    frame (step.apply r d) = frame d := by
  cases step <;> rfl

/-- The name of a parameter is inserted as it is into its entry. -/
theorem tagCount_html (e : ParamEntry) :
    tagCount e.html = tagCount ({ e with name := "_" } : ParamEntry).html +
      tagCount e.name := by
  have hmask : tagCount "_" = 0 := rfl
  simp only [ParamEntry.html, Html.tagCount_append, hmask]
  omega

theorem of?_of_plain {p : Param} {name : String} (hname : p.name = some name)
    (h : name ≠ "" ∧ '.' ∉ name.toList) :
    ParamEntry.of? p = some ⟨name, p.variadic, badges p⟩ := by
  rw [ParamEntry.of?, hname]
  simp [h]

/-- The names of parameters are inserted as they are into a parameter list. -/
theorem tagCounts_entries {ps : List Param}
    (h : ∀ name ∈ ps.filterMap Param.name, name ≠ "" ∧ '.' ∉ name.toList) :
    tagCounts ((entries ps).map ParamEntry.html) =
      tagCounts ((entries (ps.map Param.masked)).map ParamEntry.html) +
        tagCounts (ps.filterMap Param.name) := by
  induction ps with
  | nil => rfl
  | cons p ps ih =>
      cases hname : p.name with
      | none =>
          have hnone : ParamEntry.of? p = none := by rw [ParamEntry.of?, hname]
          have hmasked : ParamEntry.of? p.masked = none := by
            rw [ParamEntry.of?, Param.masked, hname]
            rfl
          rw [List.filterMap_cons_none hname] at h ⊢
          rw [entries, entries, List.filterMap_cons_none hnone]
          rw [List.map_cons, List.filterMap_cons_none hmasked]
          exact ih h
      | some name =>
          rw [List.filterMap_cons_some hname] at h ⊢
          obtain ⟨hplain, hrest⟩ := List.forall_mem_cons.1 h
          have hmasked : ParamEntry.of? p.masked = some ⟨"_", p.variadic, badges p⟩ :=
            of?_of_plain (p := p.masked) (by rw [Param.masked, hname]; rfl) (by decide)
          have htail := ih hrest
          have hhead : tagCount (ParamEntry.html ⟨name, p.variadic, badges p⟩) =
              tagCount (ParamEntry.html ⟨"_", p.variadic, badges p⟩) + tagCount name :=
                tagCount_html _
          rw [entries, entries] at htail ⊢
          rw [List.filterMap_cons_some (of?_of_plain hname hplain), List.map_cons]
          rw [List.map_cons, List.filterMap_cons_some hmasked]
          rw [List.map_cons, Html.tagCounts_cons]
          rw [Html.tagCounts_cons, Html.tagCounts_cons]
          rw [htail, hhead]
          omega

/-- A step adds tags of its own, and the parameters add those of their names. -/
theorem tagCount_step (r : Registry) (step : Step) (h : HasPlainNames d) :
    tagCount (current (step.apply r d)) =
      tagCount (current d) + tagCount (current (step.apply r (frame d))) +
      if step = .params then tagCounts (paramNames d) else 0 := by
  have hnew : current (frame d) = "" := rfl
  cases step with
  | params =>
      have hentries : tagCounts ((entries d.params).map ParamEntry.html) =
          tagCounts ((entries (frame d).params).map ParamEntry.html) +
            tagCounts (paramNames d) :=
        tagCounts_entries h
      have hcomma : tagCount ", " = 0 := rfl
      have hopen : tagCount "(" = 0 := rfl
      have hclose : tagCount ")" = 0 := rfl
      have happly : ∀ d, current (Step.params.apply r d) =
          current d ++ "(" ++ ", ".intercalate ((entries d.params).map ParamEntry.html) ++
          ")" := fun _ => rfl
      rw [if_pos rfl, happly]
      rw [happly, hnew]
      simp only [Html.tagCount_append, Html.tagCount_intercalate hcomma, hentries, hopen,
        hclose, Html.tagCount_empty]
      omega
  | returns =>
      have happly : ∀ d, current (Step.returns.apply r d) =
          "<span class=\"signature\">" ++ current d ++ "</span>" ++
            typeSpan (arrow (resultBadges (results d)) (resultReferences r d)) :=
              fun _ => rfl
      have hframe : arrow (resultBadges (results (frame d))) (resultReferences r (frame d)) =
          arrow (resultBadges (results d)) (resultReferences r d) := rfl
      rw [if_neg (by decide), happly, happly]
      rw [hnew, hframe]
      simp only [Html.tagCount_append, Html.tagCount_empty]
      omega
  | types =>
      have happly : ∀ d, current (Step.types.apply r d) = current d ++ typeSpan
          (if (declaredReferences r d).isEmpty then ""
            else " :" ++ alternatives (declaredReferences r d)) := fun _ => rfl
      have hframe : declaredReferences r (frame d) = declaredReferences r d := rfl
      rw [if_neg (by decide), happly, happly]
      rw [hnew, hframe]
      simp only [Html.tagCount_append, Html.tagCount_empty]
      omega

/-- Some steps add their tags, and each time that parameters are added they add those of
their names. -/
theorem tagCount_after (r : Registry) (steps : List Step) (h : HasPlainNames d) :
    tagCount (current (after r steps d)) = tagCount (current d) +
      (steps.map fun step => tagCount (current (step.apply r (frame d)))).sum +
        steps.count .params * tagCounts (paramNames d) := by
  induction steps generalizing d with
  | nil => simp [after]
  | cons step steps ih =>
      have hnames : paramNames (step.apply r d) = paramNames d := by
        rw [paramNames, params_apply, paramNames]
      have hplain : HasPlainNames (step.apply r d) := by
        intro name hname
        exact h name (hnames ▸ hname)
      have hrest := ih hplain
      have hstep := tagCount_step r step h
      rw [frame_apply, hnames] at hrest
      rw [after, List.foldl_cons, ← after]
      rw [hrest, hstep, List.map_cons]
      rw [List.sum_cons, List.count_cons]
      by_cases hparams : step = .params
      · rw [if_pos hparams, if_pos (beq_iff_eq.2 hparams), Nat.succ_mul]
        omega
      · simp only [hparams, beq_iff_eq, if_false, Nat.add_zero]
        omega

/-- Two signatures open equally many tags if and only if the names of parameters do that are
shown. -/
theorem tagCount_after_eq_iff (hr : r.SameLinks r') (hd : d.masked = d'.masked)
    (h : HasPlainNames d)
    (h' : HasPlainNames d') :
    tagCount (current (after r steps d)) = tagCount (current (after r' steps d')) ↔
      .params ∉ steps ∨ tagCounts (paramNames d) = tagCounts (paramNames d') := by
  have hcurrent : current d.masked = current d'.masked := by rw [hd]
  have hcurrent : current d = current d' := hcurrent
  have hframe : frame d = frame d' := by rw [frame, frame, hd]
  have hsteps : ∀ step : Step, step.apply r = step.apply r' := by
    intro step
    funext d
    cases step with
    | params => rfl
    | returns =>
        simp only [Step.apply, addReturns, resultReferences, typeReferences, hr.ofTarget_eq]
    | types =>
        have hrefs : declaredReferences r d = declaredReferences r' d := by
          simp only [declaredReferences, typeReferences, hr.ofTarget_eq]
        rw [Step.apply, Step.apply, addTypes]
        rw [addTypes, hrefs]
  rw [tagCount_after r steps h, tagCount_after r' steps h']
  rw [hcurrent, hframe]
  simp only [hsteps, Nat.add_left_cancel_iff]
  by_cases hparams : .params ∈ steps
  · rw [Nat.mul_left_cancel_iff (List.count_pos_iff.2 hparams)]
    rw [or_iff_right (not_not_intro hparams)]
  · simp [List.count_eq_zero_of_not_mem hparams, hparams]

end Steps

end Signature

section Runs

open Signature in
/-- Two runs on data that differ in display strings only: in the names of symbols, the titles
of tutorials, the names of parents, or the names of parameters, none of which is empty or
that of a nested property.  Two views of their sidebars open equally many tags if and only if
the names and titles that are shown do.  The links to parents do one by one if and only if
the names of the parents do.  Signatures that are made in the same steps do if and only if
the names of parameters do, or parameters are not shown. -/
theorem tagCounts_eq_iff_inserted {r r' : Registry} (hr : r.SameLinks r') :
    (∀ (m m' : Members) (v v' : View), Sidebar.SameSymbols m m' →
      (tagCount (View.render (Sidebar.build false m r) v) =
          tagCount (View.render (Sidebar.build false m' r') v') ↔
        tagCounts (Sidebar.shownNames m ++ Sidebar.shownTitles r m) =
          tagCounts (Sidebar.shownNames m' ++ Sidebar.shownTitles r' m'))) ∧
    (∀ (ds ds' : List Doclet) (d d' : Doclet),
      ds.map Doclet.unnamed = ds'.map Doclet.unnamed →
      d.unnamed = d'.unnamed →
      ((Ancestors.links r ds d).map tagCount = (Ancestors.links r' ds' d').map tagCount ↔
        (Ancestors.shownNames ds d).map tagCount =
          (Ancestors.shownNames ds' d').map tagCount)) ∧
    ∀ (steps : List Step) (d d' : Doclet), d.masked = d'.masked → HasPlainNames d →
    HasPlainNames d' →
      (tagCount (current (after r steps d)) = tagCount (current (after r' steps d')) ↔
        .params ∉ steps ∨ tagCounts (paramNames d) = tagCounts (paramNames d')) :=
  ⟨fun _ _ v v' hm => Sidebar.tagCount_render_eq_iff hr hm v v',
    fun _ _ _ _ hds hd => Ancestors.map_tagCount_links_eq_iff hr hds hd,
    fun _ _ _ hd h h' => tagCount_after_eq_iff hr hd h h'⟩

open Signature in
/-- Names without tags leave the tags of the markup as they are. -/
theorem plain_names_open_no_tag :
    let r : Registry := ((Registry.new.register "A" "A.html").addTutorial "t" "One").2
    let r' : Registry := ((Registry.new.register "A" "A.html").addTutorial "t" "Two").2
    let m : Members := { classes := [⟨some "A", "a"⟩], tutorials := [.mk "t" "One" []] }
    let m' : Members := { classes := [⟨some "A", "b"⟩], tutorials := [.mk "t" "Two" []] }
    let p : Doclet := { longname := "A", kind := .classDecl, name := some "a" }
    let p' : Doclet := { p with name := some "b" }
    let d : Doclet :=
      { longname := "A.f", kind := .function, memberof := some "A",
        params := [{ name := some "x" }] }
    let d' : Doclet := { d with params := [{ name := some "y" }] }
    r.SameLinks r' ∧ Sidebar.SameSymbols m m' ∧ p.unnamed = p'.unnamed ∧
    d.masked = d'.masked ∧
      HasPlainNames d ∧ HasPlainNames d' ∧
      tagCount (View.render (Sidebar.build false m r) {}) =
        tagCount (View.render (Sidebar.build false m' r') {}) ∧
      (Ancestors.links r [p] d).map tagCount = (Ancestors.links r' [p'] d).map tagCount ∧
      tagCount (current (after r [.params, .returns] d)) =
        tagCount (current (after r' [.params, .returns] d')) := by
  intro r r' m m' p p' d d'
  have hr : r.SameLinks r' := by
    refine ⟨fun _ => rfl, fun name => ?_⟩
    have hone : r.tutorials = [("t", ⟨"tutorial-t.html", "One"⟩)] := by rfl
    have htwo : r'.tutorials = [("t", ⟨"tutorial-t.html", "Two"⟩)] := by rfl
    simp only [Registry.tutorial?, hone, htwo, List.lookup_cons]
    split <;> rfl
  have hm : Sidebar.SameSymbols m m' := by constructor <;> rfl
  have hd : HasPlainNames d := List.forall_mem_singleton.2 (by decide)
  have hd' : HasPlainNames d' := List.forall_mem_singleton.2 (by decide)
  have hshown : Ancestors.shownNames [p] d = ["a"] := by
    rw [Ancestors.shownNames, Ancestors.of_singleton rfl rfl (by decide)]
    rfl
  have hshown' : Ancestors.shownNames [p'] d = ["b"] := by
    rw [Ancestors.shownNames, Ancestors.of_singleton rfl rfl (by decide)]
    rfl
  obtain ⟨hsidebar, hlinks, hsignature⟩ := tagCounts_eq_iff_inserted hr
  refine ⟨hr, hm, rfl, rfl, hd, hd', (hsidebar m m' {} {} hm).2 (by decide),
    (hlinks [p] [p'] d d rfl rfl).2 ?_, (hsignature _ d d' rfl hd hd').2 (.inr rfl)⟩
  rw [hshown, hshown']
  rfl

open Signature in
/-- A name can open a tag in the sidebar, in the link to a parent and in a signature. -/
theorem names_open_tags :
    let r : Registry := Registry.new.register "A" "A.html"
    let m : Members := { classes := [⟨some "A", "b"⟩] }
    let m' : Members := { classes := [⟨some "A", "<b>"⟩] }
    let p : Doclet := { longname := "A", kind := .classDecl, name := some "b" }
    let p' : Doclet := { p with name := some "<b>" }
    let d : Doclet :=
      { longname := "A.f", kind := .function, memberof := some "A",
        params := [{ name := some "b" }] }
    let d' : Doclet := { d with params := [{ name := some "<b>" }] }
    Sidebar.SameSymbols m m' ∧ p.unnamed = p'.unnamed ∧ d.masked = d'.masked ∧
      HasPlainNames d ∧ HasPlainNames d' ∧
      tagCount (View.render (Sidebar.build false m r) {}) ≠
        tagCount (View.render (Sidebar.build false m' r) {}) ∧
      (Ancestors.links r [p] d).map tagCount ≠ (Ancestors.links r [p'] d).map tagCount ∧
      tagCount (current (after r [.params, .returns] d)) ≠
        tagCount (current (after r [.params, .returns] d')) := by
  intro r m m' p p' d d'
  have hr : r.SameLinks r := ⟨fun _ => rfl, fun _ => rfl⟩
  have hm : Sidebar.SameSymbols m m' := by constructor <;> rfl
  have hd : HasPlainNames d := List.forall_mem_singleton.2 (by decide)
  have hd' : HasPlainNames d' := List.forall_mem_singleton.2 (by decide)
  have hshown : Ancestors.shownNames [p] d = ["b"] := by
    rw [Ancestors.shownNames, Ancestors.of_singleton rfl rfl (by decide)]
    rfl
  have hshown' : Ancestors.shownNames [p'] d = ["<b>"] := by
    rw [Ancestors.shownNames, Ancestors.of_singleton rfl rfl (by decide)]
    rfl
  have hp : [p].map Doclet.unnamed = [p'].map Doclet.unnamed := rfl
  have hself : d.unnamed = d.unnamed := rfl
  have hmasked : d.masked = d'.masked := rfl
  refine ⟨hm, rfl, hmasked, hd, hd', fun h => ?_, fun h => ?_, fun h => ?_⟩
  · exact absurd ((Sidebar.tagCount_render_eq_iff hr hm {} {}).1 h) (by decide)
  · have hnames := (Ancestors.map_tagCount_links_eq_iff hr hp hself).1 h
    rw [hshown, hshown'] at hnames
    exact absurd hnames (by decide)
  · have hnames := (tagCount_after_eq_iff hr hmasked hd hd').1 h
    exact absurd hnames (by decide)

end Runs

end DocLinks
