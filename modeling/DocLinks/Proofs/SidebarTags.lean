import DocLinks.Proofs.SidebarListing
import DocLinks.Proofs.TagCounts

/-!
# What names add to the markup of the sidebar

The markup of the sidebar opens tags of its own, and those of the texts that are inserted as
they are: the names of symbols and the titles of tutorials.

**Own tags.**  They depend on which long names and tutorials are listed and where these lead,
but neither on names and titles nor on what a view highlights.

**Results.**
* `tagCount_render`: the tags of a sidebar, section by section.
* `tagCount_label`, `tagCount_tutorialLabel`: what a name and a title add to their entry.
* `tagCount_render_build`: what all names and titles add to the sidebar.
* `tagCount_render_eq_iff`: for the same symbols, the markup of two sidebars opens equally
  many tags if and only if what is inserted does.
-/

namespace DocLinks

open Html (tagCount tagCounts)

section Sums

variable {α : Type} (l : List α)

/-- The tags of the markup of a section, given those of its entries.  A section without
entries is left out; otherwise there are its row, its heading and the list of its entries,
each opened and closed. -/
def sectionTags (counts : List Nat) : Nat :=
  if counts.isEmpty then 0 else 6 + (counts.map (2 + ·)).sum

theorem sectionTags_map_add (f g : α → Nat) :
    sectionTags (l.map fun a => f a + g a) = sectionTags (l.map f) + (l.map g).sum := by
  cases l with
  | nil => rfl
  | cons a l =>
      have hrest : ∀ l : List α, ((l.map fun a => f a + g a).map (2 + ·)).sum =
          ((l.map f).map (2 + ·)).sum + (l.map g).sum := by
        intro l
        induction l with
        | nil => rfl
        | cons a l ih =>
            simp only [List.map_cons, List.sum_cons, ih]
            omega
      have hsome : ∀ h : α → Nat, sectionTags ((a :: l).map h) =
          6 + (((a :: l).map h).map (2 + ·)).sum :=
        fun _ => rfl
      rw [hsome, hsome]
      rw [hrest (a :: l), Nat.add_assoc]

theorem tagCounts_map_filter (p : α → Bool) (f : α → String) :
    tagCounts ((l.filter p).map f) =
      (l.map fun a => if p a then tagCount (f a) else 0).sum := by
  induction l with
  | nil => rfl
  | cons a l ih =>
      rw [List.filter_cons, List.map_cons]
      rw [List.sum_cons, ← ih]
      split
      · rw [List.map_cons, Html.tagCounts_cons]
      · rw [Nat.zero_add]

theorem tagCounts_flatMap (f : α → List String) :
    tagCounts (l.flatMap f) = (l.map fun a => tagCounts (f a)).sum := by
  induction l with
  | nil => rfl
  | cons a l ih =>
      rw [List.flatMap_cons, Html.tagCounts_append, ih, List.map_cons, List.sum_cons]

end Sums

namespace Registry

/-- Names and tutorials lead to the same places; the titles of tutorials may differ. -/
structure SameLinks (r r' : Registry) : Prop where
  names : ∀ name, r.resolve? name = r'.resolve? name
  tutorials : ∀ name, (r.tutorial? name).isSome = (r'.tutorial? name).isSome

theorem SameLinks.ofTarget_eq {r r' : Registry} (h : r.SameLinks r') (name : String)
    (text? : Option String) :
    Reference.ofTarget r name text? = Reference.ofTarget r' name text? := by
  simp only [Reference.ofTarget, h.names]

end Registry

namespace View

section Markup

variable (v : View) (start : Nat)

theorem tagCount_openRow {className : String} (h : tagCount className = 0) (isOn : Bool) :
    tagCount (openRow className isOn) = 1 := by
  have hopen : tagCount "<li class=\"" = 1 := rfl
  have hinner : tagCount "\">" = 0 := rfl
  have hon : tagCount (if isOn then " is-on" else "") = 0 := by cases isOn <;> rfl
  rw [openRow, Html.tagCount_append, Html.tagCount_append]
  rw [Html.tagCount_append, hopen, hinner]
  rw [hon, h]

theorem labelHtml_ofReference (ref : Reference) :
    labelHtml (.ofReference ref) = ref.html := by
  cases ref <;> rfl

theorem tagCount_renderEntries (ls : List Label) :
    tagCount (renderEntries v start ls) =
      ((ls.map fun l => tagCount (labelHtml l)).map (2 + ·)).sum := by
  induction ls generalizing start with
  | nil => rfl
  | cons l ls ih =>
      have hclose : tagCount "</li>" = 1 := rfl
      rw [renderEntries, Html.tagCount_append, Html.tagCount_append]
      rw [Html.tagCount_append, tagCount_openRow rfl, hclose]
      rw [ih, List.map_cons]
      rw [List.map_cons, List.sum_cons]
      omega

/-- Sections without entries add nothing. -/
theorem tagCount_renderSections (ss : List Section) :
    tagCount (renderSections v start (ss.filter fun s => !s.entries.isEmpty)) =
      (ss.map fun s => sectionTags (s.entries.map fun l => tagCount (labelHtml l))).sum := by
  induction ss generalizing start with
  | nil => rfl
  | cons s ss ih =>
      rw [List.filter_cons, List.map_cons, List.sum_cons]
      by_cases hempty : s.entries.isEmpty = true
      · rw [hempty, if_neg (by decide)]
        rw [ih, List.isEmpty_iff.1 hempty]
        exact (Nat.zero_add _).symm
      · have hentries : (s.entries.map fun l => tagCount (labelHtml l)).isEmpty = false := by
          rw [List.isEmpty_map]
          exact Bool.eq_false_iff.2 hempty
        have hheading : tagCount (labelHtml (.heading s.title)) = 2 := by
          rw [labelHtml, Html.tagCount_append]
          rw [Html.tagCount_append, Html.tagCount_text]
          rfl
        have hrow : ∀ isOn, tagCount (openRow "nav__item" isOn) = 1 := tagCount_openRow rfl
        have hlist : tagCount "<ul class=\"nav__sub-items\">" = 1 := rfl
        have hend : tagCount "</ul>" = 1 := rfl
        have hclose : tagCount "</li>" = 1 := rfl
        rw [if_pos (by simpa using hempty), renderSections, if_neg hempty]
        rw [sectionTags, hentries]
        simp only [Html.tagCount_append, hrow, hheading, hlist, hend, hclose,
          tagCount_renderEntries, ih, Bool.false_eq_true, if_false]
        omega

/-- The tags of the sidebar are those of its sections and of the link to the home page. -/
theorem tagCount_render (ss : List Section) :
    tagCount (render ⟨ss.filter fun s => !s.entries.isEmpty⟩ v) =
      6 + (ss.map fun s => sectionTags
        (s.entries.map fun l => tagCount (labelHtml l))).sum := by
  have hopen : tagCount "<ol>" = 1 := rfl
  have hrow : ∀ isOn, tagCount (openRow "nav__item" isOn) = 1 := tagCount_openRow rfl
  have hclose : tagCount "</li>" = 1 := rfl
  have hend : tagCount "\n</ol>" = 1 := rfl
  have hhome : tagCount (labelHtml Sidebar.home) = 2 :=
    Html.tagCount_anchor Registry.indexUrl "Home"
  rw [render]
  simp only [Html.tagCount_append, hrow, tagCount_renderSections, hopen, hclose, hend, hhome]
  omega

end Markup

end View

namespace Listed

section Entries

variable (r : Registry)

/-- The tags of the entry of a symbol around what is shown. -/
def ownTags : Option String → Nat
  | some longname => tagCount (Reference.ofTarget r longname (some "")).html
  | none => 0

/-- Whether the entry of a symbol shows its name. -/
def showsName (m : Member) : Bool :=
  m.longname.all Reference.showsText

/-- The name of a symbol is inserted as it is into its entry. -/
theorem tagCount_label (stripsQuotes : Bool) (m : Member) :
    tagCount (View.labelHtml ((ofMember false stripsQuotes m).label r)) =
      ownTags r m.longname + if showsName m then tagCount m.name else 0 := by
  cases hname : m.longname with
  | none =>
      have hlabel : (ofMember false stripsQuotes m).label r = .markup m.name := by
        simp [label, reference?, ofMember, hname]
      rw [hlabel, showsName, hname]
      rw [Option.all_none, if_pos rfl]
      rw [ownTags, Nat.zero_add]
      rfl
  | some longname =>
      have hlabel : (ofMember false stripsQuotes m).label r =
          .ofReference (.ofTarget r longname
            (some (displayOf false stripsQuotes longname m))) := by
        simp [label, reference?, ofMember, hname]
      rw [hlabel, View.labelHtml_ofReference, Reference.tagCount_html_ofTarget]
      rw [tagCount_displayOf, showsName]
      rw [hname, Option.all_some]
      rfl

end Entries

end Listed

namespace Sidebar

section Tutorials

variable (r : Registry)

/-- The tags of the entry of a tutorial, besides those of its title.  A tutorial without a
page is shown with its name. -/
def tutorialTags (name : String) : Nat :=
  2 + if (r.tutorial? name).isSome then 0 else tagCount name

/-- The title of a tutorial is inserted as it is into its entry. -/
theorem tagCount_tutorialLabel (t : Tutorial) :
    tagCount (View.labelHtml (tutorialLabel r t)) =
    tutorialTags r t.name + tagCounts ((r.tutorial? t.name).map (·.title)).toList := by
  rw [tutorialLabel, tutorialTags]
  cases hpage : r.tutorial? t.name with
  | some page => exact Html.tagCount_anchor page.url page.title
  | none =>
      have hopen : tagCount "<em class=\"disabled\">Tutorial: " = 1 := rfl
      have hclose : tagCount "</em>" = 1 := rfl
      simp only [View.labelHtml, Html.tagCount_append, hopen, hclose, Option.isSome_none,
        Bool.false_eq_true, if_false, Option.map_none, Option.toList_none,
        Html.tagCounts_nil]
      omega

end Tutorials

section Names

variable (r : Registry) (m : Members)

/-- The tutorials that are listed. -/
def tutorialsOf : List Tutorial :=
  unrepeated (fun t => some t.name) [] m.tutorials

/-- The names of symbols that are inserted as they are, in the order of the sidebar. -/
def shownNames : List String :=
  (((plan m).flatMap (·.2)).filter Listed.showsName).map (·.name)

/-- The titles of tutorials that are inserted as they are. -/
def shownTitles : List String :=
  (tutorialsOf m).flatMap fun t => ((r.tutorial? t.name).map (·.title)).toList

/-- The tags of the markup of a sidebar besides those of names and titles. -/
def ownTags : Nat :=
  6 + ((plan m).map fun (_, ms) => sectionTags
    (ms.map fun x => Listed.ownTags r x.longname)).sum +
    sectionTags ((tutorialsOf m).map fun t => tutorialTags r t.name)

/-- The names of symbols add their tags to the sections that show them. -/
theorem sum_sectionTags_plan : ((plan m).map fun p => sectionTags
      (((p.2.map (Listed.ofMember false (isOwn p.1))).map (Listed.label r)).map
        fun l => tagCount (View.labelHtml l))).sum =
    ((plan m).map fun p => sectionTags (p.2.map fun x => Listed.ownTags r x.longname)).sum +
      tagCounts (shownNames m) := by
  have hsection : ∀ p : String × List Member, sectionTags
      (((p.2.map (Listed.ofMember false (isOwn p.1))).map (Listed.label r)).map
        fun l => tagCount (View.labelHtml l)) =
      sectionTags (p.2.map fun x => Listed.ownTags r x.longname) +
        tagCounts ((p.2.filter Listed.showsName).map (·.name)) := by
    intro p
    rw [List.map_map, List.map_map]
    rw [tagCounts_map_filter, ← sectionTags_map_add]
    exact congrArg sectionTags (List.map_congr_left fun x _ => Listed.tagCount_label r _ x)
  rw [shownNames, List.filter_flatMap, List.map_flatMap]
  rw [tagCounts_flatMap, ← List.sum_map_add]
  exact congrArg List.sum (List.map_congr_left fun p _ => hsection p)

/-- The titles of tutorials add their tags to the section that shows them. -/
theorem sectionTags_tutorials :
    sectionTags (((tutorialsOf m).map (tutorialLabel r)).map
      fun l => tagCount (View.labelHtml l)) =
      sectionTags ((tutorialsOf m).map fun t => tutorialTags r t.name) +
        tagCounts (shownTitles r m) := by
  rw [List.map_map, shownTitles]
  rw [tagCounts_flatMap, ← sectionTags_map_add]
  exact congrArg sectionTags (List.map_congr_left fun t _ => tagCount_tutorialLabel r t)

/-- The names and titles that are shown add their tags to the sidebar. -/
theorem tagCount_render_build (v : View) : tagCount (View.render (build false m r) v) =
    ownTags r m + tagCounts (shownNames m ++ shownTitles r m) := by
  have hstart : Noted (fun t : Tutorial => some t.name) [] [] := fun _ => rfl
  have hsections : allSections false m r =
      (plan m).map (fun p =>
        ⟨p.1, (p.2.map (Listed.ofMember false (isOwn p.1))).map (Listed.label r)⟩) ++
        [⟨"Tutorials", (tutorialsOf m).map (tutorialLabel r)⟩] := by
    rw [allSections, listed_eq]
    rw [listedTutorials_eq hstart, List.map_map]
    rfl
  rw [build, View.tagCount_render, hsections]
  rw [List.map_append, List.sum_append, List.map_map]
  simp only [Function.comp_def, sum_sectionTags_plan, List.map_cons, List.map_nil,
    List.sum_cons, List.sum_nil, sectionTags_tutorials, ownTags, Html.tagCounts_append]
  omega

end Names

section Runs

/-- Symbols of the same long names, and tutorials of the same names. -/
structure SameSymbols (m m' : Members) : Prop where
  modules : m.modules.map (·.longname) = m'.modules.map (·.longname)
  externals : m.externals.map (·.longname) = m'.externals.map (·.longname)
  namespaces : m.namespaces.map (·.longname) = m'.namespaces.map (·.longname)
  classes : m.classes.map (·.longname) = m'.classes.map (·.longname)
  interfaces : m.interfaces.map (·.longname) = m'.interfaces.map (·.longname)
  events : m.events.map (·.longname) = m'.events.map (·.longname)
  mixins : m.mixins.map (·.longname) = m'.mixins.map (·.longname)
  tutorials : m.tutorials.map (·.name) = m'.tutorials.map (·.name)

variable {m m' : Members} {r r' : Registry}

/-- What is left without repetitions depends on the names only by which they are told. -/
theorem map_unrepeated {α : Type} (name? : α → Option String) (before l : List α) :
    (unrepeated name? before l).map name? = unrepeated id (before.map name?)
      (l.map name?) := by
  induction l generalizing before with
  | nil => rfl
  | cons a l ih =>
      have hnew : isNew id (before.map name?) (name? a) = isNew name? before a := by
        rw [isNew, isNew, List.filterMap_map]
        rfl
      rw [unrepeated_cons, List.map_append, ih]
      rw [List.map_cons, unrepeated_cons]
      rw [hnew, List.map_append]
      split <;> rfl

/-- The same symbols are listed, whatever their names are. -/
theorem SameSymbols.plan (h : SameSymbols m m') :
    (Sidebar.plan m).map (fun p => p.2.map (·.longname)) =
      (Sidebar.plan m').map fun p => p.2.map (·.longname) := by
  simp only [Sidebar.plan, List.map_cons, List.map_nil, map_unrepeated, List.map_append,
    h.modules, h.externals, h.namespaces, h.classes, h.interfaces, h.events, h.mixins]

/-- The same tutorials are listed, whatever their titles are. -/
theorem SameSymbols.tutorialsOf (h : SameSymbols m m') :
    (Sidebar.tutorialsOf m).map (·.name) = (Sidebar.tutorialsOf m').map (·.name) := by
  have hnames : ∀ m : Members, (Sidebar.tutorialsOf m).map (·.name) =
      (m.tutorials.map (·.name)).eraseDups := by
    intro m
    have heq := filterMap_unrepeated (fun t : Tutorial => some t.name) [] m.tutorials
    rw [List.filterMap_nil, List.removeAll_nil] at heq
    rwa [filterMap_some_name, filterMap_some_name] at heq
  rw [hnames, hnames, h.tutorials]

/-- Neither names nor titles change what else the sidebar shows. -/
theorem ownTags_eq (hr : r.SameLinks r') (h : SameSymbols m m') :
    ownTags r m = ownTags r' m' := by
  have hentries : Listed.ownTags r = Listed.ownTags r' := by
    funext longname
    cases longname with
    | none => rfl
    | some longname => rw [Listed.ownTags, Listed.ownTags, hr.ofTarget_eq]
  have htutorials : tutorialTags r = tutorialTags r' := by
    funext name
    rw [tutorialTags, tutorialTags, hr.tutorials]
  have hplan : ∀ m : Members, (Sidebar.plan m).map (fun p =>
        sectionTags (p.2.map fun x => Listed.ownTags r x.longname)) =
      ((Sidebar.plan m).map fun p => p.2.map (·.longname)).map fun names =>
        sectionTags (names.map (Listed.ownTags r)) := by
    intro m
    simp only [List.map_map, Function.comp_def]
  have hlisted : ∀ m : Members,
      (Sidebar.tutorialsOf m).map (fun t => tutorialTags r t.name) =
      ((Sidebar.tutorialsOf m).map (·.name)).map (tutorialTags r) := fun m => by
    rw [List.map_map]
    rfl
  rw [ownTags, ownTags, ← hentries]
  rw [← htutorials, hplan, hplan]
  rw [hlisted, hlisted]
  rw [h.plan, h.tutorialsOf]

/-- The markup of two sidebars with the same symbols opens equally many tags if and only if
what is inserted does, whatever is highlighted. -/
theorem tagCount_render_eq_iff (hr : r.SameLinks r') (h : SameSymbols m m') (v v' : View) :
    tagCount (View.render (build false m r) v) =
      tagCount (View.render (build false m' r') v') ↔
      tagCounts (shownNames m ++ shownTitles r m) =
        tagCounts (shownNames m' ++ shownTitles r' m') := by
  rw [tagCount_render_build, tagCount_render_build]
  rw [ownTags_eq hr h, Nat.add_left_cancel_iff]

end Runs

end Sidebar
end DocLinks
