import DocLinks.Navigation.View
import DocLinks.Proofs.SidebarForest

/-!
# Items and markup of one sidebar

A view is given to other programs as nested items, and to readers as markup.  Both are made
by going through the rows from the top: items are nested as the rows are, while the markup of
a row looks up what is above it.

**Algorithm.**  The rows below a row come after it, so that going down comes to an end.

**Results.**
* `Forest.rowMarkup_eq`: the markup of a row is that of its item.
* `Forest.render_eq`: so the markup of all rows is that of the items.
* `Forest.items_eq`: the items of the rows are those of the sections.
* `View.render_eq`: the markup of the sections is that of their items.
* `renderings_agree`: the two renderings of a sidebar agree.
-/

namespace DocLinks

namespace NavItem

/-- The markup of what an item shows: an anchor if it leads somewhere, and an anchor to
nowhere if it is a heading. -/
def contentMarkup (html : String) (href : Option String) (isHeading : Bool) : String :=
  match href with
  | some href => Html.anchor href html
  | none => if isHeading then "<a>" ++ html ++ "</a>" else html

mutual

/-- The markup of an item of the given class; what is below it is a list of its own. -/
def markup (className : String) : NavItem → String
  | mk html href isHeading isOn children =>
      View.openRow className isOn ++ contentMarkup html href isHeading ++
        (if children.isEmpty then ""
          else "<ul class=\"nav__sub-items\">" ++
            markupAll "nav__sub-item" children ++ "</ul>") ++
        "</li>"

/-- The markup of items of the given class, one after the other. -/
def markupAll (className : String) : List NavItem → String
  | [] => ""
  | item :: items => markup className item ++ markupAll className items

end

theorem markupAll_eq (className : String) (items : List NavItem) :
    markupAll className items = String.join (items.map (markup className)) := by
  induction items with
  | nil => rw [markupAll, List.map_nil, String.join_nil]
  | cons item items ih => rw [markupAll, ih, List.map_cons, String.join_cons]

/-- The item of a row that shows the given label. -/
def ofLabel (label : Option Label) (isOn : Bool) (children : List NavItem) : NavItem :=
  match label with
  | some (.link href html) => mk html (some href) false isOn children
  | some (.markup html) => mk html none false isOn children
  | some (.heading title) => mk (Html.text title) none true isOn children
  | none => mk "" none false isOn children

/-- The markup of the label of a row. -/
def labelMarkup (label : Option Label) : String :=
  (label.map View.labelHtml).getD ""

theorem markup_ofLabel (className : String) (label : Option Label) (isOn : Bool)
    (children : List NavItem) :
    (ofLabel label isOn children).markup className =
      View.openRow className isOn ++ labelMarkup label ++
        (if children.isEmpty then ""
          else "<ul class=\"nav__sub-items\">" ++
            markupAll "nav__sub-item" children ++ "</ul>") ++
        "</li>" := by
  cases label with
  | none =>
      rw [ofLabel, markup]
      rfl
  | some label =>
      cases label with
      | link href html =>
          rw [ofLabel, markup]
          rfl
      | markup html =>
          rw [ofLabel, markup]
          rfl
      | heading title =>
          rw [ofLabel, markup]
          rfl

end NavItem

namespace Arena

section Rows

variable {a : Arena} {i p : Nat}

/-- The item of a row, with the items of the rows below it. -/
def Forest.item (h : Forest a) (v : View) (i : Nat) : NavItem :=
  .ofLabel (a.label? i) (v.isOn i) ((a.childrenOf i).attach.map fun j => h.item v j.1)
termination_by a.size - i
decreasing_by
  have hlt := h.child_lt j.2
  omega

/-- The items of the rows of the top level. -/
def Forest.items (h : Forest a) (v : View) : List NavItem :=
  a.roots.map (h.item v)

/-- The class of a row, which depends on whether there is one above it. -/
def rowClass (a : Arena) (i : Nat) : String :=
  if (a.parent? i).isSome then "nav__sub-item" else "nav__item"

/-- The markup of a row and of the rows below it. -/
def Forest.rowMarkup (h : Forest a) (v : View) (i : Nat) : String :=
  View.openRow (a.rowClass i) (v.isOn i) ++ NavItem.labelMarkup (a.label? i) ++
    (if (a.childrenOf i).isEmpty then ""
      else "<ul class=\"nav__sub-items\">" ++
        String.join ((a.childrenOf i).attach.map fun j => h.rowMarkup v j.1) ++ "</ul>") ++
    "</li>"
termination_by a.size - i
decreasing_by
  have hlt := h.child_lt j.2
  omega

/-- The markup of all rows. -/
def Forest.render (h : Forest a) (v : View) : String :=
  "<ol>" ++ String.join (a.roots.map (h.rowMarkup v)) ++ "\n" ++ "</ol>"

theorem Forest.item_eq (h : Forest a) (v : View) (i : Nat) :
    h.item v i = .ofLabel (a.label? i) (v.isOn i) ((a.childrenOf i).map (h.item v)) := by
  rw [Forest.item, List.attach_map_val]

/-- The markup of a row is that of its item, in the class that the row above it calls for. -/
theorem Forest.rowMarkup_eq (h : Forest a) (v : View) (i : Nat) :
    h.rowMarkup v i = (h.item v i).markup (a.rowClass i) := by
  fun_induction Forest.rowMarkup h v i with
  | case1 i ih =>
      have hchildren : ∀ j ∈ a.childrenOf i,
          h.rowMarkup v j = (h.item v j).markup "nav__sub-item" := by
        intro j hj
        have hclass : a.rowClass j = "nav__sub-item" := by
          rw [rowClass, h.parent?_iff.2 hj]
          rfl
        rw [ih ⟨j, hj⟩, hclass]
      rw [h.item_eq, NavItem.markup_ofLabel, NavItem.markupAll_eq]
      rw [List.map_map, List.isEmpty_map]
      rw [List.attach_map_val, List.map_congr_left hchildren]
      rfl

/-- The markup of all rows is that of the items. -/
theorem Forest.render_eq (h : Forest a) (v : View) :
    h.render v = "<ol>" ++ String.join ((h.items v).map (NavItem.markup "nav__item")) ++
    "\n" ++ "</ol>" := by
  have hroots : ∀ i ∈ a.roots, h.rowMarkup v i = (h.item v i).markup "nav__item" := by
    intro i hi
    have hclass : a.rowClass i = "nav__item" := by
      rw [rowClass, (h.mem_roots_iff.1 hi).2]
      rfl
    rw [h.rowMarkup_eq, hclass]
  rw [render, items]
  rw [List.map_map, List.map_congr_left hroots]
  rfl

end Rows

section Positions

variable {a : Arena} {i p : Nat}

/-- The order of the rows leaves no room below a row that is below another one. -/
theorem Forest.childrenOf_child (h : Forest a) (hi : i ∈ a.childrenOf p) :
    a.childrenOf i = [] := by
  refine List.eq_nil_iff_forall_not_mem.2 fun j hj => ?_
  have hparent := h.parent?_iff.2 hj
  have hmem : j ∈ a.roots.flatMap fun r => r :: a.childrenOf r := by
    rw [h.preorder, List.mem_range]
    exact (h.child_lt hj).2
  obtain ⟨r, hr, hjr⟩ := List.mem_flatMap.1 hmem
  have hroot := (h.mem_roots_iff.1 hr).2
  rcases List.mem_cons.1 hjr with rfl | hjr
  · rw [hroot] at hparent
    simp at hparent
  · obtain rfl : r = i := Option.some.inj ((h.parent?_iff.2 hjr).symm.trans hparent)
    rw [h.parent?_iff.2 hi] at hroot
    simp at hroot

theorem Forest.item_of_leaf (h : Forest a) (v : View) {label : Label}
    (hlabel : a.label? i = some label)
    (hchildren : a.childrenOf i = []) : h.item v i = v.leafItem i label := by
  rw [h.item_eq, hlabel, hchildren]
  cases label <;> rfl

/-- Rows without rows below them that follow one another have the items of their labels. -/
theorem Forest.map_item_leaves (h : Forest a) (v : View) {rows : List Nat} {start n : Nat}
    {labels : List Label} (hlabels : rows.map a.label? = labels.map some)
    (hrows : rows = List.range' start n) (hleaves : ∀ i ∈ rows, a.childrenOf i = []) :
    rows.map (h.item v) = v.leafItems start labels := by
  induction labels generalizing rows start n with
  | nil => rw [List.map_eq_nil_iff.1 hlabels, List.map_nil, View.leafItems]
  | cons label labels ih =>
      obtain ⟨i, rest, rfl, hlabel, hrest⟩ := List.map_eq_cons_iff.1 hlabels
      obtain ⟨rfl, -, hnext⟩ := List.range'_eq_cons_iff.1 hrows.symm
      rw [List.map_cons, View.leafItems,
        h.item_of_leaf v hlabel (hleaves _ List.mem_cons_self),
        ih hrest hnext fun j hj => hleaves j (List.mem_cons_of_mem _ hj)]

/-- Headings that follow one another, with their entries in between, have the items of their
sections. -/
theorem Forest.map_item_sections (h : Forest a) (v : View)
    {headings : List Nat} {start n : Nat}
    {sections : List Section} (houtline : headings.map a.branch =
      sections.map sectionOutline)
    (hrows : headings.flatMap (fun i => i :: a.childrenOf i) = List.range' start n) :
    headings.map (h.item v) = v.sectionItems start sections := by
  induction sections generalizing headings start n with
  | nil => rw [List.map_eq_nil_iff.1 houtline, List.map_nil, View.sectionItems]
  | cons s sections ih =>
      obtain ⟨i, rest, rfl, hbranch, hrest⟩ := List.map_eq_cons_iff.1 houtline
      obtain ⟨hlabel, hentries⟩ := Prod.mk.inj hbranch
      rw [List.flatMap_cons, List.cons_append] at hrows
      obtain ⟨rfl, -, hnext⟩ := List.range'_eq_cons_iff.1 hrows.symm
      obtain ⟨k, -, hchildren, hlater⟩ := List.range'_eq_append_iff.1 hnext.symm
      have hk : k = s.entries.length := by
        have hlength := congrArg List.length hentries
        rw [List.length_map, List.length_map] at hlength
        rw [hchildren, List.length_range'] at hlength
        exact hlength
      rw [Nat.mul_one, hk] at hlater
      rw [List.map_cons, View.sectionItems, ih hrest hlater, h.item_eq, hlabel,
        h.map_item_leaves v hentries hchildren fun j hj => h.childrenOf_child hj]
      rfl

/-- The items of the rows are those of the sections. -/
theorem Forest.items_eq {sections : List Section}
    (h : Forest (ofSections sections)) (v : View) :
    h.items v = v.leafItem 0 Sidebar.home ::
      v.sectionItems 1 (sections.filter fun s => !s.entries.isEmpty) := by
  have houtline := outline_ofSections sections
  have hrows := h.preorder
  rw [outline] at houtline
  obtain ⟨i, rest, hroots, hbranch, hrest⟩ := List.map_eq_cons_iff.1 houtline
  obtain ⟨hlabel, hchildren⟩ := Prod.mk.inj hbranch
  have hleaf : (ofSections sections).childrenOf i = [] := List.map_eq_nil_iff.1 hchildren
  rw [hroots, List.flatMap_cons] at hrows
  rw [hleaf, List.range_eq_range'] at hrows
  obtain ⟨rfl, -, hlater⟩ := List.range'_eq_cons_iff.1 hrows.symm
  rw [items, hroots, List.map_cons]
  rw [h.item_of_leaf v hlabel hleaf, h.map_item_sections v hrest hlater]

end Positions

end Arena

namespace View

variable (v : View)

theorem leafItem_eq (i : Nat) (label : Label) :
    v.leafItem i label = .ofLabel (some label) (v.isOn i) [] := by
  cases label <;> rfl

theorem isEmpty_leafItems (start : Nat) (labels : List Label) :
    (v.leafItems start labels).isEmpty = labels.isEmpty := by
  cases labels <;> rfl

theorem markup_leafItem (className : String) (i : Nat) (label : Label) :
    (v.leafItem i label).markup className =
      openRow className (v.isOn i) ++ labelHtml label ++ "</li>" := by
  rw [leafItem_eq, NavItem.markup_ofLabel, List.isEmpty_nil]
  rw [if_pos rfl, String.append_empty]
  rfl

theorem markupAll_leafItems (start : Nat) (labels : List Label) :
    NavItem.markupAll "nav__sub-item" (v.leafItems start labels) =
      v.renderEntries start labels := by
  induction labels generalizing start with
  | nil => rfl
  | cons label labels ih =>
      rw [leafItems, NavItem.markupAll, markup_leafItem, ih, renderEntries]

theorem markupAll_sectionItems (start : Nat) (sections : List Section) :
    NavItem.markupAll "nav__item" (v.sectionItems start sections) =
      v.renderSections start sections := by
  induction sections generalizing start with
  | nil => rfl
  | cons s sections ih =>
      rw [sectionItems, NavItem.markupAll, NavItem.markup]
      rw [isEmpty_leafItems, markupAll_leafItems]
      rw [ih, renderSections]
      rfl

/-- The markup of the sidebar is that of its items. -/
theorem render_eq (t : Sidebar) : v.render t =
    "<ol>" ++ String.join ((v.items t).map (NavItem.markup "nav__item")) ++
    "\n" ++ "</ol>" := by
  rw [← NavItem.markupAll_eq, items, NavItem.markupAll]
  rw [markup_leafItem, markupAll_sectionItems, render]
  simp only [String.append_assoc]
  rfl

/-- The two renderings of the sidebar agree, whatever is highlighted: the markup is that of
the items, each written from its own fields.  They are what one comes to by going through the
rows: the items by way of the rows below a row, and the markup by way of the row above it as
well. -/
theorem renderings_agree (showsLongnames : Bool) (m : Members) (r : Registry) (v : View) :
    let t := Sidebar.build showsLongnames m r
    let h : Arena.Forest (Arena.build showsLongnames m r) := Arena.forest_ofSections _
    v.render t =
      "<ol>" ++ String.join ((v.items t).map (NavItem.markup "nav__item")) ++ "\n" ++
      "</ol>" ∧
    h.items v = v.items t ∧ h.render v = v.render t := by
  intro t h
  have hitems : h.items v = v.items t := h.items_eq v
  refine ⟨v.render_eq t, hitems, ?_⟩
  rw [h.render_eq, hitems, v.render_eq]

end View
end DocLinks
