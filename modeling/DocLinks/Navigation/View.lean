import DocLinks.Navigation.Item
import DocLinks.Navigation.Sidebar

/-!
# The sidebar as seen from a page

A view highlights the rows that lead to a page, and the headings above them.  Views know
nothing of each other.

**Renderings.**  A view is shown as nested items, for other programs, and as markup.

**Results.**  `mem_insert_iff`: highlighting a row highlights no other one.
-/

namespace DocLinks

/-- The rows that are highlighted, by their positions in ascending order. -/
structure View where
  current : List Nat := []
  deriving DecidableEq, Repr, Inhabited

namespace View

/-- Puts a position among others in ascending order. -/
def insert (i : Nat) : List Nat → List Nat
  | [] => [i]
  | j :: js => if i < j then i :: j :: js else if i = j then j :: js else j :: insert i js

theorem mem_insert_iff {i j : Nat} {js : List Nat} : j ∈ insert i js ↔ j = i ∨ j ∈ js := by
  induction js with
  | nil => simp [insert]
  | cons k ks ih =>
      simp only [insert]
      split
      · simp
      · split
        · rename_i h
          subst h
          simp
        · simp only [List.mem_cons, ih]
          constructor
          · rintro (h | h | h)
            · exact Or.inr (Or.inl h)
            · exact Or.inl h
            · exact Or.inr (Or.inr h)
          · rintro (h | h | h)
            · exact Or.inr (Or.inl h)
            · exact Or.inl h
            · exact Or.inr (Or.inr h)

/-- A position and that of the heading above it. -/
def lineage (t : Sidebar) (i : Nat) : List Nat :=
  i :: (t.parent? i).toList

/-- Highlights all rows that lead to a page, and the headings above them. -/
def mark (t : Sidebar) (page : String) (v : View) : View :=
  ⟨((t.positionsOf page).flatMap (lineage t)).foldl (fun js i => insert i js) v.current⟩

/-- Whether some row leads to a page. -/
def canMark (t : Sidebar) (page : String) : Bool :=
  !(t.positionsOf page).isEmpty

/-- A view without highlights. -/
def clear : View := {}

/-- The view from a page. -/
def of (t : Sidebar) (page : String) : View :=
  clear.mark t page

/-- Whether a row is highlighted. -/
def isOn (v : View) (i : Nat) : Bool :=
  v.current.contains i

/-- The item of a row without rows below it. -/
def leafItem (v : View) (i : Nat) : Label → NavItem
  | .link href html => .mk html (some href) false (v.isOn i) []
  | .markup html => .mk html none false (v.isOn i) []
  | .heading title => .mk (Html.text title) none true (v.isOn i) []

/-- The items of entries, the first of which is at the given position. -/
def leafItems (v : View) (start : Nat) : List Label → List NavItem
  | [] => []
  | l :: ls => leafItem v start l :: leafItems v (start + 1) ls

/-- The items of sections, the first of which is at the given position. -/
def sectionItems (v : View) (start : Nat) : List Section → List NavItem
  | [] => []
  | s :: rest =>
      .mk (Html.text s.title) none true (v.isOn start) (leafItems v (start + 1) s.entries) ::
        sectionItems v (start + 1 + s.entries.length) rest

/-- The items of the sidebar. -/
def items (t : Sidebar) (v : View) : List NavItem :=
  leafItem v 0 Sidebar.home :: sectionItems v 1 t.sections

/-- The start of the markup of a row. -/
def openRow (className : String) (isOn : Bool) : String :=
  "<li class=\"" ++ className ++ (if isOn then " is-on" else "") ++ "\">"

/-- The markup of what a row shows. -/
def labelHtml : Label → String
  | .link href html => Html.anchor href html
  | .markup html => html
  | .heading title => "<a>" ++ Html.text title ++ "</a>"

/-- The markup of entries, the first of which is at the given position. -/
def renderEntries (v : View) (start : Nat) : List Label → String
  | [] => ""
  | l :: ls =>
      openRow "nav__sub-item" (v.isOn start) ++ labelHtml l ++ "</li>" ++
        renderEntries v (start + 1) ls

/-- The markup of sections, the first of which is at the given position. -/
def renderSections (v : View) (start : Nat) : List Section → String
  | [] => ""
  | s :: rest =>
      openRow "nav__item" (v.isOn start) ++ labelHtml (.heading s.title) ++
        (if s.entries.isEmpty then ""
          else "<ul class=\"nav__sub-items\">" ++
            renderEntries v (start + 1) s.entries ++ "</ul>") ++
        "</li>" ++ renderSections v (start + 1 + s.entries.length) rest

/-- The markup of the sidebar. -/
def render (t : Sidebar) (v : View) : String :=
  "<ol>" ++ openRow "nav__item" (v.isOn 0) ++ labelHtml Sidebar.home ++ "</li>" ++
    renderSections v 1 t.sections ++ "\n</ol>"

end View

end DocLinks
