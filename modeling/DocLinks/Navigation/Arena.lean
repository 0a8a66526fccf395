import DocLinks.Navigation.Sidebar

/-!
# The rows of the sidebar in an arena

The rows are stored one behind the other, and every row is added with the position of the row
above it. What is below a row, and what is above it, is stored in both directions.

**Algorithm.**  A section is added with its heading, and then its entries one by one; a
section without entries is left out.

**Results.**  `label?_addRow`, `parent?_addRow`, `childrenOf_addRow` and `roots_addRow`: what
a new row changes.
-/

namespace DocLinks

/-- The rows of a sidebar, in lists that go together: what they show, the positions of the
rows above and below them, and the positions of the rows of the top level. -/
structure Arena where
  labels : List Label := []
  parents : List (Option Nat) := []
  children : List (List Nat) := []
  roots : List Nat := []
  parents_length : parents.length = labels.length := by rfl
  children_length : children.length = labels.length := by rfl

namespace Arena

/-- How many rows there are. -/
def size (a : Arena) : Nat :=
  a.labels.length

/-- What is shown at a position. -/
def label? (a : Arena) (i : Nat) : Option Label :=
  a.labels[i]?

/-- The position of the row above a row. -/
def parent? (a : Arena) (i : Nat) : Option Nat :=
  a.parents[i]?.join

/-- The positions of the rows below a row. -/
def childrenOf (a : Arena) (i : Nat) : List Nat :=
  a.children[i]?.getD []

/-- Notes a row below the row that is above it, if there is one. -/
def noteChild (children : List (List Nat)) (i : Nat) : Option Nat → List (List Nat)
  | some p => children.modify p (· ++ [i])
  | none => children

theorem length_noteChild (children : List (List Nat)) (i : Nat) (parent : Option Nat) :
    (noteChild children i parent).length = children.length := by
  cases parent with
  | none => rfl
  | some p => exact List.length_modify ..

/-- Adds a row behind all others. -/
def addRow (a : Arena) (label : Label) (parent : Option Nat) : Arena where
  labels := a.labels ++ [label]
  parents := a.parents ++ [parent]
  children := noteChild (a.children ++ [[]]) a.size parent
  roots := if parent.isNone then a.roots ++ [a.size] else a.roots
  parents_length := by simp [a.parents_length]
  children_length := by simp [length_noteChild, a.children_length]

/-- Adds rows below a row. -/
def addEntries (a : Arena) (heading : Nat) (labels : List Label) : Arena :=
  labels.foldl (fun a label => a.addRow label (some heading)) a

/-- Adds a section, unless it is empty. -/
def addSection (a : Arena) (s : Section) : Arena :=
  if s.entries.isEmpty then a
  else (a.addRow (.heading s.title) none).addEntries a.size s.entries

/-- The rows of the link to the home page and of sections. -/
def ofSections (sections : List Section) : Arena :=
  sections.foldl addSection (addRow {} Sidebar.home none)

/-- The rows of the sidebar of a documentation. -/
def build (showsLongnames : Bool) (m : Members) (r : Registry) : Arena :=
  ofSections (Sidebar.allSections showsLongnames m r)

section Rows

variable (a : Arena) (label : Label) (parent : Option Nat) (i : Nat)

theorem getElem?_concat {α : Type} (l : List α) (x : α) :
    (l ++ [x])[i]? = if i = l.length then some x else l[i]? := by
  rw [List.getElem?_append]
  split
  · rename_i hlt
    rw [if_neg (Nat.ne_of_lt hlt)]
  · rename_i hge
    rw [List.getElem?_eq_none (Nat.le_of_not_lt hge), List.getElem?_singleton]
    congr 1
    exact propext (by omega)

theorem size_addRow : (a.addRow label parent).size = a.size + 1 := by
  simp [size, addRow]

theorem label?_addRow :
    (a.addRow label parent).label? i = if i = a.size then some label else a.label? i :=
  getElem?_concat i a.labels label

theorem parent?_addRow :
    (a.addRow label parent).parent? i = if i = a.size then parent else a.parent? i := by
  rw [parent?, addRow, getElem?_concat]
  rw [a.parents_length, ← size]
  split <;> rfl

/-- A new row is below the row that it is added to, behind all others. -/
theorem childrenOf_addRow (h : ∀ p ∈ parent, p < a.size) :
    (a.addRow label parent).childrenOf i =
      a.childrenOf i ++ if parent = some i then [a.size] else [] := by
  have hsize : a.children.length = a.size := a.children_length
  have hnone : (a.children ++ [[]])[i]?.getD [] = a.childrenOf i := by
    rw [getElem?_concat, childrenOf]
    split
    · rename_i hi
      rw [List.getElem?_eq_none (Nat.le_of_eq hi.symm)]
      rfl
    · rfl
  rw [childrenOf, addRow, ← hnone]
  cases parent with
  | none => simp [noteChild]
  | some p =>
      have hp : p < a.size := h p rfl
      simp only [noteChild, List.getElem?_modify, Option.some.injEq]
      by_cases hi : p = i
      · subst hi
        have hlt : p < (a.children ++ [[]]).length := by
          rw [List.length_append, hsize]
          exact Nat.lt_add_right 1 hp
        simp [List.getElem?_eq_getElem hlt]
      · simp [hi]

theorem roots_addRow :
    (a.addRow label parent).roots = a.roots ++ if parent = none then [a.size] else [] := by
  cases parent with
  | none => rfl
  | some p => simp [addRow]

end Rows

end Arena
end DocLinks
