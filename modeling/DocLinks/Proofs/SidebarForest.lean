import Mathlib.Data.List.Sort
import DocLinks.Navigation.Arena

/-!
# The sidebar is a forest in pre-order

The rows of the sidebar are numbered in the order in which they are shown: every heading
stands before its entries, and these stand before the next heading.

**Invariant.**  `Forest`: what is stored above rows and below them says the same, and going
through the top level, each row followed by those below it, meets the positions in their
order.  A row may be added to the top level, or below its last row.

**Results.**
* `Forest.addRow`, `forest_ofSections`: the invariant holds whatever is added.
* `Forest.once`: every position is a root or a child, and only once.
* `outline_ofSections`: the roots are the link to the home page and headings, with their
  entries below.
* `rows_build`, `childrenOf_build`, `roots_build`: the arena and the sidebar have the same
  rows.
-/

namespace DocLinks
namespace Arena

/-- The rows form a forest that is numbered in pre-order.  The row above a row comes before
it and has that one below it, as no other row has.  The roots are the rows with nothing above
them.  Rows below a row stand in their order, so do the roots, and the roots, each with the
rows below it, are all rows. -/
structure Forest (a : Arena) : Prop where
  parent?_iff {i p : Nat} : a.parent? i = some p ↔ i ∈ a.childrenOf p
  parent_lt {i p : Nat} : a.parent? i = some p → p < i
  mem_roots_iff {i : Nat} : i ∈ a.roots ↔ i < a.size ∧ a.parent? i = none
  children_sorted (p : Nat) : (a.childrenOf p).Pairwise (· < ·)
  roots_sorted : a.roots.Pairwise (· < ·)
  preorder : a.roots.flatMap (fun i => i :: a.childrenOf i) = List.range a.size

section Positions

variable {a : Arena} {label : Label} {i p : Nat}

theorem lt_size_of_parent? (h : a.parent? i = some p) : i < a.size := by
  have hlt := (List.getElem?_eq_some_iff.1 (Option.join_eq_some_iff.1 h)).1
  rwa [a.parents_length] at hlt

theorem Forest.child_lt (h : Forest a) (hi : i ∈ a.childrenOf p) : p < i ∧ i < a.size :=
  ⟨h.parent_lt (h.parent?_iff.2 hi), lt_size_of_parent? (h.parent?_iff.2 hi)⟩

/-- The position of the next row has nothing below it. -/
theorem Forest.childrenOf_size (h : Forest a) : a.childrenOf a.size = [] := by
  refine List.eq_nil_iff_forall_not_mem.2 fun i hi => ?_
  obtain ⟨hlt, hsize⟩ := h.child_lt hi
  omega

theorem parent?_size (a : Arena) : a.parent? a.size = none := by
  rw [Option.eq_none_iff_forall_ne_some]
  exact fun p hp => Nat.lt_irrefl _ (lt_size_of_parent? hp)

/-- The last root is a position. -/
theorem Forest.lt_of_getLast? (h : Forest a)
    (hlast : a.roots.getLast? = some p) : p < a.size :=
  (h.mem_roots_iff.1 (List.mem_of_getLast? hlast)).1

theorem label?_addRow_of_lt (parent : Option Nat) (hi : i < a.size) :
    (a.addRow label parent).label? i = a.label? i := by
  rw [label?_addRow, if_neg (Nat.ne_of_lt hi)]

theorem map_label?_addRow (h : Forest a) (parent : Option Nat) :
    (a.childrenOf i).map (a.addRow label parent).label? = (a.childrenOf i).map a.label? :=
  List.map_congr_left fun _ hj => label?_addRow_of_lt parent (h.child_lt hj).2

/-- A root before the last one has the same rows below it when a row is added below that
one. -/
theorem childrenOf_addRow_of_mem (h : Forest a) {front : List Nat}
    (hroots : a.roots = front ++ [p])
    (hi : i ∈ front) : (a.addRow label (some p)).childrenOf i = a.childrenOf i := by
  have hlast : a.roots.getLast? = some p := by simp [hroots]
  have hlt : i < p := by
    have hsorted := h.roots_sorted
    rw [hroots, List.pairwise_append] at hsorted
    exact hsorted.2.2 i hi p List.mem_cons_self
  rw [childrenOf_addRow, if_neg, List.append_nil]
  · simp only [Option.some.injEq]
    omega
  · rintro _ ⟨⟩
    exact h.lt_of_getLast? hlast

end Positions

section Steps

variable {a : Arena} {label : Label} {parent : Option Nat}

/-- Adding a row to the top level, or below its last row, keeps the order. -/
theorem Forest.preorder_addRow (h : Forest a)
    (hp : ∀ p ∈ parent, a.roots.getLast? = some p) :
    (a.addRow label parent).roots.flatMap
      (fun i => i :: (a.addRow label parent).childrenOf i) =
      List.range (a.addRow label parent).size := by
  rw [size_addRow, List.range_succ, ← h.preorder]
  cases parent with
  | none =>
      have hchildren : ∀ i, (a.addRow label none).childrenOf i = a.childrenOf i := by
        intro i
        rw [childrenOf_addRow _ _ _ _ (by simp), if_neg (by simp), List.append_nil]
      simp only [hchildren]
      rw [roots_addRow, if_pos rfl, List.flatMap_append]
      rw [List.flatMap_singleton, h.childrenOf_size]
  | some p =>
      obtain ⟨front, hroots⟩ := List.getLast?_eq_some_iff.1 (hp p rfl)
      have hfront : front.flatMap (fun i => i :: (a.addRow label (some p)).childrenOf i) =
          front.flatMap fun i => i :: a.childrenOf i :=
        List.flatMap_congr fun i hi => by rw [childrenOf_addRow_of_mem h hroots hi]
      have hchildren : (a.addRow label (some p)).childrenOf p =
          a.childrenOf p ++ [a.size] := by
        rw [childrenOf_addRow _ _ _ _ fun q hq => h.lt_of_getLast? (hp q hq), if_pos rfl]
      rw [roots_addRow, if_neg (by simp), List.append_nil]
      rw [hroots, List.flatMap_append, List.flatMap_append]
      rw [hfront, List.flatMap_singleton, List.flatMap_singleton]
      rw [hchildren, List.append_assoc, List.cons_append]

/-- A row that is added to the top level, or below its last row, keeps the forest. -/
theorem Forest.addRow (h : Forest a) (label : Label)
    (hp : ∀ p ∈ parent, a.roots.getLast? = some p) : Forest (a.addRow label parent) := by
  have hlt : ∀ p ∈ parent, p < a.size := fun p hpar => h.lt_of_getLast? (hp p hpar)
  have hchildren := fun i => a.childrenOf_addRow label parent i hlt
  refine ⟨fun {i p} => ?_, fun {i p} hip => ?_, fun {i} => ?_, fun p => ?_, ?_,
    h.preorder_addRow hp⟩
  · rw [parent?_addRow, hchildren]
    rw [List.mem_append, ← h.parent?_iff]
    by_cases hi : i = a.size
    · subst hi
      simp [parent?_size]
    · rw [if_neg hi]
      split <;> simp [hi]
  · rw [parent?_addRow] at hip
    split at hip
    · rename_i hi
      exact hi ▸ hlt p hip
    · exact h.parent_lt hip
  · rw [roots_addRow, size_addRow, parent?_addRow]
    rw [List.mem_append, h.mem_roots_iff]
    by_cases hi : i = a.size
    · subst hi
      cases parent <;> simp
    · rw [if_neg hi]
      split <;> simp [hi] <;> omega
  · rw [hchildren, List.pairwise_append]
    refine ⟨h.children_sorted p, by split <;> simp, fun i hi j hj => ?_⟩
    have hsize := (h.child_lt hi).2
    split at hj
    · rwa [List.mem_singleton.1 hj]
    · simp at hj
  · rw [roots_addRow, List.pairwise_append]
    refine ⟨h.roots_sorted, by split <;> simp, fun i hi j hj => ?_⟩
    have hsize := (h.mem_roots_iff.1 hi).1
    split at hj
    · rwa [List.mem_singleton.1 hj]
    · simp at hj

theorem Forest.addEntries (h : Forest a) {heading : Nat}
    (hlast : a.roots.getLast? = some heading)
    (labels : List Label) : Forest (a.addEntries heading labels) := by
  induction labels generalizing a with
  | nil => exact h
  | cons label labels ih =>
      refine ih (h.addRow label ?_) ?_
      · rintro _ ⟨⟩
        exact hlast
      · rwa [roots_addRow, if_neg (by simp), List.append_nil]

theorem getLast?_roots_addRow (a : Arena) (label : Label) :
    (a.addRow label none).roots.getLast? = some a.size := by
  rw [roots_addRow, if_pos rfl, List.getLast?_concat]

theorem Forest.addSection (h : Forest a) (s : Section) : Forest (a.addSection s) := by
  unfold Arena.addSection
  split
  · exact h
  · exact (h.addRow _ (by simp)).addEntries (a.getLast?_roots_addRow _) _

theorem Forest.foldl_addSection (h : Forest a) (sections : List Section) :
    Forest (sections.foldl Arena.addSection a) := by
  induction sections generalizing a with
  | nil => exact h
  | cons s sections ih => exact ih (h.addSection s)

theorem forest_empty : Forest {} where
  parent?_iff := by simp [parent?, childrenOf]
  parent_lt := by simp [parent?]
  mem_roots_iff := by simp [size]
  children_sorted := by simp [childrenOf]
  roots_sorted := .nil
  preorder := rfl

theorem forest_home : Forest (Arena.addRow {} Sidebar.home none) :=
  forest_empty.addRow _ (by simp)

/-- The rows of any sections are a forest in pre-order. -/
theorem forest_ofSections (sections : List Section) : Forest (ofSections sections) :=
  forest_home.foldl_addSection sections

end Steps

section Once

variable {a : Arena}

theorem mem_flatten_children_iff (a : Arena) {i : Nat} :
    i ∈ a.children.flatten ↔ ∃ p, i ∈ a.childrenOf p := by
  rw [List.mem_flatten]
  constructor
  · rintro ⟨l, hl, hi⟩
    obtain ⟨p, hp⟩ := List.mem_iff_getElem?.1 hl
    exact ⟨p, by rwa [childrenOf, hp]⟩
  · rintro ⟨p, hi⟩
    rw [childrenOf] at hi
    cases hp : a.children[p]? with
    | none => simp [hp] at hi
    | some l =>
        rw [hp] at hi
        exact ⟨l, List.mem_of_getElem? hp, hi⟩

/-- No row is below two rows. -/
theorem Forest.nodup_children (h : Forest a) : a.children.flatten.Nodup := by
  have hchildren : ∀ {p : Nat} (hp : p < a.children.length),
      a.childrenOf p = a.children[p] := by
    intro p hp
    rw [childrenOf, List.getElem?_eq_getElem hp]
    rfl
  rw [List.nodup_flatten]
  refine ⟨fun l hl => ?_, List.pairwise_iff_getElem.2 fun p q hp hq hlt i hi hi' => ?_⟩
  · obtain ⟨p, hp, rfl⟩ := List.mem_iff_getElem.1 hl
    rw [← hchildren hp]
    exact (h.children_sorted p).imp fun hij => Nat.ne_of_lt hij
  · rw [← hchildren hp, ← h.parent?_iff] at hi
    rw [← hchildren hq, ← h.parent?_iff, hi] at hi'
    have hsame : p = q := Option.some.inj hi'
    omega

/-- Every position is a root or below one row, and only once. -/
theorem Forest.once (h : Forest a) :
    (a.roots ++ a.children.flatten).Perm (List.range a.size) := by
  have hnodup : (a.roots ++ a.children.flatten).Nodup := by
    refine List.nodup_append.2 ⟨h.roots_sorted.imp fun hij => Nat.ne_of_lt hij,
      h.nodup_children, ?_⟩
    rintro i hi _ hi' rfl
    obtain ⟨p, hp⟩ := (a.mem_flatten_children_iff).1 hi'
    rw [← h.parent?_iff, (h.mem_roots_iff.1 hi).2] at hp
    simp at hp
  rw [List.perm_ext_iff_of_nodup hnodup List.nodup_range]
  intro i
  rw [List.mem_append, h.mem_roots_iff]
  rw [mem_flatten_children_iff, List.mem_range]
  constructor
  · rintro (⟨hi, -⟩ | ⟨p, hp⟩)
    · exact hi
    · exact (h.child_lt hp).2
  · intro hi
    cases hparent : a.parent? i with
    | none => exact .inl ⟨hi, rfl⟩
    | some p => exact .inr ⟨p, h.parent?_iff.1 hparent⟩

end Once

section Outline

variable {a : Arena} {label : Label} {labels : List Label}

/-- What is shown at a position, and at the positions below it. -/
def branch (a : Arena) (i : Nat) : Option Label × List (Option Label) :=
  (a.label? i, (a.childrenOf i).map a.label?)

/-- What is shown at the roots, and below them. -/
def outline (a : Arena) : List (Option Label × List (Option Label)) :=
  a.roots.map a.branch

theorem outline_addHeading (h : Forest a) (label : Label) :
    (a.addRow label none).outline = a.outline ++ [(some label, [])] := by
  have hchildren : ∀ i, (a.addRow label none).childrenOf i = a.childrenOf i := by
    intro i
    rw [childrenOf_addRow _ _ _ _ (by simp), if_neg (by simp), List.append_nil]
  have hold : a.roots.map (a.addRow label none).branch = a.outline := by
    refine List.map_congr_left fun i hi => ?_
    rw [branch, branch, hchildren]
    rw [label?_addRow_of_lt none (h.mem_roots_iff.1 hi).1, map_label?_addRow h]
  rw [outline, roots_addRow, if_pos rfl]
  rw [List.map_append, hold, List.map_singleton]
  rw [branch, hchildren, h.childrenOf_size]
  rw [label?_addRow, if_pos rfl]
  rfl

/-- Entries that are added below the last root come behind those that it has. -/
theorem outline_addEntries (h : Forest a) {front : List Nat} {heading : Nat}
    (hroots : a.roots = front ++ [heading]) (labels : List Label) :
    (a.addEntries heading labels).outline =
      front.map a.branch ++
      [((a.branch heading).1, (a.branch heading).2 ++ labels.map some)] := by
  induction labels generalizing a with
  | nil => simp [Arena.addEntries, outline, hroots]
  | cons label labels ih =>
      have hlast : a.roots.getLast? = some heading := by simp [hroots]
      have hparent : ∀ p ∈ some heading, a.roots.getLast? = some p := by
        rintro _ ⟨⟩
        exact hlast
      have hroots' : (a.addRow label (some heading)).roots = front ++ [heading] := by
        rw [roots_addRow, if_neg (by simp)]
        rw [List.append_nil, hroots]
      have hlt : ∀ {i}, i ∈ front ++ [heading] → i < a.size := fun hi =>
        (h.mem_roots_iff.1 (hroots ▸ hi)).1
      have hfront : front.map (a.addRow label (some heading)).branch =
          front.map a.branch := by
        refine List.map_congr_left fun i hi => ?_
        rw [branch, branch, childrenOf_addRow_of_mem h hroots hi]
        rw [label?_addRow_of_lt _ (hlt (List.mem_append_left _ hi)), map_label?_addRow h]
      have hheading : (a.addRow label (some heading)).branch heading =
          ((a.branch heading).1, (a.branch heading).2 ++ [some label]) := by
        rw [branch, childrenOf_addRow _ _ _ _ fun p hp => h.lt_of_getLast? (hparent p hp),
          if_pos rfl, List.map_append, map_label?_addRow h,
          label?_addRow_of_lt _ (hlt (by simp)), List.map_singleton, label?_addRow,
          if_pos rfl]
        rfl
      refine (ih (h.addRow label hparent) hroots').trans ?_
      rw [hfront, hheading, List.map_cons]
      rw [List.append_assoc, List.singleton_append]

/-- The outline of a section. -/
def sectionOutline (s : Section) : Option Label × List (Option Label) :=
  (some (.heading s.title), s.entries.map some)

theorem outline_addSection (h : Forest a) (s : Section) :
    (a.addSection s).outline =
      a.outline ++ if s.entries.isEmpty then [] else [sectionOutline s] := by
  unfold Arena.addSection
  split
  · rw [List.append_nil]
  · have hheading : Forest (a.addRow (.heading s.title) none) :=
      h.addRow (.heading s.title) (by simp)
    have houtline := outline_addHeading h (.heading s.title)
    have hroots : (a.addRow (.heading s.title) none).roots = a.roots ++ [a.size] := by
      rw [roots_addRow, if_pos rfl]
    rw [outline, hroots] at houtline
    rw [List.map_append, List.map_singleton] at houtline
    obtain ⟨hfront, hlast⟩ := List.append_inj' houtline rfl
    rw [outline_addEntries hheading hroots, hfront, List.singleton_inj.1 hlast]
    rfl

theorem outline_foldl_addSection (h : Forest a) (sections : List Section) :
    (sections.foldl Arena.addSection a).outline =
      a.outline ++ (sections.filter fun s => !s.entries.isEmpty).map sectionOutline := by
  induction sections generalizing a with
  | nil => simp
  | cons s sections ih =>
      rw [List.foldl_cons, ih (h.addSection s), outline_addSection h]
      rw [List.append_assoc, List.filter_cons]
      cases s.entries.isEmpty <;> simp

/-- The roots are the link to the home page, with nothing below it, and the headings of
sections that are not empty, with their entries below them. -/
theorem outline_ofSections (sections : List Section) :
    (ofSections sections).outline = (some Sidebar.home, []) ::
      (sections.filter fun s => !s.entries.isEmpty).map sectionOutline := by
  have hhome := outline_addHeading forest_empty Sidebar.home
  rw [ofSections, outline_foldl_addSection forest_home, hhome]
  rfl

end Outline

section Rows

variable {a : Arena}

/-- The rows, in their order. -/
def rows (a : Arena) : List Row :=
  List.zipWith Row.mk a.labels a.parents

theorem rows_addRow (a : Arena) (label : Label) (parent : Option Nat) :
    (a.addRow label parent).rows = a.rows ++ [⟨label, parent⟩] :=
  List.zipWith_append a.parents_length.symm

theorem length_rows (a : Arena) : a.rows.length = a.size := by
  rw [rows, List.length_zipWith, a.parents_length]
  rw [Nat.min_self, size]

theorem label?_eq (a : Arena) (i : Nat) : a.label? i = a.rows[i]?.map (·.label) := by
  rw [label?, rows, List.getElem?_zipWith]
  by_cases hi : i < a.size
  · have hparent : i < a.parents.length := a.parents_length.symm ▸ hi
    rw [List.getElem?_eq_getElem hi, List.getElem?_eq_getElem hparent]
    rfl
  · rw [List.getElem?_eq_none (Nat.le_of_not_lt hi)]
    rfl

theorem parent?_eq (a : Arena) (i : Nat) : a.parent? i = a.rows[i]?.bind (·.parent) := by
  rw [parent?, rows, List.getElem?_zipWith]
  by_cases hi : i < a.size
  · have hparent : i < a.parents.length := a.parents_length.symm ▸ hi
    rw [List.getElem?_eq_getElem (l := a.labels) hi, List.getElem?_eq_getElem hparent]
    rfl
  · rw [List.getElem?_eq_none (l := a.parents)
      (by rw [a.parents_length]; exact Nat.le_of_not_lt hi)]
    cases a.labels[i]? <;> rfl

theorem rows_addEntries (a : Arena) (heading : Nat) (labels : List Label) :
    (a.addEntries heading labels).rows = a.rows ++ labels.map (⟨·, some heading⟩) := by
  induction labels generalizing a with
  | nil =>
      rw [List.map_nil, List.append_nil]
      rfl
  | cons label labels ih =>
      refine (ih (a.addRow label (some heading))).trans ?_
      rw [rows_addRow, List.append_assoc]
      rfl

theorem rows_foldl_addSection (a : Arena) (sections : List Section) :
    (sections.foldl addSection a).rows = a.rows ++
      Sidebar.sectionRows a.size (sections.filter fun s => !s.entries.isEmpty) := by
  induction sections generalizing a with
  | nil => simp [Sidebar.sectionRows]
  | cons s sections ih =>
      rw [List.foldl_cons, ih, List.filter_cons]
      cases hempty : s.entries.isEmpty with
      | true => simp [addSection, hempty]
      | false =>
          have hsection : a.addSection s =
              (a.addRow (.heading s.title) none).addEntries a.size s.entries := by
            rw [addSection, hempty]
            rfl
          have hrows : (a.addSection s).rows =
              a.rows ++ (⟨.heading s.title, none⟩ :: s.entries.map (⟨·, some a.size⟩)) := by
            rw [hsection, rows_addEntries, rows_addRow]
            rw [List.append_assoc, List.singleton_append]
          have hsize : (a.addSection s).size = a.size + 1 + s.entries.length := by
            rw [← length_rows, hrows, List.length_append]
            rw [length_rows, List.length_cons, List.length_map]
            omega
          rw [hrows, hsize, Bool.not_false]
          rw [if_pos rfl, Sidebar.sectionRows, List.append_assoc]

variable (showsLongnames : Bool) (m : Members) (r : Registry)

/-- The arena has the rows of the sidebar. -/
theorem rows_build :
    (build showsLongnames m r).rows = (Sidebar.build showsLongnames m r).rows := by
  rw [build, ofSections]
  rw [rows_foldl_addSection, rows_addRow]
  rfl

theorem label?_build (i : Nat) :
    (build showsLongnames m r).label? i = (Sidebar.build showsLongnames m r).label? i := by
  rw [label?_eq, rows_build, Sidebar.label?]

theorem parent?_build (i : Nat) :
    (build showsLongnames m r).parent? i = (Sidebar.build showsLongnames m r).parent? i := by
  rw [parent?_eq, rows_build, Sidebar.parent?]

theorem pairwise_positions (t : Sidebar) : t.positions.Pairwise (· < ·) :=
  List.pairwise_lt_range

/-- The rows below a row are those that have it above them. -/
theorem childrenOf_build (p : Nat) :
    (build showsLongnames m r).childrenOf p =
      (Sidebar.build showsLongnames m r).children p := by
  have hforest : Forest (build showsLongnames m r) := forest_ofSections _
  refine (hforest.children_sorted p).eq_of_mem_iff
    ((pairwise_positions _).filter _) fun i => ?_
  have hsize : (Sidebar.build showsLongnames m r).rows.length =
      (build showsLongnames m r).size := by
    rw [← rows_build, length_rows]
  rw [Sidebar.children, List.mem_filter, Sidebar.positions]
  rw [List.mem_range, hsize, beq_iff_eq]
  rw [← parent?_build, ← hforest.parent?_iff]
  exact ⟨fun hi => ⟨lt_size_of_parent? hi, hi⟩, And.right⟩

/-- The roots are the rows that have nothing above them. -/
theorem roots_build :
    (build showsLongnames m r).roots = (Sidebar.build showsLongnames m r).roots := by
  have hforest : Forest (build showsLongnames m r) := forest_ofSections _
  refine hforest.roots_sorted.eq_of_mem_iff ((pairwise_positions _).filter _) fun i => ?_
  rw [Sidebar.roots, List.mem_filter, Sidebar.positions]
  rw [List.mem_range, ← rows_build, length_rows]
  rw [← parent?_build, Option.isNone_iff_eq_none, hforest.mem_roots_iff]

end Rows

end Arena
end DocLinks
