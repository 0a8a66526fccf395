import Mathlib.Data.List.Induction
import Mathlib.Data.List.Sort
import Mathlib.Logic.Relation
import DocLinks.Proofs.SidebarForest
import DocLinks.Proofs.SidebarRows

/-!
# What views show after any history

Views are opened from pages, and pages are marked in them and cleared from them, in any
order.  What a view shows depends on the pages only that were marked in it since it was last
cleared.

**Algorithm.**  Marking a page climbs from every row that leads to it up to the top level.
Rows are numbered from the top, so that the climb comes to an end.

**Invariant.**  `Shows`: the highlighted rows of a view are in their order, and they are
those that lead to the marked pages, with the rows above them.

**Results.**
* `Arena.Forest.mem_climb_iff`, `Arena.climb_build`: the climb meets a row and all rows above
  it.
* `Shows.of_marks`, `Shows.of_untouched`: what marking a page in a view does to it and to the
  other views.
* `shows_act_look`, `shows_act_mark`, `shows_act_clear`: every action keeps the invariant of
  all views.
* `shows_views`: the invariant holds after every history.
* `highlights_of_history`: which rows views show, and what this does not depend on.
-/

namespace DocLinks
namespace Arena

section Climbing

variable {a : Arena} {i j p : Nat}

/-- A row leads to a page. -/
def LeadsTo (a : Arena) (i : Nat) (page : String) : Prop :=
  ∃ label, a.label? i = some label ∧ label.href? = some page

/-- A row is another one, or stands above it. -/
def Reaches (a : Arena) : Nat → Nat → Prop :=
  Relation.ReflTransGen fun i p => a.parent? i = some p

theorem reaches_iff : a.Reaches i j ↔ i = j ∨ ∃ p, a.parent? i = some p ∧ a.Reaches p j :=
  Relation.ReflTransGen.cases_head_iff

/-- A row and those above it, from the bottom up. -/
def Forest.climb (h : Forest a) (i : Nat) : List Nat :=
  match _ : a.parent? i with
  | none => [i]
  | some p => i :: h.climb p
termination_by i
decreasing_by exact h.parent_lt ‹_›

theorem Forest.climb_of_root (h : Forest a) (hp : a.parent? i = none) : h.climb i = [i] := by
  rw [climb]
  split
  · rfl
  · simp_all

theorem Forest.climb_of_child (h : Forest a) (hp : a.parent? i = some p) :
    h.climb i = i :: h.climb p := by
  rw [climb]
  split <;> simp_all

/-- The climb from a row meets the rows that it reaches, and no others. -/
theorem Forest.mem_climb_iff (h : Forest a) : j ∈ h.climb i ↔ a.Reaches i j := by
  induction i using Nat.strongRecOn with
  | ind i ih =>
      rw [reaches_iff]
      cases hp : a.parent? i with
      | none => simp [h.climb_of_root hp, eq_comm]
      | some p => simp [h.climb_of_child hp, ih p (h.parent_lt hp), eq_comm]

variable (showsLongnames : Bool) (m : Members) (r : Registry)

/-- The rows of the sidebar have at most one row above them. -/
theorem climb_build (i : Nat) :
    (forest_ofSections (Sidebar.allSections showsLongnames m r)).climb i =
      View.lineage (Sidebar.build showsLongnames m r) i := by
  have hforest : Forest (build showsLongnames m r) := forest_ofSections _
  have hparent := parent?_build showsLongnames m r
  cases hp : (build showsLongnames m r).parent? i with
  | none =>
      rw [View.lineage, ← hparent, hp]
      exact hforest.climb_of_root hp
  | some p =>
      have hroot : (build showsLongnames m r).parent? p = none := by
        have hrow := hp
        rw [hparent, Sidebar.parent?, Option.bind_eq_some_iff] at hrow
        obtain ⟨⟨label, _⟩, hrow, rfl⟩ := hrow
        obtain ⟨s, -, -, hstands⟩ := Sidebar.exists_section_of_row hrow
        rw [hparent, Sidebar.parent?, hstands.head]
        rfl
      rw [View.lineage, ← hparent, hp]
      exact (hforest.climb_of_child hp).trans
        (congrArg (i :: ·) (hforest.climb_of_root hroot))

theorem mem_positionsOf_build {page : String} {i : Nat} :
    i ∈ (Sidebar.build showsLongnames m r).positionsOf page ↔
      (build showsLongnames m r).LeadsTo i page := by
  rw [Sidebar.mem_positionsOf_iff]
  simp only [LeadsTo, label?_build, Sidebar.label?, Option.map_eq_some_iff]
  constructor
  · rintro ⟨row, hrow, hhref⟩
    exact ⟨row.label, ⟨row, hrow, rfl⟩, hhref⟩
  · rintro ⟨_, ⟨row, hrow, rfl⟩, hhref⟩
    exact ⟨row, hrow, hhref⟩

end Climbing

end Arena

namespace View

/-- What is done with views, which are numbered in the order in which they are opened. -/
inductive Action where
  | look (page : String)
  | mark (i : Nat) (page : String)
  | clear (i : Nat)
  deriving DecidableEq, Repr

namespace Action

/-- Whether an action opens a view. -/
def isLook : Action → Bool
  | look _ => true
  | _ => false

/-- An action changes a view that is open. -/
def Touches (i : Nat) : Action → Prop
  | look _ => False
  | mark i' _ => i' = i
  | clear i' => i' = i

/-- An action marks a page in a view, when the given number of views are open before it. -/
def Marks (count i : Nat) (page : String) : Action → Prop
  | look page' => i = count ∧ page' = page
  | mark i' page' => i' = i ∧ page' = page ∧ i < count
  | clear _ => False

end Action

/-- The views after an action. -/
def act (t : Sidebar) (views : List View) : Action → List View
  | .look page => views ++ [of t page]
  | .mark i page => views.modify i (View.mark t page)
  | .clear i => views.modify i fun _ => View.clear

/-- The views after a history. -/
def views (t : Sidebar) (actions : List Action) : List View :=
  actions.foldl (act t) []

/-- How many views a history opens. -/
def opened (actions : List Action) : Nat :=
  actions.countP Action.isLook

/-- A page was marked in a view, and the view was not cleared after this. -/
def Marked (actions : List Action) (i : Nat) (page : String) : Prop :=
  ∃ front a back, actions = front ++ a :: back ∧
  a.Marks (opened front) i page ∧ .clear i ∉ back

section Histories

variable {actions : List Action} {a : Action} {i : Nat} {page : String}

theorem views_concat (t : Sidebar) (actions : List Action) (a : Action) :
    views t (actions ++ [a]) = act t (views t actions) a := by
  rw [views, List.foldl_concat, views]

theorem opened_concat (actions : List Action) (a : Action) :
    opened (actions ++ [a]) = opened actions + if a.isLook then 1 else 0 := by
  rw [opened, List.countP_append]
  rw [List.countP_singleton, opened]

theorem length_views (t : Sidebar) (actions : List Action) :
    (views t actions).length = opened actions := by
  induction actions using List.reverseRecOn with
  | nil => rfl
  | append_singleton actions a ih =>
      rw [views_concat, opened_concat, ← ih]
      cases a with
      | look page => exact List.length_append
      | mark i page => exact List.length_modify ..
      | clear i => exact List.length_modify ..

/-- What is marked after one more action. -/
theorem marked_concat : Marked (actions ++ [a]) i page ↔
    a.Marks (opened actions) i page ∨ Marked actions i page ∧ a ≠ .clear i := by
  constructor
  · rintro ⟨front, b, back, hactions, hmarks, hback⟩
    rcases List.eq_nil_or_concat back with rfl | ⟨back, last, rfl⟩
    · obtain ⟨rfl, hlast⟩ := List.append_inj' hactions rfl
      obtain rfl := List.singleton_inj.1 hlast
      exact .inl hmarks
    · rw [List.concat_eq_append, ← List.cons_append, ← List.append_assoc] at hactions
      obtain ⟨rfl, hlast⟩ := List.append_inj' hactions rfl
      obtain rfl := List.singleton_inj.1 hlast
      rw [List.concat_eq_append, List.mem_append] at hback
      rw [not_or, List.mem_singleton] at hback
      exact .inr ⟨⟨front, b, back, rfl, hmarks, hback.1⟩, Ne.symm hback.2⟩
  · rintro (hmarks | ⟨⟨front, b, back, rfl, hmarks, hback⟩, ha⟩)
    · exact ⟨actions, a, [], rfl, hmarks, List.not_mem_nil⟩
    · refine ⟨front, b, back ++ [a], by simp, hmarks, ?_⟩
      rw [List.mem_append, not_or, List.mem_singleton]
      exact ⟨hback, Ne.symm ha⟩

/-- Pages are marked in views that are open. -/
theorem Marked.lt_opened (h : Marked actions i page) : i < opened actions := by
  induction actions using List.reverseRecOn with
  | nil =>
      obtain ⟨front, a, back, hactions, -⟩ := h
      simp at hactions
  | append_singleton actions a ih =>
      rw [opened_concat]
      rcases marked_concat.1 h with hmarks | ⟨h, -⟩
      · cases a with
        | look page =>
            obtain ⟨rfl, -⟩ := hmarks
            exact Nat.lt_succ_self _
        | mark i page => exact Nat.lt_add_right _ hmarks.2.2
        | clear i => exact hmarks.elim
      · exact Nat.lt_add_right _ (ih h)

end Histories

section Highlights

variable {t : Sidebar} {v : View} {actions : List Action} {a : Action} {i j k : Nat}
  {js : List Nat} {page : String}

theorem pairwise_insert (h : js.Pairwise (· < ·)) : (insert i js).Pairwise (· < ·) := by
  induction js with
  | nil => exact List.pairwise_singleton _ _
  | cons j js ih =>
      obtain ⟨hj, hjs⟩ := List.pairwise_cons.1 h
      rw [insert]
      split
      · rename_i hlt
        exact List.pairwise_cons.2
          ⟨List.forall_mem_cons.2 ⟨hlt, fun k hk => hlt.trans (hj k hk)⟩, h⟩
      · split
        · exact h
        · refine List.pairwise_cons.2 ⟨fun k hk => ?_, ih hjs⟩
          rcases mem_insert_iff.1 hk with rfl | hk
          · omega
          · exact hj k hk

theorem pairwise_foldl_insert (is : List Nat) (h : js.Pairwise (· < ·)) :
    (is.foldl (fun js i => insert i js) js).Pairwise (· < ·) := by
  induction is generalizing js with
  | nil => exact h
  | cons i is ih => exact ih (pairwise_insert h)

theorem mem_current_mark_iff : j ∈ (v.mark t page).current ↔
    j ∈ v.current ∨ ∃ k ∈ t.positionsOf page, j ∈ lineage t k := by
  rw [mark, mem_foldl_insert]
  rw [List.mem_flatMap, or_comm]

/-- A view shows, in their order and once each, the rows that lead to the pages marked in it,
and the rows above them. -/
structure Shows (t : Sidebar) (actions : List Action) (i : Nat) (v : View) : Prop where
  sorted : v.current.Pairwise (· < ·)
  mem_current_iff {j : Nat} : j ∈ v.current ↔
    ∃ page, Marked actions i page ∧ ∃ k ∈ t.positionsOf page, j ∈ lineage t k

/-- Actions that do not mark a page in a view, and do not clear it, leave what it shows. -/
theorem Shows.of_untouched (h : Shows t actions i v)
    (hmarks : ∀ page, ¬a.Marks (opened actions) i page) (hclear : a ≠ .clear i) :
    Shows t (actions ++ [a]) i v where
  sorted := h.sorted
  mem_current_iff := by
    have hmarked : ∀ page, Marked (actions ++ [a]) i page ↔
        Marked actions i page := fun page =>
      marked_concat.trans (by simp [hmarks, hclear])
    intro j
    simp only [hmarked]
    exact h.mem_current_iff

/-- A page that is marked in a view is shown from then on. -/
theorem Shows.of_marks (h : Shows t actions i v)
    (hmarks : ∀ page', a.Marks (opened actions) i page' ↔ page' = page)
    (hclear : a ≠ .clear i) :
    Shows t (actions ++ [a]) i (v.mark t page) where
  sorted := pairwise_foldl_insert _ h.sorted
  mem_current_iff := by
    intro j
    rw [mem_current_mark_iff, h.mem_current_iff]
    simp only [marked_concat, hmarks]
    constructor
    · rintro (⟨page', hmarked, hrow⟩ | hrow)
      · exact ⟨page', .inr ⟨hmarked, hclear⟩, hrow⟩
      · exact ⟨page, .inl rfl, hrow⟩
    · rintro ⟨page', rfl | ⟨hmarked, -⟩, hrow⟩
      · exact .inr hrow
      · exact .inl ⟨page', hmarked, hrow⟩

/-- A view in which nothing is marked is empty. -/
theorem shows_clear (h : ∀ page, ¬Marked actions i page) : Shows t actions i clear where
  sorted := .nil
  mem_current_iff := by simp [clear, h]

/-- A new view shows its page, and the others show what they did. -/
theorem shows_act_look (h : ∀ i v, (views t actions)[i]? = some v → Shows t actions i v)
    (hv : (act t (views t actions) (.look page))[i]? = some v) :
    Shows t (actions ++ [.look page]) i v := by
  have hlength := length_views t actions
  rw [act, List.getElem?_append] at hv
  split at hv
  · rename_i hlt
    have hne : i ≠ opened actions := by omega
    exact (h i v hv).of_untouched (fun page hmarks => hne hmarks.1) nofun
  · rename_i hge
    rw [List.getElem?_singleton] at hv
    have hlast : i = opened actions ∧ of t page = v := by
      split at hv
      · exact ⟨by omega, Option.some.inj hv⟩
      · simp at hv
    obtain ⟨rfl, rfl⟩ := hlast
    have hempty : Shows t actions (opened actions) clear :=
      shows_clear fun page hmarked => Nat.lt_irrefl _ hmarked.lt_opened
    refine hempty.of_marks (fun page' => ?_) nofun
    simp [Action.Marks, eq_comm]

/-- What one view shows after it was changed, and what the others show then. -/
theorem shows_modify {f : View → View}
    (h : ∀ i v, (views t actions)[i]? = some v → Shows t actions i v)
    (hchanged : ∀ v, k < opened actions → Shows t actions k v →
      Shows t (actions ++ [a]) k (f v))
    (hothers : ∀ i v, k ≠ i → Shows t actions i v → Shows t (actions ++ [a]) i v)
    (hv : ((views t actions).modify k f)[i]? = some v) : Shows t (actions ++ [a]) i v := by
  rw [List.getElem?_modify, Option.map_eq_map, Option.map_eq_some_iff] at hv
  obtain ⟨old, hold, rfl⟩ := hv
  split
  · rename_i hk
    subst hk
    have hopen : k < opened actions :=
      length_views t actions ▸ (List.getElem?_eq_some_iff.1 hold).1
    exact hchanged old hopen (h k old hold)
  · rename_i hk
    exact hothers i old hk (h i old hold)

theorem shows_act_mark (h : ∀ i v, (views t actions)[i]? = some v → Shows t actions i v)
    (hv : (act t (views t actions) (.mark k page))[i]? = some v) :
    Shows t (actions ++ [.mark k page]) i v := by
  refine shows_modify h (fun v hopen hshows => ?_) (fun i v hk hshows => ?_) hv
  · refine hshows.of_marks (fun page' => ?_) nofun
    simp [Action.Marks, hopen, eq_comm]
  · exact hshows.of_untouched (fun page hmarks => hk hmarks.1) nofun

theorem shows_act_clear (h : ∀ i v, (views t actions)[i]? = some v → Shows t actions i v)
    (hv : (act t (views t actions) (.clear k))[i]? = some v) :
    Shows t (actions ++ [.clear k]) i v := by
  refine shows_modify h (fun v _ _ => ?_) (fun i v hk hshows => ?_) hv
  · refine shows_clear fun page hmarked => ?_
    rcases marked_concat.1 hmarked with hmarks | ⟨-, hne⟩
    · exact hmarks
    · exact hne rfl
  · exact hshows.of_untouched (fun _ => id) fun heq => hk (Action.clear.inj heq)

/-- After every history, all views show what is marked in them. -/
theorem shows_views (t : Sidebar) (actions : List Action) :
    ∀ i v, (views t actions)[i]? = some v → Shows t actions i v := by
  induction actions using List.reverseRecOn with
  | nil => exact fun i v hv => absurd hv (by simp [views])
  | append_singleton actions a ih =>
      intro i v hv
      rw [views_concat] at hv
      cases a with
      | look page => exact shows_act_look ih hv
      | mark k page => exact shows_act_mark ih hv
      | clear k => exact shows_act_clear ih hv

theorem eq_of_mem_current_iff {v' : View} (h : v.current.Pairwise (· < ·))
    (h' : v'.current.Pairwise (· < ·)) (hmem : ∀ j, j ∈ v.current ↔ j ∈ v'.current) :
    v = v' := by
  cases v
  cases v'
  exact congrArg View.mk (h.eq_of_mem_iff h' hmem)

/-- What views show is determined by the pages that are marked in them. -/
theorem Shows.unique {actions' : List Action} {i' : Nat} {v' : View}
    (h : Shows t actions i v)
    (h' : Shows t actions' i' v') (hmarked : ∀ page, Marked actions i page ↔
      Marked actions' i' page) :
    v = v' := by
  refine eq_of_mem_current_iff h.sorted h'.sorted fun j => ?_
  rw [h.mem_current_iff, h'.mem_current_iff]
  simp only [hmarked]

/-- An action leaves the views alone that it does not touch. -/
theorem views_concat_of_untouched (hi : i < opened actions) (ha : ¬a.Touches i) :
    (views t (actions ++ [a]))[i]? = (views t actions)[i]? := by
  rw [views_concat]
  cases a with
  | look page => exact List.getElem?_append_left (length_views t actions ▸ hi)
  | mark k page => exact List.getElem?_modify_ne _ _ ha
  | clear k => exact List.getElem?_modify_ne _ _ ha

theorem canMark_iff : canMark t page = true ↔ ∃ k, k ∈ t.positionsOf page := by
  rw [canMark, Bool.not_eq_true', List.isEmpty_eq_false_iff_exists_mem]

/-- Marking a page that no row leads to changes nothing. -/
theorem mark_of_canMark_eq_false (h : canMark t page = false) (v : View) :
    v.mark t page = v := by
  rw [canMark, Bool.not_eq_false', List.isEmpty_iff] at h
  rw [mark, h]
  rfl

theorem views_concat_mark_of_canMark_eq_false (h : canMark t page = false) :
    views t (actions ++ [.mark i page]) = views t actions := by
  have hmark : View.mark t page = id := funext (mark_of_canMark_eq_false h)
  rw [views_concat, act]
  rw [hmark, List.modify_id]

/-- After every history of opening, marking and clearing views, each of them shows the rows
that lead to the pages marked in it since it was last cleared, and the rows above those, in
their order and each once.  It depends neither on the order of the marks, nor on repeated
ones, nor on what is done with other views.  A page can be marked if some row leads to it,
and otherwise marking it changes nothing. -/
theorem highlights_of_history (showsLongnames : Bool) (m : Members) (r : Registry)
    (actions : List Action) :
    let t := Sidebar.build showsLongnames m r
    let a := Arena.build showsLongnames m r
    (views t actions).length = opened actions ∧
    (∀ i v, (views t actions)[i]? = some v → v.current.Pairwise (· < ·) ∧
      ∀ j, j ∈ v.current ↔ ∃ page, Marked actions i page ∧ ∃ k,
        a.LeadsTo k page ∧ a.Reaches k j) ∧
    (∀ actions' i i' v v', (views t actions)[i]? = some v →
      (views t actions')[i']? = some v' →
      (∀ page, Marked actions i page ↔ Marked actions' i' page) → v = v') ∧
    (∀ action i, i < opened actions → ¬action.Touches i →
      (views t (actions ++ [action]))[i]? = (views t actions)[i]?) ∧
    (∀ page, canMark t page = true ↔ ∃ k, a.LeadsTo k page) ∧
    (∀ page, canMark t page = false →
      (∀ v, View.mark t page v = v) ∧ ∀ i, views t (actions ++ [.mark i page]) =
        views t actions) := by
  intro t a
  have hforest : a.Forest := Arena.forest_ofSections _
  have hleads : ∀ {page k}, k ∈ t.positionsOf page ↔ a.LeadsTo k page :=
    Arena.mem_positionsOf_build showsLongnames m r
  have hlineage : ∀ {k j}, j ∈ lineage t k ↔ a.Reaches k j := by
    intro k j
    rw [← Arena.climb_build]
    exact hforest.mem_climb_iff
  refine ⟨length_views t actions, fun i v hv => ?_, fun actions' i i' v v' hv hv' => ?_,
    fun _ _ => views_concat_of_untouched, fun page => ?_, fun page hpage => ?_⟩
  · have hshows := shows_views t actions i v hv
    refine ⟨hshows.sorted, fun j => hshows.mem_current_iff.trans ?_⟩
    simp only [hleads, hlineage]
  · exact (shows_views t actions i v hv).unique (shows_views t actions' i' v' hv')
  · simp only [canMark_iff, hleads]
  · exact ⟨mark_of_canMark_eq_false hpage,
      fun i => views_concat_mark_of_canMark_eq_false hpage⟩

end Highlights

end View
end DocLinks
