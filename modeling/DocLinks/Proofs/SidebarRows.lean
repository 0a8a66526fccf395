import Mathlib.Tactic.ByContra
import DocLinks.Navigation.View

/-!
# The rows of the sidebar

The rows of a section stand below its heading, one for each of its entries.  A symbol is
listed once for every long name: in the group that it belongs to, or in an earlier group that
shares its long names with it.  A view highlights the rows that lead to its page, and the
headings above them.

**Results.**
* `exists_stands_of_mem`, `exists_section_of_row`: the rows below headings are the entries of
  sections.
* `isOn_of_iff`, `isOn_of_stands`: which rows a view highlights.
* `exists_member_of_lists`, `exists_lists_of_member`: what is listed.
* `exists_stands_of_lists`, `exists_lists_of_stands`: it stands below the heading of its
  section.
-/

namespace DocLinks
namespace Sidebar

section Rows

/-- A label stands in a row below the heading of the given title. -/
structure Stands (t : Sidebar) (label : Label) (title : String)
    (i heading : Nat) : Prop where
  row : t.rows[i]? = some (Row.mk label (some heading))
  head : t.rows[heading]? = some (Row.mk (.heading title) none)

theorem sectionRows_append (start : Nat) (front back : List Section) :
    sectionRows start (front ++ back) =
      sectionRows start front ++
      sectionRows (start + (sectionRows start front).length) back := by
  induction front generalizing start with
  | nil => rfl
  | cons s front ih =>
      have hlength : start + 1 + s.entries.length +
          (sectionRows (start + 1 + s.entries.length) front).length =
          start + (sectionRows start (s :: front)).length := by
        simp only [sectionRows, List.cons_append, List.length_cons,
          List.length_append, List.length_map]
        omega
      rw [← hlength, List.cons_append, sectionRows]
      rw [sectionRows, ih, List.append_assoc]

variable {t : Sidebar} {s : Section} {label : Label} {i heading : Nat}

/-- Every entry of a section has a row below the heading of the section. -/
theorem exists_stands_of_mem (hs : s ∈ t.sections) (hlabel : label ∈ s.entries) :
    ∃ i heading, t.Stands label s.title i heading := by
  obtain ⟨front, back, hsections⟩ := List.append_of_mem hs
  obtain ⟨k, hk, hentry⟩ := List.mem_iff_getElem.1 hlabel
  let before := Row.mk home none :: sectionRows 1 front
  have hrows : t.rows = before ++
      (⟨.heading s.title, none⟩ :: s.entries.map (⟨·, some before.length⟩) ++
      sectionRows (before.length + 1 + s.entries.length) back) := by
    have hlength : before.length = 1 + (sectionRows 1 front).length := Nat.add_comm _ _
    rw [rows, hsections, sectionRows_append]
    rw [sectionRows, hlength]
    rfl
  refine ⟨before.length + (k + 1), before.length, ?_, ?_⟩
  · rw [hrows, List.getElem?_append_right (Nat.le_add_right _ _), Nat.add_sub_cancel_left]
    rw [List.cons_append, List.getElem?_cons_succ, List.getElem?_append_left (by simpa)]
    rw [List.getElem?_map, List.getElem?_eq_getElem hk, hentry]
    rfl
  · rw [hrows, List.getElem?_append_right (Nat.le_refl _), Nat.sub_self]
    rfl

/-- Rows below headings belong to sections, and the headings stand above them. -/
theorem exists_of_mem_sectionRows {sections : List Section} {start : Nat}
    (h : Row.mk label (some heading) ∈ sectionRows start sections) :
    ∃ s ∈ sections, label ∈ s.entries ∧ ∃ k, heading = start + k ∧
      (sectionRows start sections)[k]? = some (Row.mk (.heading s.title) none) := by
  induction sections generalizing start with
  | nil => simp [sectionRows] at h
  | cons s rest ih =>
      rw [sectionRows, List.cons_append] at h
      rw [List.mem_cons, List.mem_append] at h
      rcases h with hhead | hentry | hrest
      · simp at hhead
      · obtain ⟨label', hlabel, heq⟩ := List.mem_map.1 hentry
        obtain ⟨rfl, hheading⟩ := Row.mk.inj heq
        exact ⟨s, List.mem_cons_self, hlabel, 0, (Option.some.inj hheading).symm, rfl⟩
      · obtain ⟨s', hs', hlabel, k, rfl, hk⟩ := ih hrest
        refine ⟨s', List.mem_cons_of_mem _ hs', hlabel,
          1 + s.entries.length + k, by omega, ?_⟩
        have hlength : (Row.mk (.heading s.title) none ::
            s.entries.map (⟨·, some start⟩)).length = 1 + s.entries.length := by
          simp [Nat.add_comm]
        rw [sectionRows, ← hlength, List.getElem?_append_right (Nat.le_add_right _ _)]
        rw [Nat.add_sub_cancel_left, hk]

/-- A row below a heading is that of an entry of the section of the heading. -/
theorem exists_section_of_row (h : t.rows[i]? = some (Row.mk label (some heading))) :
    ∃ s ∈ t.sections, label ∈ s.entries ∧ t.Stands label s.title i heading := by
  cases i with
  | zero => simp [rows] at h
  | succ i =>
      obtain ⟨s, hs, hlabel, k, rfl, hk⟩ :=
        exists_of_mem_sectionRows (List.mem_of_getElem? h)
      refine ⟨s, hs, hlabel, h, ?_⟩
      rw [rows, Nat.add_comm, List.getElem?_cons_succ]
      exact hk

end Rows

section Positions

variable {t : Sidebar} {href : String} {i : Nat}

theorem mem_positionsOf_iff :
    i ∈ t.positionsOf href ↔ ∃ row, t.rows[i]? = some row ∧ row.label.href? = some href := by
  have hbound : ∀ {row}, t.rows[i]? = some row → i < t.rows.length := fun h =>
    (List.getElem?_eq_some_iff.1 h).1
  simp only [positionsOf, positions, label?, List.mem_filter, List.mem_range, beq_iff_eq,
    Option.bind_eq_some_iff, Option.map_eq_some_iff]
  constructor
  · rintro ⟨-, label, ⟨row, hrow, rfl⟩, hhref⟩
    exact ⟨row, hrow, hhref⟩
  · rintro ⟨row, hrow, hhref⟩
    exact ⟨hbound hrow, row.label, ⟨row, hrow, rfl⟩, hhref⟩

end Positions

end Sidebar

namespace View

variable {t : Sidebar} {v : View} {page href title : String}
  {label : Label} {i heading : Nat}

theorem mem_foldl_insert {is js : List Nat} :
    i ∈ is.foldl (fun js i => insert i js) js ↔ i ∈ is ∨ i ∈ js := by
  induction is generalizing js with
  | nil => simp
  | cons j is ih =>
      rw [List.foldl_cons, ih, mem_insert_iff, List.mem_cons, or_left_comm, or_assoc]

/-- Marking a page highlights the rows that lead to it and what stands above them, and
nothing else. -/
theorem isOn_mark_iff : (v.mark t page).isOn i = true ↔
    v.isOn i = true ∨ ∃ j ∈ t.positionsOf page, i ∈ lineage t j := by
  rw [isOn, isOn, mark]
  rw [List.contains_iff_mem, List.contains_iff_mem, mem_foldl_insert]
  rw [List.mem_flatMap, or_comm]

theorem isOn_of_iff :
    (of t page).isOn i = true ↔ ∃ j ∈ t.positionsOf page, i ∈ lineage t j := by
  rw [of, isOn_mark_iff]
  simp [clear, isOn]

/-- A row that leads to a page is highlighted in the view from the page, and so is the
heading above. -/
theorem isOn_of_stands (h : t.Stands label title i heading)
    (hhref : label.href? = some href) :
    (of t href).isOn i = true ∧ (of t href).isOn heading = true := by
  have hposition : i ∈ t.positionsOf href := Sidebar.mem_positionsOf_iff.2 ⟨_, h.row, hhref⟩
  have hparent : t.parent? i = some heading := by
    rw [Sidebar.parent?, h.row]
    rfl
  refine ⟨isOn_of_iff.2 ⟨i, hposition, ?_⟩, isOn_of_iff.2 ⟨i, hposition, ?_⟩⟩
  · exact List.mem_cons_self
  · rw [lineage, hparent]
    simp

end View

namespace Sidebar

section Listing

/-- A symbol is listed in the section of the given title. -/
def Lists (showsLongnames : Bool) (m : Members) (title : String) (l : Listed) : Prop :=
  ∃ ls, (title, ls) ∈ listed showsLongnames m ∧ l ∈ ls

variable {showsLongnames stripsQuotes : Bool} {seen : List String}
  {ms : List Member} {m : Member}
  {gs : List Group} {g : Group} {l : Listed} {longname title : String}

/-- What is listed of a group are its symbols. -/
theorem exists_member_of_mem_ofMembers
    (h : l ∈ (Listed.ofMembers showsLongnames stripsQuotes seen ms).1) :
    ∃ m ∈ ms, m.longname = l.longname := by
  induction ms generalizing seen with
  | nil => simp [Listed.ofMembers] at h
  | cons m ms ih =>
      have htail : ∀ {seen}, l ∈ (Listed.ofMembers showsLongnames stripsQuotes seen ms).1 →
          ∃ m' ∈ m :: ms, m'.longname = l.longname := fun h =>
        (ih h).imp fun m' hm' => ⟨List.mem_cons_of_mem _ hm'.1, hm'.2⟩
      rw [Listed.ofMembers] at h
      split at h
      · rename_i hname
        rcases List.mem_cons.1 h with rfl | h
        · exact ⟨m, List.mem_cons_self, hname⟩
        · exact htail h
      · rename_i hname
        split at h
        · exact htail h
        · rcases List.mem_cons.1 h with rfl | h
          · exact ⟨m, List.mem_cons_self, hname⟩
          · exact htail h

/-- A long name is listed unless it has been listed before. -/
theorem exists_mem_ofMembers (hm : m ∈ ms) (hname : m.longname = some longname) :
    longname ∈ seen ∨
      ∃ l ∈ (Listed.ofMembers showsLongnames stripsQuotes seen ms).1,
      l.longname = some longname := by
  induction ms generalizing seen with
  | nil => simp at hm
  | cons m' ms ih =>
      rw [Listed.ofMembers]
      split
      · rename_i hnone
        rcases List.mem_cons.1 hm with rfl | hm
        · simp [hname] at hnone
        · exact (ih hm).imp_right fun ⟨l, hl, hlongname⟩ =>
            ⟨l, List.mem_cons_of_mem _ hl, hlongname⟩
      · rename_i longname' hsome
        split
        · rename_i hseen
          rcases List.mem_cons.1 hm with rfl | hm
          · obtain rfl := Option.some.inj (hname.symm.trans hsome)
            exact .inl (List.contains_iff_mem.1 hseen)
          · exact ih hm
        · by_cases hsame : longname = longname'
          · subst hsame
            exact .inr ⟨_, List.mem_cons_self, rfl⟩
          · rcases List.mem_cons.1 hm with rfl | hm
            · exact absurd (Option.some.inj (hname.symm.trans hsome)) hsame
            · have hlater : longname ∈ longname' :: seen ∨ _ := ih hm
              rcases hlater with hseen | ⟨l, hl, hlongname⟩
              · exact .inl ((List.mem_cons.1 hseen).resolve_left hsame)
              · exact .inr ⟨l, List.mem_cons_of_mem _ hl, hlongname⟩

/-- The long names that have been listed after a group are those from before and those of the
group. -/
theorem exists_mem_ofMembers_of_seen
    (h : longname ∈ (Listed.ofMembers showsLongnames stripsQuotes seen ms).2) :
    longname ∈ seen ∨
      ∃ l ∈ (Listed.ofMembers showsLongnames stripsQuotes seen ms).1,
      l.longname = some longname := by
  induction ms generalizing seen with
  | nil => exact .inl h
  | cons m ms ih =>
      rw [Listed.ofMembers] at h ⊢
      split at h
      · exact (ih h).imp_right fun ⟨l, hl, hlongname⟩ =>
          ⟨l, List.mem_cons_of_mem _ hl, hlongname⟩
      · rename_i longname' _
        split at h
        · rename_i hseen
          simp only [hseen, if_true]
          exact ih h
        · rename_i hseen
          simp only [hseen]
          rcases ih h with hseen | ⟨l, hl, hlongname⟩
          · rcases List.mem_cons.1 hseen with rfl | hseen
            · exact .inr ⟨_, List.mem_cons_self, rfl⟩
            · exact .inl hseen
          · exact .inr ⟨l, List.mem_cons_of_mem _ hl, hlongname⟩

/-- What is listed in a section are symbols of its group. -/
theorem exists_group_of_mem_listAll {ls : List Listed}
    (h : (title, ls) ∈ listAll showsLongnames seen gs) (hl : l ∈ ls) :
    ∃ g ∈ gs, g.title = title ∧ ∃ m ∈ g.members, m.longname = l.longname := by
  induction gs generalizing seen with
  | nil => simp [listAll] at h
  | cons g gs ih =>
      have hhere : ∀ {stripsQuotes : Bool} {seen : List String},
          (title, ls) =
            (g.title, (Listed.ofMembers showsLongnames stripsQuotes seen g.members).1) →
          ∃ g' ∈ g :: gs, g'.title = title ∧ ∃ m ∈ g'.members, m.longname = l.longname := by
        intro stripsQuotes seen heq
        obtain ⟨rfl, rfl⟩ := Prod.mk.inj heq
        exact ⟨g, List.mem_cons_self, rfl, exists_member_of_mem_ofMembers hl⟩
      have hlater : ∀ {seen : List String}, (title, ls) ∈ listAll showsLongnames seen gs →
          ∃ g' ∈ g :: gs, g'.title = title ∧
          ∃ m ∈ g'.members, m.longname = l.longname := fun h =>
        (ih h).imp fun g' hg' => ⟨List.mem_cons_of_mem _ hg'.1, hg'.2⟩
      rw [listAll] at h
      split at h
      · exact (List.mem_cons.1 h).elim hhere hlater
      · exact (List.mem_cons.1 h).elim hhere hlater

/-- Every long name is listed in a section, unless it has been listed in one that shares
it. -/
theorem exists_mem_listAll (hg : g ∈ gs) (hm : m ∈ g.members)
    (hname : m.longname = some longname) :
    longname ∈ seen ∨
      ∃ p ∈ listAll showsLongnames seen gs, ∃ l ∈ p.2, l.longname = some longname := by
  induction gs generalizing seen with
  | nil => simp at hg
  | cons g' gs ih =>
      have hlater : ∀ {here : String × List Listed} {seen : List String}, g ∈ gs →
          longname ∈ seen ∨
            ∃ p ∈ here :: listAll showsLongnames seen gs, ∃ l ∈ p.2,
            l.longname = some longname :=
        fun hg => (ih hg).imp_right fun ⟨p, hp, hl⟩ => ⟨p, List.mem_cons_of_mem _ hp, hl⟩
      rw [listAll]
      split
      · rcases List.mem_cons.1 hg with rfl | hg
        · exact (exists_mem_ofMembers hm hname).imp_right fun hl =>
            ⟨_, List.mem_cons_self, hl⟩
        · rcases hlater hg with hseen | hlisted
          · exact (exists_mem_ofMembers_of_seen hseen).imp_right fun hl =>
              ⟨_, List.mem_cons_self, hl⟩
          · exact .inr hlisted
      · rcases List.mem_cons.1 hg with rfl | hg
        · refine .inr ⟨_, List.mem_cons_self, ?_⟩
          exact (exists_mem_ofMembers hm hname).resolve_left (List.not_mem_nil)
        · exact hlater hg

variable {members : Members} {r : Registry} {label : Label} {i heading : Nat}

/-- What is listed in a section is a symbol of some group. -/
theorem exists_member_of_lists (h : Lists showsLongnames members title l) :
    ∃ g ∈ groups members, ∃ m ∈ g.members, m.longname = l.longname := by
  obtain ⟨ls, hls, hl⟩ := h
  obtain ⟨g, hg, -, hm⟩ := exists_group_of_mem_listAll hls hl
  exact ⟨g, hg, hm⟩

/-- Every long name of a symbol is listed. -/
theorem exists_lists_of_member (hg : g ∈ groups members) (hm : m ∈ g.members)
    (hname : m.longname = some longname) :
    ∃ title l, Lists showsLongnames members title l ∧ l.longname = some longname := by
  obtain ⟨⟨title, ls⟩, hls, l, hl, hlongname⟩ :=
    (exists_mem_listAll hg hm hname).resolve_left (List.not_mem_nil)
  exact ⟨title, l, ⟨ls, hls, hl⟩, hlongname⟩

/-- What is listed has a row below the heading of its section. -/
theorem exists_stands_of_lists (h : Lists showsLongnames members title l) :
    ∃ i heading, (build showsLongnames members r).Stands (l.label r) title i heading := by
  obtain ⟨ls, hls, hl⟩ := h
  have hentry : l.label r ∈ ls.map (Listed.label r) := List.mem_map_of_mem hl
  refine exists_stands_of_mem (s := ⟨title, ls.map (Listed.label r)⟩)
    (List.mem_filter.2 ⟨?_, ?_⟩) hentry
  · exact List.mem_append_left _ (List.mem_map.2 ⟨_, hls, rfl⟩)
  · simpa using List.ne_nil_of_mem hl

/-- The rows below a heading that is not that of the tutorials show what is listed. -/
theorem exists_lists_of_stands
    (h : (build showsLongnames members r).Stands label title i heading)
    (htitle : title ≠ "Tutorials") :
    ∃ l, Lists showsLongnames members title l ∧ label = l.label r := by
  obtain ⟨s, hs, hlabel, hstands⟩ := exists_section_of_row h.row
  obtain rfl : s.title = title := by
    have hhead := h.head
    rw [hstands.head] at hhead
    simpa using hhead
  rcases List.mem_append.1 (List.mem_filter.1 hs).1 with hlisted | htutorials
  · obtain ⟨⟨title, ls⟩, hls, rfl⟩ := List.mem_map.1 hlisted
    obtain ⟨l, hl, rfl⟩ := List.mem_map.1 hlabel
    exact ⟨l, ⟨ls, hls, hl⟩, rfl⟩
  · rw [List.mem_singleton.1 htutorials] at htitle
    exact absurd rfl htitle

end Listing

end Sidebar
end DocLinks
