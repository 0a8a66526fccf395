import DocLinks.Proofs.CharacterRuns
import DocLinks.Proofs.ParentPages
import DocLinks.Proofs.SidebarRows
import DocLinks.Publication

/-!
# The targets of anchors, as they are read

Whoever reads an anchor takes what stands between the quotes of its target, and puts
characters in place of the entities in it.

**Algorithm.**  References and the rows of the sidebar have their targets escaped.  The
anchors for references to fragments are put together without escaping anything.

**Results.**
* `Html.unescape_escapeAttribute`: escaping is undone by reading.
* `Html.unescape_eq_self_iff`, `Html.escapeAttribute_eq_self_iff`: which values are read, and
  written, as they are.
* `View.woven_render`: the markup of the sidebar has no targets but those of its rows.
* `Publication.targets_read_back`: which anchors lead where they should, in all places that
  write any.
* `Publication.target_cut_off`: an anchor that leads elsewhere.
-/

namespace DocLinks
namespace Html

section Entities

variable {c : Char} {s rest e : List Char} {p : List Char × Char}

/-- The entities of attribute values, and what they stand for. -/
def entities : List (List Char × Char) :=
  [("&amp;".toList, '&'), ("&lt;".toList, '<'), ("&gt;".toList, '>'), ("&quot;".toList, '"')]

/-- Reads an entity, and gives what follows it. -/
def entity? (s : List Char) : Option (Char × List Char) :=
  entities.findSome? fun (e, c) => (Text.after? e s).map fun rest => (c, rest)

theorem exists_of_entity? (h : entity? s = some (c, rest)) :
    ∃ e, (e, c) ∈ entities ∧ s = e ++ rest := by
  obtain ⟨⟨e, d⟩, hmem, hafter⟩ := List.exists_of_findSome?_eq_some h
  obtain ⟨rest', hrest, heq⟩ := Option.map_eq_some_iff.1 hafter
  obtain ⟨rfl, rfl⟩ := Prod.mk.inj heq
  exact ⟨e, hmem, Text.eq_append_of_after? hrest⟩

theorem one_lt_length_of_mem_entities (h : p ∈ entities) : 1 < p.1.length := by
  revert p
  decide

theorem length_lt_of_entity? (h : entity? s = some (c, rest)) :
    rest.length + 1 < s.length := by
  obtain ⟨e, he, rfl⟩ := exists_of_entity? h
  have hlt : 1 < e.length := one_lt_length_of_mem_entities he
  rw [List.length_append]
  omega

/-- Puts characters in place of entities, and leaves all else as it is. -/
def unescape : List Char → List Char
  | [] => []
  | c :: s =>
      match _ : entity? (c :: s) with
      | some (d, rest) => d :: unescape rest
      | none => c :: unescape s
termination_by s => s.length
decreasing_by
  · exact Nat.lt_of_succ_lt (length_lt_of_entity? ‹_›)
  · exact Nat.lt_succ_self _

theorem unescape_of_entity? (h : entity? s = some (c, rest)) :
    unescape s = c :: unescape rest := by
  cases s with
  | nil =>
      have hnone : entity? [] = none := rfl
      cases hnone.symm.trans h
  | cons d s =>
      rw [unescape]
      split <;> simp_all

theorem unescape_of_none (h : entity? (c :: s) = none) :
    unescape (c :: s) = c :: unescape s := by
  rw [unescape]
  split <;> simp_all

theorem entity?_append (h : p ∈ entities) (s : List Char) :
    entity? (p.1 ++ s) = some (p.2, s) := by
  simp only [entities, List.mem_cons, List.not_mem_nil, or_false] at h
  rcases h with rfl | rfl | rfl | rfl <;> rfl

theorem entity?_of_ne (h : c ≠ '&') (s : List Char) : entity? (c :: s) = none := by
  have hne : '&' ≠ c := h.symm
  simp [entity?, entities, Text.after?, hne]

/-- There is an entity at the start of a text if and only if one is read. -/
theorem entity?_eq_none_iff : entity? s = none ↔ ∀ p ∈ entities, ¬p.1 <+: s := by
  constructor
  · rintro hnone p hp ⟨rest, rfl⟩
    rw [entity?_append hp] at hnone
    cases hnone
  · intro hfree
    rw [Option.eq_none_iff_forall_ne_some]
    rintro ⟨c, rest⟩ hsome
    obtain ⟨e, he, rfl⟩ := exists_of_entity? hsome
    exact hfree _ he (List.prefix_append e rest)

/-- A character has an entity, or it is written as it is and starts none. -/
theorem escapeAttributeChar_cases (c : Char) :
    (∃ p ∈ entities, p.2 = c ∧ escapeAttributeChar c = p.1) ∨
      (∀ p ∈ entities, p.2 ≠ c) ∧ escapeAttributeChar c = [c] := by
  by_cases h : c ∈ entities.map (·.2)
  · obtain ⟨p, hp, rfl⟩ := List.mem_map.1 h
    have hescape : ∀ p ∈ entities, escapeAttributeChar p.2 = p.1 := by decide
    exact .inl ⟨p, hp, rfl, hescape p hp⟩
  · refine .inr ⟨fun p hp hc => h (List.mem_map.2 ⟨p, hp, hc⟩), ?_⟩
    unfold escapeAttributeChar
    split <;> simp_all [entities]

theorem unescape_escapeAttributeChar (c : Char) (s : List Char) :
    unescape (escapeAttributeChar c ++ s) = c :: unescape s := by
  rcases escapeAttributeChar_cases c with ⟨p, hp, rfl, hescape⟩ | ⟨hplain, hescape⟩
  · rw [hescape, unescape_of_entity? (entity?_append hp s)]
  · have hne : c ≠ '&' := fun hc => hplain ("&amp;".toList, '&') (by decide) hc.symm
    rw [hescape, List.singleton_append, unescape_of_none (entity?_of_ne hne s)]

/-- An escaped value is read as what was escaped. -/
theorem unescape_escapeAttribute (s : List Char) : unescape (escapeAttribute s) = s := by
  induction s with
  | nil => rw [escapeAttribute, List.flatMap_nil, unescape]
  | cons c s ih =>
      rw [escapeAttribute, List.flatMap_cons, unescape_escapeAttributeChar]
      rw [← escapeAttribute, ih]

theorem length_unescape_le (s : List Char) : (unescape s).length ≤ s.length := by
  fun_induction unescape s with
  | case1 => exact Nat.le_refl _
  | case2 c s d rest h ih =>
      have hlt := length_lt_of_entity? h
      rw [List.length_cons]
      omega
  | case3 c s h ih => exact Nat.succ_le_succ ih

/-- A value is read as it is if and only if there is no entity in it. -/
theorem unescape_eq_self_iff : unescape s = s ↔ ∀ p ∈ entities, ¬p.1 <:+: s := by
  fun_induction unescape s with
  | case1 => decide
  | case2 c s d rest h ih =>
      obtain ⟨e, he, hs⟩ := exists_of_entity? h
      constructor
      · intro heq
        -- Reading an entity makes the value shorter.
        have hlt := length_lt_of_entity? h
        have hle := length_unescape_le rest
        rw [← heq, List.length_cons] at hlt
        omega
      · intro hfree
        exact absurd (hs ▸ List.prefix_append e rest).isInfix (hfree _ he)
  | case3 c s h ih =>
      have hstart := entity?_eq_none_iff.1 h
      rw [List.cons_inj_right, ih]
      simp only [List.infix_cons_iff, not_or]
      exact ⟨fun hfree p hp => ⟨hstart p hp, hfree p hp⟩, fun hfree p hp => (hfree p hp).2⟩

theorem length_escapeAttributeChar_pos (c : Char) : 0 < (escapeAttributeChar c).length := by
  rcases escapeAttributeChar_cases c with ⟨p, hp, -, hescape⟩ | ⟨-, hescape⟩
  · rw [hescape]
    exact Nat.lt_trans Nat.zero_lt_one (one_lt_length_of_mem_entities hp)
  · rw [hescape]
    exact Nat.zero_lt_one

theorem length_le_escapeAttribute (s : List Char) :
    s.length ≤ (escapeAttribute s).length := by
  induction s with
  | nil => exact Nat.le_refl _
  | cons c s ih =>
      have hpos := length_escapeAttributeChar_pos c
      rw [escapeAttribute, List.flatMap_cons, List.length_append]
      rw [← escapeAttribute, List.length_cons]
      omega

/-- A value is written as it is if and only if none of its characters has an entity. -/
theorem escapeAttribute_eq_self_iff : escapeAttribute s = s ↔ ∀ p ∈ entities, p.2 ∉ s := by
  induction s with
  | nil => simp [escapeAttribute]
  | cons c s ih =>
      rw [escapeAttribute, List.flatMap_cons, ← escapeAttribute]
      rcases escapeAttributeChar_cases c with ⟨p, hp, rfl, hescape⟩ | ⟨hplain, hescape⟩
      · have hlt := one_lt_length_of_mem_entities hp
        have hle := length_le_escapeAttribute s
        constructor
        · intro heq
          have hlength := congrArg List.length heq
          rw [hescape, List.length_append, List.length_cons] at hlength
          omega
        · exact fun hfree => absurd List.mem_cons_self (hfree p hp)
      · rw [hescape, List.singleton_append]
        rw [List.cons_inj_right, ih]
        simp only [List.mem_cons, not_or]
        exact ⟨fun hfree p hp => ⟨hplain p hp, hfree p hp⟩, fun hfree p hp => (hfree p hp).2⟩

end Entities

section Values

variable {value back : List Char}

/-- What an anchor starts with. -/
def anchorLead : String :=
  "<a href=\""

/-- What stands between the quotes of the target of an anchor. -/
def hrefValue? (s : List Char) : Option (List Char) :=
  (Text.after? anchorLead.toList s).bind fun rest =>
    (Text.cutAtFirst (· == '"') rest).map (·.1)

/-- The target of an anchor, as it is read. -/
def target? (s : List Char) : Option (List Char) :=
  (hrefValue? s).map unescape

theorem hrefValue?_of_quote_not_mem (h : '"' ∉ value) (back : List Char) :
    hrefValue? (anchorLead.toList ++ (value ++ '"' :: back)) = some value := by
  have hfree : ∀ c ∈ value, (c == '"') = false := by
    intro c hc
    have : c ≠ '"' := by
      rintro rfl
      exact h hc
    simpa using this
  rw [hrefValue?, Text.after?_append]
  rw [Option.bind_some, Text.cutAtFirst_append hfree (by rfl)]
  rfl

/-- A value with a quote in it is cut off there. -/
theorem exists_hrefValue?_of_quote_mem (h : '"' ∈ value) (back : List Char) :
    ∃ start, hrefValue? (anchorLead.toList ++ (value ++ '"' :: back)) = some start ∧
      start.length < value.length := by
  obtain ⟨start, rest, rfl, hstart⟩ := List.eq_append_cons_of_mem h
  refine ⟨start, ?_, ?_⟩
  · rw [List.append_assoc, List.cons_append]
    exact hrefValue?_of_quote_not_mem hstart _
  · rw [List.length_append, List.length_cons]
    omega

/-- An anchor has its target between its quotes, in its escaped form. -/
theorem hrefValue?_anchor (href content : String) (back : List Char) :
    hrefValue? ((anchor href content).toList ++ back) =
      some (escapeAttribute href.toList) := by
  have hclose : "\">".toList = ['"', '>'] := by decide
  simp only [anchor, attributeValue, String.toList_append, String.toList_ofList,
    List.append_assoc, hclose, List.cons_append]
  exact hrefValue?_of_quote_not_mem (escapeAttribute_no_quote _) _

theorem target?_anchor (href content : String) (back : List Char) :
    target? ((anchor href content).toList ++ back) = some href.toList := by
  rw [target?, hrefValue?_anchor]
  rw [Option.map_some, unescape_escapeAttribute]

/-- A target that is written as it is leads where it should if and only if it has neither
quotes nor entities in it. -/
theorem target?_raw_iff :
    target? (anchorLead.toList ++ (value ++ '"' :: back)) = some value ↔
    '"' ∉ value ∧ ∀ p ∈ entities, ¬p.1 <:+: value := by
  by_cases h : '"' ∈ value
  · obtain ⟨start, hstart, hlt⟩ := exists_hrefValue?_of_quote_mem h back
    have hle := length_unescape_le start
    have hne : unescape start ≠ value := by
      rintro rfl
      omega
    rw [target?, hstart]
    rw [Option.map_some, Option.some.injEq]
    exact iff_of_false hne fun hfree => hfree.1 h
  · rw [target?, hrefValue?_of_quote_not_mem h, Option.map_some]
    rw [Option.some.injEq, unescape_eq_self_iff]
    exact (and_iff_right h).symm

/-- A target that is written as it is stands there in its escaped form if and only if none of
its characters has an entity. -/
theorem hrefValue?_raw_iff :
    hrefValue? (anchorLead.toList ++ (value ++ '"' :: back)) = some (escapeAttribute value) ↔
      ∀ p ∈ entities, p.2 ∉ value := by
  by_cases h : '"' ∈ value
  · obtain ⟨start, hstart, hlt⟩ := exists_hrefValue?_of_quote_mem h back
    have hle := length_le_escapeAttribute value
    have hne : start ≠ escapeAttribute value := by
      rintro rfl
      omega
    rw [hstart, Option.some.injEq]
    exact iff_of_false hne fun hfree => hfree ("&quot;".toList, '"') (by decide) h
  · rw [hrefValue?_of_quote_not_mem h, Option.some.injEq]
    rw [eq_comm, escapeAttribute_eq_self_iff]

end Values

end Html

namespace View

section Render

variable {t : Sidebar} {v : View} {l : Label} {ls ls' : List Label}
  {s s' gap : List Char} {i : Nat}

/-- Markup in which labels stand in their order, and that has no targets besides them: what
stands between the labels lacks a letter of `href`. -/
inductive Woven : List Label → List Char → Prop
  | done {gap : List Char} : 'h' ∉ gap → Woven [] gap
  | label {gap s : List Char} {l : Label} {ls : List Label} :
      'h' ∉ gap → Woven ls s → Woven (l :: ls) (gap ++ ((labelHtml l).toList ++ s))

theorem Woven.prepend (hgap : 'h' ∉ gap) (h : Woven ls s) : Woven ls (gap ++ s) := by
  cases h with
  | done hend => exact .done (by simp [hgap, hend])
  | label hstart h =>
      rw [← List.append_assoc]
      exact .label (by simp [hgap, hstart]) h

theorem Woven.append (h : Woven ls s) (h' : Woven ls' s') : Woven (ls ++ ls') (s ++ s') := by
  induction h with
  | done hgap => exact h'.prepend hgap
  | label hgap _ ih =>
      rw [List.append_assoc, List.append_assoc]
      exact .label hgap ih

/-- Labels stay in their order between other markup. -/
theorem Woven.enclose (h : Woven ls s) (front back : String) (hfront : 'h' ∉ front.toList)
    (hback : 'h' ∉ back.toList) : Woven ls (front.toList ++ (s ++ back.toList)) := by
  have hend := h.append (.done hback)
  rw [List.append_nil] at hend
  exact hend.prepend hfront

/-- Every label has its place, behind those before it and in front of those after it. -/
theorem Woven.exists_of_getElem? (h : Woven ls s) (hl : ls[i]? = some l) :
    ∃ front back, s = front ++ ((labelHtml l).toList ++ back) ∧
      Woven (ls.take i) front ∧ Woven (ls.drop (i + 1)) back := by
  induction h generalizing i with
  | done _ => simp at hl
  | @label gap s l' ls hgap h ih =>
      cases i with
      | zero =>
          obtain rfl := Option.some.inj hl
          exact ⟨gap, s, rfl, .done hgap, h⟩
      | succ i =>
          obtain ⟨front, back, rfl, hfront, hback⟩ := ih hl
          exact ⟨gap ++ ((labelHtml l').toList ++ front), back, by simp,
            .label hgap hfront, hback⟩

theorem not_mem_openRow (c : Bool) : 'h' ∉ (openRow "nav__item" c).toList ∧
    'h' ∉ (openRow "nav__sub-item" c).toList := by
  revert c
  decide

theorem woven_renderEntries (v : View) (start : Nat) (ls : List Label) :
    Woven ls (renderEntries v start ls).toList := by
  induction ls generalizing start with
  | nil => exact .done List.not_mem_nil
  | cons l ls ih =>
      simp only [renderEntries, String.toList_append, List.append_assoc]
      exact .label (not_mem_openRow _).2 ((ih (start + 1)).prepend (by decide))

theorem woven_renderSections (v : View) (start : Nat) (sections : List Section) :
    Woven (sections.flatMap fun s => .heading s.title :: s.entries)
      (renderSections v start sections).toList := by
  induction sections generalizing start with
  | nil => exact .done List.not_mem_nil
  | cons s rest ih =>
      have hentries : Woven s.entries
          (if s.entries.isEmpty then ""
            else "<ul class=\"nav__sub-items\">" ++ renderEntries v (start + 1) s.entries ++
              "</ul>").toList := by
        split
        · rename_i hempty
          rw [List.isEmpty_iff.1 hempty]
          exact .done List.not_mem_nil
        · rw [String.toList_append, String.toList_append, List.append_assoc]
          exact (woven_renderEntries v (start + 1) s.entries).enclose _ _
            (by decide) (by decide)
      have hclose : 'h' ∉ "</li>".toList := by decide
      have hrest := (ih (start + 1 + s.entries.length)).prepend hclose
      simp only [renderSections, String.toList_append, List.append_assoc, List.flatMap_cons,
        List.cons_append]
      exact .label (not_mem_openRow _).1 (hentries.append hrest)

theorem map_label_rows (t : Sidebar) : t.rows.map (·.label) =
    Sidebar.home :: t.sections.flatMap fun s => .heading s.title :: s.entries := by
  have hsections : ∀ (start : Nat) (sections : List Section),
      (Sidebar.sectionRows start sections).map (·.label) =
        sections.flatMap fun s => .heading s.title :: s.entries := by
    intro start sections
    induction sections generalizing start with
    | nil => rfl
    | cons s rest ih => simp [Sidebar.sectionRows, ih, Function.comp_def]
  rw [Sidebar.rows, List.map_cons, hsections]

/-- The labels of all rows stand in the markup in their order, and it has no targets besides
them. -/
theorem woven_render (t : Sidebar) (v : View) :
    Woven (t.rows.map (·.label)) (render t v).toList := by
  have hsections :=
    (woven_renderSections v 1 t.sections).enclose "</li>" "\n</ol>" (by decide) (by decide)
  have hopen : 'h' ∉ "<ol>".toList := by decide
  have hrow :=
    (Woven.label (l := Sidebar.home) (not_mem_openRow (v.isOn 0)).1 hsections).prepend hopen
  rw [map_label_rows]
  simpa only [render, String.toList_append, List.append_assoc] using hrow

end Render

end View

namespace Publication

open Html

section Fragments

variable {url hash : String} {back : List Char}

theorem quote_not_mem_pageOf_createLink (r : Registry) (d : Doclet) :
    '"' ∉ (Registry.pageOf (r.createLink d).1).toList := by
  rw [Registry.pageOf_createLink_eq]
  exact Percent.not_mem_encode (by decide) (by decide) (by decide) _

/-- References to fragments become anchors on the page of the doclet; all others are kept. -/
theorem see_prepare (r : Registry) (d : Doclet) : (prepare r d).1.see = d.see.map fun see =>
    if isHashLink see then hashLink (r.createLink (tidy d)).1 see else see := by
  by_cases hsee : d.see.any isHashLink = true
  · have hprepare : (prepare r d).1 = linkFragments (r.createLink (tidy d)).1 (tidy d) := by
      unfold prepare
      exact congrArg Prod.fst (if_pos hsee)
    rw [hprepare]
    rfl
  · have hprepare : (prepare r d).1 = tidy d := by
      unfold prepare
      exact congrArg Prod.fst (if_neg hsee)
    have hkept : ∀ see ∈ d.see, isHashLink see = false := by simpa using hsee
    rw [hprepare]
    refine (List.map_id d.see).symm.trans (List.map_congr_left fun see hmem => ?_)
    rw [hkept see hmem]
    rfl

theorem exists_toList_hashLink (url hash : String) (back : List Char) :
    ∃ rest, (hashLink url hash).toList ++ back =
      anchorLead.toList ++ ((Registry.pageOf url ++ hash).toList ++ '"' :: rest) := by
  have hclose : "\">".toList = ['"', '>'] := by decide
  refine ⟨'>' :: (hash.toList ++ ("</a>".toList ++ back)), ?_⟩
  simp only [hashLink, anchorLead, String.toList_append, List.append_assoc, hclose,
    List.cons_append, List.nil_append]

theorem target?_hashLink_iff (hurl : '"' ∉ (Registry.pageOf url).toList) :
    target? ((hashLink url hash).toList ++ back) =
      some (Registry.pageOf url ++ hash).toList ↔
      '"' ∉ hash.toList ∧ ∀ p ∈ entities,
      ¬p.1 <:+: (Registry.pageOf url ++ hash).toList := by
  obtain ⟨rest, hrest⟩ := exists_toList_hashLink url hash back
  rw [hrest, target?_raw_iff, String.toList_append]
  rw [List.mem_append, not_or]
  rw [and_assoc, and_iff_right hurl]

theorem hrefValue?_hashLink_iff :
    hrefValue? ((hashLink url hash).toList ++ back) =
        some (escapeAttribute (Registry.pageOf url ++ hash).toList) ↔
      ∀ p ∈ entities, p.2 ∉ (Registry.pageOf url ++ hash).toList := by
  obtain ⟨rest, hrest⟩ := exists_toList_hashLink url hash back
  rw [hrest, hrefValue?_raw_iff]

/-- The anchors of references, and of the rows of the sidebar, have their whole targets
between their quotes, escaped, and are read as leading there; the rows come in their order.
An anchor for a reference to a fragment is read as leading to the fragment on the page of its
doclet if and only if there is no quote in the fragment, and no entity in the target; and the
target stands there in its escaped form if and only if none of its characters has an
entity. -/
theorem targets_read_back (r : Registry) (d : Doclet) (t : Sidebar) (v : View) :
    let url := (r.createLink (tidy d)).1
    let labels := t.rows.map (·.label)
    (∀ href text back,
      hrefValue? ((Reference.link href text).html.toList ++ back) =
        some (escapeAttribute href.toList) ∧
      target? ((Reference.link href text).html.toList ++ back) = some href.toList) ∧
    View.Woven labels (View.render t v).toList ∧
    (∀ i href html, t.label? i = some (.link href html) → ∃ front back,
      (View.render t v).toList = front ++ back ∧ View.Woven (labels.take i) front ∧
      hrefValue? back = some (escapeAttribute href.toList) ∧
        target? back = some href.toList) ∧
    ((prepare r d).1.see = d.see.map fun see => if isHashLink see
      then hashLink url see else see) ∧
    ∀ hash back,
      let target := (Registry.pageOf url ++ hash).toList
      (target? ((hashLink url hash).toList ++ back) = some target ↔
        '"' ∉ hash.toList ∧ ∀ p ∈ entities, ¬p.1 <:+: target) ∧
      (hrefValue? ((hashLink url hash).toList ++ back) = some (escapeAttribute target) ↔
        ∀ p ∈ entities, p.2 ∉ target) := by
  intro url labels
  have hpage : '"' ∉ (Registry.pageOf url).toList :=
    quote_not_mem_pageOf_createLink r (tidy d)
  refine ⟨fun href text back => ⟨hrefValue?_anchor href text back,
    target?_anchor href text back⟩,
    View.woven_render t v, fun i href html hlabel => ?_, see_prepare r d,
    fun hash back => ⟨target?_hashLink_iff hpage, hrefValue?_hashLink_iff⟩⟩
  have hl : labels[i]? = some (.link href html) := by
    rw [List.getElem?_map]
    exact hlabel
  obtain ⟨front, back, hrender, hfront, -⟩ := (View.woven_render t v).exists_of_getElem? hl
  exact ⟨front, _, hrender, hfront, hrefValue?_anchor href html back,
    target?_anchor href html back⟩

/-- A quote in a reference to a fragment ends the target of its anchor, which leads to
another fragment. -/
theorem target_cut_off :
    let d : Doclet :=
      { longname := "f", kind := .function, name := some "f", see := ["#a\"b"] }
    let url := (Registry.new.createLink (tidy d)).1
    let seen := (prepare Registry.new d).1.see
    seen = ["<a href=\"global.html#a\"b\">#a\"b</a>"] ∧ isHashLink "#a\"b" = true ∧
      seen = [hashLink url "#a\"b"] ∧ Registry.pageOf url ++ "#a\"b" = "global.html#a\"b" ∧
      (∀ see ∈ seen, target? see.toList = some "global.html#a".toList ∧
        target? see.toList ≠ some "global.html#a\"b".toList) := by
  decide +kernel

end Fragments

end Publication
end DocLinks
