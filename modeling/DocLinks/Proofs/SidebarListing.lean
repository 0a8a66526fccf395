import DocLinks.Proofs.SidebarForest

/-!
# Everything is listed once

A symbol is listed in the first place where its long name is met, among its own group and the
groups in front of it that share their long names with it.  Symbols without a long name are
never taken for repetitions.

**Results.**
* `filterMap_unrepeated`, `unrepeated_append`: what is left when repetitions are left out.
* `ofMembers_eq`, `listed_eq`, `listedTutorials_eq`: what is listed in each section.
* `lists_each_once`: the sidebar lists everything once, and its rows are a forest in
  pre-order.
-/

namespace DocLinks

section Repetitions

variable {α : Type} (name? : α → Option String)

/-- What is left of the values that stand behind others when repetitions are left out: values
without a name, and those whose name is that of no value in front of them. -/
def unrepeated (before l : List α) : List α :=
  (l.zipIdx.filter fun (a, k) =>
    (name? a).all fun name => !((before ++ l.take k).filterMap name?).contains name).map
      (·.1)

/-- Whether the name of a value is not that of others. -/
def isNew (before : List α) (a : α) : Bool :=
  (name? a).all fun name => !(before.filterMap name?).contains name

theorem unrepeated_nil (before : List α) : unrepeated name? before [] = [] := rfl

theorem unrepeated_cons (before : List α) (a : α) (l : List α) :
    unrepeated name? before (a :: l) =
      (if isNew name? before a then [a] else []) ++ unrepeated name? (before ++ [a]) l := by
  have htake : ∀ k, before ++ (a :: l).take (k + 1) = before ++ [a] ++ l.take k := by
    intro k
    rw [List.take_succ_cons, List.append_assoc, List.singleton_append]
  unfold unrepeated isNew
  rw [List.zipIdx_cons', List.filter_cons, List.filter_map]
  simp only [List.take_zero, List.append_nil, Function.comp_def, Prod.map_fst,
    Prod.map_snd, id_eq, htake]
  split <;> simp [Function.comp_def]

/-- Repetitions in a list that goes on are told by all that is in front of them. -/
theorem unrepeated_append (before l m : List α) :
    unrepeated name? before (l ++ m) =
      unrepeated name? before l ++ unrepeated name? (before ++ l) m := by
  induction l generalizing before with
  | nil => rw [List.nil_append, List.append_nil, unrepeated_nil, List.nil_append]
  | cons a l ih =>
      rw [List.cons_append, unrepeated_cons, unrepeated_cons]
      rw [ih, List.append_assoc]
      rw [List.append_assoc, List.singleton_append]

/-- Values without a name are all left, in their order. -/
theorem filter_unrepeated (before l : List α) :
    (unrepeated name? before l).filter (fun a => (name? a).isNone) =
      l.filter fun a => (name? a).isNone := by
  induction l generalizing before with
  | nil => rfl
  | cons a l ih =>
      rw [unrepeated_cons, List.filter_append]
      rw [ih, List.filter_cons]
      cases hname : name? a with
      | none => simp [isNew, hname]
      | some name => split <;> simp [hname]

/-- Of names that are not seen before, the first one is left out further on. -/
theorem eraseDups_removeAll_cons (seen : List String) (name : String) (names : List String) :
    ((name :: names).removeAll seen).eraseDups =
      (if seen.contains name then [] else [name]) ++
      (names.removeAll (seen ++ [name])).eraseDups := by
  have hremove : names.removeAll (seen ++ [name]) =
      (names.removeAll seen).filter (fun other => !other == name) := by
    simp only [List.removeAll, List.filter_filter, List.elem_eq_contains]
    refine List.filter_congr fun other _ => ?_
    rw [Bool.eq_iff_iff]
    simp [and_comm]
  rw [hremove, List.removeAll, List.filter_cons]
  rw [List.elem_eq_contains, ← List.removeAll]
  cases hseen : seen.contains name with
  | true =>
      have hother : ∀ other ∈ names.removeAll seen, (!other == name) = true := by
        intro other hother
        have hnew := (List.mem_filter.1 hother).2
        rw [Bool.not_eq_true', beq_eq_false_iff_ne]
        rintro rfl
        rw [List.elem_eq_contains, hseen] at hnew
        simp at hnew
      rw [List.filter_eq_self.2 hother]
      rfl
  | false =>
      rw [Bool.not_false, if_pos rfl, List.eraseDups_cons]
      rfl

/-- The names that are left are the names behind the others, each once. -/
theorem filterMap_unrepeated (before l : List α) :
    (unrepeated name? before l).filterMap name? =
      ((l.filterMap name?).removeAll (before.filterMap name?)).eraseDups := by
  induction l generalizing before with
  | nil => rfl
  | cons a l ih =>
      rw [unrepeated_cons, List.filterMap_append]
      rw [ih, List.filterMap_append]
      cases hname : name? a with
      | none => simp [isNew, hname]
      | some name =>
          have hone : [a].filterMap name? = [name] := by simp [hname]
          rw [hone, List.filterMap_cons_some hname, eraseDups_removeAll_cons]
          rw [isNew, hname, Option.all_some]
          cases (before.filterMap name?).contains name
          · rw [Bool.not_false, if_pos rfl, hone]
            rfl
          · rfl

variable {name? : α → Option String} {seen : List String} {before : List α}
  {a : α} {name : String}

variable (name?) in
/-- The names that have been noted are those of the given values. -/
def Noted (seen : List String) (before : List α) : Prop :=
  ∀ name, seen.contains name = (before.filterMap name?).contains name

theorem Noted.isNew_eq (h : Noted name? seen before) (hname : name? a = some name) :
    isNew name? before a = !seen.contains name := by
  rw [isNew, hname]
  rw [Option.all_some, h name]

theorem Noted.anonymous (h : Noted name? seen before) (hname : name? a = none) :
    Noted name? seen (before ++ [a]) := by
  intro name
  rw [h name, List.filterMap_append]
  simp [hname]

theorem Noted.again (h : Noted name? seen before) (hname : name? a = some name)
    (hseen : seen.contains name = true) : Noted name? seen (before ++ [a]) := by
  have hone : [a].filterMap name? = [name] := by simp [hname]
  intro other
  rw [h name] at hseen
  rw [h other, List.filterMap_append]
  rw [List.contains_append, hone]
  by_cases hsame : other = name
  · rw [hsame, hseen, Bool.true_or]
  · simp [hsame]

theorem Noted.first (h : Noted name? seen before) (hname : name? a = some name) :
    Noted name? (name :: seen) (before ++ [a]) := by
  have hone : [a].filterMap name? = [name] := by simp [hname]
  intro other
  rw [List.contains_cons, h other, List.filterMap_append]
  rw [List.contains_append, hone, List.contains_cons]
  rw [List.contains_nil, Bool.or_false, Bool.or_comm]

end Repetitions

namespace Listed

variable {showsLongnames stripsQuotes : Bool} {seen : List String} {before : List Member}

/-- How a symbol is listed. -/
def ofMember (showsLongnames stripsQuotes : Bool) (m : Member) : Listed :=
  ⟨m.longname, (m.longname.map (displayOf showsLongnames stripsQuotes · m)).getD m.name⟩

/-- What is listed of a group is what is new in it, and its long names have been listed
afterwards. -/
theorem ofMembers_eq (showsLongnames stripsQuotes : Bool)
    (h : Noted Member.longname seen before)
    (ms : List Member) :
    (ofMembers showsLongnames stripsQuotes seen ms).1 =
        (unrepeated Member.longname before ms).map (ofMember showsLongnames stripsQuotes) ∧
      Noted Member.longname (ofMembers showsLongnames stripsQuotes seen ms).2
        (before ++ ms) := by
  induction ms generalizing seen before with
  | nil => exact ⟨rfl, by rwa [List.append_nil]⟩
  | cons m ms ih =>
      have happend : before ++ m :: ms = before ++ [m] ++ ms := by
        rw [List.append_assoc, List.singleton_append]
      rw [ofMembers, unrepeated_cons, happend]
      cases hname : m.longname with
      | none =>
          obtain ⟨hrest, hseen⟩ := ih (h.anonymous hname)
          refine ⟨?_, hseen⟩
          have hnew : isNew Member.longname before m = true := by
            rw [isNew, hname, Option.all_none]
          have hone : ofMember showsLongnames stripsQuotes m = ⟨none, m.name⟩ := by
            rw [ofMember, hname]
            rw [Option.map_none, Option.getD_none]
          rw [hnew, if_pos rfl, List.singleton_append]
          rw [List.map_cons, ← hrest, hone]
      | some longname =>
          have hnew := h.isNew_eq hname
          dsimp only
          split
          · rename_i hlisted
            obtain ⟨hrest, hseen⟩ := ih (h.again hname hlisted)
            refine ⟨?_, hseen⟩
            rw [hnew, hlisted]
            exact hrest
          · rename_i hlisted
            obtain ⟨hrest, hseen⟩ := ih (h.first hname)
            refine ⟨?_, hseen⟩
            have hone : ofMember showsLongnames stripsQuotes m =
                ⟨some longname, displayOf showsLongnames stripsQuotes longname m⟩ := by
              rw [ofMember, hname]
              rw [Option.map_some, Option.getD_some]
            rw [hnew, Bool.eq_false_of_not_eq_true hlisted, Bool.not_false]
            rw [if_pos rfl, List.singleton_append, List.map_cons]
            rw [← hrest, hone]

end Listed

namespace Sidebar

variable {showsLongnames : Bool} {seen : List String}
  {before ms : List Member} {title : String}
  {gs : List Group}

theorem listAll_shared (showsLongnames : Bool) (h : Noted Member.longname seen before) :
    ∃ seen', Noted Member.longname seen' (before ++ ms) ∧
      listAll showsLongnames seen (⟨title, ms, true⟩ :: gs) =
        (title, (unrepeated Member.longname before ms).map
          (Listed.ofMember showsLongnames false)) ::
          listAll showsLongnames seen' gs := by
  obtain ⟨hlisted, hseen⟩ := Listed.ofMembers_eq showsLongnames false h ms
  refine ⟨_, hseen, ?_⟩
  rw [listAll, if_pos rfl, ← hlisted]

theorem listAll_own :
    listAll showsLongnames seen (⟨title, ms, false⟩ :: gs) =
      (title, (unrepeated Member.longname [] ms).map
        (Listed.ofMember showsLongnames true)) ::
        listAll showsLongnames seen gs := by
  have hnone : Noted Member.longname [] [] := fun _ => rfl
  rw [listAll, if_neg Bool.false_ne_true]
  rw [← (Listed.ofMembers_eq showsLongnames true hnone ms).1]

/-- The symbols that each section lists.  Externals have their long names to themselves; in
the other groups the first place of a long name counts. -/
def plan (m : Members) : List (String × List Member) :=
  let new := unrepeated Member.longname
  [("Modules", new [] m.modules),
   ("Externals", new [] m.externals),
   ("Namespaces", new m.modules m.namespaces),
   ("Classes", new (m.modules ++ m.namespaces) m.classes),
   ("Interfaces", new (m.modules ++ m.namespaces ++ m.classes) m.interfaces),
   ("Events", new (m.modules ++ m.namespaces ++ m.classes ++ m.interfaces) m.events),
   ("Mixins", new (m.modules ++ m.namespaces ++ m.classes ++ m.interfaces ++
     m.events) m.mixins)]

/-- Whether a section has long names to itself. -/
def isOwn (title : String) : Bool :=
  title == "Externals"

theorem listed_eq (showsLongnames : Bool) (m : Members) :
    listed showsLongnames m = (plan m).map fun (title, ms) =>
      (title, ms.map (Listed.ofMember showsLongnames (isOwn title))) := by
  have hstart : Noted Member.longname [] [] := fun _ => rfl
  obtain ⟨_, hmodules, hfirst⟩ := listAll_shared showsLongnames hstart
  obtain ⟨_, hnamespaces, hsecond⟩ := listAll_shared showsLongnames hmodules
  obtain ⟨_, hclasses, hthird⟩ := listAll_shared showsLongnames hnamespaces
  obtain ⟨_, hinterfaces, hfourth⟩ := listAll_shared showsLongnames hclasses
  obtain ⟨_, hevents, hfifth⟩ := listAll_shared showsLongnames hinterfaces
  obtain ⟨_, -, hsixth⟩ := listAll_shared showsLongnames hevents
  rw [listed, groups, hfirst]
  rw [listAll_own, hsecond, hthird]
  rw [hfourth, hfifth, hsixth]
  rfl

/-- The tutorials that are listed are the first ones of their names. -/
theorem listedTutorials_eq {before : List Tutorial}
    (h : Noted (fun t => some t.name) seen before)
    (ts : List Tutorial) :
    listedTutorials seen ts = unrepeated (fun t => some t.name) before ts := by
  induction ts generalizing seen before with
  | nil => rfl
  | cons t ts ih =>
      rw [listedTutorials, unrepeated_cons, h.isNew_eq rfl]
      cases hseen : seen.contains t.name with
      | true =>
          rw [if_pos rfl, ih (h.again rfl hseen)]
          rfl
      | false =>
          rw [if_neg Bool.false_ne_true, ih (h.first rfl)]
          rfl

/-- The symbols of the sections that share long names, in the order of the sections. -/
theorem flatMap_plan (m : Members) :
    ((plan m).filter fun (title, _) => !isOwn title).flatMap (·.2) =
      unrepeated Member.longname []
        (m.modules ++ m.namespaces ++ m.classes ++ m.interfaces ++
          m.events ++ m.mixins) := by
  have hshared : (plan m).filter (fun (title, _) => !isOwn title) = (plan m).eraseIdx 1 := by
    simp [plan, isOwn]
  rw [hshared]
  simp only [unrepeated_append, List.nil_append, plan, List.eraseIdx_cons_succ,
    List.eraseIdx_cons_zero, List.flatMap_cons, List.flatMap_nil, List.append_nil,
    List.append_assoc]

theorem filterMap_some_name (ts : List Tutorial) :
    ts.filterMap (fun t => some t.name) = ts.map (·.name) := by
  rw [← List.filterMap_eq_map]
  rfl

/-- The sidebar lists everything once.  Its sections come in a fixed order, and only those
with entries.  In the six groups that share their long names, the long names that are listed
are those of all six groups, each once, in the order in which they are first met; externals
and tutorials have their names to themselves.  All symbols without a long name are listed in
their places.  The rows are a forest in pre-order: every position is once a root or below one
row.  The roots are the link to the home page and the headings of the sections, which have
their entries below them. -/
theorem lists_each_once (showsLongnames : Bool) (m : Members) (r : Registry) :
    let t := build showsLongnames m r
    let a := Arena.build showsLongnames m r
    let shared :=
      m.modules ++ m.namespaces ++ m.classes ++ m.interfaces ++ m.events ++ m.mixins
    let inSections := ((plan m).filter fun (title, _) => !isOwn title).flatMap (·.2)
    let externals := unrepeated Member.longname [] m.externals
    let tutorials := unrepeated (fun t => some t.name) [] m.tutorials
    (t.sections =
      ((plan m).map (fun ((title, ms) : String × List Member) => Section.mk title
          (ms.map fun x => (Listed.ofMember showsLongnames (isOwn title) x).label r)) ++
        [Section.mk "Tutorials" (tutorials.map (tutorialLabel r))]).filter
          fun s => !s.entries.isEmpty) ∧
    inSections = unrepeated Member.longname [] shared ∧
    inSections.filterMap (·.longname) = (shared.filterMap (·.longname)).eraseDups ∧
    inSections.filter (·.longname.isNone) = shared.filter (·.longname.isNone) ∧
    externals.filterMap (·.longname) = (m.externals.filterMap (·.longname)).eraseDups ∧
    externals.filter (·.longname.isNone) = m.externals.filter (·.longname.isNone) ∧
    tutorials.map (·.name) = (m.tutorials.map (·.name)).eraseDups ∧
    a.Forest ∧ (a.roots ++ a.children.flatten).Perm (List.range a.size) ∧
    a.outline = (some home, []) :: t.sections.map Arena.sectionOutline ∧
    (∀ s ∈ t.sections, s.entries ≠ []) ∧
    a.rows = t.rows ∧ (∀ i, a.childrenOf i = t.children i) ∧ a.roots = t.roots := by
  intro t a shared inSections externals tutorials
  have hforest : a.Forest := Arena.forest_ofSections _
  have hsections : inSections = unrepeated Member.longname [] shared := flatMap_plan m
  have hnames : ∀ ms : List Member,
      (unrepeated Member.longname [] ms).filterMap (·.longname) =
      (ms.filterMap (·.longname)).eraseDups := by
    intro ms
    rw [filterMap_unrepeated, List.filterMap_nil, List.removeAll_nil]
  refine ⟨?_, hsections, ?_, ?_, hnames m.externals, filter_unrepeated _ _ _, ?_, hforest,
    hforest.once, Arena.outline_ofSections _, fun s hs => entries_ne_nil hs,
    Arena.rows_build showsLongnames m r, Arena.childrenOf_build showsLongnames m r,
    Arena.roots_build showsLongnames m r⟩
  · have hnone : Noted (fun t : Tutorial => some t.name) [] [] := fun _ => rfl
    have htutorials : listedTutorials [] m.tutorials = tutorials :=
      listedTutorials_eq hnone _
    have hlisted := listed_eq showsLongnames m
    simp only [t, build, allSections, hlisted, htutorials, List.map_map, Function.comp_def]
  · rw [hsections, hnames]
  · rw [hsections, filter_unrepeated]
  · have htutorials := filterMap_unrepeated (fun t : Tutorial => some t.name) [] m.tutorials
    rw [List.filterMap_nil, List.removeAll_nil] at htutorials
    rwa [filterMap_some_name, filterMap_some_name] at htutorials

end Sidebar
end DocLinks
