import DocLinks.Members
import DocLinks.Registry

/-!
# The pages of a documentation

The pages to be generated: the home page, the page of global symbols if there are any, one
for every container and label, one for every tutorial and one for every source file.

**Results.**
* `exists_entry_of_mem_containers`: the page of a container is that of an entry which is no
  alias.
* `filter_named_all`: only the global page and those of containers document a long name.
-/

namespace DocLinks

/-- A page to be generated, with the long name that it documents, if it does. -/
structure Page where
  title : String
  filename : String
  longname : Option String := none
  deriving DecidableEq, Repr, Inhabited

/-- A source file that is listed: its path, the path without the directories that all source
files share, and the file of its page. -/
structure SourceFile where
  path : String
  shortpath : String
  filename : String
  deriving DecidableEq, Repr, Inhabited

namespace Page

/-- The home page. -/
def home : Page := ⟨"Home", Registry.indexUrl, none⟩

/-- The page of the global symbols, if there are any. -/
def globals (r : Registry) (m : Members) : List Page :=
  if m.globals.isEmpty then [] else [⟨"Global", r.globalUrl, some Registry.globalName⟩]

/-- The pages of a registered name: one for each label under which it is found, titled by the
first symbol of that name. -/
def ofEntry (m : Members) (e : Entry) : List Page :=
  m.containers.filterMap fun (label, group) =>
    (group.find? fun member => member.longname == some e.name).map fun member =>
      ⟨label ++ ": " ++ member.name, e.url, some e.name⟩

/-- The pages of all containers, in the order of the registration. -/
def containers (r : Registry) (m : Members) : List Page :=
  (r.entries.filter fun e => !e.isAlias).flatMap (ofEntry m)

/-- The pages of tutorials. -/
def tutorials (r : Registry) (ts : List Tutorial) : List Page :=
  (Tutorial.walkAll ts).filterMap fun t =>
    (r.tutorial? t.name).map fun page => ⟨"Tutorial: " ++ page.title, page.url, none⟩

/-- The pages of source files. -/
def sources (files : List SourceFile) : List Page :=
  files.map fun file => ⟨"Source: " ++ file.shortpath, file.filename, none⟩

/-- All pages. -/
def all (r : Registry) (m : Members) (ts : List Tutorial)
    (files : List SourceFile) : List Page :=
  home :: globals r m ++ containers r m ++ tutorials r ts ++ sources files

theorem longname_of_mem_ofEntry {m : Members} {e : Entry} {p : Page} (h : p ∈ ofEntry m e) :
    p.longname = some e.name ∧ p.filename = e.url := by
  simp only [ofEntry, List.mem_filterMap, Option.map_eq_some_iff] at h
  obtain ⟨_, _, _, _, rfl⟩ := h
  exact ⟨rfl, rfl⟩

theorem exists_entry_of_mem_containers {r : Registry} {m : Members} {p : Page}
    (h : p ∈ containers r m) :
    ∃ e ∈ r.entries, e.isAlias = false ∧ p.longname = some e.name ∧ p.filename = e.url := by
  simp only [containers, List.mem_flatMap, List.mem_filter, Bool.not_eq_true'] at h
  obtain ⟨e, ⟨he, ha⟩, hp⟩ := h
  exact ⟨e, he, ha, longname_of_mem_ofEntry hp⟩

theorem longname_of_mem_globals {r : Registry} {m : Members} {p : Page}
    (h : p ∈ globals r m) :
    p.longname = some Registry.globalName := by
  unfold globals at h
  split at h
  · simp at h
  · rw [List.mem_singleton.1 h]

/-- The pages that document a long name are the global page and those of containers. -/
theorem filter_named_all (r : Registry) (m : Members) (ts : List Tutorial)
    (files : List SourceFile) :
    (all r m ts files).filter (·.longname.isSome) = globals r m ++ containers r m := by
  have hglobals : (globals r m).filter (·.longname.isSome) = globals r m := by
    unfold globals
    split <;> rfl
  have hcontainers : (containers r m).filter (·.longname.isSome) = containers r m := by
    refine List.filter_eq_self.2 fun p hp => ?_
    obtain ⟨e, -, -, hname, -⟩ := exists_entry_of_mem_containers hp
    rw [hname]
    rfl
  have htutorials : (tutorials r ts).filter (·.longname.isSome) = [] := by
    refine List.filter_eq_nil_iff.2 fun p hp => ?_
    obtain ⟨t, -, hpage⟩ := List.mem_filterMap.1 hp
    obtain ⟨page, -, rfl⟩ := Option.map_eq_some_iff.1 hpage
    simp
  have hsources : (sources files).filter (·.longname.isSome) = [] := by
    refine List.filter_eq_nil_iff.2 fun p hp => ?_
    obtain ⟨file, -, rfl⟩ := List.mem_map.1 hp
    simp
  rw [all, List.filter_append, List.filter_append]
  rw [List.filter_append, htutorials, hsources]
  rw [List.append_nil, List.append_nil, List.filter_cons_of_neg (by simp [home])]
  rw [hglobals, hcontainers]

/-- A page that documents a long name is the global page or one of an entry of that name. -/
theorem mem_globals_or_exists_entry {r : Registry} {m : Members} {ts : List Tutorial}
    {files : List SourceFile} {p : Page} {longname : String} (h : p ∈ all r m ts files)
    (hname : p.longname = some longname) :
    p ∈ globals r m ∨ ∃ e ∈ r.entries, e.isAlias = false ∧ e.name = longname ∧
    p ∈ ofEntry m e := by
  have hnamed : p ∈ (all r m ts files).filter (·.longname.isSome) :=
    List.mem_filter.2 ⟨h, by rw [hname]; rfl⟩
  rw [filter_named_all] at hnamed
  refine (List.mem_append.1 hnamed).imp_right fun hcontainer => ?_
  simp only [containers, List.mem_flatMap, List.mem_filter, Bool.not_eq_true'] at hcontainer
  obtain ⟨e, ⟨he, halias⟩, hpage⟩ := hcontainer
  exact ⟨e, he, halias,
    Option.some.inj ((longname_of_mem_ofEntry hpage).1.symm.trans hname), hpage⟩

end Page

end DocLinks
