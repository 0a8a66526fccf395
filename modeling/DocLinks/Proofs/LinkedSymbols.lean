import DocLinks.Proofs.ConfiguredLinks
import DocLinks.Proofs.ParentChains
import DocLinks.Proofs.SidebarRows

/-!
# Symbols are linked where they are named

The sidebar names the symbols of a documentation, and every doclet names its parents.  Both
refer to long names, and all long names are registered, so these references are links to
where the symbols are documented.

Some names are not looked up as they are, since they mean something else wherever types are
named: `any` and literal values are no links, primitive types stand for their capital names,
and absolute links lead where they say.  A symbol of such a name is not linked under it, and
only a primitive type is worth a warning.

**Results.**
* `ofTarget_of_isLookedUp`, `of_mem_warnings_ofTarget`: what a reference to a registered name
  is.
* `exists_resolve?_of_mem_doclets`: the long names of doclets are registered before anything
  refers to them.
* `symbols_linked_where_named`: entries of the sidebar and links to parents lead to where
  names are documented.
* `symbols_not_linked`: a class that is called like a primitive type is not linked.
-/

namespace DocLinks
namespace Reference

/-- The names of primitive types. -/
def primitives : List String :=
  ["boolean", "function", "number", "string"]

/-- A name that is looked up as it is. -/
structure IsLookedUp (name : String) : Prop where
  not_any : name ≠ "any"
  not_literal : name ∉ literals
  not_primitive : name ∉ primitives
  not_absolute : isAbsolute name = false

variable {r : Registry} {name url text context : String} {w : Warning}

theorem targetName_of_not_mem (h : name ∉ primitives) : targetName name = name := by
  unfold targetName
  split
  · simp [primitives] at h
  · simp [primitives] at h
  · simp [primitives] at h
  · simp [primitives] at h
  · rfl

/-- A registered name that is looked up as it is leads to where it is documented. -/
theorem ofTarget_of_isLookedUp (h : IsLookedUp name)
    (hurl : r.resolve? name = some url) (text : String) :
    ofTarget r name (some text) = .link url text := by
  have hany : (name == "any") = false := by simpa using h.not_any
  have hliteral : literals.contains name = false := by simpa using h.not_literal
  simp only [ofTarget, hany, hliteral, targetName_of_not_mem h.not_primitive, h.not_absolute,
    hurl, Option.getD_some, Bool.false_eq_true, if_false]

/-- What is said about a reference is that its target is not registered. -/
theorem of_mem_warnings_ofTarget (hw : w ∈ (ofTarget r name (some text)).warnings context) :
    w = .unknownLink (targetName name) context ∧ r.resolve? (targetName name) = none := by
  rw [warnings_ofTarget] at hw
  split at hw
  · rename_i hunknown
    exact ⟨List.mem_singleton.1 hw, hunknown.not_registered⟩
  · simp at hw

/-- Of the names that are registered, only those of primitive types are worth a warning. -/
theorem mem_primitives_of_mem_warnings (hurl : r.resolve? name = some url)
    (hw : w ∈ (ofTarget r name (some text)).warnings context) : name ∈ primitives := by
  by_contra hname
  have hnone := (of_mem_warnings_ofTarget hw).2
  rw [targetName_of_not_mem hname, hurl] at hnone
  simp at hnone

end Reference

namespace Page

/-- The page of a long name is under the link of the name. -/
theorem resolve?_of_mem_all {r : Registry} {m : Members} {tutorials : List Tutorial}
    {files : List SourceFile} {p : Page} {longname url : String} (hnodup : r.names.Nodup)
    (hglobal : r.resolve? Registry.globalName = some url) (hp : p ∈ all r m tutorials files)
    (hname : p.longname = some longname) : r.resolve? longname = some p.filename := by
  rcases mem_globals_or_exists_entry hp hname with hglobals | ⟨e, he, -, rfl, hofEntry⟩
  · obtain rfl := Option.some.inj (hname.symm.trans (longname_of_mem_globals hglobals))
    unfold globals at hglobals
    split at hglobals
    · simp at hglobals
    · rw [List.mem_singleton.1 hglobals, Registry.globalUrl, hglobal]
      rfl
  · rw [Registry.resolve?, Registry.find?_of_mem hnodup he]
    rw [(longname_of_mem_ofEntry hofEntry).2]
    rfl

end Page

namespace Publication

section Linked

variable {s : PublishSettings} {ds : List Doclet}
  {tutorials : List Tutorial} {p : Publication}

/-- The long name of a doclet is registered when references are looked up. -/
theorem exists_resolve?_of_mem_doclets (h : run s ds tutorials = .ok p) {out : Doclet}
    (hout : out ∈ p.doclets)
    (hne : out.longname ≠ "") : ∃ url, (linked s ds).resolve? out.longname = some url := by
  obtain ⟨d, hd, hname⟩ := exists_kept_of_mem_doclets h hout
  rw [← hname] at hne ⊢
  exact (exists_resolve?_registered s ds hd hne).imp fun _ =>
    Registry.resolve?_of_isPrefix (prefix_linked s ds)

/-- A symbol in the sidebar stands for a doclet. -/
theorem exists_doclet_of_mem_groups {g : Sidebar.Group} {m : Member} {longname : String}
    (hg : g ∈ Sidebar.groups (Members.categorize ds tutorials)) (hm : m ∈ g.members)
    (hname : m.longname = some longname) :
    ∃ d ∈ ds, d.longname = longname ∧ longname ≠ "" := by
  have hgroup : ∃ test, g.members = Members.select test ds := by
    simp only [Sidebar.groups, Members.categorize, List.mem_cons,
      List.not_mem_nil, or_false] at hg
    rcases hg with rfl | rfl | rfl | rfl | rfl | rfl | rfl <;> exact ⟨_, rfl⟩
  obtain ⟨test, hmembers⟩ := hgroup
  rw [hmembers] at hm
  obtain ⟨d, hd, rfl⟩ := List.mem_map.1 hm
  exact ⟨d, (List.mem_filter.1 hd).1, Member.longname_ofDoclet_eq_some_iff.1 hname⟩

/-- The entries of a sidebar are links to where symbols are documented.  Every symbol of a
long name has an entry for it.  An entry, apart from those of tutorials, shows a symbol whose
long name is registered with its page; if that name is looked up as it is, the entry leads
there and is highlighted in the view from that page.  Only primitive types are worth a
warning. -/
structure EntriesLinked (showsLongnames : Bool) (p : Publication) (t : Sidebar) : Prop where
  listed {g : Sidebar.Group} {m : Member} {longname : String} :
    g ∈ Sidebar.groups p.members →
    m ∈ g.members → m.longname = some longname →
    ∃ title l i heading, Sidebar.Lists showsLongnames p.members title l ∧
    l.longname = some longname ∧
      t.Stands (l.label p.registry) title i heading
  entry {label : Label} {title : String} {i heading : Nat} : t.Stands label title i heading →
    title ≠ "Tutorials" → ∃ l, Sidebar.Lists showsLongnames p.members title l ∧
      label = l.label p.registry ∧ ∀ longname, l.longname = some longname →
        ∃ url, p.registry.resolve? longname = some url ∧
          (∀ page ∈ p.pages, page.longname = some longname → page.filename = url) ∧
          (Reference.IsLookedUp longname → label = .link url l.display ∧
            (View.of t url).isOn i = true ∧ (View.of t url).isOn heading = true)
  warnings {w : Warning} : w ∈ Sidebar.warnings showsLongnames p.members p.registry →
    ∃ longname ∈ Reference.primitives,
      w = .unknownLink (Reference.targetName longname) "navigation"

/-- The links to parents, which are looked up in the given registry, lead to where these are
documented.  The doclets hold them, and the log tells of no other links to parents.  The long
name of a parent is registered, unless it is empty; if it is looked up as it is, the parent
is linked under it.  Only anonymous parents and primitive types are worth a warning. -/
structure ParentsLinked (r : Registry) (p : Publication) : Prop where
  logged : ∃ before after,
    p.warnings = before ++ p.doclets.flatMap (ancestorWarnings r p.doclets) ++ after
  stored {out : Doclet} : out ∈ p.doclets → out.ancestors = Ancestors.links r p.doclets out
  registered {out a : Doclet} : out ∈ p.doclets →
  a ∈ Ancestors.of p.doclets out → a.longname ≠ "" →
    ∃ url, r.resolve? a.longname = some url
  linked {out a : Doclet} {url : String} : out ∈ p.doclets → a ∈ Ancestors.of p.doclets out →
    r.resolve? a.longname = some url → Reference.IsLookedUp a.longname →
    p.registry.resolve? a.longname = some url ∧
      Ancestors.reference r a = .link url (Ancestors.punctuation a ++ a.displayName)
  warnings {out : Doclet} {w : Warning} : out ∈ p.doclets →
  w ∈ ancestorWarnings r p.doclets out →
    ∃ a ∈ Ancestors.of p.doclets out, (a.longname = "" ∨ a.longname ∈ Reference.primitives) ∧
      w = .unknownLink (Reference.targetName a.longname) out.longname

/-- What is listed in the sidebar has a long name that is registered. -/
theorem exists_resolve?_of_lists (h : run s ds tutorials = .ok p)
    {showsLongnames : Bool} {title : String}
    {l : Listed} {longname : String} (hl : Sidebar.Lists showsLongnames p.members title l)
    (hname : l.longname = some longname) :
    ∃ url, p.registry.resolve? longname = some url := by
  obtain ⟨g, hg, m, hm, hsame⟩ := Sidebar.exists_member_of_lists hl
  rw [members_of_run h] at hg
  obtain ⟨out, hout, rfl, hne⟩ := exists_doclet_of_mem_groups hg hm (hsame.trans hname)
  obtain ⟨url, hurl⟩ := exists_resolve?_of_mem_doclets h hout hne
  rw [registry_of_run h]
  exact ⟨url, Registry.resolve?_of_isPrefix (prefix_final_of_linked s ds tutorials) hurl⟩

theorem entriesLinked_of_run {book : List (Subject × List Char)}
    (h : run s ds tutorials = .ok p)
    (hpages : p.pages = Page.all p.registry p.members tutorials p.sourceFiles)
    (hrecorded : Recorded (kept ds) p book) (showsLongnames : Bool) :
    EntriesLinked showsLongnames p (Sidebar.build showsLongnames p.members p.registry) := by
  refine ⟨fun hg hm hname => ?_, fun hstands htitle => ?_, fun {w} hw => ?_⟩
  · obtain ⟨title, l, hl, hlongname⟩ := Sidebar.exists_lists_of_member hg hm hname
    obtain ⟨i, heading, hstands⟩ := Sidebar.exists_stands_of_lists hl
    exact ⟨title, l, i, heading, hl, hlongname, hstands⟩
  · obtain ⟨l, hl, rfl⟩ := Sidebar.exists_lists_of_stands hstands htitle
    refine ⟨l, hl, rfl, fun longname hname => ?_⟩
    obtain ⟨url, hurl⟩ := exists_resolve?_of_lists h hl hname
    have hnodup : p.registry.names.Nodup :=
      registry_of_run h ▸ nodup_names_final s ds tutorials
    refine ⟨url, hurl, fun page hpage hlongname => ?_, fun hlooked => ?_⟩
    · rw [hpages] at hpage
      have hfilename := Page.resolve?_of_mem_all hnodup hrecorded.globals hpage hlongname
      exact Option.some.inj (hfilename.symm.trans hurl)
    · have hlabel : l.label p.registry = .link url l.display := by
        rw [Listed.label, Listed.reference?, hname]
        rw [Option.map_some, Reference.ofTarget_of_isLookedUp hlooked hurl]
        rfl
      exact ⟨hlabel, View.isOn_of_stands hstands (by rw [hlabel]; rfl)⟩
  · obtain ⟨⟨title, ls⟩, hls, hmem⟩ := List.mem_flatMap.1 hw
    obtain ⟨l, hl, hwarning⟩ := List.mem_flatMap.1 hmem
    cases hname : l.longname with
    | none => simp [Listed.warnings, Listed.reference?, hname] at hwarning
    | some longname =>
        obtain ⟨url, hurl⟩ := exists_resolve?_of_lists h ⟨ls, hls, hl⟩ hname
        rw [Listed.warnings, Listed.reference?, hname] at hwarning
        exact ⟨longname, Reference.mem_primitives_of_mem_warnings hurl hwarning,
          (Reference.of_mem_warnings_ofTarget hwarning).1⟩

theorem parentsLinked_of_run (h : run s ds tutorials = .ok p) :
    ParentsLinked (linked s ds) p := by
  obtain ⟨hstored, hlogged⟩ := ancestors_of_run h
  have hregistered : ∀ {out a : Doclet}, out ∈ p.doclets → a ∈ Ancestors.of p.doclets out →
      a.longname ≠ "" → ∃ url, (linked s ds).resolve? a.longname =
        some url := fun _ ha hne =>
    exists_resolve?_of_mem_doclets h (Ancestors.mem_of_mem_of ha) hne
  refine ⟨hlogged, fun {out} hout => hstored out hout, hregistered,
    fun hout ha hurl hlooked => ⟨?_, ?_⟩, fun hout hw => ?_⟩
  · rw [registry_of_run h]
    exact Registry.resolve?_of_isPrefix (prefix_final_of_linked s ds tutorials) hurl
  · exact Reference.ofTarget_of_isLookedUp hlooked hurl _
  · obtain ⟨reference, hreference, hwarning⟩ := List.mem_flatMap.1 hw
    obtain ⟨a, ha, rfl⟩ := List.mem_map.1 hreference
    refine ⟨a, ha, ?_, (Reference.of_mem_warnings_ofTarget hwarning).1⟩
    by_cases hne : a.longname = ""
    · exact .inl hne
    · obtain ⟨url, hurl⟩ := hregistered hout ha hne
      exact .inr (Reference.mem_primitives_of_mem_warnings hurl hwarning)

/-- Publishing succeeds.  In the sidebar of what is published, every symbol of a long name
has an entry that leads to where the name is documented, and the doclets hold such links to
their parents; what is said about them in the log is about primitive types and anonymous
parents only. -/
theorem symbols_linked_where_named (s : PublishSettings) (ds : List Doclet)
    (tutorials : List Tutorial)
    (showsLongnames : Bool) :
    ∃ p, run s ds tutorials = .ok p ∧
      EntriesLinked showsLongnames p (Sidebar.build showsLongnames p.members p.registry) ∧
      ∃ r : Registry, r.entries <+: p.registry.entries ∧ ParentsLinked r p := by
  obtain ⟨p, book, hrun, hpages, hrecorded⟩ := exists_recorded s ds tutorials
  refine ⟨p, hrun, entriesLinked_of_run hrun hpages hrecorded showsLongnames, linked s ds,
    ?_, parentsLinked_of_run hrun⟩
  rw [registry_of_run hrun]
  exact prefix_final_of_linked s ds tutorials

end Linked

section Samples

/-- A class that is called like a primitive type, and a method of it. -/
def primitiveClass : List Doclet :=
  [symbol "string" "string" .classDecl none,
    symbol "string#size" "size" .function (some "string")]

/-- An anonymous class, and a class that names it as its parent. -/
def anonymousParent : List Doclet :=
  [symbol "" "" .classDecl none, symbol "A" "A" .classDecl (some "")]

/-- A class that is called like a primitive type has a page, and nothing leads there. -/
def StringUnlinked (p : Publication) : Prop :=
  p.registry.resolve? "string" = some "string.html" ∧
    p.pages.map (·.filename) = ["index.html", "string.html"] ∧
    (Sidebar.build false p.members p.registry).rows[2]? =
      some (Row.mk (.markup "string") (some 1)) ∧
    (View.of (Sidebar.build false p.members p.registry) "string.html").current = [] ∧
    Sidebar.warnings false p.members p.registry = [.unknownLink "String" "navigation"] ∧
    p.doclets.map (·.ancestors) = [[], ["string"]] ∧
    p.warnings = [.unknownLink "String" "string#size"]
  deriving Decidable

theorem stringUnlinked_primitiveClass :
    publishes primitiveClass (fun p => decide (StringUnlinked p)) = true := by
  have hsort : Doclet.sortByLongname (Doclet.prune primitiveClass) = primitiveClass :=
    kept_eq_of_sorted rfl (by decide +kernel)
  unfold publishes run
  rw [hsort]
  decide +kernel

theorem unknown_anonymousParent :
    publishes anonymousParent (fun p => decide (p.warnings = [.unknownLink "" "A"])) =
      true := by
  have hsort : Doclet.sortByLongname (Doclet.prune anonymousParent) = anonymousParent :=
    kept_eq_of_sorted rfl (by decide +kernel)
  unfold publishes run
  rw [hsort]
  decide +kernel

/-- Neither the entry of a class that is called like a primitive type nor the link to it as a
parent leads to its page, and the log tells of both; and so it does of a parent that is
anonymous. -/
theorem symbols_not_linked :
    (∃ p, run {} primitiveClass [] = .ok p ∧ StringUnlinked p) ∧
    ∃ p, run {} anonymousParent [] = .ok p ∧ p.warnings = [.unknownLink "" "A"] := by
  obtain ⟨p, hrun, hunlinked⟩ := exists_of_publishes stringUnlinked_primitiveClass
  obtain ⟨p', hrun', hunknown⟩ := exists_of_publishes unknown_anonymousParent
  exact ⟨⟨p, hrun, of_decide_eq_true hunlinked⟩, p', hrun', of_decide_eq_true hunknown⟩

end Samples

end Publication
end DocLinks
