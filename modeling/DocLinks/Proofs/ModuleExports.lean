import DocLinks.Members
import DocLinks.Proofs.ListSteps

/-!
# What modules export

A class or a function may have the long name of a module: it is then the value that the
module exports.  The doclet of the module lists copies of all exports that are shown, in
their order, under the names by which the module is loaded.

**What is attached.**  `Attached` says of a doclet, and of nothing else, what becomes of it:
only modules change, of a module only its list, and of its list everything or nothing.

**Once is enough.**  An export is no module, so it is the same before and after, and a module
finds the same exports again.

**Results.**
* `asExport_eq_iff`: the copy of an export.
* `attachTo_eq_iff`: what becomes of a doclet.
* `attachExports_eq_iff_and_idempotent`: what becomes of all of them, and that nothing more
  does.
-/

namespace DocLinks
namespace Doclet

section Relations

/-- A copy of an export, under the name by which its module is loaded. -/
inductive IsCopy : Doclet → Doclet → Prop
  | renamed {e : Doclet} {x : String} : e.name = some ("module:" ++ x) →
      IsCopy e { e with name := some ("(require(\"" ++ x ++ "\"))") }
  | same {e : Doclet} : (∀ x, e.name ≠ some ("module:" ++ x)) → IsCopy e e

/-- What becomes of a doclet when exports are attached. -/
inductive Attached (ds : List Doclet) : Doclet → Doclet → Prop
  | other {d : Doclet} : d.kind ≠ .module → Attached ds d d
  | nothing {d : Doclet} : d.kind = .module → (∀ x, d.longname = "module:" ++ x →
      ∀ e ∈ ds, e.longname = d.longname → e.kind ≠ .classDecl ∧
        e.kind ≠ .function) → Attached ds d d
  | exports {d e : Doclet} {x : String} {copies : List Doclet} : d.kind = .module →
      d.longname = "module:" ++ x → e ∈ ds → e.longname = d.longname →
      (e.kind = .classDecl ∨ e.kind = .function) →
      List.Forall₂ IsCopy (ds.filter fun e => e.longname = d.longname ∧
        (e.kind = .classDecl ∨ e.kind = .function ∧ e.description.isSome)) copies →
      Attached ds d { d with modules := copies }

end Relations

section Copies

variable {e e' : Doclet} {longname : String}

theorem eq_module_append {name : String} {rest : List Char}
    (h : name.toList = "module:".toList ++ rest) :
    name = "module:" ++ String.ofList rest := by
  have hsame : name.toList = ("module:" ++ String.ofList rest).toList := by simp [h]
  exact String.toList_inj.1 hsame

theorem startsLikeModule_iff :
    startsLikeModule longname = true ↔ ∃ x, longname = "module:" ++ x := by
  rw [startsLikeModule, List.isPrefixOf_iff_prefix]
  constructor
  · rintro ⟨rest, hrest⟩
    exact ⟨_, eq_module_append hrest.symm⟩
  · rintro ⟨x, rfl⟩
    exact ⟨x.toList, String.toList_append.symm⟩

theorem asExport_of_name_eq {x : String} (h : e.name = some ("module:" ++ x)) :
    e.asExport = { e with name := some ("(require(\"" ++ x ++ "\"))") } := by
  rw [asExport, h, Option.bind_some]
  rw [String.toList_append, Text.after?_append]
  simp only [String.ofList_toList]

theorem asExport_of_name_ne (h : ∀ x, e.name ≠ some ("module:" ++ x)) : e.asExport = e := by
  rw [asExport]
  split
  · rename_i rest hrest
    obtain ⟨name, hname, hafter⟩ := Option.bind_eq_some_iff.1 hrest
    exact absurd (hname.trans
      (congrArg some (eq_module_append (Text.eq_append_of_after? hafter)))) (h _)
  · rfl

/-- Every export has one copy. -/
theorem asExport_eq_iff : e.asExport = e' ↔ IsCopy e e' := by
  constructor
  · rintro rfl
    by_cases h : ∃ x, e.name = some ("module:" ++ x)
    · obtain ⟨x, hx⟩ := h
      rw [asExport_of_name_eq hx]
      exact .renamed hx
    · have hne : ∀ x, e.name ≠ some ("module:" ++ x) := fun x hx => h ⟨x, hx⟩
      rw [asExport_of_name_ne hne]
      exact .same hne
  · rintro (hx | hne)
    · exact asExport_of_name_eq hx
    · exact asExport_of_name_ne hne

end Copies

section Modules

variable {d d' e : Doclet} {ds ds' : List Doclet}

theorem isExport_iff : e.isExport = true ↔
    (∃ x, e.longname = "module:" ++ x) ∧ (e.kind = .classDecl ∨ e.kind = .function) := by
  simp only [isExport, Bool.and_eq_true, startsLikeModule_iff, Bool.or_eq_true, beq_iff_eq]

/-- The classes and functions that stand for the module of a long name. -/
def exportsOf (ds : List Doclet) (longname : String) : List Doclet :=
  ds.filter fun e => e.isExport && e.longname == longname

/-- The exports that are shown, for a long name that is one of a module. -/
theorem filter_isShownExport (h : ∃ x, d.longname = "module:" ++ x) :
    (exportsOf ds d.longname).filter isShownExport = ds.filter fun e =>
      e.longname = d.longname ∧
      (e.kind = .classDecl ∨ e.kind = .function ∧ e.description.isSome) := by
  rw [exportsOf, List.filter_filter]
  refine List.filter_congr fun e _ => ?_
  rw [Bool.eq_iff_iff]
  simp only [isShownExport, Bool.and_eq_true, Bool.or_eq_true, isExport_iff, beq_iff_eq,
    decide_eq_true_eq]
  constructor
  · rintro ⟨hshown, ⟨-, hkind⟩, hname⟩
    tauto
  · rintro ⟨hname, hkind⟩
    rw [hname]
    tauto

/-- There is something to attach if a class or a function has the long name of a module. -/
theorem exportsOf_ne_nil_iff :
    exportsOf ds d.longname ≠ [] ↔ (∃ x, d.longname = "module:" ++ x) ∧
    ∃ e ∈ ds, e.longname = d.longname ∧ (e.kind = .classDecl ∨ e.kind = .function) := by
  simp only [exportsOf, ne_eq, List.filter_eq_nil_iff, Bool.and_eq_true, isExport_iff,
    beq_iff_eq, not_forall, not_not]
  constructor
  · rintro ⟨e, he, ⟨hstart, hkind⟩, hname⟩
    exact ⟨hname ▸ hstart, e, he, hname, hkind⟩
  · rintro ⟨hstart, e, he, hname, hkind⟩
    exact ⟨e, he, ⟨hname ▸ hstart, hkind⟩, hname⟩

theorem attachTo_of_kind_ne (ds : List Doclet) (h : d.kind ≠ .module) :
    attachTo ds d = d := by
  rw [attachTo, if_neg]
  simp [h]

theorem attachTo_of_exportsOf_eq_nil (h : exportsOf ds d.longname = []) :
    attachTo ds d = d := by
  rw [exportsOf] at h
  rw [attachTo, h, if_neg]
  simp

theorem attachTo_of_exportsOf_ne_nil (hkind : d.kind = .module)
    (h : exportsOf ds d.longname ≠ []) :
    attachTo ds d =
      { d with modules := ((exportsOf ds d.longname).filter
        isShownExport).map asExport } := by
  rw [exportsOf] at h
  rw [attachTo, if_pos (by simpa [hkind] using h)]
  rfl

/-- What becomes of a doclet. -/
theorem attachTo_eq_iff : attachTo ds d = d' ↔ Attached ds d d' := by
  constructor
  · rintro rfl
    by_cases hkind : d.kind = .module
    · by_cases hnone : exportsOf ds d.longname = []
      · rw [attachTo_of_exportsOf_eq_nil hnone]
        refine .nothing hkind fun x hx e he hname => not_or.1 fun hexport => ?_
        exact exportsOf_ne_nil_iff.2 ⟨⟨x, hx⟩, e, he, hname, hexport⟩ hnone
      · obtain ⟨⟨x, hx⟩, e, he, hname, hexport⟩ := exportsOf_ne_nil_iff.1 hnone
        rw [attachTo_of_exportsOf_ne_nil hkind hnone, filter_isShownExport ⟨x, hx⟩]
        exact .exports hkind hx he hname hexport
          ((map_eq_iff_of_iff fun _ _ => asExport_eq_iff).1 rfl)
    · rw [attachTo_of_kind_ne ds hkind]
      exact .other hkind
  · rintro (hkind | ⟨hkind, hnone⟩ | ⟨hkind, hx, he, hname, hexport, hcopies⟩)
    · exact attachTo_of_kind_ne ds hkind
    · refine attachTo_of_exportsOf_eq_nil (by_contra fun hsome => ?_)
      obtain ⟨⟨x, hx⟩, e, he, hname, hexport⟩ := exportsOf_ne_nil_iff.1 hsome
      exact not_or.2 (hnone x hx e he hname) hexport
    · have hsome := exportsOf_ne_nil_iff.2 ⟨⟨_, hx⟩, _, he, hname, hexport⟩
      rw [attachTo_of_exportsOf_ne_nil hkind hsome, filter_isShownExport ⟨_, hx⟩,
        (map_eq_iff_of_iff fun _ _ => asExport_eq_iff).2 hcopies]

end Modules

section All

variable {d e : Doclet}

theorem attachTo_of_isExport (ds : List Doclet) (h : e.isExport = true) :
    attachTo ds e = e := by
  refine attachTo_of_kind_ne ds fun hkind => ?_
  obtain ⟨-, hexport | hexport⟩ := isExport_iff.1 h
  · rw [hkind] at hexport
    cases hexport
  · rw [hkind] at hexport
    cases hexport

theorem isExport_attachTo (ds : List Doclet) (d : Doclet) :
    (attachTo ds d).isExport = d.isExport := by
  rw [isExport, isExport]
  rw [longname_attachTo, kind_attachTo]

/-- The exports of a long name are the same after they have been attached. -/
theorem exportsOf_attachExports (ds : List Doclet) (longname : String) :
    exportsOf (attachExports ds) longname = exportsOf ds longname := by
  have htest : ((fun e : Doclet => e.isExport && e.longname == longname) ∘ attachTo ds) =
      fun e => e.isExport && e.longname == longname := by
    funext e
    simp only [Function.comp, isExport_attachTo, longname_attachTo]
  rw [exportsOf, attachExports]
  rw [List.filter_map, htest]
  refine (List.map_congr_left fun e he => ?_).trans (List.map_id _)
  exact attachTo_of_isExport ds (Bool.and_eq_true_iff.1 (List.mem_filter.1 he).2).1

/-- What has been attached to a doclet stays as it is. -/
theorem attachTo_attachTo (ds : List Doclet) (d : Doclet) :
    attachTo (attachExports ds) (attachTo ds d) = attachTo ds d := by
  have hkind : (attachTo ds d).kind = d.kind := kind_attachTo ds d
  have hsame : exportsOf (attachExports ds) (attachTo ds d).longname =
      exportsOf ds d.longname := by
    rw [longname_attachTo, exportsOf_attachExports]
  by_cases hmodule : d.kind = .module
  · by_cases hnone : exportsOf ds d.longname = []
    · exact attachTo_of_exportsOf_eq_nil (hsame.trans hnone)
    · rw [attachTo_of_exportsOf_ne_nil (hkind.trans hmodule) (hsame ▸ hnone), hsame]
      rw [attachTo_of_exportsOf_ne_nil hmodule hnone]
  · exact attachTo_of_kind_ne _ (hkind ▸ hmodule)

/-- Exports are attached to the modules that have them and to nothing else, and once is
enough. -/
theorem attachExports_eq_iff_and_idempotent (ds : List Doclet) :
    (∀ ds', attachExports ds = ds' ↔ List.Forall₂ (Attached ds) ds ds') ∧
      attachExports (attachExports ds) = attachExports ds := by
  refine ⟨fun ds' => map_eq_iff_of_iff fun _ _ => attachTo_eq_iff, ?_⟩
  calc attachExports (attachExports ds)
      = ds.map fun d => attachTo (attachExports ds) (attachTo ds d) := List.map_map
    _ = ds.map (attachTo ds) := List.map_congr_left fun d _ => attachTo_attachTo ds d

end All

end Doclet
end DocLinks
