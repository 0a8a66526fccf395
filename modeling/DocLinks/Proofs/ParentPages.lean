import DocLinks.Proofs.PageFiles

/-!
# The page of a member and that of its parent

The page of a member is read back from the registered link of its parent.  That link is a
bare file if the parent has a page of its own, and it is encoded already if the parent is a
part of another page; the link of the member is encoded in any case.

**Results.**
* `pageOf_createLink_eq`: the page of a link is the encoded file of its owner.
* `pageOf_member`: the page of a member, by where its parent lives.
* `member_page_eq_iff`: when a member is on the page of its parent.
-/

namespace DocLinks
namespace Registry

section Pages

variable (r : Registry)

theorem hash_not_mem_pageFor (name : String) : '#' ∉ (r.pageFor name).1.toList := by
  obtain ⟨url, -, hfile⟩ := r.pageFor_spec name
  rw [hfile]
  exact hash_not_mem_pageOf url

/-- What stands before the number sign of a link is the encoded file of its owner. -/
theorem pageOf_createLink_eq (d : Doclet) :
    (pageOf (r.createLink d).1).toList =
      Percent.encode (r.pageFor (placement d).owner).1.toList := by
  have hfile := r.hash_not_mem_pageFor (placement d).owner
  unfold createLink
  dsimp only
  exact pageOf_urlOf hfile

variable {r}

/-- If the owner of a doclet is registered, the link of the doclet leads to its page. -/
theorem pageOf_createLink_of_resolve? {d : Doclet} {url : String}
    (hurl : r.resolve? (placement d).owner = some url) :
    (pageOf (r.createLink d).1).toList = Percent.encode (pageOf url).toList := by
  have hpage : r.pageFor (placement d).owner = (pageOf url, r) := by
    unfold pageFor
    rw [hurl]
  rw [pageOf_createLink_eq, hpage]

/-- Asking for the page of a name registers no other name. -/
theorem resolve?_pageFor_of_ne {name other : String} (hne : name ≠ other) :
    (r.pageFor other).2.resolve? name = r.resolve? name := by
  unfold pageFor
  split
  · rfl
  · simp only [register, resolve?_add, if_neg hne, Option.or_none]
    rfl

end Pages

section Members

variable {r : Registry} {p d : Doclet}

/-- What is no container and no export belongs to the page of its parent. -/
theorem owner_of_memberof {parent : String} (hmember : d.memberof = some parent)
    (hcontainer : d.kind.isContainer = false) (hexport : d.isModuleExports = false) :
    (placement d).owner = parent := by
  unfold placement
  rw [hcontainer, hexport, hmember]
  dsimp only
  split
  · rename_i h
    simp at h
  · split <;> rfl

/-- The link under which a doclet is found when it has been registered: that of its page if
it has one, or else the link itself. -/
theorem resolve?_register_createLink (hnew : r.resolve? p.longname = none) :
    ∃ url, ((r.createLink p).2.register p.longname (r.createLink p).1).resolve? p.longname =
      some url ∧
      if (placement p).owner = p.longname then
        (pageOf (r.createLink p).1).toList = Percent.encode (pageOf url).toList
      else url = (r.createLink p).1 := by
  by_cases howner : (placement p).owner = p.longname
  · obtain ⟨url, hurl, hpage⟩ := r.pageOf_createLink p
    rw [howner] at hurl
    refine ⟨url, ?_, by rw [if_pos howner]; exact hpage⟩
    exact (extends_add _ _).resolve? hurl
  · have hnone : (r.createLink p).2.resolve? p.longname = none := by
      rw [resolve?_congr (r.entries_createLink p), resolve?_pageFor_of_ne (Ne.symm howner)]
      rw [hnew]
    refine ⟨(r.createLink p).1, ?_, by rw [if_neg howner]⟩
    rw [register, resolve?_add, hnone]
    rw [Option.none_or, if_pos rfl]

/-- A member is on the page of a parent with a page of its own; the page of any other parent
is encoded once more. -/
theorem pageOf_member (hnew : r.resolve? p.longname = none)
    (hmember : d.memberof = some p.longname)
    (hcontainer : d.kind.isContainer = false) (hexport : d.isModuleExports = false) :
    (pageOf
      (((r.createLink p).2.register p.longname (r.createLink p).1).createLink d).1).toList =
      if (placement p).owner = p.longname then (pageOf (r.createLink p).1).toList
      else Percent.encode (pageOf (r.createLink p).1).toList := by
  have howner := owner_of_memberof hmember hcontainer hexport
  obtain ⟨url, hurl, hparent⟩ := resolve?_register_createLink hnew
  rw [pageOf_createLink_of_resolve? (by rw [howner]; exact hurl)]
  split
  · rename_i hown
    rw [if_pos hown] at hparent
    exact hparent.symm
  · rename_i hown
    rw [if_neg hown] at hparent
    rw [hparent]

/-- When the link of a doclet has been made and registered, a member of it is on its page
exactly if the doclet has a page of its own, or if encoding leaves alone the file of the page
that it is a part of. -/
theorem member_page_eq_iff (r : Registry) {p d : Doclet}
    (hnew : r.resolve? p.longname = none)
    (hmember : d.memberof = some p.longname) (hcontainer : d.kind.isContainer = false)
    (hexport : d.isModuleExports = false) :
    let u := (r.createLink p).1
    let v := (((r.createLink p).2.register p.longname u).createLink d).1
    pageOf v = pageOf u ↔
      (placement p).owner = p.longname ∨
        Percent.encode (r.pageFor (placement p).owner).1.toList =
          (r.pageFor (placement p).owner).1.toList := by
  intro u v
  have hpage : (pageOf v).toList = _ := pageOf_member hnew hmember hcontainer hexport
  rw [← String.toList_inj, hpage]
  by_cases hown : (placement p).owner = p.longname
  · simp [hown, u]
  · rw [if_neg hown, pageOf_createLink_eq]
    constructor
    · intro h
      exact .inr (Percent.encode_injective h)
    · rintro (h | h)
      · exact absurd h hown
      · exact congrArg Percent.encode h

/-- A function with the given parent. -/
def functionIn (parent longname name : String) : Doclet :=
  { longname := longname, name := some name, kind := .function, memberof := some parent }

/-- A function inside a function is on the page of the class that both are in. -/
theorem member_page_of_function_in_class :
    let p := functionIn "A" "A~f" "f"
    let d := functionIn "A~f" "A~f~g" "g"
    let u := (new.createLink p).1
    new.resolve? p.longname = none ∧ d.memberof = some p.longname ∧
    d.kind.isContainer = false ∧
      d.isModuleExports = false ∧
      pageOf (((new.createLink p).2.register p.longname u).createLink d).1 = pageOf u := by
  intro p d u
  have hnew : new.resolve? p.longname = none := by decide +kernel
  have hexport : d.isModuleExports = false := by decide +kernel
  have hfile : Percent.encode (new.pageFor (placement p).owner).1.toList =
      (new.pageFor (placement p).owner).1.toList := by
    decide +kernel
  exact ⟨hnew, rfl, rfl, hexport,
    (member_page_eq_iff new hnew rfl rfl hexport).2 (.inr hfile)⟩

/-- A function inside a function is not on the page of that one, if the name of the class
that both are in is encoded. -/
theorem member_page_ne_of_encoded_class :
    let p := functionIn "é" "é~f" "f"
    let d := functionIn "é~f" "é~f~g" "g"
    let u := (new.createLink p).1
    new.resolve? p.longname = none ∧ d.memberof = some p.longname ∧
    d.kind.isContainer = false ∧
      d.isModuleExports = false ∧ d.longname ≠ p.longname ∧
      pageOf (((new.createLink p).2.register p.longname u).createLink d).1 ≠ pageOf u := by
  decide +kernel

end Members

end Registry
end DocLinks
