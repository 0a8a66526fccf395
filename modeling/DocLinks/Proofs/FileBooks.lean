import DocLinks.Proofs.Allocation
import DocLinks.Proofs.FinalSigma

/-!
# Books about files

An allocator remembers which basenames are in use, and not who they were given to.  `Books`
adds that: they tell for every claim to whom the file was given, and no file is given to two
owners.

**Results.**
* `Books.handedOut`: what is in the books was handed out by the allocator.
* `Books.nodup_caseKey`: no two files have basenames of the same lower case.
* `caseKey_fileOf_ne`: so their lower cases differ as well, unless a final sigma is in the
  way.
* `fileOf_ne`: the files are different, and without the capital sigma their lower cases are
  too.
* `Books.exists_of_handedOut`, `Books.apart`: every file that was handed out is in the books,
  where no two files are alike.
* `Allocator.caseKey_claimFile_ne`: a file that is handed out is none of those in use.
-/

namespace DocLinks
namespace Filename

/-- The file with the given basename. -/
def fileOf (base : List Char) : String :=
  String.ofList base ++ extension

theorem toList_fileOf (base : List Char) :
    (fileOf base).toList = base ++ extension.toList := by
  rw [fileOf, String.toList_append, String.toList_ofList]

theorem fileOf_injective : fileOf.Injective := by
  intro base base' h
  have hlist := congrArg String.toList h
  rw [toList_fileOf, toList_fileOf] at hlist
  exact List.append_cancel_right hlist

/-- Files are told apart by the lower cases of their basenames, also where case is ignored,
if both basenames end in a final sigma or both do not. -/
theorem caseKey_fileOf_ne {base base' : List Char}
    (h : Text.caseKey base ≠ Text.caseKey base')
    (hends : Text.EndsInFinalSigma base ↔ Text.EndsInFinalSigma base') :
    Text.caseKey (fileOf base).toList ≠ Text.caseKey (fileOf base').toList := by
  have hclear : Text.capitalSigma ∉ extension.toList := by decide
  have hstart : Text.startsCased extension.toList = true := by decide +kernel
  intro hkey
  rw [toList_fileOf, toList_fileOf] at hkey
  exact h (congrArg String.ofList
    (Text.lower_append_inj hclear hstart hends (String.ofList_inj.1 hkey)))

/-- Basenames of different lower case are those of different files, whose lower cases differ
as well unless the capital sigma is in them. -/
theorem fileOf_ne {base base' : List Char} (h : Text.caseKey base ≠ Text.caseKey base') :
    fileOf base ≠ fileOf base' ∧
      (Text.capitalSigma ∉ (fileOf base).toList → Text.capitalSigma ∉ (fileOf base').toList →
        Text.caseKey (fileOf base).toList ≠ Text.caseKey (fileOf base').toList) := by
  have hends : ∀ {base : List Char}, Text.capitalSigma ∉ (fileOf base).toList →
      ¬ Text.EndsInFinalSigma base := by
    intro base hclear
    rw [toList_fileOf] at hclear
    exact Text.not_endsInFinalSigma fun hmem => hclear (List.mem_append_left _ hmem)
  refine ⟨fun hfile => h ?_, fun hclear hclear' => caseKey_fileOf_ne h ?_⟩
  · rw [fileOf_injective hfile]
  · exact iff_of_false (hends hclear) (hends hclear')

/-- Two files are different, and they are if case is ignored as well, if both of their
basenames end in a final sigma or both do not. -/
def Apart (file file' : String) : Prop :=
  ∃ base base', file = fileOf base ∧ file' = fileOf base' ∧ file ≠ file' ∧
    ((Text.EndsInFinalSigma base ↔ Text.EndsInFinalSigma base') →
      Text.caseKey file.toList ≠ Text.caseKey file'.toList)

theorem apart_of_caseKey_ne {base base' : List Char}
    (h : Text.caseKey base ≠ Text.caseKey base') :
    Apart (fileOf base) (fileOf base') :=
  ⟨base, base', rfl, rfl, (fileOf_ne h).1, caseKey_fileOf_ne h⟩

theorem Apart.ne {file file' : String} (h : Apart file file') : file ≠ file' := by
  obtain ⟨base, base', -, -, hne, -⟩ := h
  exact hne

/-- A file that is handed out is none of those in use, even if case is ignored, as far as no
small sigma is in these. -/
theorem Allocator.caseKey_claimFile_ne (a : Allocator) (name : String) {base : List Char}
    (htaken : Text.caseKey base ∈ a.takenFiles)
    (hsmall : 'σ' ∉ Text.lower (fileOf base).toList)
    (hfinal : 'ς' ∉ Text.lower (fileOf base).toList) :
    Text.caseKey (a.claimFile name).1.toList ≠ Text.caseKey (fileOf base).toList := by
  let unique := pad (basename name) (padding a.takenFiles (basename name))
  have hfile : (a.claimFile name).1 = fileOf unique := rfl
  have hnew : Text.caseKey unique ≠ Text.caseKey base := fun hkey =>
    caseKey_pad_padding a.takenFiles (basename name) (hkey ▸ htaken)
  have hclear : ∀ s, Text.lower s = Text.lower (fileOf base).toList →
      Text.capitalSigma ∉ s := by
    intro s hs hmem
    have hsigma := Text.smallSigma_mem_lowerFrom hmem false
    rw [← Text.lower, hs] at hsigma
    exact hsigma.elim hsmall hfinal
  rw [hfile]
  intro hkey
  exact (fileOf_ne hnew).2 (hclear _ (String.ofList_inj.1 hkey)) (hclear _ rfl) hkey

/-- On the way to the given claims, a file was handed out. -/
def HandedOut (files : List Claim) (file : String) : Prop :=
  ∃ (a : Allocator) (name : String),
    (a.claimFile name).1 = file ∧ (a.claimFile name).2.files <:+ files

theorem HandedOut.hash_not_mem {files : List Claim} {file : String}
    (h : HandedOut files file) :
    '#' ∉ file.toList := by
  obtain ⟨a, name, rfl, -⟩ := h
  exact a.hash_not_mem_claimFile name

/-- Claims, and for each of them who has the file and its basename, latest first. -/
inductive Books {α : Type} : List Claim → List (α × List Char) → Prop
  | nil : Books [] []
  | claim {a : Allocator} {books : List (α × List Char)} (owner : α) (name : String)
      {base : List Char} :
      Books a.files books → (a.claimFile name).1 = fileOf base →
      Text.caseKey base ∉ a.takenFiles →
      (a.claimFile name).2.files = ⟨Text.caseKey base, name⟩ :: a.files →
      Books (a.claimFile name).2.files ((owner, base) :: books)

theorem Books.exists_claim {α : Type} {a : Allocator} {books : List (α × List Char)}
    (h : Books a.files books) (owner : α) (name : String) :
    ∃ base, (a.claimFile name).1 = fileOf base ∧
      Books (a.claimFile name).2.files ((owner, base) :: books) :=
  ⟨pad (basename name) (padding a.takenFiles (basename name)), rfl,
    .claim owner name h rfl (caseKey_pad_padding _ _) rfl⟩

variable {α : Type} {files : List Claim} {books : List (α × List Char)}

theorem Books.handedOut {owner : α} {base : List Char} (h : Books files books)
    (hmem : (owner, base) ∈ books) : HandedOut files (fileOf base) := by
  induction h with
  | nil => simp at hmem
  | @claim a books owner' name base' _ hfile _ hfiles ih =>
      rcases List.mem_cons.1 hmem with heq | hmem
      · obtain ⟨-, rfl⟩ := Prod.mk.inj heq
        exact ⟨a, name, hfile, List.suffix_rfl⟩
      · obtain ⟨a', name', hfile', hsuffix⟩ := ih hmem
        exact ⟨a', name', hfile', hsuffix.trans (hfiles ▸ List.suffix_cons _ _)⟩

/-- Every file that was handed out is in the books. -/
theorem Books.exists_of_handedOut {file : String} (h : Books files books)
    (hfile : HandedOut files file) :
    ∃ entry ∈ books, file = fileOf entry.2 := by
  obtain ⟨a, name, rfl, hsuffix⟩ := hfile
  induction h with
  | nil => simp [Allocator.claimFile] at hsuffix
  | @claim a' books owner name' base _ hfile _ hfiles ih =>
      rw [hfiles] at hsuffix
      rcases List.suffix_cons_iff.1 hsuffix with hlast | hsuffix
      · obtain ⟨hclaim, hbefore⟩ := List.cons.inj hlast
        obtain ⟨-, rfl⟩ := Claim.mk.inj hclaim
        refine ⟨(owner, base), List.mem_cons_self, ?_⟩
        rw [← hfile, Allocator.claimFile, Allocator.claimFile]
        rw [Allocator.takenFiles, Allocator.takenFiles, hbefore]
      · obtain ⟨entry, hentry, heq⟩ := ih hsuffix
        exact ⟨entry, List.mem_cons_of_mem _ hentry, heq⟩

/-- The books may say less about who has a file. -/
theorem Books.map_owner {β : Type} (h : Books files books) (f : α → β) :
    Books files (books.map fun entry => (f entry.1, entry.2)) := by
  induction h with
  | nil => exact .nil
  | claim owner name _ hfile hfree hfiles ih =>
      exact .claim (f owner) name ih hfile hfree hfiles

theorem Books.map_caseKey (h : Books files books) :
    books.map (fun entry => Text.caseKey entry.2) = files.map (·.key) := by
  induction h with
  | nil => rfl
  | claim owner name _ _ _ hfiles ih => rw [hfiles, List.map_cons, List.map_cons, ih]

/-- No basename of the books has the lower case of another one. -/
theorem Books.nodup_caseKey (h : Books files books) :
    (books.map fun entry => Text.caseKey entry.2).Nodup := by
  induction h with
  | nil => exact List.nodup_nil
  | claim owner name hbooks _ hfree _ ih =>
      rw [List.map_cons, List.nodup_cons, hbooks.map_caseKey]
      exact ⟨hfree, hbooks.map_caseKey ▸ ih⟩

/-- The basenames of the books are made of names. -/
theorem Books.exists_eq_pad {owner : α} {base : List Char} (h : Books files books)
    (hmem : (owner, base) ∈ books) : ∃ name k, base = pad (basename name) k := by
  induction h with
  | nil => simp at hmem
  | @claim a _ _ name _ _ hfile _ _ ih =>
      rcases List.mem_cons.1 hmem with heq | hmem
      · obtain ⟨-, rfl⟩ := Prod.mk.inj heq
        exact ⟨name, padding a.takenFiles (basename name), fileOf_injective hfile.symm⟩
      · exact ih hmem

/-- Files of different owners have basenames of different lower case. -/
theorem Books.caseKey_ne {owner owner' : α} {base base' : List Char} (h : Books files books)
    (hmem : (owner, base) ∈ books) (hmem' : (owner', base') ∈ books) (hne : owner ≠ owner') :
    Text.caseKey base ≠ Text.caseKey base' := by
  intro hkey
  have hsame := List.inj_on_of_nodup_map h.nodup_caseKey hmem hmem' hkey
  exact hne (congrArg Prod.fst hsame)

/-- The file of an entry is apart from those of all others. -/
theorem Books.apart [BEq α] [LawfulBEq α] {entry other : α × List Char}
    (h : Books files books)
    (hentry : entry ∈ books) (hother : other ∈ books.erase entry) :
    Apart (fileOf entry.2) (fileOf other.2) := by
  have hpairwise : books.Pairwise fun a b => Text.caseKey a.2 ≠ Text.caseKey b.2 :=
    List.pairwise_map.1 h.nodup_caseKey
  have hfirst : (entry :: books.erase entry).Pairwise fun a b =>
      Text.caseKey a.2 ≠ Text.caseKey b.2 :=
    ((List.perm_cons_erase hentry).pairwise_iff fun hne => hne.symm).1 hpairwise
  exact apart_of_caseKey_ne (List.rel_of_pairwise_cons hfirst hother)

end Filename
end DocLinks
