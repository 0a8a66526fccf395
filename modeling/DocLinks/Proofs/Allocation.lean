import Mathlib.Data.List.Nodup
import Mathlib.Data.List.Perm.Subperm
import Mathlib.Order.Bounds.Defs
import DocLinks.Filename

/-!
# What allocators give out is new

A name that is padded often enough differs from all that have been taken, since every further
low line makes its lower case longer.

**Results.**
* `caseKey_pad`: the lower case of a padded text.
* `caseKey_pad_injective`: paddings of one text are told apart, case aside.
* `isLeast_padding`: the padding that is chosen is the least one that makes a text new.
* `isUnsafe_of_mem_basename`, `exists_basename_eq_cons`: basenames are safe.
* `Allocator.claimAnchor_new`, `Allocator.hash_not_mem_claimFile`: fragments are new in their
  file, and the names of files have no number sign.
* `Allocator.takenAnchors_claimAnchor_of_ne`: files do not meddle with each other's
  fragments.
-/

namespace DocLinks
namespace Text

/-- A low line ends a word, as the end of the text does. -/
theorem startsCased_append_lowLines (s : List Char) (k : Nat) :
    startsCased (s ++ List.replicate k '_') = startsCased s := by
  induction s with
  | nil =>
      have hcounts : isCaseIgnorable '_' = false := by decide +kernel
      have hcased : isCased '_' = false := by decide +kernel
      cases k with
      | zero => rfl
      | succ k => simp [startsCased, List.replicate_succ, hcounts, hcased]
  | cons c s ih =>
      cases hc : isCaseIgnorable c with
      | true => simpa [startsCased, hc] using ih
      | false => simp [startsCased, hc]

theorem lowerFrom_lowLines (b : Bool) (k : Nat) :
    lowerFrom b (List.replicate k '_') = List.replicate k '_' := by
  have hsame : ∀ (b : Bool) (rest : List Char), lowerAt b '_' rest = ['_'] := fun _ _ => rfl
  induction k generalizing b with
  | zero => rfl
  | succ k ih =>
      rw [List.replicate_succ, lowerFrom_cons]
      rw [hsame, ih]
      rfl

theorem lowerFrom_append_lowLines (b : Bool) (s : List Char) (k : Nat) :
    lowerFrom b (s ++ List.replicate k '_') = lowerFrom b s ++ List.replicate k '_' := by
  induction s generalizing b with
  | nil => exact lowerFrom_lowLines b k
  | cons c s ih =>
      have hhere : lowerAt b c (s ++ List.replicate k '_') = lowerAt b c s := by
        unfold lowerAt
        rw [startsCased_append_lowLines]
      rw [List.cons_append, lowerFrom_cons, lowerFrom_cons]
      rw [hhere, ih, List.append_assoc]

end Text

namespace Filename

/-- The lower case of a padded text is the padded lower case. -/
theorem caseKey_pad (s : List Char) (k : Nat) :
    Text.caseKey (pad s k) = String.ofList (pad (Text.lower s) k) := by
  rw [Text.caseKey, Text.lower]
  rw [pad, Text.lowerFrom_append_lowLines]
  rfl

/-- Every low line makes the lower case of a text longer. -/
theorem caseKey_pad_injective (s : List Char) :
    (fun k => Text.caseKey (pad s k)).Injective := by
  intro j k h
  have hlength := congrArg String.length h
  simp only [caseKey_pad, String.length_ofList] at hlength
  simp only [pad, List.length_append, List.length_replicate] at hlength
  omega

theorem exists_pad_not_mem (taken : List String) (s : List Char) :
    ∃ k ∈ List.range (taken.length + 1), Text.caseKey (pad s k) ∉ taken := by
  by_contra hall
  push Not at hall
  have hnodup :
      ((List.range (taken.length + 1)).map fun k => Text.caseKey (pad s k)).Nodup :=
    List.nodup_range.map (caseKey_pad_injective s)
  have hsub : ((List.range (taken.length + 1)).map
      fun k => Text.caseKey (pad s k)) ⊆ taken := by
    intro key hkey
    obtain ⟨k, hk, rfl⟩ := List.mem_map.1 hkey
    exact hall k hk
  have hlen := (hnodup.subperm hsub).length_le
  rw [List.length_map, List.length_range] at hlen
  omega

/-- The padding that is chosen is the least one that makes a text differ from all taken ones,
case aside. -/
theorem isLeast_padding (taken : List String) (s : List Char) :
    IsLeast {k | Text.caseKey (pad s k) ∉ taken} (padding taken s) := by
  unfold padding
  cases hfind : (List.range (taken.length + 1)).find? fun k =>
      !taken.contains (Text.caseKey (pad s k)) with
  | some k =>
      obtain ⟨hfree, -, hleast⟩ := List.find?_range_eq_some.1 hfind
      have hnew : Text.caseKey (pad s k) ∉ taken := by simpa using hfree
      refine ⟨hnew, fun j hj => ?_⟩
      by_contra hlt
      exact hj (by simpa using hleast j (Nat.lt_of_not_le hlt))
  | none =>
      obtain ⟨k, hk, hfree⟩ := exists_pad_not_mem taken s
      have htaken := List.find?_eq_none.1 hfind k hk
      simp only [Bool.not_eq_true', Bool.not_eq_false, List.contains_iff_mem] at htaken
      exact absurd htaken hfree

theorem caseKey_pad_padding (taken : List String) (s : List Char) :
    Text.caseKey (pad s (padding taken s)) ∉ taken :=
  (isLeast_padding taken s).1

namespace Allocator

variable (a : Allocator)

theorem mem_takenAnchors {file key : String} :
    key ∈ a.takenAnchors file ↔ Anchor.mk file key ∈ a.anchors := by
  simp only [takenAnchors, List.mem_map, List.mem_filter, beq_iff_eq]
  constructor
  · rintro ⟨⟨f, k⟩, ⟨hmem, rfl⟩, rfl⟩
    exact hmem
  · intro h
    exact ⟨_, ⟨h, rfl⟩, rfl⟩

/-- A fragment that is claimed is new in its file, and from then on it is in use there. -/
theorem claimAnchor_new (file wish : String) :
    let key := Text.caseKey (a.claimAnchor file wish).1.toList
    Anchor.mk file key ∉ a.anchors ∧
      (a.claimAnchor file wish).2.anchors = Anchor.mk file key :: a.anchors := by
  intro key
  have hkey : key = Text.caseKey (pad (wish.toList.filter fun c => !Text.isBlank c)
      (padding (a.takenAnchors file) (wish.toList.filter fun c => !Text.isBlank c))) := by
    simp only [key, claimAnchor, String.toList_ofList]
  refine ⟨?_, ?_⟩
  · rw [← mem_takenAnchors, hkey]
    exact caseKey_pad_padding _ _
  · rw [hkey]
    rfl

variable {file : String}

theorem takenAnchors_claimAnchor_of_ne {other : String} (hne : other ≠ file) (a : Allocator)
    (wish : String) :
    (a.claimAnchor other wish).2.takenAnchors file = a.takenAnchors file := by
  simp [claimAnchor, takenAnchors, hne]

end Allocator

/-- What becomes of a name on the way to a basename keeps it safe. -/
theorem isUnsafe_of_mem_basename {name : String} {c : Char} (hc : c ∈ basename name) :
    isUnsafe c = false := by
  have hsafe : ∀ c ∈ (hyphenateKind name.toList).map safeChar, isUnsafe c = false := by
    intro c hc
    obtain ⟨d, -, rfl⟩ := List.mem_map.1 hc
    exact isUnsafe_safeChar d
  have hvariation : ∀ {s : List Char}, dropVariation s ⊆ s := by
    intro s
    unfold dropVariation
    split
    · exact (List.takeWhile_sublist _).subset
    · exact List.Subset.refl s
  have hlead : ∀ {s : List Char}, dropLead s ⊆ s := by
    intro s
    unfold dropLead
    split
    · exact List.subset_cons_self _ _
    · exact List.subset_cons_self _ _
    · exact List.Subset.refl s
  have hbase : ∀ c ∈ dropLead (dropVariation ((hyphenateKind name.toList).map safeChar)),
      isUnsafe c = false := fun c hc => hsafe c (hvariation (hlead hc))
  unfold basename at hc
  split at hc
  · rcases List.mem_pair.1 hc with rfl | rfl
    · decide
    · decide
  · rename_i s hs
    rw [hs] at hbase
    rcases List.mem_cons.1 hc with rfl | hc
    · decide
    · exact hbase c hc
  · exact hbase c hc

theorem hash_not_mem_basename (name : String) : '#' ∉ basename name := fun hmem =>
  absurd (isUnsafe_of_mem_basename hmem) (by decide)

/-- A basename starts with something else than a low line. -/
theorem exists_basename_eq_cons (name : String) :
    ∃ c s, basename name = c :: s ∧ c ≠ '_' := by
  unfold basename
  split
  · exact ⟨'-', _, rfl, by decide⟩
  · exact ⟨'-', _, rfl, by decide⟩
  · rename_i hnil hlow
    cases hbase : dropLead (dropVariation ((hyphenateKind name.toList).map safeChar)) with
    | nil => exact absurd hbase hnil
    | cons c s => exact ⟨c, s, rfl, fun hc => hlow s (hc ▸ hbase)⟩

theorem Allocator.hash_not_mem_claimFile (a : Allocator) (name : String) :
    '#' ∉ (a.claimFile name).1.toList := by
  have hbase := hash_not_mem_basename name
  have hextension : '#' ∉ extension.toList := by decide
  simp only [claimFile, pad, String.toList_append, String.toList_ofList, List.mem_append,
    List.mem_replicate, not_or]
  exact ⟨⟨hbase, by simp⟩, hextension⟩

end Filename
end DocLinks
