import DocLinks.Proofs.RegistryGrowth

/-!
# The files of pages

What the file of a page is called, and which entry a page has.

**Results.**
* `decode?_pageFile`, `encode_pageFile`: percent encoding treats a file like its basename.
* `entries_pageFor`, `entries_createLink`: which entries a registry has after a page or a
  link was asked for.
* `pageOf_createLink`: a link leads to the encoded page of its owner.
-/

namespace DocLinks
namespace Registry

/-- The file of a name that is padded with the given number of low lines. -/
def pageFile (name : String) (k : Nat) : String :=
  String.ofList (Filename.pad (Filename.basename name) k) ++ Filename.extension

theorem claimFile_eq_pageFile (r : Registry) (name : String) :
    ∃ k, (r.claimFile name).1 = pageFile name k :=
  ⟨_, rfl⟩

theorem toList_pageFile (name : String) (k : Nat) :
    ∃ c t, (pageFile name k).toList = Filename.basename name ++ c :: t ∧
      Text.hexValue? c = none ∧ '%' ∉ c :: t ∧ Percent.encode (c :: t) = c :: t := by
  have hextension : '%' ∉ Filename.extension.toList ∧
      Percent.encode Filename.extension.toList = Filename.extension.toList := by
    decide
  have hlist : (pageFile name k).toList =
      Filename.basename name ++ (List.replicate k '_' ++ Filename.extension.toList) := by
    simp [pageFile, Filename.pad]
  cases k with
  | zero =>
      refine ⟨'.', "html".toList, hlist, by decide, hextension.1, hextension.2⟩
  | succ k =>
      refine ⟨'_', List.replicate k '_' ++ Filename.extension.toList, hlist,
        by decide, ?_, ?_⟩
      · simp only [List.mem_cons, List.mem_append, List.mem_replicate, not_or]
        exact ⟨by decide, by simp, hextension.1⟩
      · have hline : Percent.encodeChar '_' = ['_'] := by decide
        have hlines : Percent.encode (List.replicate k '_') = List.replicate k '_' := by
          clear hlist
          induction k with
          | zero => rfl
          | succ k ih =>
              rw [List.replicate_succ, Percent.encode, List.flatMap_cons]
              rw [hline, ← Percent.encode]
              rw [ih, List.singleton_append]
        rw [Percent.encode, List.flatMap_cons, hline]
        rw [← Percent.encode, Percent.encode_append, hlines]
        rw [hextension.2, List.singleton_append]

/-- If decoding leaves the basename alone, it leaves the file alone. -/
theorem decode?_pageFile {name : String} (k : Nat)
    (h : Percent.decode? (Filename.basename name) = some (Filename.basename name)) :
    Percent.decode? (pageFile name k).toList = some (pageFile name k).toList := by
  obtain ⟨c, t, hlist, hc, ht, -⟩ := toList_pageFile name k
  rw [hlist]
  exact Percent.decode?_append_of_not_mem hc h ht

/-- If encoding leaves the basename alone, it leaves the file alone. -/
theorem encode_pageFile {name : String} (k : Nat)
    (h : Percent.encode (Filename.basename name) = Filename.basename name) :
    Percent.encode (pageFile name k).toList = (pageFile name k).toList := by
  obtain ⟨c, t, hlist, -, -, henc⟩ := toList_pageFile name k
  rw [hlist, Percent.encode_append]
  rw [h, henc]

theorem hash_not_mem_pageFile (name : String) (k : Nat) :
    '#' ∉ (pageFile name k).toList := by
  have hbase := Filename.hash_not_mem_basename name
  have hextension : '#' ∉ Filename.extension.toList := by decide
  simp only [pageFile, Filename.pad, String.toList_append, String.toList_ofList,
    List.mem_append, List.mem_replicate, not_or]
  exact ⟨⟨hbase, by simp⟩, hextension⟩

section Entries

variable {r r' : Registry}

theorem find?_of_isPrefix (h : r.entries <+: r'.entries) {name : String} {e : Entry}
    (he : r.find? name = some e) : r'.find? name = some e := by
  obtain ⟨more, hmore⟩ := h
  rw [find?, ← hmore, List.find?_append]
  rw [find?] at he
  rw [he]
  rfl

theorem resolve?_of_isPrefix (h : r.entries <+: r'.entries) {name url : String}
    (hurl : r.resolve? name = some url) : r'.resolve? name = some url := by
  obtain ⟨e, he, rfl⟩ := Option.map_eq_some_iff.1 hurl
  rw [resolve?, find?_of_isPrefix h he]
  rfl

theorem find?_congr (h : r'.entries = r.entries) (name : String) :
    r'.find? name = r.find? name := by
  rw [find?, find?, h]

theorem resolve?_congr (h : r'.entries = r.entries) (name : String) :
    r'.resolve? name = r.resolve? name := by
  rw [resolve?, resolve?, find?_congr h]

theorem contains_of_isPrefix (h : r.entries <+: r'.entries) {name : String}
    (hname : r.contains name = true) : r'.contains name = true := by
  obtain ⟨url, hurl⟩ := (r.contains_iff name).1 hname
  exact (r'.contains_iff name).2 ⟨url, resolve?_of_isPrefix h hurl⟩

theorem add_of_contains {e : Entry} (h : r.contains e.name = true) : r.add e = r := by
  rw [add, if_pos h]

theorem contains_eq_false_iff {name : String} :
    r.contains name = false ↔ r.resolve? name = none := by
  rw [← Bool.not_eq_true, contains_iff, Option.eq_none_iff_forall_ne_some]
  push Not
  rfl

variable (r)

theorem prefix_add (e : Entry) : r.entries <+: (r.add e).entries := by
  unfold add
  split
  · exact List.prefix_rfl
  · exact List.prefix_append _ _

/-- Of the entries, a link changes only what its page does. -/
theorem entries_createLink (d : Doclet) :
    (r.createLink d).2.entries = (r.pageFor (placement d).owner).2.entries := by
  unfold createLink
  dsimp only
  split
  · exact (givesFragment_fragmentFor _ _ d).entries_eq
  · rfl

/-- Of the files and tutorials, a link changes only what its page does. -/
theorem files_createLink (d : Doclet) :
    (r.createLink d).2.files.files = (r.pageFor (placement d).owner).2.files.files ∧
      (r.createLink d).2.tutorials = (r.pageFor (placement d).owner).2.tutorials := by
  have hfragment : ∀ (r : Registry) (file : String),
      (r.fragmentFor file d).2.files.files = r.files.files ∧
        (r.fragmentFor file d).2.tutorials = r.tutorials := by
    intro r file
    unfold fragmentFor
    split
    · exact ⟨rfl, rfl⟩
    · dsimp only
      split
      · exact ⟨rfl, rfl⟩
      · exact ⟨rfl, rfl⟩
  unfold createLink
  dsimp only
  split
  · exact hfragment _ _
  · exact ⟨rfl, rfl⟩

/-- What stands before the number sign of a link is the encoded page of its owner. -/
theorem pageOf_createLink (d : Doclet) :
    ∃ url, (r.createLink d).2.resolve? (placement d).owner = some url ∧
      (pageOf (r.createLink d).1).toList = Percent.encode (pageOf url).toList := by
  obtain ⟨url, hurl, hfile⟩ := r.pageFor_spec (placement d).owner
  refine ⟨url, ?_, ?_⟩
  · rw [resolve?_congr (r.entries_createLink d), hurl]
  · unfold createLink
    dsimp only
    rw [hfile, pageOf_urlOf (hash_not_mem_pageOf url)]

/-- A name that is not registered is registered with its file when its page is asked for. -/
theorem entries_pageFor (name : String) :
    (r.resolve? name ≠ none ∧ (r.pageFor name).2.entries = r.entries) ∨
    (r.resolve? name = none ∧
      ∃ k, (r.pageFor name).2.entries = r.entries ++ [⟨name, pageFile name k, false⟩]) := by
  unfold pageFor
  cases hname : r.resolve? name with
  | some url => exact .inl ⟨by simp, rfl⟩
  | none =>
      obtain ⟨k, hk⟩ := r.claimFile_eq_pageFile name
      have hcontains : (r.claimFile name).2.contains name = false :=
        contains_eq_false_iff.2 hname
      refine .inr ⟨rfl, k, ?_⟩
      dsimp only
      rw [entries_register, hcontains, hk]
      rfl

end Entries

end Registry
end DocLinks
