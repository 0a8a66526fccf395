import DocLinks.Proofs.SlicesInRange

/-!
# The directories that paths share

Every path loses the same directories: the longest ones that all paths have, and behind which
each of them goes on.  No segment has a slash in it, so what is left of a path can be cut
into its segments again.

**Results.**
* `isPrefix_commonStartAll`: what all lists start with is a start of what is computed.
* `goesOn_iff`: a path goes on behind directories if they are a start of its own directories.
* `eq_of_intercalate_eq`: segments can be told from the text that they are joined to.
* `shortened_by_shared_directories`: what is left of the paths.
-/

namespace DocLinks

namespace Text

/-- No part between separators has a separator in it. -/
theorem eq_false_of_mem_fields {p : Char → Bool} {s field : List Char}
    (h : field ∈ fields p s) :
    ∀ c ∈ field, p c = false := by
  induction s generalizing field with
  | nil =>
      obtain rfl : field = [] := by simpa [fields] using h
      simp
  | cons d s ih =>
      rw [fields] at h
      split at h
      · rcases List.mem_cons.1 h with rfl | h
        · simp
        · exact ih h
      · rename_i hd
        split at h
        · rename_i hnil
          exact absurd hnil (fields_ne_nil p s)
        · rename_i first rest hfields
          have hkept : ∀ c ∈ first, p c = false :=
            ih (by rw [hfields]; exact List.mem_cons_self)
          rcases List.mem_cons.1 h with rfl | h
          · intro c hc
            rcases List.mem_cons.1 hc with rfl | hc
            · simpa using hd
            · exact hkept c hc
          · exact ih (by rw [hfields]; exact List.mem_cons_of_mem _ h)

end Text

namespace SourcePath

section Starts

variable {a b c : List String} {lists : List (List String)}

theorem isPrefix_commonStart (ha : c <+: a) (hb : c <+: b) : c <+: commonStart a b := by
  induction c generalizing a b with
  | nil => exact List.nil_prefix
  | cons x c ih =>
      obtain ⟨a, rfl⟩ := ha
      obtain ⟨b, rfl⟩ := hb
      rw [List.cons_append, List.cons_append]
      rw [commonStart, if_pos rfl]
      exact (List.prefix_cons_inj x).2 (ih (List.prefix_append c a) (List.prefix_append c b))

/-- What all lists start with is a start of their longest common start. -/
theorem isPrefix_commonStartAll (hne : lists ≠ []) (h : ∀ l ∈ lists, c <+: l) :
    c <+: commonStartAll lists := by
  induction lists with
  | nil => exact absurd rfl hne
  | cons a rest ih =>
      cases rest with
      | nil => exact h a List.mem_cons_self
      | cons b rest =>
          have hrest : c <+: commonStartAll (b :: rest) :=
            ih (List.cons_ne_nil b rest) fun l hl => h l (List.mem_cons_of_mem a hl)
          exact isPrefix_commonStart (h a List.mem_cons_self) hrest

/-- A proper start of a list is a start of all of it but its last value. -/
theorem isPrefix_dropLast_iff (hne : a ≠ []) : c <+: a.dropLast ↔ c <+: a ∧ c ≠ a := by
  obtain ⟨front, last, rfl⟩ := (List.eq_nil_or_concat' a).resolve_left hne
  rw [List.dropLast_concat, List.prefix_concat_iff]
  constructor
  · intro h
    refine ⟨.inr h, ?_⟩
    rintro rfl
    have hlength := h.length_le
    rw [List.length_append, List.length_singleton] at hlength
    omega
  · rintro ⟨h, hproper⟩
    exact h.resolve_left hproper

end Starts

section Segments

variable {path : String}

theorem segments_ne_nil (path : String) : segments path ≠ [] := by
  rw [segments, ne_eq, List.map_eq_nil_iff]
  exact Text.fields_ne_nil _ _

theorem slash_not_mem_of_mem_segments {segment : String} (h : segment ∈ segments path) :
    '/' ∉ segment.toList := by
  obtain ⟨field, hfield, rfl⟩ := List.mem_map.1 h
  rw [String.toList_ofList]
  intro hslash
  have hseparator := Text.eq_false_of_mem_fields hfield '/' hslash
  exact absurd hseparator (by decide)

/-- Segments without slashes can be told from the text that they are joined to. -/
theorem eq_of_intercalate_eq {a b : List String} (ha : a ≠ []) (hb : b ≠ [])
    (haslash : ∀ s ∈ a, '/' ∉ s.toList) (hbslash : ∀ s ∈ b, '/' ∉ s.toList)
    (h : "/".intercalate a = "/".intercalate b) : a = b := by
  have hcut : ∀ l : List String, l ≠ [] → (∀ s ∈ l, '/' ∉ s.toList) →
      ("/".intercalate l).toList.splitOn '/' = l.map String.toList := by
    intro l hne hslash
    rw [String.toList_intercalate]
    refine List.splitOn_intercalate '/' (fun s hs => ?_) (by simpa using hne)
    obtain ⟨t, ht, rfl⟩ := List.mem_map.1 hs
    exact hslash t ht
  refine List.map_injective_iff.2 (fun _ _ => String.toList_injective) ?_
  rw [← hcut a ha haslash, ← hcut b hb hbslash, h]

end Segments

section Shared

variable {paths : List String}

/-- A path goes on behind some directories. -/
def GoesOn (directories : List String) (path : String) : Prop :=
  directories <+: segments path ∧ directories ≠ segments path

/-- The longest directories behind which all paths go on. -/
structure LongestShared (paths directories : List String) : Prop where
  shared : ∀ path ∈ paths, GoesOn directories path
  longest : ∀ other, (∀ path ∈ paths, GoesOn other path) → other.length ≤ directories.length

theorem goesOn_iff {directories : List String} {path : String} :
    GoesOn directories path ↔ directories <+: (segments path).dropLast :=
  (isPrefix_dropLast_iff (segments_ne_nil path)).symm

theorem longestShared_sharedDirectories (hne : paths ≠ []) :
    LongestShared paths (sharedDirectories paths) where
  shared path hpath := goesOn_iff.2 (commonStartAll_isPrefix (List.mem_map_of_mem hpath))
  longest other hother := by
    have hstart : other <+: sharedDirectories paths := by
      refine isPrefix_commonStartAll (by simpa using hne) fun l hl => ?_
      obtain ⟨path, hpath, rfl⟩ := List.mem_map.1 hl
      exact goesOn_iff.1 (hother path hpath)
    exact hstart.length_le

/-- There are no two longest shared directories: both are starts of the same path. -/
theorem LongestShared.unique {a b : List String} (hne : paths ≠ [])
    (ha : LongestShared paths a)
    (hb : LongestShared paths b) : a = b := by
  obtain ⟨path, hpath⟩ := List.exists_mem_of_ne_nil paths hne
  have hlength : a.length = b.length :=
    Nat.le_antisymm (hb.longest a ha.shared) (ha.longest b hb.shared)
  have hstart : a <+: b :=
    List.prefix_of_prefix_length_le (ha.shared path hpath).1 (hb.shared path hpath).1
      (Nat.le_of_eq hlength)
  exact hstart.eq_of_length hlength

theorem lookup_shorten {path : String} (hpath : path ∈ paths) :
    (shorten paths).lookup path = some
      (dropSegments (sharedDirectories paths).length path) :=
  List.lookup_graph _ hpath

/-- Behind the shared directories at least the last segment of a path is left. -/
theorem exists_rest {path : String} {directories : List String}
    (h : GoesOn directories path) :
    ∃ rest, rest ≠ [] ∧ segments path = directories ++ rest ∧
      dropSegments directories.length path = "/".intercalate rest := by
  obtain ⟨⟨rest, hrest⟩, hproper⟩ := h
  refine ⟨rest, ?_, hrest.symm, ?_⟩
  · rintro rfl
    exact hproper (by rw [← hrest, List.append_nil])
  · rw [dropSegments, ← hrest, List.drop_left]

/-- Paths lose the longest directories behind which all of them go on, of which there are no
two, and nothing else: what is left of a path are its other segments, at least the last one,
joined with slashes. To count the shared directories and to slice them off needs no segment
that is not there.  Paths with different segments stay different. -/
theorem shortened_by_shared_directories (hne : paths ≠ []) :
    ∃ directories, LongestShared paths directories ∧
      (∀ other, LongestShared paths other → other = directories) ∧
      shorten? paths = some (shorten paths) ∧
      (∀ path ∈ paths, ∃ rest, rest ≠ [] ∧ segments path = directories ++ rest ∧
        (shorten paths).lookup path = some ("/".intercalate rest)) ∧
      ∀ path ∈ paths, ∀ other ∈ paths, segments path ≠ segments other →
        (shorten paths).lookup path ≠ (shorten paths).lookup other := by
  have hlongest := longestShared_sharedDirectories hne
  have hrest : ∀ path ∈ paths, ∃ rest, rest ≠ [] ∧
      segments path = sharedDirectories paths ++ rest ∧
      (shorten paths).lookup path = some ("/".intercalate rest) := by
    intro path hpath
    obtain ⟨rest, hleft, hsegments, hshort⟩ := exists_rest (hlongest.shared path hpath)
    exact ⟨rest, hleft, hsegments, by rw [lookup_shorten hpath, hshort]⟩
  refine ⟨_, hlongest, fun other hother => hother.unique hne hlongest,
    shorten?_eq paths, hrest, ?_⟩
  intro path hpath other hother hdiffer hsame
  obtain ⟨a, ha, hsegments, hshort⟩ := hrest path hpath
  obtain ⟨b, hb, hsegments', hshort'⟩ := hrest other hother
  rw [hshort, hshort', Option.some.injEq] at hsame
  have hab : a = b := by
    refine eq_of_intercalate_eq ha hb (fun s hs => ?_) (fun s hs => ?_) hsame
    · have hmem : s ∈ segments path := by
        rw [hsegments]
        exact List.mem_append_right _ hs
      exact slash_not_mem_of_mem_segments hmem
    · have hmem : s ∈ segments other := by
        rw [hsegments']
        exact List.mem_append_right _ hs
      exact slash_not_mem_of_mem_segments hmem
  exact hdiffer (by rw [hsegments, hsegments', hab])

/-- A directory of the first path is the last segment of the second one, so it is not left
out; the slashes are of both kinds. -/
theorem shortened_nested_paths :
    let paths := ["src/a/x.js", "src\\a"]
    paths ≠ [] ∧ shorten paths = [("src/a/x.js", "a/x.js"), ("src\\a", "a")] ∧
      ∃ directories, LongestShared paths directories ∧
        (∀ other, LongestShared paths other → other = directories) ∧
        shorten? paths = some (shorten paths) ∧
        (∀ path ∈ paths, ∃ rest, rest ≠ [] ∧ segments path = directories ++ rest ∧
          (shorten paths).lookup path = some ("/".intercalate rest)) ∧
        ∀ path ∈ paths, ∀ other ∈ paths, segments path ≠ segments other →
          (shorten paths).lookup path ≠ (shorten paths).lookup other :=
  ⟨by decide, by decide +kernel, shortened_by_shared_directories (by decide)⟩

end Shared
end SourcePath
end DocLinks
