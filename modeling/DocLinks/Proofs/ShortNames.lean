import DocLinks.Proofs.PageFiles
import DocLinks.Shortname

/-!
# Which short names become aliases

The short names of all entries are counted before any of them is registered.  One that
belongs to a single entry becomes an alias of it, unless it is a registered name itself; one
that several entries share is reported, in the order in which these names are first met.

**Results.**
* `register_fst`, `entries_register_snd`: which of the short names that belong to one entry
  each are added.
* `addAliases_exact`: what becomes of every name, and what is reported.
-/

namespace DocLinks

section SeenBefore

variable {α : Type}

/-- Some place of a value in a list has no place of the other value in front of it. -/
def SeenBefore (l : List α) (a b : α) : Prop :=
  a ≠ b ∧ ∃ front back, l = front ++ a :: back ∧ b ∉ front

theorem SeenBefore.of_filter {l : List α} {p : α → Bool} {a b : α}
    (h : SeenBefore (l.filter p) a b) (hb : p b = true) : SeenBefore l a b := by
  obtain ⟨hne, front, back, hsplit, hfront⟩ := h
  obtain ⟨l₁, l₂, rfl, hl₁, hl₂⟩ := List.filter_eq_append_iff.1 hsplit
  obtain ⟨skipped, rest, rfl, hskipped, -, -⟩ := List.filter_eq_cons_iff.1 hl₂
  refine ⟨hne, l₁ ++ skipped, rest, by rw [List.append_assoc], fun hmem => ?_⟩
  rcases List.mem_append.1 hmem with hmem | hmem
  · exact hfront (hl₁ ▸ List.mem_filter.2 ⟨hmem, hb⟩)
  · exact hskipped b hmem hb

/-- When repetitions are dropped, the values that are left stand in the order in which they
are seen. -/
theorem pairwise_eraseDups [BEq α] [LawfulBEq α] : ∀ l :
    List α, l.eraseDups.Pairwise (SeenBefore l)
  | [] => by simp
  | a :: l => by
      have hlen : (l.filter fun b => !b == a).length < (a :: l).length :=
        Nat.lt_succ_of_le (List.length_filter_le _ l)
      have hne : ∀ c ∈ (l.filter fun b => !b == a).eraseDups, (!c == a) = true := fun c hc =>
        (List.mem_filter.1 (List.mem_eraseDups.1 hc)).2
      rw [List.eraseDups_cons, List.pairwise_cons]
      refine ⟨fun c hc => ⟨fun heq => by simpa [heq] using hne c hc, [], l,
        rfl, by simp⟩, ?_⟩
      refine (pairwise_eraseDups (l.filter fun b => !b == a)).imp_of_mem
        fun {b c} _ hc h => ?_
      obtain ⟨hbc, front, back, rfl, hfront⟩ := h.of_filter (hne c hc)
      refine ⟨hbc, a :: front, back, rfl, ?_⟩
      simp only [List.mem_cons, not_or]
      exact ⟨by simpa using hne c hc, hfront⟩
termination_by l => l.length
decreasing_by exact hlen

end SeenBefore

namespace Shortname

/-- The entries of a registry whose names have the given short name. -/
def bearers (r : Registry) (short : String) : List Entry :=
  r.entries.filter fun e => of? e.name == some short

/-- The short names of all entries, in their order. -/
def shorts (r : Registry) : List String :=
  r.entries.filterMap fun e => of? e.name

section Counting

variable (r : Registry)

theorem map_fst_candidates : (candidates r).map (·.1) = shorts r := by
  unfold candidates shorts
  rw [List.map_filterMap]
  congr
  funext e
  cases of? e.name <;> rfl

theorem map_snd_filter_candidates (short : String) :
    ((candidates r).filter (·.1 == short)).map (·.2) = (bearers r short).map (·.url) := by
  unfold candidates bearers
  generalize r.entries = es
  induction es with
  | nil => rfl
  | cons e es ih =>
      cases hshort : of? e.name with
      | none => simpa [hshort] using ih
      | some s =>
          by_cases hs : s = short
          · simpa [hshort, hs] using ih
          · simpa [hshort, hs] using ih

theorem count_candidates (short : String) :
    count (candidates r) short = (bearers r short).length := by
  have hlen := congrArg List.length (map_snd_filter_candidates r short)
  rw [List.length_map, List.length_map] at hlen
  rw [count, List.countP_eq_length_filter, hlen]

theorem map_fst_unambiguous :
    (unambiguous (candidates r)).map (·.1) = (shorts r).filter fun s =>
      (bearers r s).length == 1 := by
  unfold unambiguous
  rw [← map_fst_candidates, List.filter_map]
  simp only [count_candidates]
  rfl

theorem mem_unambiguous_iff {short url : String} :
    (short, url) ∈ unambiguous (candidates r) ↔
    ∃ e, bearers r short = [e] ∧ e.url = url := by
  have hmem : (short, url) ∈ candidates r ↔ url ∈ (bearers r short).map (·.url) := by
    rw [← map_snd_filter_candidates]
    simp
  rw [unambiguous, List.mem_filter]
  rw [hmem, count_candidates]
  constructor
  · rintro ⟨hurl, hone⟩
    obtain ⟨e, he⟩ := List.length_eq_one_iff.1 (by simpa using hone)
    rw [he] at hurl
    exact ⟨e, he, (List.mem_singleton.1 hurl).symm⟩
  · rintro ⟨e, he, rfl⟩
    simp [he]

theorem mem_shorts_iff {short : String} : short ∈ shorts r ↔ bearers r short ≠ [] := by
  simp [shorts, bearers]

/-- A short name that belongs to one entry is listed once. -/
theorem nodup_map_fst_unambiguous : ((unambiguous (candidates r)).map (·.1)).Nodup := by
  rw [map_fst_unambiguous, List.nodup_iff_count_le_one]
  intro short
  by_cases hone : ((bearers r short).length == 1) = true
  · have hcount : (shorts r).count short = (bearers r short).length := by
      rw [← map_fst_candidates, List.count]
      rw [List.countP_map, ← count_candidates]
      rfl
    rw [beq_iff_eq] at hone
    exact Nat.le_trans (List.filter_sublist.count_le short)
      (Nat.le_of_eq (hcount.trans hone))
  · rw [List.count_eq_zero_of_not_mem]
    · exact Nat.zero_le 1
    · exact fun hmem => hone (List.mem_filter.1 hmem).2

theorem ambiguous_candidates :
    ambiguous (candidates r) =
      ((shorts r).filter fun s => (bearers r s).length != 1).eraseDups := by
  unfold ambiguous
  rw [← map_fst_candidates, List.filter_map]
  simp only [count_candidates]
  rfl

theorem mem_ambiguous_iff {short : String} :
    short ∈ ambiguous (candidates r) ↔ 2 ≤ (bearers r short).length := by
  rw [ambiguous_candidates, List.mem_eraseDups, List.mem_filter]
  rw [mem_shorts_iff, ← List.length_pos_iff_ne_nil, bne_iff_ne]
  omega

theorem pairwise_ambiguous :
    (ambiguous (candidates r)).Pairwise (SeenBefore (shorts r)) := by
  rw [ambiguous_candidates]
  refine (pairwise_eraseDups _).imp_of_mem fun {a b} _ hb h => h.of_filter ?_
  exact (List.mem_filter.1 (List.mem_eraseDups.1 hb)).2

end Counting

section Registering

variable {all : List (String × String)} {r : Registry}

theorem entries_registerAlias (hnew : r.contains name = false) (url : String) :
    (r.registerAlias name url).entries = r.entries ++ [⟨name, url, true⟩] := by
  rw [Registry.registerAlias, Registry.add, hnew]
  rfl

theorem contains_registerAlias_of_ne {name other : String}
    (hne : other ≠ name) (url : String) :
    (r.registerAlias name url).contains other = r.contains other := by
  cases hname : r.contains name with
  | true => rw [Registry.registerAlias, Registry.add_of_contains hname]
  | false =>
      rw [Registry.contains, entries_registerAlias hname]
      rw [List.any_append, Registry.contains]
      simp [Ne.symm hne]

/-- What registering one short name does to the names that come after it. -/
theorem filter_contains_registerAlias {short url : String} {rest : List (String × String)}
    (hshort : short ∉ rest.map (·.1)) :
    (rest.filter fun c => !(r.registerAlias short url).contains c.1) =
      rest.filter fun c => !r.contains c.1 := by
  refine List.filter_congr fun c hc => ?_
  have hne : c.1 ≠ short := fun heq => hshort (heq ▸ List.mem_map_of_mem hc)
  rw [contains_registerAlias_of_ne hne]

/-- Of short names that differ from each other, those that are free are added. -/
theorem register_fst (hnodup : (all.map (·.1)).Nodup) :
    (register all r).1 = (all.filter fun c => !r.contains c.1).map (·.1) := by
  induction all generalizing r with
  | nil => rfl
  | cons c rest ih =>
      obtain ⟨short, url⟩ := c
      obtain ⟨hshort, hrest⟩ := List.nodup_cons.1 hnodup
      cases hcontains : r.contains short with
      | true => simp [register, hcontains, ih hrest]
      | false =>
          simp [register, hcontains, ih hrest, filter_contains_registerAlias hshort]

/-- They come after all entries, each with the link that it was given. -/
theorem entries_register_snd (hnodup : (all.map (·.1)).Nodup) :
    (register all r).2.entries =
      r.entries ++ (all.filter fun c => !r.contains c.1).map fun c => ⟨c.1, c.2, true⟩ := by
  induction all generalizing r with
  | nil => simp [register]
  | cons c rest ih =>
      obtain ⟨short, url⟩ := c
      obtain ⟨hshort, hrest⟩ := List.nodup_cons.1 hnodup
      cases hcontains : r.contains short with
      | true => simp [register, hcontains, ih hrest]
      | false =>
          simp [register, hcontains, ih hrest, filter_contains_registerAlias hshort,
            entries_registerAlias hcontains]

end Registering

section Aliases

variable (r : Registry)

/-- The aliases that are added, as entries. -/
def aliases : List Entry :=
  ((unambiguous (candidates r)).filter fun c => !r.contains c.1).map
    fun c => ⟨c.1, c.2, true⟩

theorem entries_addAliases : (addAliases r).2.entries = r.entries ++ aliases r :=
  entries_register_snd (nodup_map_fst_unambiguous r)

theorem added_eq : (addAliases r).1.added = (aliases r).map (·.name) := by
  have hadded : (addAliases r).1.added = _ := register_fst (nodup_map_fst_unambiguous r)
  rw [hadded, aliases, List.map_map]
  rfl

theorem mem_aliases_iff {e : Entry} :
    e ∈ aliases r ↔ r.contains e.name = false ∧
      ∃ source, bearers r e.name = [source] ∧ e = ⟨e.name, source.url, true⟩ := by
  simp only [aliases, List.mem_map, List.mem_filter, Prod.exists, mem_unambiguous_iff,
    Bool.not_eq_true']
  constructor
  · rintro ⟨short, url, ⟨⟨source, hsource, rfl⟩, hnew⟩, rfl⟩
    exact ⟨hnew, source, hsource, rfl⟩
  · rintro ⟨hnew, source, hsource, he⟩
    exact ⟨e.name, source.url, ⟨⟨source, hsource, rfl⟩, hnew⟩, he.symm⟩

/-- A name that was registered keeps its link, and it is an alias if it was one. -/
theorem addAliases_of_contains {name : String} (h : r.contains name = true) :
    (addAliases r).2.resolve? name = r.resolve? name ∧
      (addAliases r).2.isAlias name = r.isAlias name := by
  have hentries := entries_addAliases r
  have hother : ∀ e ∈ aliases r, (e.name == name && e.isAlias) = false := by
    intro e he
    obtain ⟨hnew, -⟩ := (mem_aliases_iff r).1 he
    have hne : e.name ≠ name := by
      rintro rfl
      rw [h] at hnew
      simp at hnew
    simp [hne]
  refine ⟨?_, ?_⟩
  · obtain ⟨url, hurl⟩ := (r.contains_iff name).1 h
    rw [hurl]
    exact Registry.resolve?_of_isPrefix ⟨_, hentries.symm⟩ hurl
  · have hnone : ((aliases r).any fun e => e.name == name && e.isAlias) = false := by
      simpa using hother
    rw [Registry.isAlias, hentries, List.any_append]
    rw [hnone, Bool.or_false, Registry.isAlias]

/-- A name that was not registered is registered exactly if it is the short name of one
entry. -/
theorem contains_addAliases_iff {name : String} (h : r.contains name = false) :
    (addAliases r).2.contains name = true ↔ ∃ source, bearers r name = [source] := by
  have hold : ¬ r.entries.any (·.name == name) = true := by
    rw [Registry.contains] at h
    simp [h]
  rw [Registry.contains, entries_addAliases, List.any_append]
  rw [Bool.or_eq_true, or_iff_right hold, List.any_eq_true]
  constructor
  · rintro ⟨e, he, hname⟩
    obtain rfl := beq_iff_eq.1 hname
    obtain ⟨-, source, hsource, -⟩ := (mem_aliases_iff r).1 he
    exact ⟨source, hsource⟩
  · rintro ⟨source, hsource⟩
    exact ⟨⟨name, source.url, true⟩,
      (mem_aliases_iff r).2 ⟨h, source, hsource, rfl⟩, by simp⟩

/-- The short name of one entry leads where that entry does, as an alias. -/
theorem find?_addAliases {name : String} {source : Entry} (h : r.contains name = false)
    (hsource : bearers r name = [source]) :
    (addAliases r).2.find? name = some ⟨name, source.url, true⟩ := by
  obtain ⟨url, hurl⟩ :=
    (Registry.contains_iff _ _).1 ((contains_addAliases_iff r h).2 ⟨source, hsource⟩)
  obtain ⟨e, he, rfl⟩ := Option.map_eq_some_iff.1 hurl
  have hname : e.name = name := by simpa using List.find?_some he
  have hold : r.entries.find? (·.name == name) = none := by
    simpa [Registry.contains] using h
  rw [Registry.find?, entries_addAliases, List.find?_append] at he ⊢
  rw [hold, Option.none_or] at he ⊢
  obtain ⟨-, source', hsource', heq⟩ := (mem_aliases_iff r).1 (List.mem_of_find?_eq_some he)
  rw [hname, hsource] at hsource'
  obtain rfl := (List.cons.inj hsource').1
  rw [he, heq, hname]

/-- After short names have been added, a name that was registered has the link that it had,
and it is an alias if it was one.  Any other name is registered exactly if it is the short
name of one entry, as an alias with the link of that entry.  The names that are added come
after all others, in the order of the entries whose short names they are.  The short names of
two or more entries are reported once each, in the order in which they are first met, and
there is one warning for each of them with the number of these entries. -/
theorem addAliases_exact :
    (∀ name, r.contains name = true → (addAliases r).2.resolve? name = r.resolve? name ∧
      (addAliases r).2.isAlias name = r.isAlias name) ∧
    (∀ name, r.contains name = false →
      ((addAliases r).2.contains name = true ↔ ∃ source, bearers r name = [source]) ∧
      ∀ source, bearers r name = [source] →
        (addAliases r).2.resolve? name = some source.url ∧
          (addAliases r).2.isAlias name = true) ∧
    (addAliases r).2.names = r.names ++ (addAliases r).1.added ∧
    (addAliases r).1.added =
      (shorts r).filter (fun short => (bearers r short).length == 1 && !r.contains short) ∧
    (∀ short, short ∈ (addAliases r).1.ambiguous ↔ 2 ≤ (bearers r short).length) ∧
    (addAliases r).1.ambiguous.Nodup ∧
    (addAliases r).1.ambiguous.Pairwise (SeenBefore (shorts r)) ∧
    warnings r = (addAliases r).1.ambiguous.map fun short =>
      .ambiguousShortname short (bearers r short).length := by
  have hadded : (addAliases r).1.added = (aliases r).map (·.name) := added_eq r
  refine ⟨fun name => addAliases_of_contains r,
    fun name hnew => ⟨contains_addAliases_iff r hnew, ?_⟩, ?_, ?_,
    fun short => mem_ambiguous_iff r, ?_, pairwise_ambiguous r, ?_⟩
  · intro source hsource
    have hfind := find?_addAliases r hnew hsource
    refine ⟨by rw [Registry.resolve?, hfind]; rfl, ?_⟩
    exact List.any_eq_true.2 ⟨_, List.mem_of_find?_eq_some hfind, by simp⟩
  · rw [Registry.names, entries_addAliases]
    rw [List.map_append, hadded]
    rfl
  · have hall : (aliases r).map (·.name) =
        ((unambiguous (candidates r)).map (·.1)).filter fun short => !r.contains short := by
      rw [aliases, List.map_map, List.filter_map]
      rfl
    rw [hadded, hall]
    rw [map_fst_unambiguous, List.filter_filter]
    simp only [Bool.and_comm]
  · exact (pairwise_ambiguous r).imp fun h => h.1
  · rw [warnings]
    simp only [count_candidates]
    rfl

end Aliases

end Shortname
end DocLinks
