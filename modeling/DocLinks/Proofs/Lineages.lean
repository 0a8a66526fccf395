import DocLinks.Proofs.ParentChains
import Mathlib.Data.Finset.Card

/-!
# The lineage of a doclet

The parents of a doclet are told without the way in which they are found: each is the parent
of the one before it, no long name comes twice, and the sequence goes on as long as it can.
There is one such sequence for every doclet, also where parents go round in a circle, where
some are missing, and where doclets share a long name.

**Algorithm.**  A loop that follows parents and keeps the long names that it has met ends by
itself: no long name is met twice, so there are fewer rounds than long names.

**Results.**
* `parent?_without_eq_some_iff`: the parents that are left when a long name is taken out.
* `isLineage_iff`: the chain of parents is the lineage, and the only one.
* `climb?_eq_some_chain`: the loop finds the chain if it has one round more than there are
  parents.
* `links_of_lineage`: there is one link for each doclet of the lineage.
-/

namespace DocLinks
namespace Ancestors

section Lineages

variable {ds : List Doclet} {d p : Doclet} {cs : List Doclet}

/-- A sequence of doclets that starts behind the given one.  Each is the parent of the one
before it among all doclets, and the long names are all different. -/
structure Climbs (ds : List Doclet) (d : Doclet) (cs : List Doclet) : Prop where
  parents : (d :: cs).IsChain fun child parent => parent? ds child = some parent
  distinct : ((d :: cs).map (·.longname)).Nodup

/-- A sequence of parents that cannot be extended. -/
structure IsLineage (ds : List Doclet) (d : Doclet) (cs : List Doclet) : Prop where
  climbs : Climbs ds d cs
  ends : ∀ c, ¬ Climbs ds d (cs ++ [c])

/-- If a long name is taken out, other parents are still found. -/
theorem parent?_without_eq_some_iff {longname : String} :
    parent? (without longname ds) d = some p ↔
    parent? ds d = some p ∧ p.longname ≠ longname := by
  rw [parent?, parent?, Option.bind_eq_some_iff]
  rw [Option.bind_eq_some_iff, ← exists_and_right]
  refine exists_congr fun m => ?_
  rw [and_assoc]
  refine and_congr_right fun _ => ?_
  have hfilter : Doclet.find? (without longname ds) m =
      if m = longname then none else Doclet.find? ds m := by
    rw [Doclet.find?, Doclet.find?]
    rw [without, List.find?_filter]
    split
    · rename_i hm
      rw [List.find?_eq_none]
      rintro x -
      simp [hm]
    · rename_i hm
      congr 1
      funext x
      by_cases hx : x.longname = m
      · simp [hx, hm]
      · simp [hx]
  rw [hfilter]
  constructor
  · intro h
    split at h
    · cases h
    · rename_i hm
      have hname : p.longname = m := by simpa using List.find?_some h
      exact ⟨h, by rwa [hname]⟩
  · rintro ⟨h, hne⟩
    have hname : p.longname = m := by simpa using List.find?_some h
    rw [if_neg (by rwa [← hname]), h]

/-- Parents that are found one after the other are still found if none of them has the long
name that is taken out. -/
theorem isChain_without_iff {longname : String} :
    ((d :: cs).IsChain fun child parent =>
      parent? (without longname ds) child = some parent) ↔
      ((d :: cs).IsChain fun child parent => parent? ds child = some parent) ∧
        longname ∉ cs.map (·.longname) := by
  induction cs generalizing d with
  | nil => simp
  | cons c cs ih =>
      rw [List.isChain_cons_cons, List.isChain_cons_cons, ih]
      rw [parent?_without_eq_some_iff, List.map_cons, List.mem_cons]
      rw [not_or, ne_comm, and_and_and_comm]

theorem climbs_nil (ds : List Doclet) (d : Doclet) : Climbs ds d [] :=
  ⟨.singleton d, by simp⟩

/-- Behind its first doclet, a sequence of parents is one among the doclets with other long
names. -/
theorem climbs_cons_iff :
    Climbs ds d (p :: cs) ↔
      parent? (without d.longname ds) d = some p ∧ Climbs (without d.longname ds) p cs := by
  constructor
  · rintro ⟨hchain, hdistinct⟩
    rw [List.isChain_cons_cons] at hchain
    rw [List.map_cons, List.nodup_cons, List.map_cons] at hdistinct
    rw [List.mem_cons, not_or] at hdistinct
    obtain ⟨⟨hne, hnew⟩, hdistinct⟩ := hdistinct
    exact ⟨parent?_without_eq_some_iff.2 ⟨hchain.1, Ne.symm hne⟩,
      ⟨isChain_without_iff.2 ⟨hchain.2, hnew⟩, hdistinct⟩⟩
  · rintro ⟨hparent, hchain, hdistinct⟩
    obtain ⟨hparent, hne⟩ := parent?_without_eq_some_iff.1 hparent
    obtain ⟨hchain, hnew⟩ := isChain_without_iff.1 hchain
    refine ⟨List.isChain_cons_cons.2 ⟨hparent, hchain⟩, ?_⟩
    rw [List.map_cons, List.nodup_cons, List.map_cons]
    rw [List.mem_cons, not_or]
    exact ⟨⟨Ne.symm hne, hnew⟩, hdistinct⟩

theorem isLineage_nil_iff :
    IsLineage ds d [] ↔ parent? (without d.longname ds) d = none := by
  have hone : ∀ c, Climbs ds d ([] ++ [c]) ↔ parent? (without d.longname ds) d = some c := by
    intro c
    rw [List.nil_append, climbs_cons_iff]
    exact and_iff_left (climbs_nil _ c)
  rw [Option.eq_none_iff_forall_ne_some]
  constructor
  · exact fun h c hc => h.ends c ((hone c).2 hc)
  · exact fun h => ⟨climbs_nil ds d, fun c hc => h c ((hone c).1 hc)⟩

theorem isLineage_cons_iff :
    IsLineage ds d (p :: cs) ↔
      parent? (without d.longname ds) d = some p ∧
      IsLineage (without d.longname ds) p cs := by
  constructor
  · rintro ⟨hclimbs, hends⟩
    obtain ⟨hparent, hrest⟩ := climbs_cons_iff.1 hclimbs
    exact ⟨hparent, hrest, fun c hc => hends c (climbs_cons_iff.2 ⟨hparent, hc⟩)⟩
  · rintro ⟨hparent, hrest, hends⟩
    exact ⟨climbs_cons_iff.2 ⟨hparent, hrest⟩, fun c hc => hends c (climbs_cons_iff.1 hc).2⟩

/-- The chain of parents of a doclet is its lineage, and there is no other one. -/
theorem isLineage_iff : IsLineage ds d cs ↔ cs = chain (without d.longname ds) d := by
  induction cs generalizing ds d with
  | nil =>
      rw [isLineage_nil_iff]
      cases hparent : parent? (without d.longname ds) d with
      | none => simp [chain_of_parent?_eq_none hparent]
      | some p => simp [chain_of_parent?_eq_some hparent]
  | cons c cs ih =>
      rw [isLineage_cons_iff, ih]
      cases hparent : parent? (without d.longname ds) d with
      | none => simp [chain_of_parent?_eq_none hparent]
      | some p =>
          rw [chain_of_parent?_eq_some hparent, List.cons.injEq]
          rw [Option.some.injEq, eq_comm]
          refine and_congr_right fun hp => ?_
          rw [hp]

end Lineages

section Rounds

/-- The loop that follows parents as long as it meets new long names, for a number of rounds;
it gives nothing if it is still going then. -/
def climb? (ds : List Doclet) :
    (rounds : Nat) → (met : Finset String) → Doclet → Option (List Doclet)
  | 0, _, _ => none
  | rounds + 1, met, d =>
      match parent? ds d with
      | some p =>
          if p.longname ∈ met then some []
          else (climb? ds rounds (insert p.longname met) p).map (p :: ·)
      | none => some []

variable {ds : List Doclet} {d : Doclet}

/-- Instead of keeping in mind that a long name has been met, one may take it out. -/
theorem climb?_insert (longname : String) (ds : List Doclet) (rounds : Nat)
    (met : Finset String)
    (d : Doclet) :
    climb? ds rounds (insert longname met) d =
      climb? (without longname ds) rounds met d := by
  induction rounds generalizing met d with
  | zero => rfl
  | succ rounds ih =>
      rw [climb?, climb?]
      cases hparent : parent? ds d with
      | none =>
          have hnone : parent? (without longname ds) d = none :=
            Option.eq_none_iff_forall_ne_some.2 fun p hp => by
              simp [(parent?_without_eq_some_iff.1 hp).1] at hparent
          rw [hnone]
      | some p =>
          by_cases hname : p.longname = longname
          · have hnone : parent? (without longname ds) d = none :=
              Option.eq_none_iff_forall_ne_some.2 fun q hq => by
                obtain ⟨hq, hne⟩ := parent?_without_eq_some_iff.1 hq
                rw [hparent, Option.some.injEq] at hq
                exact hne (hq ▸ hname)
            simp [hnone, hname]
          · have hsome : parent? (without longname ds) d = some p :=
              parent?_without_eq_some_iff.2 ⟨hparent, hname⟩
            simp only [hsome, Finset.mem_insert, hname, false_or]
            rw [Finset.insert_comm, ih]

/-- One round more than there are parents is enough for the loop. -/
theorem climb?_eq_some_chain {rounds : Nat} (h : (chain ds d).length < rounds) :
    climb? ds rounds ∅ d = some (chain ds d) := by
  fun_induction chain ds d generalizing rounds with
  | case1 ds d p hparent ih =>
      obtain ⟨rounds, rfl⟩ := Nat.exists_eq_add_of_lt (Nat.zero_lt_of_lt h)
      rw [Nat.zero_add] at h ⊢
      rw [climb?, hparent]
      simp only [Finset.notMem_empty, if_false]
      rw [climb?_insert, ih (Nat.lt_of_succ_lt_succ h), Option.map_some]
  | case2 ds d hparent =>
      obtain ⟨rounds, rfl⟩ := Nat.exists_eq_add_of_lt (Nat.zero_lt_of_lt h)
      rw [Nat.zero_add, climb?, hparent]

end Rounds

section Links

variable {ds : List Doclet} {d : Doclet} {cs : List Doclet}

/-- The number of different long names. -/
def countNames (ds : List Doclet) : Nat :=
  (ds.map (·.longname)).toFinset.card

/-- A doclet and its lineage have different long names, all of them among those of the
doclets. -/
theorem IsLineage.length_lt (h : IsLineage ds d cs) (hd : d ∈ ds) :
    cs.length < countNames ds := by
  have hmem : ∀ c ∈ cs, c ∈ ds := by
    rw [isLineage_iff.1 h]
    exact fun c hc => (List.mem_filter.1 (mem_of_mem_chain hc)).1
  have hsubset : ((d :: cs).map (·.longname)).toFinset ⊆ (ds.map (·.longname)).toFinset := by
    intro name hname
    rw [List.mem_toFinset] at hname ⊢
    obtain ⟨c, hc, rfl⟩ := List.mem_map.1 hname
    refine List.mem_map_of_mem ?_
    rcases List.mem_cons.1 hc with rfl | hc
    · exact hd
    · exact hmem c hc
  have hcard := Finset.card_le_card hsubset
  rw [List.toFinset_card_of_nodup h.climbs.distinct, List.length_map] at hcard
  rw [List.length_cons] at hcard
  exact hcard

theorem length_appendToLast (after : String) (links : List String) :
    (appendToLast after links).length = links.length := by
  fun_induction appendToLast after links with
  | case1 => rfl
  | case2 => rfl
  | case3 s t rest ih => simp [ih]

/-- A doclet has one lineage, and one link for each doclet of it, outermost first; the last
link carries the punctuation of the doclet.  The lineage is shorter than the list of
different long names, so the loop that follows parents ends: as many rounds as there are long
names are enough for it. -/
theorem links_of_lineage (r : Registry) (hd : d ∈ ds) :
    ∃ cs, IsLineage ds d cs ∧ (∀ other, IsLineage ds d other → other = cs) ∧
      links r ds d = appendToLast (punctuation d)
        (cs.reverse.map fun c => (reference r c).html) ∧
      (links r ds d).length = cs.length ∧ cs.length < countNames ds ∧
      ∀ rounds, countNames ds ≤ rounds → climb? ds rounds {d.longname} d = some cs := by
  have hlineage : IsLineage ds d (chain (without d.longname ds) d) := isLineage_iff.2 rfl
  have hlinks : links r ds d = appendToLast (punctuation d)
      ((chain (without d.longname ds) d).reverse.map fun c => (reference r c).html) := by
    rw [links, references]
    rw [of, List.map_map]
    rfl
  have hlength := hlineage.length_lt hd
  refine ⟨_, hlineage, fun other hother => isLineage_iff.1 hother, hlinks, ?_, hlength,
    fun rounds hrounds => ?_⟩
  · rw [hlinks, length_appendToLast]
    rw [List.length_map, List.length_reverse]
  · have hloop := climb?_insert d.longname ds rounds ∅ d
    rw [LawfulSingleton.insert_empty_eq] at hloop
    rw [hloop]
    exact climb?_eq_some_chain (Nat.lt_of_lt_of_le hlength hrounds)

/-- Two doclets are each the parent of the other, and a third one shares a long name with one
of them: the lineage of the third one ends at the other. -/
theorem links_of_circle :
    let a : Doclet := { longname := "A", kind := .namespaceDecl, memberof := some "B" }
    let b : Doclet := { longname := "B", kind := .namespaceDecl, memberof := some "A" }
    let again : Doclet := { longname := "A", kind := .classDecl, memberof := some "B" }
    let ds := [a, b, again]
    again ∈ ds ∧ links Registry.new ds again = ["B"] ∧
      ∃ cs, IsLineage ds again cs ∧ (∀ other, IsLineage ds again other → other = cs) ∧
        links Registry.new ds again =
          appendToLast (punctuation again)
            (cs.reverse.map fun c => (reference Registry.new c).html) ∧
        (links Registry.new ds again).length = cs.length ∧ cs.length < countNames ds ∧
        ∀ rounds, countNames ds ≤ rounds →
        climb? ds rounds {again.longname} again = some cs := by
  intro a b again ds
  have hmem : again ∈ ds := by simp [ds]
  exact ⟨hmem, by decide +kernel, links_of_lineage Registry.new hmem⟩

end Links

end Ancestors
end DocLinks
