import DocLinks.Proofs.DocletEssence
import DocLinks.Proofs.PagesOfTheirOwn

/-!
# The doclets that are published

Every doclet that is not pruned is published.  Doclets are published in the order of their
long names, and doclets of one long name in the order in which they are given.  So the order
of the input matters among doclets of one long name only.

**Results.**
* `stablySorted_sortByLongname`, `StablySorted.unique`: sorting keeps the order of doclets of
  one long name, and there is one way to do that.
* `run_agrees`: what is published agrees, doclet by doclet, with what was put in.
* `run_congr_of_called`: what is published depends on the doclets of each long name only.
* `run_eq_of_perm`: if long names are different, the order of the input does not matter.
-/

namespace DocLinks

namespace Doclet

/-- The doclets of a long name, in their order. -/
def called (ds : List Doclet) (longname : String) : List Doclet :=
  ds.filter (·.longname == longname)

/-- The given doclets in the order of their long names; those of one long name stand as
before. -/
structure StablySorted (ds sorted : List Doclet) : Prop where
  perm : sorted.Perm ds
  ordered : sorted.Pairwise fun a b => a.longname ≤ b.longname
  called_eq (longname : String) : called sorted longname = called ds longname

section Sorting

variable {ds ds' l l' : List Doclet} {d e : Doclet}

theorem mem_called : d ∈ called ds d.longname ↔ d ∈ ds := by
  simp [called]

theorem called_cons (d : Doclet) (ds : List Doclet) (longname : String) :
    called (d :: ds) longname =
      if d.longname = longname then d :: called ds longname else called ds longname := by
  rw [called, List.filter_cons]
  simp only [beq_iff_eq]
  rfl

/-- Doclets that are ordered are determined by those of each long name. -/
theorem eq_of_called_eq (h : l.Pairwise fun a b => a.longname ≤ b.longname)
    (h' : l'.Pairwise fun a b => a.longname ≤ b.longname)
    (hcalled : called l = called l') : l = l' := by
  have hmem : ∀ {l l' : List Doclet}, called l = called l' → l ⊆ l' := by
    intro l l' hcalled d hd
    rw [← mem_called, ← hcalled]
    exact mem_called.2 hd
  have hleast : ∀ {d : Doclet} {l : List Doclet}, (∀ e ∈ l, d.longname ≤ e.longname) →
      ∀ e ∈ d :: l, d.longname ≤ e.longname := by
    intro d l hle e he
    rcases List.mem_cons.1 he with rfl | he
    · exact String.le_refl _
    · exact hle e he
  induction h generalizing l' with
  | nil => exact (List.subset_nil.1 (hmem hcalled.symm)).symm
  | @cons d l hle _ ih =>
      cases h' with
      | nil => simpa using hmem hcalled List.mem_cons_self
      | @cons d' l' hle' h' =>
          have hname : d.longname = d'.longname :=
            String.le_antisymm (hleast hle d' (hmem hcalled.symm List.mem_cons_self))
              (hleast hle' d (hmem hcalled List.mem_cons_self))
          have hfirst := congrFun hcalled d.longname
          rw [called_cons, called_cons] at hfirst
          rw [if_pos rfl, if_pos hname.symm] at hfirst
          obtain ⟨rfl, -⟩ := List.cons.inj hfirst
          refine congrArg (d :: ·) (ih h' (funext fun longname => ?_))
          have hrest := congrFun hcalled longname
          rw [called_cons, called_cons] at hrest
          split at hrest
          · exact (List.cons.inj hrest).2
          · exact hrest

/-- There is one way to sort doclets. -/
theorem StablySorted.unique (h : StablySorted ds l) (h' : StablySorted ds l') : l = l' :=
  eq_of_called_eq h.ordered h'.ordered (funext fun longname =>
    (h.called_eq longname).trans (h'.called_eq longname).symm)

theorem stablySorted_sortByLongname (ds : List Doclet) :
    StablySorted ds (sortByLongname ds) := by
  have htrans : ∀ a b c : Doclet, (!decide (b.longname < a.longname)) = true →
      (!decide (c.longname < b.longname)) = true →
      (!decide (c.longname < a.longname)) = true := by
    intro a b c hab hbc
    simp only [Bool.not_eq_true', decide_eq_false_iff_not, String.not_lt] at *
    exact String.le_trans hab hbc
  have htotal : ∀ a b : Doclet,
      (!decide (b.longname < a.longname) || !decide (a.longname < b.longname)) = true := by
    intro a b
    simp only [Bool.or_eq_true, Bool.not_eq_true', decide_eq_false_iff_not, String.not_lt]
    exact String.le_total _ _
  have hperm : (sortByLongname ds).Perm ds := List.mergeSort_perm ds _
  refine ⟨hperm, ?_, fun longname => ?_⟩
  · refine (List.pairwise_mergeSort htrans htotal ds).imp fun {a b} hab => ?_
    simpa only [Bool.not_eq_true', decide_eq_false_iff_not, String.not_lt] using hab
  · -- the doclets of one long name are in order already: they are a part of the sorted list
    have hordered : (called ds longname).Pairwise fun a b =>
        (!decide (b.longname < a.longname)) = true := by
      refine List.pairwise_of_forall_mem_list fun a ha b hb => ?_
      have hnames : a.longname = b.longname := by
        rw [beq_iff_eq.1 (List.mem_filter.1 ha).2, beq_iff_eq.1 (List.mem_filter.1 hb).2]
      simp only [hnames, String.lt_irrefl, decide_false, Bool.not_false]
    have hsub : (called ds longname).Sublist (called (sortByLongname ds) longname) := by
      have hpart :=
        (List.sublist_mergeSort htrans htotal hordered List.filter_sublist).filter
        (·.longname == longname)
      simp only [called, List.filter_filter, Bool.and_self] at hpart
      exact hpart
    exact (hsub.eq_of_length (hperm.filter _).length_eq.symm).symm

/-- If long names are different, a list has the same doclets of each long name in any
order. -/
theorem called_eq_of_perm (hperm : ds.Perm ds') (hdistinct : (ds.map (·.longname)).Nodup)
    (longname : String) : called ds longname = called ds' longname := by
  have hcalled : (called ds longname).Perm (called ds' longname) := hperm.filter _
  have hsame : ∀ d ∈ called ds longname, ∀ e ∈ called ds longname, d = e := by
    intro d hd e he
    obtain ⟨hd, hname⟩ := List.mem_filter.1 hd
    obtain ⟨he, hname'⟩ := List.mem_filter.1 he
    exact List.inj_on_of_nodup_map hdistinct hd he
      ((beq_iff_eq.1 hname).trans (beq_iff_eq.1 hname').symm)
  exact hcalled.eq_of_pairwise (fun d e hd he _ _ => hsame d hd e (hcalled.mem_iff.2 he))
    (List.pairwise_of_forall_mem_list fun _ _ _ _ => trivial)
    (List.pairwise_of_forall_mem_list fun _ _ _ _ => trivial)

end Sorting
end Doclet

namespace Publication

variable {ds ds' : List Doclet}

/-- The doclets that are published are those that are not pruned, in the order of their long
names; each agrees with the one that it was made from. -/
theorem run_agrees (s : PublishSettings) (ds : List Doclet) (tutorials : List Tutorial) :
    ∃ p, run s ds tutorials = .ok p ∧ ∃ sorted,
    Doclet.StablySorted (Doclet.prune ds) sorted ∧
      List.Forall₂ Agrees sorted p.doclets := by
  obtain ⟨p, -, hrun, -⟩ := exists_recorded s ds tutorials
  exact ⟨p, hrun, kept ds, Doclet.stablySorted_sortByLongname _,
    (frame_doclets hrun).imp fun _ _ h => agrees_of_frame h.1 h.2⟩

theorem kept_eq_of_called_eq
    (hcalled : Doclet.called (Doclet.prune ds) = Doclet.called (Doclet.prune ds')) :
    kept ds = kept ds' := by
  have hsorted := Doclet.stablySorted_sortByLongname (Doclet.prune ds)
  have hsorted' := Doclet.stablySorted_sortByLongname (Doclet.prune ds')
  refine Doclet.eq_of_called_eq hsorted.ordered hsorted'.ordered (funext fun longname => ?_)
  calc Doclet.called (kept ds) longname
      = Doclet.called (Doclet.prune ds) longname := hsorted.called_eq longname
    _ = Doclet.called (Doclet.prune ds') longname := congrFun hcalled longname
    _ = Doclet.called (kept ds') longname := (hsorted'.called_eq longname).symm

/-- What is published depends on the doclets of each long name only, not on the order of long
names. -/
theorem run_congr_of_called (s : PublishSettings) (tutorials : List Tutorial)
    (hcalled : Doclet.called (Doclet.prune ds) = Doclet.called (Doclet.prune ds')) :
    run s ds tutorials = run s ds' tutorials := by
  have hkept : Doclet.sortByLongname (Doclet.prune ds) =
      Doclet.sortByLongname (Doclet.prune ds') :=
    kept_eq_of_called_eq hcalled
  unfold run
  rw [hkept]

/-- If the doclets that are published have different long names, publishing gives the same
documentation in whatever order they are given. -/
theorem run_eq_of_perm (s : PublishSettings) (tutorials : List Tutorial)
    (hperm : ds.Perm ds')
    (hdistinct : ((Doclet.prune ds).map (·.longname)).Nodup) :
    ∃ p, run s ds tutorials = .ok p ∧ run s ds' tutorials = .ok p := by
  obtain ⟨p, -, hrun, -⟩ := exists_recorded s ds tutorials
  have hsame : run s ds tutorials = run s ds' tutorials :=
    run_congr_of_called s tutorials
      (funext fun longname => Doclet.called_eq_of_perm (hperm.filter _) hdistinct longname)
  exact ⟨p, hrun, hsame ▸ hrun⟩

/-- A class, its method and a global function may be given in any order. -/
theorem run_eq_of_reversed_class_with_method :
    classWithMethod.Perm classWithMethod.reverse ∧
    ((Doclet.prune classWithMethod).map (·.longname)).Nodup ∧
    ∃ p, run {} classWithMethod [] = .ok p ∧ run {} classWithMethod.reverse [] = .ok p := by
  have hperm : classWithMethod.Perm classWithMethod.reverse := (List.reverse_perm _).symm
  have hdistinct : ((Doclet.prune classWithMethod).map (·.longname)).Nodup := by
    decide +kernel
  exact ⟨hperm, hdistinct, run_eq_of_perm {} [] hperm hdistinct⟩

end Publication
end DocLinks
