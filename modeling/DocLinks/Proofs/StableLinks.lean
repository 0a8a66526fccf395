import DocLinks.Proofs.LinkSteps
import DocLinks.Proofs.ParentPages
import DocLinks.Proofs.RegistryHistory

/-!
# The link of a doclet does not change

The link of a doclet is told by the page of its owner and by the fragment of its long name.
Both are looked up before anything is claimed, so a link that was made once is found again.
Only a doclet that wishes for no fragment has none to look up; it would take over that of
another doclet of its long name.

**Invariant.**  `StaysWithout`: a doclet that wishes for no fragment gets none, as long as no
link of another doclet of its long name is made.

**Results.**
* `extends_after`: a registry only grows in the course of its history.
* `lookup_createLink_of_ne`, `fragments_createLink_of_no_wish`: which fragments a link leaves
  alone.
* `createLink_stable`: the link of a doclet is the same whenever it is made again.
-/

namespace DocLinks
namespace Registry

section Growth

theorem extends_foldl_add (es : List Entry) (r : Registry) : r.Extends (es.foldl add r) := by
  induction es generalizing r with
  | nil => exact .refl r
  | cons e es ih => exact (r.extends_add e).trans (ih _)

theorem extends_step (r : Registry) (s : Step) : r.Extends (r.step s) := by
  cases s with
  | call c => exact extends_call c
  | addAliases =>
      have hstep : r.step .addAliases = _ := register_eq_foldl_add _ r
      rw [hstep]
      exact extends_foldl_add _ r

/-- A registry only grows. -/
theorem extends_after (r : Registry) (steps : List Step) : r.Extends (r.after steps) := by
  induction steps generalizing r with
  | nil => exact .refl r
  | cons s steps ih => exact (r.extends_step s).trans (ih _)

end Growth

section Fragments

variable {r : Registry} {d e : Doclet}

theorem fragments_foldl_add (es : List Entry) (r : Registry) :
    (es.foldl add r).fragments = r.fragments := by
  induction es generalizing r with
  | nil => rfl
  | cons e es ih => rw [List.foldl_cons, ih, fragments_add]

/-- The fragments of other long names are left alone. -/
theorem lookup_createLink_of_ne (r : Registry) {longname : String}
    (hne : e.longname ≠ longname) :
    (r.createLink e).2.fragments.lookup longname = r.fragments.lookup longname := by
  rw [← r.fragments_pageFor (placement e).owner]
  unfold createLink
  dsimp only
  split
  · unfold fragmentFor
    split
    · rfl
    · dsimp only
      split
      · rfl
      · rw [List.lookup_append, List.lookup_cons, beq_false_of_ne hne.symm]
        rw [List.lookup_nil, Option.or_none]
  · rfl

/-- A doclet that wishes for no fragment changes none. -/
theorem fragments_createLink_of_no_wish (r : Registry) (hwish : fragmentWish d = "") :
    (r.createLink d).2.fragments = r.fragments := by
  rw [← r.fragments_pageFor (placement d).owner]
  unfold createLink
  dsimp only
  split
  · unfold fragmentFor
    rw [hwish]
    split
    · rfl
    · rfl
  · rfl

end Fragments

section Stability

variable {r : Registry} {d : Doclet}

/-- A step makes no link of another doclet of the same long name. -/
def Spares (d : Doclet) (s : Step) : Prop :=
  ∀ e, s = .call (.createLink e) → e = d ∨ e.longname ≠ d.longname

/-- A doclet that wishes for no fragment has none. -/
def StaysWithout (d : Doclet) (r : Registry) : Prop :=
  fragmentWish d = "" → r.fragments.lookup d.longname = none

theorem StaysWithout.congr {r' : Registry} (h : StaysWithout d r)
    (hfragments : r'.fragments = r.fragments) : StaysWithout d r' := by
  intro hwish
  rw [hfragments]
  exact h hwish

theorem StaysWithout.step {s : Step} (h : StaysWithout d r) (hs : Spares d s) :
    StaysWithout d (r.step s) := by
  cases s with
  | call c =>
      cases c with
      | register name url => exact h.congr (r.fragments_add _)
      | registerAlias name url => exact h.congr (r.fragments_add _)
      | claimFile name => exact h
      | addTutorial name title => exact h.congr (r.fragments_addTutorial name title)
      | createLink e =>
          intro hwish
          rcases hs e rfl with rfl | hne
          · exact (congrArg _ (r.fragments_createLink_of_no_wish hwish)).trans (h hwish)
          · exact (r.lookup_createLink_of_ne hne).trans (h hwish)
  | addAliases =>
      have hstep : r.step .addAliases = _ := register_eq_foldl_add _ r
      rw [hstep]
      exact h.congr (fragments_foldl_add _ r)

theorem StaysWithout.after {steps : List Step} (h : StaysWithout d r)
    (hsteps : ∀ s ∈ steps, Spares d s) : StaysWithout d (r.after steps) := by
  induction steps generalizing r with
  | nil => exact h
  | cons s steps ih =>
      exact ih (h.step (hsteps s List.mem_cons_self)) fun t ht =>
        hsteps t (List.mem_cons_of_mem _ ht)

/-- When the link of a doclet has been made, and then anything has been done to the registry
but to make links of other doclets of its long name, the same link is made again, and to make
it changes nothing. -/
theorem createLink_stable (r : Registry) (d : Doclet) (steps : List Step)
    (hsteps : ∀ e, Step.call (.createLink e) ∈ steps → e = d ∨ e.longname ≠ d.longname) :
    ((r.createLink d).2.after steps).createLink d =
      ((r.createLink d).1, (r.createLink d).2.after steps) := by
  refine createLink_of_extends (extends_after _ steps) fun hnone hwish => ?_
  have hbefore : StaysWithout d (r.createLink d).2 := fun hwish => by
    rw [r.fragments_createLink_of_no_wish hwish, hnone]
  have hafter : StaysWithout d ((r.createLink d).2.after steps) :=
    hbefore.after fun s hs e he => hsteps e (he ▸ hs)
  exact hafter hwish

/-- The member of a class that is called like a blank keeps its link, which has no fragment,
although a member of that name in another scope comes later, and although another link is
registered for it. -/
theorem createLink_stable_of_blank_name :
    let d := functionIn "A" "A# " " "
    let e := functionIn "A" "A~ " " "
    let steps : List Step := [.call (.createLink e), .call (.register "A# " "B.html"),
      .addAliases, .call (.claimFile "A"), .call (.createLink d)]
    (new.createLink d).1 = "A.html" ∧ ((new.createLink d).2.createLink e).1 = "A.html#_" ∧
    (∀ e', Step.call (.createLink e') ∈ steps → e' = d ∨ e'.longname ≠ d.longname) ∧
    ((new.createLink d).2.after steps).createLink d =
      ((new.createLink d).1, (new.createLink d).2.after steps) := by
  intro d e steps
  have hsteps : ∀ e', Step.call (.createLink e') ∈ steps → e' = d ∨
      e'.longname ≠ d.longname := by
    intro e' he'
    simp only [steps, List.mem_cons, List.not_mem_nil, or_false, Step.call.injEq,
      Call.createLink.injEq, reduceCtorEq, false_or] at he'
    rcases he' with rfl | rfl
    · exact .inr (by decide)
    · exact .inl rfl
  exact ⟨by decide +kernel, by decide +kernel, hsteps, createLink_stable new d steps hsteps⟩

end Stability

end Registry
end DocLinks
