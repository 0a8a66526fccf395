import Mathlib.Order.Bounds.Basic
import DocLinks.Proofs.AllocatorRuns

/-!
# Fragments that are handed out one after the other

An allocator is asked for files and for fragments, in any order.  What it hands out as the
fragments of a file is told by the wishes for that file alone, since it looks at nothing else
that is in use.

**Algorithm.**  Blanks are left out of a wish.  Then low lines are added to it one by one,
until its lower case is none of those of the fragments that the file has already.

**Results.**
* `probes_iff`: adding low lines comes to an end, at the least number of them that makes a
  text new.
* `anchorsIn_answers`: the fragments of a file are told by the wishes for it.
* `anchors_unique_per_file`: what is handed out after any calls.
-/

namespace DocLinks
namespace Filename

section Probing

variable {taken : List String} {s t : List Char}

/-- Low lines are added to a text one by one, until its lower case has not been taken. -/
inductive Probes (taken : List String) : (s t : List Char) → Prop
  | free {s : List Char} : Text.caseKey s ∉ taken → Probes taken s s
  | again {s t : List Char} :
      Text.caseKey s ∈ taken → Probes taken (s ++ ['_']) t → Probes taken s t

theorem pad_zero (s : List Char) : pad s 0 = s :=
  List.append_nil s

theorem pad_succ (s : List Char) (k : Nat) : pad s (k + 1) = pad (s ++ ['_']) k := by
  rw [pad, pad, List.replicate_succ]
  rw [List.append_assoc, List.singleton_append]

/-- Probing ends at the least number of low lines that makes a text new. -/
theorem Probes.exists_isLeast (h : Probes taken s t) :
    ∃ k, t = pad s k ∧ IsLeast {k | Text.caseKey (pad s k) ∉ taken} k := by
  induction h with
  | @free s hfree =>
      refine ⟨0, (pad_zero s).symm, ?_, fun _ _ => Nat.zero_le _⟩
      rw [Set.mem_ofPred_eq, pad_zero]
      exact hfree
  | @again s t htaken _ ih =>
      obtain ⟨k, rfl, hfree, hleast⟩ := ih
      refine ⟨k + 1, (pad_succ s k).symm, ?_, fun j hj => ?_⟩
      · rw [Set.mem_ofPred_eq, pad_succ]
        exact hfree
      · cases j with
        | zero =>
            rw [Set.mem_ofPred_eq, pad_zero] at hj
            exact absurd htaken hj
        | succ j =>
            rw [Set.mem_ofPred_eq, pad_succ] at hj
            exact Nat.succ_le_succ (hleast hj)

/-- From any text, probing gets to where the text is new for the first time. -/
theorem probes_of_isLeast {k : Nat} (h : IsLeast {k | Text.caseKey (pad s k) ∉ taken} k) :
    Probes taken s (pad s k) := by
  induction k generalizing s with
  | zero =>
      have hfree : Text.caseKey (pad s 0) ∉ taken := h.1
      rw [pad_zero] at hfree ⊢
      exact .free hfree
  | succ k ih =>
      have htaken : Text.caseKey s ∈ taken := by
        by_contra hfree
        have hle : k + 1 ≤ 0 := h.2 (by rwa [Set.mem_ofPred_eq, pad_zero])
        omega
      rw [pad_succ]
      refine .again htaken (ih ⟨?_, fun j hj => ?_⟩)
      · rw [Set.mem_ofPred_eq, ← pad_succ]
        exact h.1
      · rw [Set.mem_ofPred_eq, ← pad_succ] at hj
        exact Nat.le_of_succ_le_succ (h.2 hj)

/-- Probing comes to an end, whatever has been taken, and at one text only. -/
theorem probes_iff : Probes taken s t ↔ t = pad s (padding taken s) := by
  constructor
  · intro h
    obtain ⟨k, rfl, hleast⟩ := h.exists_isLeast
    rw [hleast.unique (isLeast_padding taken s)]
  · rintro rfl
    exact probes_of_isLeast (isLeast_padding taken s)

end Probing

/-- A wish without its blanks. -/
def withoutBlanks (wish : String) : List Char :=
  wish.toList.filter fun c => !Text.isBlank c

/-- The lower case of a fragment. -/
def anchorKey (anchor : String) : String :=
  Text.caseKey anchor.toList

section OneFile

variable {taken : List String} {wishes : List String}

/-- The fragment that is handed out for a wish. -/
def anchorFor (taken : List String) (wish : String) : String :=
  String.ofList (pad (withoutBlanks wish) (padding taken (withoutBlanks wish)))

/-- The fragments that are handed out for wishes one after the other, if those with the given
lower cases are in use. -/
def handOut (taken : List String) : List String → List String
  | [] => []
  | wish :: wishes =>
      anchorFor taken wish :: handOut (anchorKey (anchorFor taken wish) :: taken) wishes

theorem anchorKey_anchorFor_not_mem (taken : List String) (wish : String) :
    anchorKey (anchorFor taken wish) ∉ taken := by
  rw [anchorKey, anchorFor, String.toList_ofList]
  exact caseKey_pad_padding _ _

theorem not_isBlank_of_mem_anchorFor {wish : String} {c : Char}
    (h : c ∈ (anchorFor taken wish).toList) : Text.isBlank c = false := by
  rw [anchorFor, String.toList_ofList] at h
  rcases List.mem_append.1 h with h | h
  · simpa using (List.mem_filter.1 h).2
  · rw [List.eq_of_mem_replicate h]
    decide

theorem length_handOut (taken wishes : List String) :
    (handOut taken wishes).length = wishes.length := by
  induction wishes generalizing taken with
  | nil => rfl
  | cons wish wishes ih => rw [handOut, List.length_cons, List.length_cons, ih]

/-- The fragments of a file have no blanks. -/
theorem not_isBlank_of_mem_handOut {anchor : String} {c : Char}
    (h : anchor ∈ handOut taken wishes)
    (hc : c ∈ anchor.toList) : Text.isBlank c = false := by
  induction wishes generalizing taken with
  | nil => simp [handOut] at h
  | cons wish wishes ih =>
      rcases List.mem_cons.1 h with rfl | h
      · exact not_isBlank_of_mem_anchorFor hc
      · exact ih h

/-- The fragments of a file differ from each other and from those in use, case aside. -/
theorem nodup_keys_handOut (taken wishes : List String) :
    ((handOut taken wishes).map anchorKey).Nodup ∧
      ∀ key ∈ (handOut taken wishes).map anchorKey, key ∉ taken := by
  induction wishes generalizing taken with
  | nil => simp [handOut]
  | cons wish wishes ih =>
      obtain ⟨hnodup, hnew⟩ := ih (anchorKey (anchorFor taken wish) :: taken)
      rw [handOut, List.map_cons]
      refine ⟨List.nodup_cons.2 ⟨fun hmem => hnew _ hmem List.mem_cons_self, hnodup⟩,
        fun key hkey => ?_⟩
      rcases List.mem_cons.1 hkey with rfl | hkey
      · exact anchorKey_anchorFor_not_mem taken wish
      · exact fun hmem => hnew key hkey (List.mem_cons_of_mem _ hmem)

/-- Every fragment is handed out as if those before it had been in use. -/
theorem getElem?_handOut (taken wishes : List String) (i : Nat) :
    (handOut taken wishes)[i]? =
      wishes[i]?.map
        (anchorFor ((((handOut taken wishes).take i).map anchorKey).reverse ++ taken)) := by
  induction wishes generalizing taken i with
  | nil => simp [handOut]
  | cons wish wishes ih =>
      cases i with
      | zero => simp [handOut]
      | succ i =>
          rw [handOut, List.getElem?_cons_succ]
          rw [List.getElem?_cons_succ, ih]
          simp

end OneFile

namespace Call

/-- The wish for a fragment in the given file. -/
def wishIn? (path : String) : Call → Option String
  | .file _ => none
  | .anchor other wish => if other = path then some wish else none

/-- Whether a fragment in the given file is asked for. -/
def asksIn (path : String) (c : Call) : Bool :=
  (c.wishIn? path).isSome

/-- What an allocator answers to a call, and the allocator after it. -/
def ask (a : Allocator) : Call → String × Allocator
  | .file name => a.claimFile name
  | .anchor path wish => a.claimAnchor path wish

/-- Calls with their answers. -/
def answers (a : Allocator) : List Call → List (Call × String)
  | [] => []
  | c :: calls => (c, (ask a c).1) :: answers (ask a c).2 calls

/-- The answers to those calls that ask for fragments in the given file. -/
def anchorsIn (path : String) (given : List (Call × String)) : List String :=
  (given.filter fun entry => entry.1.asksIn path).map (·.2)

section Interleaving

variable {a : Allocator} {path : String}

theorem takenAnchors_ask_of_asksIn_eq_false {c : Call} (h : c.asksIn path = false) :
    (ask a c).2.takenAnchors path = a.takenAnchors path := by
  cases c with
  | file name => rfl
  | anchor other wish =>
      refine Allocator.takenAnchors_claimAnchor_of_ne ?_ a wish
      rintro rfl
      simp [asksIn, wishIn?] at h

theorem takenAnchors_ask_anchor (a : Allocator) (path wish : String) :
    (ask a (.anchor path wish)).2.takenAnchors path =
      anchorKey (anchorFor (a.takenAnchors path) wish) :: a.takenAnchors path := by
  simp [ask, Allocator.claimAnchor, Allocator.takenAnchors, anchorKey,
    anchorFor, withoutBlanks]

/-- What is handed out in a file is told by what is in use there and by the wishes for it. -/
theorem anchorsIn_answers (path : String) (a : Allocator) (calls : List Call) :
    anchorsIn path (answers a calls) =
      handOut (a.takenAnchors path) (calls.filterMap (wishIn? path)) := by
  induction calls generalizing a with
  | nil => rfl
  | cons c calls ih =>
      have hrest := ih (ask a c).2
      cases hwish : c.wishIn? path with
      | none =>
          have hasks : c.asksIn path = false := by
            rw [asksIn, hwish]
            rfl
          rw [takenAnchors_ask_of_asksIn_eq_false hasks] at hrest
          rw [answers, anchorsIn]
          rw [List.filter_cons_of_neg (by simp [hasks]), List.filterMap_cons_none hwish]
          exact hrest
      | some wish =>
          have hasks : c.asksIn path = true := by
            rw [asksIn, hwish]
            rfl
          obtain rfl : c = .anchor path wish := by
            cases c with
            | file name => simp [wishIn?] at hwish
            | anchor other wish' =>
                simp only [wishIn?, Option.ite_none_right_eq_some,
                  Option.some.injEq] at hwish
                rw [hwish.1, hwish.2]
          rw [takenAnchors_ask_anchor] at hrest
          rw [answers, anchorsIn, List.filter_cons_of_pos (by simp [hasks])]
          rw [List.map_cons, List.filterMap_cons_some hwish, handOut]
          exact congrArg (anchorFor (a.takenAnchors path) wish :: ·) hrest

/-- Calls that do not ask for fragments in a file hold no wishes for it. -/
theorem filterMap_wishIn?_filter (path : String) (calls : List Call) :
    (calls.filter (asksIn path)).filterMap (wishIn? path) =
      calls.filterMap (wishIn? path) := by
  rw [List.filterMap_filter]
  refine congrArg (List.filterMap · calls) (funext fun c => ?_)
  cases hwish : c.wishIn? path <;> simp [asksIn, hwish]

end Interleaving

/-- Every wish for a fragment in a file is answered.  The fragments of a file differ in more
than case, and have no blanks.  Each is the wish without its blanks and with low lines after
it, as few as make it differ from the fragments that were handed out in the file before, case
aside, and adding them one by one comes to an end there.  All calls that ask for something
else can be left out. -/
theorem anchors_unique_per_file (path : String) (calls : List Call) :
    let anchors := anchorsIn path (answers .empty calls)
    let wishes := calls.filterMap (wishIn? path)
    anchors.length = wishes.length ∧ (anchors.map anchorKey).Nodup ∧
    (∀ anchor ∈ anchors, ∀ c ∈ anchor.toList, Text.isBlank c = false) ∧
    (∀ i wish, wishes[i]? = some wish →
      let earlier := (anchors.take i).map anchorKey
      ∃ k, anchors[i]? = some (String.ofList (pad (withoutBlanks wish) k)) ∧
        IsLeast {k | Text.caseKey (pad (withoutBlanks wish) k) ∉ earlier} k ∧
        ∀ t, Probes earlier (withoutBlanks wish) t ↔ t = pad (withoutBlanks wish) k) ∧
    anchorsIn path (answers .empty (calls.filter (asksIn path))) = anchors := by
  intro anchors wishes
  have hanchors : anchors = handOut [] wishes := anchorsIn_answers path .empty calls
  refine ⟨?_, ?_, fun anchor hanchor c hc => ?_, fun i wish hwish => ?_, ?_⟩
  · rw [hanchors, length_handOut]
  · rw [hanchors]
    exact (nodup_keys_handOut [] wishes).1
  · rw [hanchors] at hanchor
    exact not_isBlank_of_mem_handOut hanchor hc
  · intro earlier
    -- the order in which the lower cases are kept does not matter
    have hleast := isLeast_padding earlier.reverse (withoutBlanks wish)
    simp only [List.mem_reverse] at hleast
    have hget := getElem?_handOut [] wishes i
    rw [← hanchors, hwish, List.append_nil] at hget
    refine ⟨_, hget, hleast, fun t => probes_iff.trans ?_⟩
    rw [(isLeast_padding earlier (withoutBlanks wish)).unique hleast]
  · rw [anchorsIn_answers, filterMap_wishIn?_filter]
    exact hanchors.symm

end Call
end Filename
end DocLinks
