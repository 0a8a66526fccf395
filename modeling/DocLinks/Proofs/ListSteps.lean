import Mathlib.Data.List.Forall2
import Mathlib.Data.List.Induction

/-!
# Steps along a list

What a computation does that goes through a list from left to right.

**Results.**
* `forall₂_comp`, `forall₂_of_map_eq`, `map_eq_iff_of_iff`: lists whose values are related
  one by one.
* `mapM_eq_ok_iff`: a computation for each value of a list succeeds if all of them do.
* `OncePerKey.foldl_firsts`: if a step that is made again changes nothing, the first ones
  decide.
* `filter_flatMap_of_nodup`: what is selected from the lists of different values.
* `append_cons_inj_of_not_mem`: a list is cut in one way behind the last place of a value.
* `find?_firsts`, `firsts_firsts_append`: first values stand for all values that they were
  taken from.
-/

namespace DocLinks

section Pairs

variable {α β γ : Type}

theorem forall₂_comp {R : α → β → Prop} {S : β → γ → Prop} {T : α → γ → Prop}
    (h : ∀ a b c, R a b → S b c → T a c) {l : List α} {m : List β} {n : List γ}
    (hlm : List.Forall₂ R l m) (hmn : List.Forall₂ S m n) : List.Forall₂ T l n := by
  induction hlm generalizing n with
  | nil =>
      cases hmn
      exact .nil
  | cons hab _ ih =>
      cases hmn with
      | cons hbc hmn => exact .cons (h _ _ _ hab hbc) (ih hmn)

theorem exists_of_forall₂ {R : α → β → Prop} {l : List α} {m : List β}
    (h : List.Forall₂ R l m)
    {a : α} (ha : a ∈ l) : ∃ b ∈ m, R a b := by
  induction h with
  | nil => simp at ha
  | cons hab _ ih =>
      rcases List.mem_cons.1 ha with rfl | ha
      · exact ⟨_, List.mem_cons_self, hab⟩
      · obtain ⟨b, hb, hR⟩ := ih ha
        exact ⟨b, List.mem_cons_of_mem _ hb, hR⟩

/-- What a function makes of a list is what it makes of its values. -/
theorem map_eq_iff_of_iff {f : α → β} {R : α → β → Prop} (h : ∀ a b, f a = b ↔ R a b)
    {l : List α} {m : List β} :
    l.map f = m ↔ List.Forall₂ R l m := by
  constructor
  · rintro rfl
    exact List.forall₂_map_right_iff.2 (List.forall₂_same.2 fun a _ => (h a _).1 rfl)
  · intro hall
    induction hall with
    | nil => rfl
    | cons hab _ ih => rw [List.map_cons, (h _ _).2 hab, ih]

/-- Lists with the same values under a function agree value by value. -/
theorem forall₂_of_map_eq {f : α → β} {l m : List α} (h : l.map f = m.map f) :
    List.Forall₂ (fun a b => f a = f b) l m := by
  have hsame : List.Forall₂ Eq (l.map f) (m.map f) := by
    rw [h]
    exact List.forall₂_refl _
  exact List.forall₂_map_right_iff.1 (List.forall₂_map_left_iff.1 hsame)

end Pairs

section Results

variable {α β ε : Type}

theorem map_eq_ok_iff {x : Except ε α} {g : α → β} {b : β} :
    x.map g = .ok b ↔ ∃ a, x = .ok a ∧ g a = b := by
  cases x <;> simp [Except.map]

theorem bind_eq_ok_iff {x : Except ε α} {g : α → Except ε β} {b : β} :
    x >>= g = .ok b ↔ ∃ a, x = .ok a ∧ g a = .ok b := by
  cases x <;> simp [bind, Except.bind]

theorem mapError_eq_ok_iff {δ : Type} {x : Except ε α} {f : ε → δ} {a : α} :
    x.mapError f = .ok a ↔ x = .ok a := by
  cases x <;> simp [Except.mapError]

theorem mapM_eq_ok_iff {f : α → Except ε β} {l : List α} {m : List β} :
    l.mapM f = .ok m ↔ List.Forall₂ (fun x y => f x = .ok y) l m := by
  induction l generalizing m with
  | nil => cases m <;> simp [pure, Except.pure]
  | cons x l ih =>
      rw [List.mapM_cons]
      cases hx : f x with
      | error e => cases m <;> simp [bind, Except.bind, hx]
      | ok y =>
          cases hl : l.mapM f with
          | error e => cases m <;> simp [bind, Except.bind, ← ih, hl, hx]
          | ok ys => cases m <;> simp [bind, Except.bind, pure, Except.pure, ← ih, hl, hx]

/-- Every result of a list of computations is the result of one of them. -/
theorem exists_mem_of_mapM_eq_ok {f : α → Except ε β} {l : List α} {m : List β}
    (h : l.mapM f = .ok m)
    {y : β} (hy : y ∈ m) : ∃ x ∈ l, f x = .ok y :=
  exists_of_forall₂ (mapM_eq_ok_iff.1 h).flip hy

/-- If every computation of a list succeeds with a result that is related to its value, so
does the list. -/
theorem mapM_forall₂ {f : α → Except ε β} {R : α → β → Prop} {l : List α}
    (h : ∀ x ∈ l, ∃ y, f x = .ok y ∧ R x y) :
    ∃ ys, l.mapM f = .ok ys ∧ List.Forall₂ R l ys := by
  induction l with
  | nil => exact ⟨[], rfl, .nil⟩
  | cons x l ih =>
      obtain ⟨y, hy, hR⟩ := h x List.mem_cons_self
      obtain ⟨ys, hys, hall⟩ := ih fun z hz => h z (List.mem_cons_of_mem _ hz)
      exact ⟨y :: ys, mapM_eq_ok_iff.2 (.cons hy (mapM_eq_ok_iff.1 hys)), .cons hR hall⟩

end Results

section Firsts

variable {α β σ : Type} {key : α → β}

/-- A step that is made once for each key: what has been made is never undone, and to make it
again changes nothing. -/
structure OncePerKey (step : σ → α → σ) (key : α → β) (Made : σ → β → Prop) : Prop where
  stays {s : σ} {k : β} (a : α) : Made s k → Made (step s a) k
  again {s : σ} {a : α} : Made s (key a) → step s a = s

variable {step : σ → α → σ} {Made : σ → β → Prop}

/-- Steps for what has been made can be left out. -/
theorem OncePerKey.foldl_filter (h : OncePerKey step key Made) {p : α → Bool}
    {l : List α} {s : σ}
    (hp : ∀ a ∈ l, p a = false → Made s (key a)) :
    (l.filter p).foldl step s = l.foldl step s := by
  induction l generalizing s with
  | nil => rfl
  | cons a l ih =>
      rw [List.filter_cons, List.foldl_cons]
      split
      · rw [List.foldl_cons]
        exact ih fun b hb hpb => h.stays a (hp b (List.mem_cons_of_mem _ hb) hpb)
      · rename_i hpa
        rw [h.again (hp a List.mem_cons_self (by simpa using hpa))]
        exact ih fun b hb hpb => hp b (List.mem_cons_of_mem _ hb) hpb

/-- What a step of a list makes is made in the end. -/
theorem OncePerKey.made_foldl (h : OncePerKey step key Made) {l : List α}
    {a : α} (ha : a ∈ l)
    (hmade : ∀ s, Made (step s a) (key a)) (s : σ) : Made (l.foldl step s) (key a) := by
  have hstays : ∀ (l : List α) (s : σ), Made s (key a) → Made (l.foldl step s) (key a) := by
    intro l
    induction l with
    | nil => exact fun s hs => hs
    | cons b l ih => exact fun s hs => ih _ (h.stays b hs)
  obtain ⟨front, back, rfl⟩ := List.append_of_mem ha
  rw [List.foldl_append, List.foldl_cons]
  exact hstays back _ (hmade _)

variable [DecidableEq β]

/-- The values of a list that are the first ones with their keys. -/
def firsts (key : α → β) : List α → List α
  | [] => []
  | a :: l => a :: (firsts key l).filter fun b => key b != key a

theorem mem_of_mem_firsts {l : List α} {a : α} (h : a ∈ firsts key l) : a ∈ l := by
  induction l with
  | nil => simp [firsts] at h
  | cons b l ih =>
      rcases List.mem_cons.1 h with rfl | h
      · exact List.mem_cons_self
      · exact List.mem_cons_of_mem _ (ih (List.mem_filter.1 h).1)

theorem exists_mem_firsts {l : List α} {a : α} (h : a ∈ l) :
    ∃ b ∈ firsts key l, key b = key a := by
  induction l with
  | nil => simp at h
  | cons c l ih =>
      by_cases hkey : key a = key c
      · exact ⟨c, List.mem_cons_self, hkey.symm⟩
      · rcases List.mem_cons.1 h with rfl | h
        · exact absurd rfl hkey
        · obtain ⟨b, hb, hsame⟩ := ih h
          refine ⟨b, List.mem_cons_of_mem _ (List.mem_filter.2 ⟨hb, ?_⟩), hsame⟩
          rw [hsame]
          simpa using hkey

/-- The first values have different keys. -/
theorem pairwise_firsts (l : List α) : (firsts key l).Pairwise fun a b => key b ≠ key a := by
  induction l with
  | nil => exact .nil
  | cons a l ih =>
      refine List.pairwise_cons.2 ⟨fun b hb => ?_, ih.filter _⟩
      simpa using (List.mem_filter.1 hb).2

theorem firsts_of_pairwise {l : List α} (h : l.Pairwise fun a b => key b ≠ key a) :
    firsts key l = l := by
  induction h with
  | nil => rfl
  | cons hhead _ ih =>
      rw [firsts, ih, List.filter_eq_self.2]
      intro b hb
      simpa using hhead b hb

/-- The first values have the keys of all. -/
theorem exists_mem_firsts_iff {l : List α} {k : β} :
    (∃ b ∈ firsts key l, key b = k) ↔ ∃ b ∈ l, key b = k := by
  constructor
  · exact fun ⟨b, hb, hkey⟩ => ⟨b, mem_of_mem_firsts hb, hkey⟩
  · rintro ⟨b, hb, rfl⟩
    exact exists_mem_firsts hb

/-- What is looked up by its key is found among the first values. -/
theorem find?_firsts (l : List α) (k : β) :
    (firsts key l).find? (key · == k) = l.find? (key · == k) := by
  induction l with
  | nil => rfl
  | cons a l ih =>
      rw [firsts, List.find?_cons, List.find?_cons]
      split
      · rfl
      · rename_i hne
        rw [List.find?_filter, ← ih]
        congr 1
        funext b
        rw [Bool.eq_iff_iff]
        simp only [decide_eq_true_eq, bne_iff_ne, beq_iff_eq, and_iff_right_iff_imp]
        rintro rfl hsame
        simp [hsame] at hne

/-- A value that comes last is a first one unless its key has been seen. -/
theorem firsts_concat (l : List α) (a : α) :
    firsts key (l ++ [a]) =
      if ∃ b ∈ l, key b = key a then firsts key l else firsts key l ++ [a] := by
  induction l with
  | nil => simp [firsts]
  | cons c l ih =>
      rw [List.cons_append, firsts, ih]
      by_cases hseen : ∃ b ∈ l, key b = key a
      · rw [if_pos hseen, if_pos (hseen.imp fun b hb => ⟨List.mem_cons_of_mem _ hb.1, hb.2⟩)]
        rw [firsts]
      · rw [if_neg hseen, List.filter_append]
        by_cases hhead : key c = key a
        · rw [if_pos ⟨c, List.mem_cons_self, hhead⟩, firsts]
          simp [hhead]
        · have hnew : ¬ ∃ b ∈ c :: l, key b = key a := by
            rintro ⟨b, hb, hkey⟩
            rcases List.mem_cons.1 hb with rfl | hb
            · exact hhead hkey
            · exact hseen ⟨b, hb, hkey⟩
          rw [if_neg hnew, firsts]
          simp [Ne.symm hhead]

/-- Values that have been left out matter no more for those that come later. -/
theorem firsts_firsts_append (l m : List α) :
    firsts key (firsts key l ++ m) = firsts key (l ++ m) := by
  induction m using List.reverseRecOn with
  | nil => rw [List.append_nil, List.append_nil, firsts_of_pairwise (pairwise_firsts l)]
  | append_singleton m a ih =>
      have hseen : (∃ b ∈ firsts key l ++ m, key b = key a) ↔
          ∃ b ∈ l ++ m, key b = key a := by
        simp only [List.mem_append, or_and_right, exists_or, exists_mem_firsts_iff]
      rw [← List.append_assoc, ← List.append_assoc, firsts_concat]
      rw [firsts_concat, ih]
      simp only [hseen]

/-- If every step makes what it is made for, the first steps decide. -/
theorem OncePerKey.foldl_firsts (h : OncePerKey step key Made) {l : List α}
    (hmade : ∀ a ∈ l, ∀ s, Made (step s a) (key a)) (s : σ) :
    (firsts key l).foldl step s = l.foldl step s := by
  induction l generalizing s with
  | nil => rfl
  | cons a l ih =>
      rw [firsts, List.foldl_cons]
      rw [List.foldl_cons, h.foldl_filter]
      · exact ih (fun b hb => hmade b (List.mem_cons_of_mem _ hb)) _
      · intro b _ hkey
        have hkey : key b = key a := by simpa using hkey
        rw [hkey]
        exact hmade a List.mem_cons_self s

end Firsts

section Selections

variable {α β : Type} {l : List α}

/-- If what is selected comes from one value only, the others can be left out. -/
theorem filter_flatMap_of_nodup {f : α → List β} {p : β → Bool} {a : α}
    (hnodup : l.Nodup) (ha : a ∈ l)
    (hother : ∀ b ∈ l, b ≠ a → (f b).filter p = []) :
    (l.flatMap f).filter p = (f a).filter p := by
  obtain ⟨front, back, rfl⟩ := List.append_of_mem ha
  obtain ⟨hback, hfront⟩ : a ∉ back ∧ a ∉ front := by
    rw [List.nodup_append, List.nodup_cons] at hnodup
    exact ⟨hnodup.2.1.1, fun hmem => hnodup.2.2 a hmem a List.mem_cons_self rfl⟩
  have hnone : ∀ m : List α, m ⊆ front ++ a :: back → a ∉ m →
      (m.flatMap f).filter p = [] := by
    intro m hsub hnew
    rw [List.filter_flatMap, List.flatMap_eq_nil_iff]
    exact fun b hb => hother b (hsub hb) fun heq => hnew (heq ▸ hb)
  rw [List.flatMap_append, List.flatMap_cons, List.filter_append, List.filter_append,
    hnone front (List.subset_append_left _ _) hfront,
    hnone back (fun b hb => List.mem_append_right _ (List.mem_cons_of_mem _ hb)) hback,
    List.nil_append, List.append_nil]

/-- Lists are cut in one way behind the last place of a value. -/
theorem append_cons_inj_of_not_mem {a : α} {front back front' back' : List α}
    (hback : a ∉ back)
    (hback' : a ∉ back') (h : front ++ a :: back = front' ++ a :: back') :
    front = front' ∧ back = back' := by
  have hcut : ∀ {back middle rest : List α}, a ∉ back → a :: back = middle ++ a :: rest →
      middle = [] := by
    intro back middle rest hback heq
    cases middle with
    | nil => rfl
    | cons b middle =>
        have hrest : back = middle ++ a :: rest := (List.cons.inj heq).2
        exact absurd (hrest ▸ by simp) hback
  rcases List.append_eq_append_iff.1 h with ⟨middle, rfl, heq⟩ | ⟨middle, rfl, heq⟩
  · obtain rfl := hcut hback heq
    exact ⟨(List.append_nil _).symm, (List.cons.inj heq).2⟩
  · obtain rfl := hcut hback' heq
    exact ⟨List.append_nil _, (List.cons.inj heq).2.symm⟩

/-- What is sorted by a total order is in order. -/
theorem pairwise_mergeSort_decide (le : α → α → Prop) [DecidableRel le]
    (htrans : ∀ a b c, le a b → le b c → le a c)
    (htotal : ∀ a b, le a b ∨ le b a) (l : List α) :
    (l.mergeSort fun a b => decide (le a b)).Pairwise le := by
  refine (List.pairwise_mergeSort (fun a b c hab hbc => ?_)
    (fun a b => ?_) l).imp of_decide_eq_true
  · exact decide_eq_true (htrans a b c (of_decide_eq_true hab) (of_decide_eq_true hbc))
  · rw [Bool.or_eq_true, decide_eq_true_eq, decide_eq_true_eq]
    exact htotal a b

/-- The positions of different values ascend. -/
theorem pairwise_idxOf [DecidableEq α] (hnodup : l.Nodup) :
    l.Pairwise fun a b => l.idxOf a < l.idxOf b := by
  rw [List.pairwise_iff_getElem]
  intro i j hi hj hij
  rwa [hnodup.idxOf_getElem i hi, hnodup.idxOf_getElem j hj]

end Selections

end DocLinks
