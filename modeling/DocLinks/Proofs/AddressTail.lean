import DocLinks.Expansion.WebAddress
import DocLinks.Proofs.CharacterRuns

/-!
# The tails of full addresses

How a full address may go on, as a grammar without preferences, and what the preferences of
the reader add to it.

**Results.**
* `goes_of_tail?`, `tail?_ne_none`: the reader finds an end of the grammar if there is one.
* `tail?_rest`: it goes on as far as it can.
* `tail?_ne_none_append`, `tail?_of_append`: what follows an address it has read did not
  matter.
-/

namespace DocLinks
namespace WebAddress

/-- A pair of parentheses that is not empty, without blanks, and what follows it. -/
def Pair (s rest : List Char) : Prop :=
  ∃ c x, s = '(' :: c :: (x ++ ')' :: rest) ∧ ∀ d ∈ c :: x, Text.isBlank d = false

/-- The ways in which a full address can go on.  It may end only if it has begun before. -/
inductive Goes : Bool → (s rest : List Char) → Prop
  | inner {begun : Bool} {c : Char} {s rest : List Char} :
      isInner c = true → Goes true s rest → Goes begun (c :: s) rest
  | last {c : Char} {s : List Char} : isInner c = true → isLast c = true →
      Goes true (c :: s) s
  | pair {begun : Bool} {s t rest : List Char} :
      Pair s t → Goes true t rest → Goes begun s rest
  | lastPair {s rest : List Char} : Pair s rest → Goes true s rest

section Parentheses

theorem isBlank_of_isNested {c : Char} (h : isNested c = true) : Text.isBlank c = false := by
  simp only [isNested, Bool.and_eq_true, Bool.not_eq_true'] at h
  exact h.1.1

theorem isBlank_of_isInner {c : Char} (h : isInner c = true) : Text.isBlank c = false := by
  simp only [isInner, Bool.not_eq_true', Bool.or_eq_false_iff] at h
  exact h.1

theorem afterNested?_eq_some_iff {s rest : List Char} :
    afterNested? s = some rest ↔ ∃ a, s = a ++ ')' :: rest ∧ ∀ c ∈ a, isNested c = true := by
  unfold afterNested?
  constructor
  · intro h
    split at h
    · rename_i t ht
      simp only [Option.some.injEq] at h
      subst h
      refine ⟨s.takeWhile isNested, ?_,
        fun c hc => List.all_eq_true.1 List.all_takeWhile c hc⟩
      rw [← ht, List.takeWhile_append_dropWhile]
    · simp at h
  · rintro ⟨a, rfl, ha⟩
    rw [List.dropWhile_append_of_pos ha, List.dropWhile_cons_of_neg (by decide)]
    rfl

theorem nested?_eq_some_iff {s rest : List Char} :
    nested? s = some rest ↔
      ∃ a b c, s = '(' :: (a ++ '(' :: (b ++ ')' :: (c ++ ')' :: rest))) ∧ b ≠ [] ∧
        (∀ x ∈ a, isNested x = true) ∧ (∀ x ∈ b, isNested x = true) ∧
        ∀ x ∈ c, isNested x = true := by
  constructor
  · intro h
    unfold nested? at h
    split at h
    · rename_i s
      split at h
      · rename_i t ht
        split at h
        · simp at h
        · rename_i hne
          split at h
          · rename_i u hu
            obtain ⟨b, rfl, hb⟩ := afterNested?_eq_some_iff.1 hu
            obtain ⟨c, rfl, hc⟩ := afterNested?_eq_some_iff.1 h
            refine ⟨s.takeWhile isNested, b, c, ?_, ?_,
              fun x hx => List.all_eq_true.1 List.all_takeWhile x hx, hb, hc⟩
            · rw [← ht, List.takeWhile_append_dropWhile]
            · rintro rfl
              rw [List.nil_append, List.takeWhile_cons_of_neg (by decide)] at hne
              exact hne rfl
          · simp at h
      · simp at h
    · simp at h
  · rintro ⟨a, b, c, rfl, hne, ha, hb, hc⟩
    have hopen : (a ++ '(' :: (b ++ ')' :: (c ++ ')' :: rest))).dropWhile isNested =
        '(' :: (b ++ ')' :: (c ++ ')' :: rest)) := by
      rw [List.dropWhile_append_of_pos ha, List.dropWhile_cons_of_neg (by decide)]
    have htake : (b ++ ')' :: (c ++ ')' :: rest)).takeWhile isNested = b := by
      rw [List.takeWhile_append_of_pos hb, List.takeWhile_cons_of_neg (by decide)]
      rw [List.append_nil]
    have hfirst : afterNested? (b ++ ')' :: (c ++ ')' :: rest)) = some (c ++ ')' :: rest) :=
      afterNested?_eq_some_iff.2 ⟨b, rfl, hb⟩
    have hsecond : afterNested? (c ++ ')' :: rest) = some rest :=
      afterNested?_eq_some_iff.2 ⟨c, rfl, hc⟩
    unfold nested?
    simp only [hopen, htake, hfirst, hsecond]
    simp [hne]

theorem pair_of_nested? {s rest : List Char} (h : nested? s = some rest) : Pair s rest := by
  obtain ⟨a, b, c, rfl, -, ha, hb, hc⟩ := nested?_eq_some_iff.1 h
  have hparen : Text.isBlank '(' = false := by decide
  have hclose : Text.isBlank ')' = false := by decide
  have hfree : ∀ x ∈ a ++ '(' :: (b ++ ')' :: c), Text.isBlank x = false := by
    intro x hx
    simp only [List.mem_append, List.mem_cons] at hx
    rcases hx with hx | rfl | hx | rfl | hx
    · exact isBlank_of_isNested (ha x hx)
    · exact hparen
    · exact isBlank_of_isNested (hb x hx)
    · exact hclose
    · exact isBlank_of_isNested (hc x hx)
  cases a with
  | nil => exact ⟨'(', b ++ ')' :: c, by simp, hfree⟩
  | cons d a => exact ⟨d, a ++ '(' :: (b ++ ')' :: c), by simp, hfree⟩

theorem closing?_eq_some_iff {s rest : List Char} :
    closing? s = some rest ↔
      ∃ x, s = x ++ ')' :: rest ∧ (∀ c ∈ x, Text.isBlank c = false) ∧ ')' ∉ x := by
  induction s with
  | nil => simp [closing?]
  | cons c s ih =>
      rw [closing?]
      constructor
      · intro h
        split at h
        · simp at h
        · rename_i hc
          split at h
          · rename_i hp
            simp only [Option.some.injEq] at h
            subst h hp
            exact ⟨[], rfl, by simp, by simp⟩
          · rename_i hp
            obtain ⟨x, rfl, hx, hfree⟩ := ih.1 h
            refine ⟨c :: x, rfl, ?_, ?_⟩
            · intro d hd
              rcases List.mem_cons.1 hd with rfl | hd
              · simpa using hc
              · exact hx d hd
            · intro hmem
              rcases List.mem_cons.1 hmem with rfl | hmem
              · exact hp rfl
              · exact hfree hmem
      · rintro ⟨x, hs, hx, hfree⟩
        cases x with
        | nil =>
            obtain ⟨rfl, rfl⟩ := List.cons.inj hs
            rfl
        | cons d x =>
            obtain ⟨rfl, htail⟩ := List.cons.inj hs
            have hd : Text.isBlank c = false := hx c (by simp)
            have hp : c ≠ ')' := by
              rintro rfl
              exact hfree (by simp)
            simp only [hd, hp, if_false]
            exact ih.2 ⟨x, htail, fun y hy => hx y (List.mem_cons_of_mem _ hy),
              fun h => hfree (List.mem_cons_of_mem _ h)⟩

theorem loose?_eq_some_iff {s rest : List Char} :
    loose? s = some rest ↔
      ∃ c x, s = '(' :: c :: (x ++ ')' :: rest) ∧ (∀ d ∈ c :: x, Text.isBlank d = false) ∧
        ')' ∉ x := by
  constructor
  · intro h
    unfold loose? at h
    split at h
    · rename_i c s
      split at h
      · simp at h
      · rename_i hc
        obtain ⟨x, rfl, hx, hfree⟩ := closing?_eq_some_iff.1 h
        refine ⟨c, x, rfl, ?_, hfree⟩
        intro d hd
        rcases List.mem_cons.1 hd with rfl | hd
        · simpa using hc
        · exact hx d hd
    · simp at h
  · rintro ⟨c, x, rfl, hx, hfree⟩
    have hc : Text.isBlank c = false := hx c (by simp)
    rw [loose?, if_neg (by simp [hc])]
    exact closing?_eq_some_iff.2 ⟨x, rfl,
      fun y hy => hx y (List.mem_cons_of_mem _ hy), hfree⟩

/-- The texts behind the closing parentheses that no blank separates from here. -/
def closings : List Char → List (List Char)
  | [] => []
  | c :: s =>
      if Text.isBlank c then []
      else if c = ')' then s :: closings s else closings s

/-- The texts behind a pair of parentheses that has just been opened, for all ways to close
it. -/
def pairEnds : List Char → List (List Char)
  | [] => []
  | c :: s => if Text.isBlank c then [] else closings s

theorem viaClosing?_eq_findSome? (s : List Char) :
    viaClosing? s = (closings s).findSome? (tail? true) := by
  induction s with
  | nil =>
      rw [viaClosing?.eq_def]
      rfl
  | cons c s ih =>
      rw [viaClosing?.eq_def, closings]
      show (if Text.isBlank c then none else if c = ')' then _ else _) = _
      split
      · rfl
      · split
        · rw [List.findSome?_cons, ← ih]
          cases tail? true s <;> rfl
        · exact ih

theorem viaLoose?_eq_findSome? (s : List Char) :
    viaLoose? s = (pairEnds s).findSome? (tail? true) := by
  rw [viaLoose?.eq_def]
  cases s with
  | nil => rfl
  | cons c s =>
      show (if Text.isBlank c then none else viaClosing? s) = _
      rw [pairEnds, viaClosing?_eq_findSome?]
      split <;> rfl

theorem mem_closings_iff {s t : List Char} :
    t ∈ closings s ↔ ∃ x, s = x ++ ')' :: t ∧ ∀ c ∈ x, Text.isBlank c = false := by
  induction s with
  | nil => simp [closings]
  | cons c s ih =>
      constructor
      · intro h
        rw [closings] at h
        split at h
        · simp at h
        · rename_i hblank
          have hlater : t ∈ closings s → ∃ x, c :: s = x ++ ')' :: t ∧
              ∀ d ∈ x, Text.isBlank d = false := by
            intro ht
            obtain ⟨x, rfl, hx⟩ := ih.1 ht
            exact ⟨c :: x, rfl, by simpa [hblank] using hx⟩
          split at h
          · rename_i hclose
            rcases List.mem_cons.1 h with rfl | h
            · exact ⟨[], by rw [hclose]; rfl, by simp⟩
            · exact hlater h
          · exact hlater h
      · rintro ⟨x, hs, hx⟩
        have hclose : Text.isBlank ')' = false := by decide
        cases x with
        | nil =>
            obtain ⟨rfl, rfl⟩ := List.cons.inj hs
            simp [closings, hclose]
        | cons d x =>
            obtain ⟨rfl, rfl⟩ := List.cons.inj hs
            have hmem := ih.2 ⟨x, rfl, fun y hy => hx y (List.mem_cons_of_mem _ hy)⟩
            rw [closings, if_neg (by simp [hx c (by simp)])]
            split
            · exact List.mem_cons_of_mem _ hmem
            · exact hmem

theorem mem_pairEnds_iff {s t : List Char} : t ∈ pairEnds s ↔ Pair ('(' :: s) t := by
  cases s with
  | nil => simp [pairEnds, Pair]
  | cons c s =>
      constructor
      · intro h
        rw [pairEnds] at h
        split at h
        · simp at h
        · rename_i hblank
          obtain ⟨x, rfl, hx⟩ := mem_closings_iff.1 h
          exact ⟨c, x, rfl, by simpa [hblank] using hx⟩
      · rintro ⟨d, x, hs, hx⟩
        obtain ⟨rfl, rfl⟩ := List.cons.inj (List.cons.inj hs).2
        rw [pairEnds, if_neg (by simp [hx c (by simp)])]
        exact mem_closings_iff.2 ⟨x, rfl, fun y hy => hx y (List.mem_cons_of_mem _ hy)⟩

/-- More text gives more ends of a pair; they lie in what was added, and they are tried
last. -/
theorem closings_append (s q : List Char) :
    ∃ extra, (∀ x ∈ extra, x.length < q.length) ∧
      closings (s ++ q) = (closings s).map (· ++ q) ++ extra := by
  induction s with
  | nil =>
      refine ⟨closings q, fun x hx => ?_, rfl⟩
      obtain ⟨y, rfl, -⟩ := mem_closings_iff.1 hx
      simp only [List.length_append, List.length_cons]
      omega
  | cons c s ih =>
      obtain ⟨extra, hextra, hclosings⟩ := ih
      rw [List.cons_append, closings, closings]
      split
      · exact ⟨[], by simp, rfl⟩
      · split
        · exact ⟨extra, hextra, by rw [hclosings]; rfl⟩
        · exact ⟨extra, hextra, hclosings⟩

theorem pairEnds_append (s q : List Char) :
    ∃ extra, (∀ x ∈ extra, x.length < q.length) ∧
      pairEnds (s ++ q) = (pairEnds s).map (· ++ q) ++ extra := by
  cases s with
  | nil =>
      refine ⟨pairEnds q, fun x hx => ?_, rfl⟩
      obtain ⟨c, y, hq, -⟩ := mem_pairEnds_iff.1 hx
      rw [(List.cons.inj hq).2]
      simp only [List.length_append, List.length_cons]
      omega
  | cons c s =>
      rw [List.cons_append, pairEnds, pairEnds]
      split
      · exact ⟨[], by simp, rfl⟩
      · exact closings_append s q

theorem Pair.length_lt {s t : List Char} (h : Pair s t) : t.length < s.length := by
  obtain ⟨c, x, rfl, -⟩ := h
  simp only [List.length_append, List.length_cons]
  omega

end Parentheses

section Reader

theorem tail?_nil (begun : Bool) : tail? begun [] = none := by
  rw [tail?.eq_def]

theorem tail?_cons {begun : Bool} {c : Char} {s : List Char} (hc : c ≠ '(') :
    tail? begun (c :: s) =
      if isInner c then (tail? true s).or (if begun && isLast c then some s else none)
      else none := by
  rw [tail?.eq_def]
  split
  · rename_i h
    cases h
  · rename_i h
    exact absurd (List.cons.inj h).1 hc
  · rename_i d t _ h
    obtain ⟨rfl, rfl⟩ := List.cons.inj h
    split
    · cases tail? true s <;> rfl
    · rfl

theorem tail?_paren (begun : Bool) (s : List Char) :
    tail? begun ('(' :: s) =
      ((nested? ('(' :: s)).bind (tail? true)).or ((viaLoose? s).or
        (if begun then (nested? ('(' :: s)).or (loose? ('(' :: s)) else none)) := by
  rw [tail?.eq_def]
  split
  · rename_i h
    cases h
  · rename_i t h
    obtain ⟨-, rfl⟩ := List.cons.inj h
    dsimp only
    generalize nested? ('(' :: s) = viaNested
    cases viaNested with
    | none => cases viaLoose? s <;> rfl
    | some rest =>
        rw [Option.bind_some]
        dsimp only
        cases tail? true rest with
        | some r => rfl
        | none => cases viaLoose? s <;> rfl
  · rename_i hne h
    exact absurd (List.cons.inj h).1.symm hne

theorem viaLoose?_eq_none_iff {s : List Char} :
    viaLoose? s = none ↔ ∀ t, Pair ('(' :: s) t → tail? true t = none := by
  rw [viaLoose?_eq_findSome?, List.findSome?_eq_none_iff]
  simp only [mem_pairEnds_iff]

theorem exists_pair_of_viaLoose? {s rest : List Char} (h : viaLoose? s = some rest) :
    ∃ t, Pair ('(' :: s) t ∧ tail? true t = some rest := by
  rw [viaLoose?_eq_findSome?] at h
  obtain ⟨t, ht, hrest⟩ := List.exists_of_findSome?_eq_some h
  exact ⟨t, mem_pairEnds_iff.1 ht, hrest⟩

theorem goes_of_tail? {begun : Bool} {s rest : List Char} (h : tail? begun s = some rest) :
    Goes begun s rest := by
  generalize hn : s.length = n
  induction n using Nat.strongRecOn generalizing begun s with
  | ind n ih =>
      cases s with
      | nil => simp [tail?_nil] at h
      | cons c s =>
          by_cases hc : c = '('
          · subst hc
            rw [tail?_paren, Option.or_eq_some_iff] at h
            rcases h with h | ⟨-, h⟩
            · obtain ⟨t, hnested, ht⟩ := Option.bind_eq_some_iff.1 h
              have hlen := length_nested? hnested
              exact .pair (pair_of_nested? hnested) (ih _ (by omega) ht rfl)
            · rcases Option.or_eq_some_iff.1 h with h | ⟨-, h⟩
              · obtain ⟨t, hpair, ht⟩ := exists_pair_of_viaLoose? h
                exact .pair hpair (ih _ (hn ▸ hpair.length_lt) ht rfl)
              · split at h
                · rename_i hbegun
                  rw [hbegun]
                  rcases Option.or_eq_some_iff.1 h with hnested | ⟨-, hloose⟩
                  · exact .lastPair (pair_of_nested? hnested)
                  · obtain ⟨d, x, hs, hx, -⟩ := loose?_eq_some_iff.1 hloose
                    exact .lastPair ⟨d, x, hs, hx⟩
                · simp at h
          · rw [tail?_cons hc] at h
            split at h
            · rename_i hinner
              rcases Option.or_eq_some_iff.1 h with h | ⟨-, h⟩
              · exact .inner hinner (ih _ (by rw [← hn]; simp) h rfl)
              · split at h
                · rename_i hlast
                  simp only [Bool.and_eq_true] at hlast
                  rw [hlast.1, ← Option.some.inj h]
                  exact .last hinner hlast.2
                · simp at h
            · simp at h

theorem ne_paren_of_isInner {c : Char} (h : isInner c = true) : c ≠ '(' := by
  rintro rfl
  exact absurd h (by decide)

/-- A pair that is not empty has a first closing parenthesis. -/
theorem loose?_ne_none_of_pair {s t : List Char} (h : Pair s t) : loose? s ≠ none := by
  obtain ⟨c, x, rfl, hx⟩ := h
  have hclose : ∃ a b, x ++ ')' :: t = a ++ ')' :: b ∧ (∀ d ∈ a, Text.isBlank d = false) ∧
      ')' ∉ a := by
    have hblank : ∀ d ∈ x, Text.isBlank d = false :=
      fun d hd => hx d (List.mem_cons_of_mem _ hd)
    clear hx
    induction x with
    | nil => exact ⟨[], t, rfl, by simp, by simp⟩
    | cons d x ih =>
        by_cases hd : d = ')'
        · subst hd
          exact ⟨[], x ++ ')' :: t, rfl, by simp, by simp⟩
        · obtain ⟨a, b, hab, ha, hfree⟩ :=
            ih fun e he => hblank e (List.mem_cons_of_mem _ he)
          refine ⟨d :: a, b, by rw [List.cons_append, hab]; rfl, ?_, ?_⟩
          · intro e he
            rcases List.mem_cons.1 he with rfl | he
            · exact hblank e (by simp)
            · exact ha e he
          · intro hmem
            rcases List.mem_cons.1 hmem with h | hmem
            · exact hd h.symm
            · exact hfree hmem
  obtain ⟨a, b, hab, ha, hfree⟩ := hclose
  rw [hab]
  refine Option.ne_none_iff_exists'.2 ⟨b, loose?_eq_some_iff.2 ⟨c, a, rfl, ?_, hfree⟩⟩
  intro d hd
  rcases List.mem_cons.1 hd with rfl | hd
  · exact hx d (by simp)
  · exact ha d hd

/-- The reader finds an end of a full address if there is one. -/
theorem tail?_ne_none {begun : Bool} {s rest : List Char} (h : Goes begun s rest) :
    tail? begun s ≠ none := by
  induction h with
  | inner hinner _ ih =>
      rw [tail?_cons (ne_paren_of_isInner hinner), if_pos hinner]
      simp [ih]
  | last hinner hlast =>
      rw [tail?_cons (ne_paren_of_isInner hinner), if_pos hinner]
      simp [hlast]
  | @pair begun s t rest hpair _ ih =>
      obtain ⟨c, x, rfl, hx⟩ := id hpair
      rw [tail?_paren]
      have hloose : viaLoose? (c :: (x ++ ')' :: t)) ≠ none := by
        intro hnone
        exact ih (viaLoose?_eq_none_iff.1 hnone t hpair)
      simp [hloose]
  | @lastPair s rest hpair =>
      obtain ⟨c, x, rfl, hx⟩ := id hpair
      rw [tail?_paren]
      have hloose := loose?_ne_none_of_pair hpair
      simp [hloose]

/-- A full address goes on as far as it can. -/
theorem tail?_rest {begun : Bool} {s rest : List Char} (h : tail? begun s = some rest) :
    tail? true rest = none := by
  generalize hn : s.length = n
  induction n using Nat.strongRecOn generalizing begun s with
  | ind n ih =>
      cases s with
      | nil => simp [tail?_nil] at h
      | cons c s =>
          by_cases hc : c = '('
          · subst hc
            rw [tail?_paren, Option.or_eq_some_iff] at h
            rcases h with h | ⟨hvia, h⟩
            · obtain ⟨t, hnested, ht⟩ := Option.bind_eq_some_iff.1 h
              have hlen := length_nested? hnested
              exact ih _ (by omega) ht rfl
            · rcases Option.or_eq_some_iff.1 h with h | ⟨hloose, h⟩
              · obtain ⟨t, hpair, ht⟩ := exists_pair_of_viaLoose? h
                exact ih _ (hn ▸ hpair.length_lt) ht rfl
              · split at h
                · rcases Option.or_eq_some_iff.1 h with h | ⟨-, h⟩
                  · rwa [h, Option.bind_some] at hvia
                  · obtain ⟨d, x, hs, hx, -⟩ := loose?_eq_some_iff.1 h
                    exact viaLoose?_eq_none_iff.1 hloose rest ⟨d, x, hs, hx⟩
                · simp at h
          · rw [tail?_cons hc] at h
            split at h
            · rcases Option.or_eq_some_iff.1 h with h | ⟨hnone, h⟩
              · exact ih _ (by rw [← hn]; simp) h rfl
              · split at h
                · obtain rfl := Option.some.inj h
                  exact hnone
                · simp at h
            · simp at h

end Reader

section Shape

theorem Pair.append {s t : List Char} (h : Pair s t) (q : List Char) :
    Pair (s ++ q) (t ++ q) := by
  obtain ⟨c, x, rfl, hx⟩ := h
  exact ⟨c, x, by simp, hx⟩

theorem Goes.append {begun : Bool} {s rest : List Char}
    (h : Goes begun s rest) (q : List Char) :
    Goes begun (s ++ q) (rest ++ q) := by
  induction h with
  | inner hinner _ ih => exact .inner hinner ih
  | last hinner hlast => exact .last hinner hlast
  | pair hpair _ ih => exact .pair (hpair.append q) ih
  | lastPair hpair => exact .lastPair (hpair.append q)

/-- The characters of addresses: no blanks, and a closing parenthesis behind every opening
brace. -/
def Tight (u : List Char) : Prop :=
  (∀ c ∈ u, Text.isBlank c = false) ∧ ∀ a b, u = a ++ '{' :: b → ')' ∈ b

theorem Tight.append {u v : List Char} (hu : Tight u) (hv : Tight v) : Tight (u ++ v) := by
  refine ⟨fun c hc => ?_, fun a b hab => ?_⟩
  · rcases List.mem_append.1 hc with hc | hc
    · exact hu.1 c hc
    · exact hv.1 c hc
  · rcases List.append_eq_append_iff.1 hab with ⟨w, rfl, hw⟩ | ⟨w, rfl, hw⟩
    · exact hv.2 w b hw
    · cases w with
      | nil => exact hv.2 [] b hw.symm
      | cons d w =>
          obtain ⟨rfl, rfl⟩ := List.cons.inj hw
          exact List.mem_append_left _ (hu.2 a w rfl)

theorem tight_of_isInner {c : Char} (h : isInner c = true) : Tight [c] := by
  refine ⟨fun d hd => ?_, fun a b hab => ?_⟩
  · obtain rfl := List.mem_singleton.1 hd
    exact isBlank_of_isInner h
  · have hc : '{' ∈ [c] := by
      rw [hab]
      simp
    obtain rfl := List.mem_singleton.1 hc
    exact absurd h (by decide)

theorem Pair.tight {s t : List Char} (h : Pair s t) :
    ∃ u, u ≠ [] ∧ s = u ++ t ∧ Tight u := by
  obtain ⟨c, x, rfl, hx⟩ := h
  refine ⟨'(' :: c :: (x ++ [')']), by simp, by simp, fun d hd => ?_, fun a b hab => ?_⟩
  · have hparen : Text.isBlank '(' = false := by decide
    have hclose : Text.isBlank ')' = false := by decide
    simp only [List.mem_cons, List.mem_append, List.not_mem_nil, or_false] at hd
    rcases hd with rfl | rfl | hd | rfl
    · exact hparen
    · exact hx d (by simp)
    · exact hx d (List.mem_cons_of_mem _ hd)
    · exact hclose
  · have hlast : ('{' :: b).getLast? = some ')' := by
      have h := congrArg List.getLast? hab
      rw [List.getLast?_append] at h
      have hleft : ('(' :: c :: (x ++ [')'])).getLast? = some ')' := by
        rw [← List.cons_append, ← List.cons_append, List.getLast?_concat]
      rw [hleft] at h
      simpa using h.symm
    cases b with
    | nil => simp at hlast
    | cons d b =>
        rw [List.getLast?_cons_cons] at hlast
        exact List.mem_of_getLast? hlast

theorem Goes.tight {begun : Bool} {s rest : List Char} (h : Goes begun s rest) :
    ∃ u, u ≠ [] ∧ s = u ++ rest ∧ Tight u := by
  induction h with
  | @inner _ c _ _ hinner _ ih =>
      obtain ⟨u, -, rfl, hu⟩ := ih
      exact ⟨[c] ++ u, by simp, rfl, (tight_of_isInner hinner).append hu⟩
  | @last c s hinner _ => exact ⟨[c], by simp, rfl, tight_of_isInner hinner⟩
  | pair hpair _ ih =>
      obtain ⟨u, hu, rfl, hpre⟩ := hpair.tight
      obtain ⟨v, -, rfl, hv⟩ := ih
      exact ⟨u ++ v, by simp [hu], by simp, hpre.append hv⟩
  | lastPair hpair => exact hpair.tight

theorem length_tail? {begun : Bool} {s rest : List Char} (h : tail? begun s = some rest) :
    rest.length < s.length := by
  obtain ⟨u, hu, rfl, -⟩ := (goes_of_tail? h).tight
  have hpos := List.length_pos_iff.2 hu
  rw [List.length_append]
  omega

end Shape

section Context

theorem tail?_ne_none_append {begun : Bool} {s : List Char} (q : List Char)
    (h : tail? begun s ≠ none) : tail? begun (s ++ q) ≠ none := by
  obtain ⟨rest, hrest⟩ := Option.ne_none_iff_exists'.1 h
  exact tail?_ne_none ((goes_of_tail? hrest).append q)

theorem nested?_append {s rest : List Char} (q : List Char) (h : nested? s = some rest) :
    nested? (s ++ q) = some (rest ++ q) := by
  obtain ⟨a, b, c, rfl, hne, ha, hb, hc⟩ := nested?_eq_some_iff.1 h
  exact nested?_eq_some_iff.2 ⟨a, b, c, by simp, hne, ha, hb, hc⟩

theorem nested?_of_append {s q x : List Char} (h : nested? (s ++ q) = some x)
    (hlen : q.length ≤ x.length) : ∃ y, x = y ++ q ∧ nested? s = some y := by
  obtain ⟨a, b, c, hs, hne, ha, hb, hc⟩ := nested?_eq_some_iff.1 h
  have hsplit : s ++ q = ('(' :: (a ++ '(' :: (b ++ ')' :: (c ++ [')'])))) ++ x := by
    rw [hs]
    simp
  obtain ⟨y, rfl, rfl⟩ := Text.exists_of_append_eq_append hsplit hlen
  exact ⟨y, rfl, nested?_eq_some_iff.2 ⟨a, b, c, by simp, hne, ha, hb, hc⟩⟩

theorem loose?_of_append {s q x : List Char} (h : loose? (s ++ q) = some x)
    (hlen : q.length ≤ x.length) : ∃ y, x = y ++ q ∧ loose? s = some y := by
  obtain ⟨c, a, hs, ha, hfree⟩ := loose?_eq_some_iff.1 h
  have hsplit : s ++ q = ('(' :: c :: (a ++ [')'])) ++ x := by
    rw [hs]
    simp
  obtain ⟨y, rfl, rfl⟩ := Text.exists_of_append_eq_append hsplit hlen
  exact ⟨y, rfl, loose?_eq_some_iff.2 ⟨c, a, by simp, ha, hfree⟩⟩

theorem viaLoose?_ne_none_append {s : List Char} (q : List Char) (h : viaLoose? s ≠ none) :
    viaLoose? (s ++ q) ≠ none := by
  intro hnone
  refine h (viaLoose?_eq_none_iff.2 fun t ht => ?_)
  have hlong := viaLoose?_eq_none_iff.1 hnone (t ++ q) (ht.append q)
  cases htail : tail? true t with
  | none => rfl
  | some rest => exact absurd hlong (tail?_ne_none_append q (by simp [htail]))

theorem tail?_eq_none_of_append {begun : Bool} {s q : List Char}
    (h : tail? begun (s ++ q) = none) : tail? begun s = none := by
  cases htail : tail? begun s with
  | none => rfl
  | some rest => exact absurd h (tail?_ne_none_append q (by simp [htail]))

/-- Of two readings the second one counts only if the first one fails; if it still does on a
part of the text, the same one counts there. -/
theorem or_of_append {a a' b b' : Option (List Char)} {q rest : List Char}
    (ha : a' = some (rest ++ q) → a = some rest) (hnone : a' = none → a = none)
    (hb : b' = some (rest ++ q) → b = some rest) (h : a'.or b' = some (rest ++ q)) :
    a.or b = some rest := by
  rcases Option.or_eq_some_iff.1 h with h | ⟨ha', h⟩
  · rw [ha h, Option.some_or]
  · rw [hnone ha', Option.none_or, hb h]

theorem findSome?_of_append {begun : Bool} {l : List (List Char)} {q rest : List Char}
    (hl : ∀ x ∈ l, tail? begun (x ++ q) = some (rest ++ q) → tail? begun x = some rest)
    (h : (l.map (· ++ q)).findSome? (tail? begun) = some (rest ++ q)) :
    l.findSome? (tail? begun) = some rest := by
  induction l with
  | nil => simp at h
  | cons x l ih =>
      rw [List.map_cons, List.findSome?_cons] at h
      rw [List.findSome?_cons]
      cases hx : tail? begun (x ++ q) with
      | some y =>
          rw [hx] at h
          obtain rfl := Option.some.inj h
          rw [hl x List.mem_cons_self hx]
      | none =>
          rw [hx] at h
          rw [tail?_eq_none_of_append hx]
          exact ih (fun y hy => hl y (List.mem_cons_of_mem _ hy)) h

section Parts

variable {s q rest : List Char}

theorem nested?_eq_none_of_append (h : nested? (s ++ q) = none) : nested? s = none := by
  cases hs : nested? s with
  | none => rfl
  | some x =>
      rw [nested?_append q hs] at h
      exact absurd h (by simp)

theorem viaNested_eq_none_of_append (h : (nested? (s ++ q)).bind (tail? true) = none) :
    (nested? s).bind (tail? true) = none := by
  cases hs : nested? s with
  | none => rfl
  | some x =>
      rw [nested?_append q hs, Option.bind_some] at h
      exact tail?_eq_none_of_append h

theorem viaLoose?_eq_none_of_append (h : viaLoose? (s ++ q) = none) :
    viaLoose? s = none := by
  cases hs : viaLoose? s with
  | none => rfl
  | some x => exact absurd h (viaLoose?_ne_none_append q (by simp [hs]))

/-- The shorter texts of an induction: what follows did not matter in them. -/
def Shorter (s q rest : List Char) : Prop :=
  ∀ y : List Char, y.length < s.length → tail? true (y ++ q) = some (rest ++ q) →
    tail? true y = some rest

theorem viaNested_of_append (ih : Shorter s q rest)
    (h : (nested? (s ++ q)).bind (tail? true) = some (rest ++ q)) :
    (nested? s).bind (tail? true) = some rest := by
  obtain ⟨x, hnested, hx⟩ := Option.bind_eq_some_iff.1 h
  have hlen := length_tail? hx
  rw [List.length_append] at hlen
  obtain ⟨y, rfl, hy⟩ := nested?_of_append hnested (by omega)
  rw [hy, Option.bind_some]
  exact ih y (length_nested? hy) hx

theorem viaLoose?_of_append (ih : Shorter ('(' :: s) q rest)
    (h : viaLoose? (s ++ q) = some (rest ++ q)) : viaLoose? s = some rest := by
  obtain ⟨extra, hextra, hends⟩ := pairEnds_append s q
  rw [viaLoose?_eq_findSome?] at h ⊢
  rw [hends, List.findSome?_append, Option.or_eq_some_iff] at h
  rcases h with h | ⟨-, h⟩
  · exact findSome?_of_append (fun x hx => ih x (mem_pairEnds_iff.1 hx).length_lt) h
  · obtain ⟨x, hx, hrest⟩ := List.exists_of_findSome?_eq_some h
    have hlen := length_tail? hrest
    have hshort := hextra x hx
    rw [List.length_append] at hlen
    omega

theorem lastPair_of_append (h : (nested? (s ++ q)).or (loose? (s ++ q)) = some (rest ++ q)) :
    (nested? s).or (loose? s) = some rest := by
  have hlen : q.length ≤ (rest ++ q).length := by simp
  refine or_of_append (fun hnested => ?_) nested?_eq_none_of_append (fun hloose => ?_) h
  · obtain ⟨y, hy, hread⟩ := nested?_of_append hnested hlen
    rw [hread, List.append_cancel_right hy]
  · obtain ⟨y, hy, hread⟩ := loose?_of_append hloose hlen
    rw [hread, List.append_cancel_right hy]

end Parts

/-- What follows a full address did not matter when it was read. -/
theorem tail?_of_append {begun : Bool} {s q rest : List Char}
    (h : tail? begun (s ++ q) = some (rest ++ q)) : tail? begun s = some rest := by
  generalize hn : s.length = n
  induction n using Nat.strongRecOn generalizing begun s with
  | ind n ih =>
      cases s with
      | nil =>
          have hshort := length_tail? h
          rw [List.nil_append, List.length_append] at hshort
          omega
      | cons c s =>
          have hrec : Shorter (c :: s) q rest :=
            fun y hy htail => ih y.length (by omega) htail rfl
          by_cases hc : c = '('
          · subst hc
            rw [List.cons_append, tail?_paren] at h
            rw [tail?_paren]
            refine or_of_append (viaNested_of_append (s := '(' :: s) hrec)
              (viaNested_eq_none_of_append (s := '(' :: s))
              (or_of_append (viaLoose?_of_append hrec) viaLoose?_eq_none_of_append
                fun hlast => ?_) h
            split at hlast
            · rename_i hbegun
              rw [if_pos hbegun]
              exact lastPair_of_append (s := '(' :: s) hlast
            · simp at hlast
          · rw [List.cons_append, tail?_cons hc] at h
            rw [tail?_cons hc]
            split at h
            · rename_i hinner
              rw [if_pos hinner]
              refine or_of_append (hrec s (by simp)) tail?_eq_none_of_append
                (fun hlast => ?_) h
              split at hlast
              · rename_i hend
                rw [if_pos hend]
                exact congrArg some (List.append_cancel_right (Option.some.inj hlast))
              · simp at hlast
            · simp at h

end Context

end WebAddress
end DocLinks
