import DocLinks.Text.Scan

/-!
# The cuts of a text, described

`Cuts` says what a cut at a pattern is without saying how it is found: gaps in which the
pattern hits nowhere, as long as possible, and hits, each looked for behind all that precedes
it.  The text may stand between others, so that a part of a cut can be spoken of.

**Results.**
* `Cuts.eq_cutFrom`, `cuts_cutFrom`: a text has exactly one cut, the one that is computed.
* `hit_mem_cut_of_upTo`: what a search finds before it is given up, it finds without that.
* `Silent.append`, `Silent.left`, `Silent.right`: gaps put together and taken apart.
* `Cuts.transfer`: a cut carries over to other surroundings if its gaps stay silent and its
  hits stay.
* `Cuts.exists_hit_at`: a place where the pattern hits belongs to a hit of the cut.
* `pieces_apart`: of two hits of a cut, one stands behind the other.
-/

namespace DocLinks
namespace Text

/-- What stands between the hits. -/
def gapsOf {α : Type} (pieces : List (Piece α)) : List (List Char) :=
  pieces.filterMap fun
    | .gap s => some s
    | .hit _ _ => none

theorem mem_gapsOf {α : Type} {pieces : List (Piece α)} {s : List Char} :
    s ∈ gapsOf pieces ↔ Piece.gap s ∈ pieces := by
  constructor
  · intro h
    obtain ⟨piece, hm, hs⟩ := List.mem_filterMap.1 h
    cases piece with
    | gap t =>
        simp only [Option.some.injEq] at hs
        exact hs ▸ hm
    | hit v t => simp at hs
  · intro h
    exact List.mem_filterMap.2 ⟨_, h, rfl⟩

/-- Of two hits among some pieces, one stands behind the other, or they are the same. -/
theorem pieces_apart {α : Type} {front back front' back' : List (Piece α)} {v v' : α}
    {u u' : List Char} (h : front ++ .hit v u :: back = front' ++ .hit v' u' :: back') :
    (∃ w, front'.flatMap Piece.source = front.flatMap Piece.source ++ (u ++ w)) ∨
      (front = front' ∧ v = v' ∧ u = u' ∧ back = back') ∨
      ∃ w, front.flatMap Piece.source = front'.flatMap Piece.source ++ (u' ++ w) := by
  rcases List.append_eq_append_iff.1 h with ⟨w, rfl, hw⟩ | ⟨w, rfl, hw⟩
  · cases w with
    | nil =>
        obtain ⟨hq, rfl⟩ := List.cons.inj hw
        obtain ⟨rfl, rfl⟩ := Piece.hit.inj hq
        exact .inr (.inl ⟨by simp, rfl, rfl, rfl⟩)
    | cons q w =>
        obtain ⟨rfl, -⟩ := List.cons.inj hw
        exact .inl ⟨w.flatMap Piece.source, by simp [Piece.source]⟩
  · cases w with
    | nil =>
        obtain ⟨hq, rfl⟩ := List.cons.inj hw
        obtain ⟨rfl, rfl⟩ := Piece.hit.inj hq
        exact .inr (.inl ⟨by simp, rfl, rfl, rfl⟩)
    | cons q w =>
        obtain ⟨rfl, -⟩ := List.cons.inj hw
        exact .inr (.inr ⟨w.flatMap Piece.source, by simp [Piece.source]⟩)

namespace Pattern

variable {α : Type} (p : Pattern α)

/-- A hit lies inside the text. -/
def Bounded : Prop :=
  ∀ before s h, p before s = some h → h.more < s.length

/-- The pattern hits nowhere in `x`, which stands behind `before` and in front of `rest`. -/
def Silent (before x rest : List Char) : Prop :=
  ∀ y z, x = y ++ z → z ≠ [] → p (y.reverse ++ before) (z ++ rest) = none

/-- The pattern hits `u`, which stands behind `before` and in front of `rest`. -/
def Finds (before u rest : List Char) (v : α) : Prop :=
  u ≠ [] ∧ p before (u ++ rest) = some ⟨v, u.length - 1⟩

/-- The cut of a text that stands behind `before` and in front of `rest`. -/
inductive Cuts : (before s rest : List Char) → List (Piece α) → Prop
  | done {before rest : List Char} : Cuts before [] rest []
  | gap {before x s rest : List Char} {ps : List (Piece α)} :
      x ≠ [] → p.Silent before x (s ++ rest) → (∀ y qs, ps ≠ .gap y :: qs) →
      Cuts (x.reverse ++ before) s rest ps → Cuts before (x ++ s) rest (.gap x :: ps)
  | hit {before u s rest : List Char} {v : α} {ps : List (Piece α)} :
      p.Finds before u (s ++ rest) v → Cuts (u.reverse ++ before) s rest ps →
      Cuts before (u ++ s) rest (.hit v u :: ps)

variable {p}

section Silence

theorem silent_nil (before rest : List Char) : p.Silent before [] rest := by
  intro y z h hz
  obtain ⟨-, rfl⟩ := List.append_eq_nil_iff.1 h.symm
  exact absurd rfl hz

theorem silent_cons {before x rest : List Char} {c : Char} :
    p.Silent before (c :: x) rest ↔
      p before (c :: (x ++ rest)) = none ∧ p.Silent (c :: before) x rest := by
  constructor
  · intro h
    refine ⟨h [] (c :: x) rfl (by simp), ?_⟩
    intro y z hx hz
    have := h (c :: y) z (by rw [hx]; rfl) hz
    simpa using this
  · rintro ⟨h1, h2⟩ y z hx hz
    cases y with
    | nil =>
        have hzx : z = c :: x := hx.symm
        subst hzx
        exact h1
    | cons d y =>
        obtain ⟨rfl, hyz⟩ := List.cons.inj hx
        have := h2 y z hyz hz
        simpa using this

theorem Silent.left {before x y rest : List Char} (h : p.Silent before (x ++ y) rest) :
    p.Silent before x (y ++ rest) := by
  intro a b hx hb
  have := h a (b ++ y) (by rw [hx, List.append_assoc]) (by simp [hb])
  simpa using this

theorem Silent.right {before x y rest : List Char} (h : p.Silent before (x ++ y) rest) :
    p.Silent (x.reverse ++ before) y rest := by
  intro a b hy hb
  have := h (x ++ a) b (by rw [hy, List.append_assoc]) hb
  simpa using this

theorem Silent.append {before x y rest : List Char} (hx : p.Silent before x (y ++ rest))
    (hy : p.Silent (x.reverse ++ before) y rest) : p.Silent before (x ++ y) rest := by
  induction x generalizing before with
  | nil => simpa using hy
  | cons c x ih =>
      obtain ⟨h1, h2⟩ := silent_cons.1 hx
      refine silent_cons.2 ⟨by simpa using h1, ih h2 ?_⟩
      simpa using hy

end Silence

section Computation

theorem cutFrom_append {before gap x s : List Char} (h : p.Silent before x s) :
    p.cutFrom before gap (x ++ s) =
      p.cutFrom (x.reverse ++ before) (x.reverse ++ gap) s := by
  induction x generalizing before gap with
  | nil => rfl
  | cons c x ih =>
      obtain ⟨h1, h2⟩ := silent_cons.1 h
      rw [List.cons_append, cutFrom]
      simp only [h1]
      rw [ih h2]
      simp

theorem closeGap_of_ne_nil {gap : List Char} (h : gap ≠ []) :
    (closeGap gap : List (Piece α)) = [.gap gap.reverse] := by
  unfold closeGap
  cases gap with
  | nil => exact absurd rfl h
  | cons c gap => rfl

theorem cutFrom_finds {before gap u s : List Char} {v : α} (h : p.Finds before u s v) :
    p.cutFrom before gap (u ++ s) =
      closeGap gap ++ .hit v u :: p.cutFrom (u.reverse ++ before) [] s := by
  obtain ⟨hne, hp⟩ := h
  cases u with
  | nil => exact absurd rfl hne
  | cons c u =>
      rw [List.cons_append, cutFrom]
      rw [List.cons_append] at hp
      simp only [hp]
      simp

theorem Cuts.eq_cutFrom {before s : List Char} {ps : List (Piece α)}
    (h : p.Cuts before s [] ps) : p.cutFrom before [] s = ps := by
  generalize hr : ([] : List Char) = rest at h
  induction h with
  | done =>
      subst hr
      rw [cutFrom]
      rfl
  | @gap before x s rest ps hne hsil hmax htail ih =>
      subst hr
      rw [List.append_nil] at hsil
      rw [cutFrom_append hsil, List.append_nil]
      cases htail with
      | done =>
          rw [cutFrom, closeGap_of_ne_nil (by simpa using hne)]
          simp
      | gap => exact absurd rfl (hmax _ _)
      | hit hfind hrest =>
          rw [List.append_nil] at hfind
          rw [cutFrom_finds hfind] at ih ⊢
          rw [closeGap_of_ne_nil (by simpa using hne)]
          simp only [closeGap, List.isEmpty_nil, if_true, List.nil_append] at ih
          rw [ih trivial]
          simp
  | hit hfind _ ih =>
      subst hr
      rw [List.append_nil] at hfind
      rw [cutFrom_finds hfind, ih rfl]
      rfl

theorem cut_nil : p.cut [] = [] := by
  rw [cut, cutFrom]
  rfl

theorem cuts_of_silent {before x rest : List Char} (hne : x ≠ [])
    (h : p.Silent before x rest) :
    p.Cuts before x rest [.gap x] := by
  have hcuts := Cuts.gap (s := []) hne h (by simp) .done
  rwa [List.append_nil] at hcuts

theorem cuts_of_finds {before u rest : List Char} {v : α} (h : p.Finds before u rest v) :
    p.Cuts before u rest [.hit v u] := by
  have hcuts := Cuts.hit (s := []) h .done
  rwa [List.append_nil] at hcuts

theorem cut_of_silent {s : List Char} (hne : s ≠ []) (h : p.Silent [] s []) :
    p.cut s = [.gap s] :=
  (cuts_of_silent hne h).eq_cutFrom

theorem cut_of_finds {s : List Char} {v : α} (h : p.Finds [] s [] v) :
    p.cut s = [.hit v s] :=
  (cuts_of_finds h).eq_cutFrom

/-- Behind a gap that is not yet closed stands the rest of the gap, and then no other one. -/
theorem exists_cuts_of_cutFrom (hp : p.Bounded) (before gap s : List Char) :
    ∃ x t ps, s = x ++ t ∧ p.Silent before x t ∧ p.Cuts (x.reverse ++ before) t [] ps ∧
      (∀ y qs, ps ≠ .gap y :: qs) ∧
      p.cutFrom before gap s = closeGap (x.reverse ++ gap) ++ ps := by
  fun_induction p.cutFrom before gap s with
  | case1 before gap =>
      exact ⟨[], [], [], rfl, silent_nil _ _, .done, by simp, by simp⟩
  | case2 before gap c s h hhit ih =>
      obtain ⟨x, t, ps, hs, hsil, hcuts, hmax, hcut⟩ := ih
      have hlen := hp _ _ _ hhit
      have hfind : p.Finds before (c :: s.take h.more) (s.drop h.more) h.value := by
        refine ⟨by simp, ?_⟩
        have hmore : (c :: s.take h.more).length - 1 = h.more := by
          simp only [List.length_cons, List.length_take] at hlen ⊢
          omega
        rw [List.cons_append, List.take_append_drop]
        rw [hhit, hmore]
      refine ⟨[], c :: s, .hit h.value (c :: s.take h.more) :: (closeGap x.reverse ++ ps),
        rfl, silent_nil _ _, ?_, by simp, ?_⟩
      · have hrest : p.Cuts ((c :: s.take h.more).reverse ++ before) (s.drop h.more) []
            (closeGap x.reverse ++ ps) := by
          rw [List.reverse_cons, List.append_assoc, hs]
          cases x with
          | nil => simpa [closeGap] using hcuts
          | cons d x =>
              rw [closeGap_of_ne_nil (by simp)]
              simpa using Cuts.gap (by simp) (by simpa using hsil) hmax hcuts
        have := Cuts.hit (by simpa using hfind) hrest
        simpa using this
      · rw [hcut]
        simp
  | case3 before gap c s hnone ih =>
      obtain ⟨x, t, ps, hs, hsil, hcuts, hmax, hcut⟩ := ih
      refine ⟨c :: x, t, ps, by rw [hs]; rfl,
        silent_cons.2 ⟨by rw [← hs]; exact hnone, hsil⟩, by simpa using hcuts, hmax,
        by simpa using hcut⟩

theorem cuts_cutFrom (hp : p.Bounded) (before s : List Char) :
    p.Cuts before s [] (p.cutFrom before [] s) := by
  obtain ⟨x, t, ps, hs, hsil, hcuts, hmax, hcut⟩ := exists_cuts_of_cutFrom hp before [] s
  rw [hcut, hs]
  cases x with
  | nil => simpa [closeGap] using hcuts
  | cons c x =>
      rw [List.append_nil, closeGap_of_ne_nil (by simp)]
      simpa using Cuts.gap (by simp) (by simpa using hsil) hmax hcuts

end Computation

section GivingUp

variable {halt : Halt}

theorem Bounded.upTo (hp : p.Bounded) (halt : Halt) : (p.upTo halt).Bounded :=
  fun before s h hs => hp before s h (p.eq_some_of_upTo hs)

theorem Finds.of_upTo {before u rest : List Char} {v : α}
    (h : (p.upTo halt).Finds before u rest v) : p.Finds before u rest v :=
  ⟨h.1, p.eq_some_of_upTo h.2⟩

/-- Nothing is found once a search has been given up. -/
theorem silent_of_reached {before x rest : List Char}
    (h : halt.reached before (x ++ rest) = true) : (p.upTo halt).Silent before x rest := by
  rintro y z rfl -
  rw [List.append_assoc] at h
  exact p.upTo_of_reached (Halt.reached_append h)

theorem cutFrom_upTo_of_reached {before gap s : List Char}
    (h : halt.reached before s = true) :
    (p.upTo halt).cutFrom before gap s = closeGap (s.reverse ++ gap) := by
  have hsilent : (p.upTo halt).Silent before s [] :=
    silent_of_reached (by rwa [List.append_nil])
  have hcut : (p.upTo halt).cutFrom before gap (s ++ []) = _ := cutFrom_append hsilent
  rwa [List.append_nil, cutFrom] at hcut

/-- Until a search is given up it finds what it would find without that, and the rest is a
gap. -/
theorem exists_cutFrom_upTo (p : Pattern α) (halt : Halt) (before gap s : List Char) :
    ∃ front back, p.cutFrom before gap s = front ++ back ∧
      (p.upTo halt).cutFrom before gap s =
        front ++ closeGap (back.flatMap Piece.source).reverse := by
  fun_induction p.cutFrom before gap s with
  | case1 before gap =>
      refine ⟨closeGap gap, [], (List.append_nil _).symm, ?_⟩
      rw [cutFrom]
      exact (List.append_nil _).symm
  | case2 before gap c s h hhit ih =>
      cases hreached : halt.reached before (c :: s) with
      | true =>
          refine ⟨[], _, rfl, ?_⟩
          rw [cutFrom_upTo_of_reached hreached]
          simp [flatMap_source_closeGap, flatMap_source_cutFrom, Piece.source]
      | false =>
          obtain ⟨front, back, hcut, hupTo⟩ := ih
          refine ⟨closeGap gap ++ .hit h.value (c :: s.take h.more) :: front, back, ?_, ?_⟩
          · rw [hcut, List.append_assoc]
            rfl
          · rw [cutFrom, p.upTo_of_not_reached hreached, hhit]
            simp only [hupTo, List.append_assoc, List.cons_append]
  | case3 before gap c s hmiss ih =>
      cases hreached : halt.reached before (c :: s) with
      | true =>
          refine ⟨[], _, rfl, ?_⟩
          rw [cutFrom_upTo_of_reached hreached]
          simp [flatMap_source_cutFrom]
      | false =>
          obtain ⟨front, back, hcut, hupTo⟩ := ih
          refine ⟨front, back, hcut, ?_⟩
          rw [cutFrom, p.upTo_of_not_reached hreached, hmiss]
          exact hupTo

theorem hit_not_mem_closeGap {gap u : List Char} {v : α} : Piece.hit v u ∉ closeGap gap := by
  cases gap <;> simp [closeGap]

theorem hit_mem_cut_of_upTo {s u : List Char} {v : α}
    (h : Piece.hit v u ∈ (p.upTo halt).cut s) : Piece.hit v u ∈ p.cut s := by
  obtain ⟨front, back, hcut, hupTo⟩ := p.exists_cutFrom_upTo halt [] [] s
  rw [cut, hupTo] at h
  rw [cut, hcut]
  exact List.mem_append_left _ ((List.mem_append.1 h).resolve_right hit_not_mem_closeGap)

end GivingUp

section Surroundings

/-- A cut carries over to other surroundings if its gaps stay silent and its hits stay. -/
theorem Cuts.transfer {b₁ b₂ s r₁ r₂ : List Char} {ps : List (Piece α)}
    (h : p.Cuts b₁ s r₁ ps)
    (hsilent : ∀ y z, s = y ++ z → z ≠ [] →
      p (y.reverse ++ b₁) (z ++ r₁) = none → p (y.reverse ++ b₂) (z ++ r₂) = none)
    (hfinds : ∀ y u z v, s = y ++ (u ++ z) → Piece.hit v u ∈ ps →
      p.Finds (y.reverse ++ b₁) u (z ++ r₁) v → p.Finds (y.reverse ++ b₂) u (z ++ r₂) v) :
    p.Cuts b₂ s r₂ ps := by
  induction h generalizing b₂ with
  | done => exact .done
  | @gap before x s rest ps hne hsil hmax _ ih =>
      refine .gap hne ?_ hmax (ih ?_ ?_)
      · intro y z hx hz
        have hhere := hsilent y (z ++ s) (by rw [hx, List.append_assoc]) (by simp [hz])
        simp only [List.append_assoc] at hhere
        exact hhere (hsil y z hx hz)
      · intro y z hs hz
        have := hsilent (x ++ y) z (by rw [hs, List.append_assoc]) hz
        simpa using this
      · intro y u z v hs hv
        have := hfinds (x ++ y) u z v (by rw [hs]; simp) (List.mem_cons_of_mem _ hv)
        simpa using this
  | @hit before u s rest v ps hfind _ ih =>
      refine .hit ?_ (ih ?_ ?_)
      · have := hfinds [] u s v rfl (by simp)
        simpa using this hfind
      · intro y z hs hz
        have := hsilent (u ++ y) z (by rw [hs, List.append_assoc]) hz
        simpa using this
      · intro y w z v' hs hv
        have := hfinds (u ++ y) w z v' (by rw [hs]; simp) (List.mem_cons_of_mem _ hv)
        simpa using this

theorem Cuts.append {before x y rest : List Char} {ps qs : List (Piece α)}
    (hx : p.Cuts before x (y ++ rest) ps) (hy : p.Cuts (x.reverse ++ before) y rest qs)
    (hmax : ∀ z rs, qs ≠ .gap z :: rs) : p.Cuts before (x ++ y) rest (ps ++ qs) := by
  generalize hr : y ++ rest = r at hx
  induction hx with
  | done => simpa using hy
  | @gap before x s r ps hne hsil hmax' htail ih =>
      subst hr
      have hrest := ih (by simpa using hy) rfl
      rw [List.append_assoc]
      refine .gap hne (by simpa using hsil) ?_ hrest
      intro z rs h
      cases ps with
      | nil => exact hmax z rs h
      | cons q ps =>
          obtain ⟨rfl, -⟩ := List.cons.inj h
          exact hmax' z ps rfl
  | @hit before u s r v ps hfind htail ih =>
      subst hr
      have hrest := ih (by simpa using hy) rfl
      rw [List.append_assoc]
      exact .hit (by simpa using hfind) hrest

theorem Cuts.flatMap_source {before s rest : List Char} {ps : List (Piece α)}
    (h : p.Cuts before s rest ps) : ps.flatMap Piece.source = s := by
  induction h with
  | done => rfl
  | gap _ _ _ _ ih =>
      rw [List.flatMap_cons, ih]
      rfl
  | hit _ _ ih =>
      rw [List.flatMap_cons, ih]
      rfl

theorem Cuts.exists_finds {before s rest u : List Char} {v : α} {ps : List (Piece α)}
    (h : p.Cuts before s rest ps) (hmem : Piece.hit v u ∈ ps) :
    ∃ y z, s = y ++ (u ++ z) ∧ p.Finds (y.reverse ++ before) u (z ++ rest) v := by
  induction h with
  | done => simp at hmem
  | @gap before x s rest ps _ _ _ _ ih =>
      obtain ⟨y, z, hs, hfind⟩ := ih (by simpa using hmem)
      exact ⟨x ++ y, z, by rw [hs, List.append_assoc], by simpa using hfind⟩
  | @hit before w s rest v' ps hfind _ ih =>
      rcases List.mem_cons.1 hmem with h | h
      · obtain ⟨rfl, rfl⟩ := Piece.hit.inj h
        exact ⟨[], s, rfl, by simpa using hfind⟩
      · obtain ⟨y, z, hs, hfind'⟩ := ih h
        exact ⟨w ++ y, z, by rw [hs, List.append_assoc], by simpa using hfind'⟩

/-- Where the pattern hits at a place of a text, a hit of the cut begins at that place or
reaches over it. -/
theorem Cuts.exists_hit_at {before s rest x y : List Char} {ps : List (Piece α)}
    (h : p.Cuts before s rest ps) (hs : s = x ++ y) (hy : y ≠ [])
    (hp : p (x.reverse ++ before) (y ++ rest) ≠ none) :
    ∃ front v a b back z, ps = front ++ .hit v (a ++ b) :: back ∧
      x = front.flatMap Piece.source ++ a ∧ b ≠ [] ∧ y = b ++ z ∧
      p.Finds ((front.flatMap Piece.source).reverse ++ before) (a ++ b) (z ++ rest) v := by
  induction h generalizing x with
  | done => exact absurd (List.append_eq_nil_iff.1 hs.symm).2 hy
  | @gap before g s rest ps _ hsilent _ _ ih =>
      have hstep : ∀ w, x = g ++ w → s = w ++ y → ∃ front v a b back z,
          .gap g :: ps = front ++ .hit v (a ++ b) :: back ∧
          x = front.flatMap Piece.source ++ a ∧
          b ≠ [] ∧ y = b ++ z ∧
          p.Finds ((front.flatMap Piece.source).reverse ++ before) (a ++ b)
            (z ++ rest) v := by
        rintro w rfl hw
        obtain ⟨front, v, a, b, back, z, rfl, rfl, hb, hz, hfinds⟩ :=
          ih hw (by simpa using hp)
        exact ⟨.gap g :: front, v, a, b, back, z, rfl, by simp [Piece.source], hb, hz,
          by simpa [Piece.source] using hfinds⟩
      rcases List.append_eq_append_iff.1 hs with ⟨w, hg, hw⟩ | ⟨w, hx, hw⟩
      · exact hstep w hg hw
      · cases w with
        | nil => exact hstep [] (by simpa using hx.symm) hw.symm
        | cons c w =>
            rw [hw, List.append_assoc] at hp
            exact absurd (hsilent x (c :: w) hx (by simp)) hp
  | @hit before u s rest v ps hfind _ ih =>
      have hstep : ∀ w, x = u ++ w → s = w ++ y → ∃ front v' a b back z,
          .hit v u :: ps = front ++ .hit v' (a ++ b) :: back ∧
          x = front.flatMap Piece.source ++ a ∧
          b ≠ [] ∧ y = b ++ z ∧
          p.Finds ((front.flatMap Piece.source).reverse ++ before) (a ++ b)
            (z ++ rest) v' := by
        rintro w rfl hw
        obtain ⟨front, v', a, b, back, z, rfl, rfl, hb, hz, hfinds⟩ :=
          ih hw (by simpa using hp)
        exact ⟨.hit v u :: front, v', a, b, back, z, rfl, by simp [Piece.source], hb, hz,
          by simpa [Piece.source] using hfinds⟩
      rcases List.append_eq_append_iff.1 hs with ⟨w, hu, hw⟩ | ⟨w, hx, hw⟩
      · exact hstep w hu hw
      · cases w with
        | nil => exact hstep [] (by simpa using hx.symm) hw.symm
        | cons c w =>
            subst hx
            exact ⟨[], v, x, c :: w, ps, s, rfl, rfl, by simp, hw, by simpa using hfind⟩

/-- What is known about a hit of a cut at its place. -/
theorem Cuts.finds_of_split {before s rest u : List Char} {v : α}
    {ps front back : List (Piece α)}
    (h : p.Cuts before s rest ps) (hps : ps = front ++ .hit v u :: back) :
    p.Finds ((front.flatMap Piece.source).reverse ++ before) u
      (back.flatMap Piece.source ++ rest) v := by
  induction h generalizing front with
  | done => exact absurd hps.symm (by simp)
  | @gap before g s rest ps _ _ _ _ ih =>
      cases front with
      | nil => cases hps
      | cons q front =>
          obtain ⟨rfl, htail⟩ := List.cons.inj hps
          simpa [Piece.source] using ih htail
  | @hit before w s rest v' ps hfind htail ih =>
      cases front with
      | nil =>
          obtain ⟨hq, rfl⟩ := List.cons.inj hps
          obtain ⟨rfl, rfl⟩ := Piece.hit.inj hq
          rw [htail.flatMap_source]
          exact hfind
      | cons q front =>
          obtain ⟨rfl, hback⟩ := List.cons.inj hps
          simpa [Piece.source] using ih hback

end Surroundings

section Readers

/-- The pattern of a reader, which gives what it has read and what follows it. -/
def ofReader (r : (before s : List Char) → Option (α × List Char)) :
    Pattern α := fun before s =>
  (r before s).map fun (v, rest) => ⟨v, s.length - rest.length - 1⟩

/-- A reader takes at least one character off the text. -/
def Advances (r : (before s : List Char) → Option (α × List Char)) : Prop :=
  ∀ before s v rest, r before s = some (v, rest) → ∃ u, u ≠ [] ∧ s = u ++ rest

variable {r : (before s : List Char) → Option (α × List Char)}

theorem ofReader_bounded (hr : Advances r) : (ofReader r).Bounded := by
  intro before s h hs
  obtain ⟨⟨v, rest⟩, hread, rfl⟩ := Option.map_eq_some_iff.1 hs
  obtain ⟨u, hne, rfl⟩ := hr _ _ _ _ hread
  have hpos := List.length_pos_iff.2 hne
  simp only [List.length_append]
  omega

theorem ofReader_finds_iff (hr : Advances r) {before u rest : List Char} {v : α} :
    (ofReader r).Finds before u rest v ↔ u ≠ [] ∧ r before (u ++ rest) = some (v, rest) := by
  constructor
  · rintro ⟨hne, h⟩
    refine ⟨hne, ?_⟩
    obtain ⟨⟨v', rest'⟩, hread, hhit⟩ := Option.map_eq_some_iff.1 h
    obtain ⟨w, hw, hsplit⟩ := hr _ _ _ _ hread
    obtain ⟨rfl, hmore⟩ := Hit.mk.inj hhit
    have hlen := congrArg List.length hsplit
    simp only [List.length_append] at hlen hmore
    have hupos := List.length_pos_iff.2 hne
    have hwpos := List.length_pos_iff.2 hw
    obtain ⟨-, rfl⟩ := List.append_inj hsplit (by omega)
    exact hread
  · rintro ⟨hne, h⟩
    refine ⟨hne, ?_⟩
    rw [ofReader, h]
    simp

end Readers

end Pattern

end Text
end DocLinks
