import DocLinks.Proofs.MarkerGrammar

/-!
# Texts between markers

A text into which markers were written is cut at these markers again.  Two things may stand
in the way: a marker that was opened before them and not closed takes the closing brace of
the next one, and a marker whose target has a closing brace ends there.

**Results.**
* `read?_of_closed`: an opening with the first closing brace behind it.
* `member?_eq_none_of_split`, `member?_eq_none_of_brace`: what is no shorthand.
* `cuts_of_woven`: where a text between markers is cut.
-/

namespace DocLinks
namespace Marker

open Text (Piece)

section Closing

theorem trimStart_append_cons {s t : List Char} {c : Char} (hc : Text.isBlank c = false) :
    Text.trimStart (s ++ c :: t) = Text.trimStart s ++ c :: t := by
  induction s with
  | nil => exact Text.trimStart_of_not_isBlank hc
  | cons d s ih =>
      cases hd : Text.isBlank d with
      | true =>
          rw [List.cons_append, Text.trimStart, Text.trimStart]
          rw [List.dropWhile_cons_of_pos hd, List.dropWhile_cons_of_pos hd]
          exact ih
      | false =>
          rw [List.cons_append, Text.trimStart_of_not_isBlank hd]
          rw [Text.trimStart_of_not_isBlank hd]
          rfl

theorem mem_of_opening? {s tail rest : List Char}
    (h : opening? s = some (tail, rest)) {c : Char}
    (hc : c ∈ rest) : c ∈ s := by
  obtain ⟨a, b, rfl, -⟩ := opening?_eq_some_iff.1 h
  simp [hc]

/-- An opening ends at the first closing brace behind it. -/
theorem read?_of_closed {s tail rest : List Char} (h : opening? s = some (tail, rest))
    (hs : '}' ∉ s) (t : List Char) :
    read? (s ++ '}' :: t) = some (⟨tail, Text.trimStart rest⟩, t) := by
  have hout : ∀ c ∈ Text.trimStart rest, (c == '}') = false := by
    intro c hc
    have hne : c ≠ '}' := by
      rintro rfl
      exact hs (mem_of_opening? h (Text.mem_of_mem_trimStart hc))
    simpa using hne
  simp only [read?_eq_bind, opening?_append _ h, Option.bind_some]
  rw [trimStart_append_cons (by decide), Text.cutAtFirst_append hout (by rfl)]
  rfl

/-- A target with something behind its name is no shorthand. -/
theorem member?_eq_none_of_split {m : Marker} {a b : List Char} {c : Char}
    (h : m.body = a ++ c :: b) (ha : a ≠ []) (hc : isMemberChar c = false)
    (hb : ∃ d ∈ c :: b, Text.isBlank d = false) : m.member? = none := by
  refine Option.eq_none_iff_forall_ne_some.2 fun k hk => ?_
  obtain ⟨blanks, -, hbody, -, -, hname, hblanks⟩ := member?_eq_some_iff.1 hk
  obtain ⟨x, a, rfl⟩ := List.exists_cons_of_ne_nil ha
  rw [h] at hbody
  have hsplit : a ++ c :: b = k.name ++ blanks := (List.cons.inj hbody).2
  obtain ⟨d, hd, hfree⟩ := hb
  rcases List.append_eq_append_iff.1 hsplit with ⟨w, hw, hrest⟩ | ⟨w, rfl, hrest⟩
  · cases w with
    | nil =>
        have hrest : c :: b = blanks := hrest
        rw [hrest] at hd
        rw [hblanks d hd] at hfree
        exact absurd hfree (by simp)
    | cons y w =>
        obtain ⟨rfl, -⟩ := List.cons.inj hrest
        rw [hname c (by rw [hw]; simp)] at hc
        exact absurd hc (by simp)
  · rw [hblanks d (by rw [hrest]; exact List.mem_append_right _ hd)] at hfree
    exact absurd hfree (by simp)

theorem member?_eq_none_of_brace {m : Marker} (h : '{' ∈ m.body) : m.member? = none := by
  refine Option.eq_none_iff_forall_ne_some.2 fun k hk => ?_
  obtain ⟨blanks, -, hbody, hsep, -, hname, hblanks⟩ := member?_eq_some_iff.1 hk
  rw [hbody] at h
  rcases List.mem_cons.1 h with h | h
  · rw [← h] at hsep
    exact absurd hsep (by decide)
  · rcases List.mem_append.1 h with h | h
    · exact absurd (hname _ h) (by decide +kernel)
    · exact absurd (hblanks _ h) (by decide)

end Closing

section Weaving

/-- No marker starts in a text. -/
def Free (s : List Char) : Prop :=
  ∀ x y, s = x ++ y → read? y = none

theorem Free.left {s t : List Char} (h : Free (s ++ t)) : Free s := by
  intro x y hs
  refine Option.eq_none_iff_forall_ne_some.2 fun ⟨m, rest⟩ hm => ?_
  have hlong := h x (y ++ t) (by rw [hs, List.append_assoc])
  rw [read?_append t hm] at hlong
  exact absurd hlong (by simp)

theorem Free.right {s t : List Char} (h : Free (s ++ t)) : Free t := by
  intro x y ht
  exact h (s ++ x) y (by rw [ht, List.append_assoc])

/-- The first place of a text at which a marker opens, or its end. -/
theorem exists_first_opening (z : List Char) :
    ∃ x y, z = x ++ y ∧ (y = [] ∨ opening? y ≠ none) ∧
      ∀ a b, x = a ++ b → b ≠ [] → opening? (b ++ y) = none := by
  induction z with
  | nil =>
      refine ⟨[], [], rfl, .inl rfl, fun a b h hb => ?_⟩
      exact absurd (List.append_eq_nil_iff.1 h.symm).2 hb
  | cons c z ih =>
      cases hopen : opening? (c :: z) with
      | some r =>
          refine ⟨[], c :: z, rfl, .inr (by simp [hopen]), fun a b h hb => ?_⟩
          exact absurd (List.append_eq_nil_iff.1 h.symm).2 hb
      | none =>
          obtain ⟨x, y, rfl, hy, hfirst⟩ := ih
          refine ⟨c :: x, y, rfl, hy, fun a b h hb => ?_⟩
          cases a with
          | nil =>
              have hb' : c :: x = b := h
              rw [← hb']
              exact hopen
          | cons d a => exact hfirst a b (List.cons.inj h).2 hb

/-- What is left of a target behind its first closing brace, and the closing brace of the
marker; there is something left only if `p` holds. -/
def LeftOver (p : Prop) (w : List Char) : Prop :=
  (∀ c ∈ w, Text.isBlank c = false) ∧ (w ≠ [] → p ∧ w.getLast? = some '}')

/-- A marker up to its first closing brace, which is no shorthand, and what is left behind
it. -/
structure Mark (p : Prop) (c w : List Char) : Prop where
  opens : ∃ tail rest, opening? c = some (tail, rest) ∧
    member? ⟨tail, Text.trimStart rest⟩ = none
  closed : '}' ∉ c
  left : LeftOver p w

/-- A text between two markers in which no marker starts, and of which `q` holds up to every
place at which a marker may start when more follows. -/
structure Run (q : List Char → Prop) (z : List Char) : Prop where
  free : Free z
  calm : ∀ x y, z = x ++ y → y = [] ∨ opening? y ≠ none → x ≠ [] → q x

/-- Markers with texts between them. -/
inductive Woven (p : Prop) (q : List Char → Prop) : List Char → Prop
  | done : Woven p q []
  | mark {c w z rest : List Char} :
      Mark p c w → Run q z → Woven p q rest → Woven p q (c ++ '}' :: (w ++ (z ++ rest)))

variable {p : Prop} {q : List Char → Prop}

theorem Run.mono {q' : List Char → Prop} {z : List Char} (h : Run q z)
    (hq : ∀ s, q s → q' s) :
    Run q' z :=
  ⟨h.free, fun x y hz hy hx => hq x (h.calm x y hz hy hx)⟩

theorem Woven.mono {q' : List Char → Prop} {t : List Char} (h : Woven p q t)
    (hq : ∀ s, q s → q' s) : Woven p q' t := by
  induction h with
  | done => exact .done
  | mark hmark hrun _ ih => exact .mark hmark (hrun.mono hq) ih

theorem Woven.append {t t' : List Char} (h : Woven p q t) (h' : Woven p q t') :
    Woven p q (t ++ t') := by
  induction h with
  | done => exact h'
  | mark hmark hrun _ ih => simpa using Woven.mark hmark hrun ih

theorem run_nil : Run q [] := by
  refine ⟨fun x y h => ?_, fun x y h _ hx => ?_⟩
  · rw [(List.append_eq_nil_iff.1 h.symm).2]
    rfl
  · exact absurd (List.append_eq_nil_iff.1 h.symm).1 hx

theorem leftOver_nil : LeftOver p [] :=
  ⟨by simp, fun h => absurd rfl h⟩

/-- No marker starts in what is left of a target. -/
theorem LeftOver.read?_eq_none {w a b t : List Char} (h : LeftOver p w) (hw : w = a ++ b)
    (hb : b ≠ []) : read? (b ++ t) = none := by
  refine Classical.byContradiction fun hread => ?_
  obtain ⟨⟨tail, rest⟩, hopen⟩ :=
    Option.ne_none_iff_exists'.1 (opening?_isSome_of_read? hread)
  have hlast : b.getLast? = some '}' := by
    have hw' : w ≠ [] := by simp [hw, hb]
    have := (h.2 hw').2
    rw [hw, List.getLast?_append, List.getLast?_eq_some_getLast hb] at this
    rwa [Option.some_or, ← List.getLast?_eq_some_getLast hb] at this
  obtain ⟨b, rfl⟩ := List.getLast?_eq_some_iff.1 hlast
  rw [List.append_assoc] at hopen
  cases b with
  | nil =>
      obtain ⟨x, y, hx, -⟩ := opening?_eq_some_iff.1 hopen
      exact absurd (List.cons.inj hx).1 (by decide)
  | cons d b =>
      obtain ⟨rest', hopen'⟩ := opening?_of_append_brace (by simp) (by simp) hopen
      obtain ⟨x, y, hx, -, -, hblank⟩ := opening?_eq_some_iff.1 hopen'
      have hfree := h.1 y (by rw [hw, hx]; simp)
      rw [hblank] at hfree
      exact absurd hfree (by simp)

theorem head?_of_woven {t : List Char} (h : Woven p q t) : t = [] ∨ ∃ s, t = '{' :: s := by
  cases h with
  | done => exact .inl rfl
  | mark hmark =>
      obtain ⟨tail, rest, hopen, -⟩ := hmark.opens
      obtain ⟨a, b, rfl, -⟩ := opening?_eq_some_iff.1 hopen
      exact .inr ⟨_, rfl⟩

/-- No marker starts before the first opening in a text between markers. -/
theorem silent_of_first {before w x y t : List Char} (hw : LeftOver p w)
    (hfree : Free (x ++ y))
    (hfirst : ∀ a b, x = a ++ b → b ≠ [] → opening? (b ++ y) = none)
    (ht : t = [] ∨ ∃ s, t = '{' :: s) : pattern.Silent before (w ++ x) (y ++ t) := by
  refine Text.Pattern.Silent.append ?_ ?_
  · intro a b hab hb
    rw [pattern_eq_none_iff]
    exact hw.read?_eq_none hab hb
  · intro a b hab hb
    rw [pattern_eq_none_iff]
    refine Classical.byContradiction fun hread => ?_
    rcases ht with rfl | ⟨s, rfl⟩
    · refine hread ?_
      rw [List.append_nil]
      exact hfree a (b ++ y) (by rw [hab, List.append_assoc])
    · obtain ⟨⟨tail, rest⟩, hopen⟩ :=
        Option.ne_none_iff_exists'.1 (opening?_isSome_of_read? hread)
      rw [← List.append_assoc] at hopen
      obtain ⟨rest', hopen'⟩ := opening?_of_append_brace (by simp [hb]) (by simp) hopen
      rw [hfirst a b hab hb] at hopen'
      exact absurd hopen' (by simp)

/-- The pieces into which a text between markers is cut. -/
structure Sound (p : Prop) (q : List Char → Prop) (ps : List (Piece Marker)) : Prop where
  gaps : ∀ g, Piece.gap g ∈ ps → q g ∨ p ∧ '}' ∈ g
  hits : ∀ m u, Piece.hit m u ∈ ps → m.member? = none

theorem sound_nil : Sound p q [] :=
  ⟨by simp, by simp⟩

theorem Sound.gap {g : List Char} {ps : List (Piece Marker)} (h : Sound p q ps)
    (hg : q g ∨ p ∧ '}' ∈ g) : Sound p q (.gap g :: ps) := by
  refine ⟨fun g' hg' => ?_, fun m u hm => h.hits m u (by simpa using hm)⟩
  rcases List.mem_cons.1 hg' with hg' | hg'
  · obtain rfl := Piece.gap.inj hg'
    exact hg
  · exact h.gaps g' hg'

theorem Sound.hit {m : Marker} {u : List Char} {ps : List (Piece Marker)} (h : Sound p q ps)
    (hm : m.member? = none) : Sound p q (.hit m u :: ps) := by
  refine ⟨fun g hg => h.gaps g (by simpa using hg), fun m' u' hm' => ?_⟩
  rcases List.mem_cons.1 hm' with hm' | hm'
  · obtain ⟨rfl, rfl⟩ := Piece.hit.inj hm'
    exact hm
  · exact h.hits m' u' hm'

/-- What stands before a marker, with what is left of the marker before it, is a sound
gap. -/
theorem gap_of_run {w x y : List Char} (hw : LeftOver p w) (hrun : Run q (x ++ y))
    (hy : y = [] ∨ opening? y ≠ none) (hne : w ++ x ≠ []) : q (w ++ x) ∨ p ∧
      '}' ∈ w ++ x := by
  by_cases hnil : w = []
  · subst hnil
    exact .inl (hrun.calm x y rfl hy hne)
  · obtain ⟨hp, hlast⟩ := hw.2 hnil
    obtain ⟨w, rfl⟩ := List.getLast?_eq_some_iff.1 hlast
    exact .inr ⟨hp, by simp⟩

/-- A marker that is opened in the text before another one takes the closing brace of that,
and then it is no shorthand. -/
theorem read?_of_run {c w y : List Char} (hmark : Mark p c w) (hfree : Free y)
    (hy : y = [] ∨ opening? y ≠ none) :
    ∃ m, m.member? = none ∧ ∀ t, read? (y ++ (c ++ '}' :: t)) = some (m, t) := by
  obtain ⟨tail, rest, hopen, hmember⟩ := hmark.opens
  rcases hy with rfl | hy
  · exact ⟨_, hmember, fun t => read?_of_closed hopen hmark.closed t⟩
  · obtain ⟨⟨tail', rest'⟩, hopen'⟩ := Option.ne_none_iff_exists'.1 hy
    have hclosed : '}' ∉ y ++ c := by
      intro h
      rcases List.mem_append.1 h with h | h
      · exact read?_of_opening? hopen' h (hfree [] y rfl)
      · exact hmark.closed h
    obtain ⟨a, b, hc, -⟩ := opening?_eq_some_iff.1 hopen
    refine ⟨⟨tail', Text.trimStart (rest' ++ c)⟩, member?_eq_none_of_brace ?_, fun t => ?_⟩
    · rw [hc, trimStart_append_cons (by decide)]
      simp
    · have := read?_of_closed (opening?_append c hopen') hclosed t
      rwa [List.append_assoc] at this

/-- A text between markers is cut at these markers, each with what was opened before it. -/
theorem cuts_of_woven {t : List Char} (h : Woven p q t)
    (before : List Char) {w z : List Char}
    (hw : LeftOver p w) (hz : Run q z) :
    ∃ ps, pattern.Cuts before (w ++ (z ++ t)) [] ps ∧ Sound p q ps := by
  induction h generalizing before w z with
  | done =>
      rw [List.append_nil]
      by_cases hne : w ++ z = []
      · rw [hne]
        exact ⟨[], .done, sound_nil⟩
      · have hsilent : pattern.Silent before (w ++ z) ([] ++ []) := by
          refine Text.Pattern.Silent.append ?_ ?_
          · intro a b hab hb
            rw [pattern_eq_none_iff]
            exact hw.read?_eq_none hab hb
          · intro a b hab hb
            rw [pattern_eq_none_iff]
            simpa using hz.free a b hab
        have hz' : Run q (z ++ []) := by rwa [List.append_nil]
        exact ⟨[.gap (w ++ z)], Text.Pattern.cuts_of_silent hne hsilent,
          sound_nil.gap (gap_of_run hw hz' (.inl rfl) hne)⟩
  | @mark c w' z' t hmark hz' hwoven ih =>
      obtain ⟨x, y, rfl, hy, hfirst⟩ := exists_first_opening z
      obtain ⟨m, hm, hread⟩ := read?_of_run hmark hz.free.right hy
      obtain ⟨ps, hcuts, hsound⟩ :=
        ih ((y ++ (c ++ ['}'])).reverse ++ ((w ++ x).reverse ++ before))
        hmark.left hz'
      have hfinds : pattern.Finds ((w ++ x).reverse ++ before) (y ++ (c ++ ['}']))
          (w' ++ (z' ++ t)) m := by
        refine pattern_finds_iff.2 ⟨by simp, ?_⟩
        have := hread (w' ++ (z' ++ t))
        simpa using this
      have hhit : pattern.Cuts ((w ++ x).reverse ++ before)
          ((y ++ (c ++ ['}'])) ++ (w' ++ (z' ++ t))) [] (.hit m (y ++ (c ++ ['}'])) :: ps) :=
        .hit (by simpa using hfinds) hcuts
      have hsilent : pattern.Silent before (w ++ x) (y ++ (c ++ '}' :: (w' ++ (z' ++ t)))) :=
        silent_of_first hw hz.free hfirst (head?_of_woven (.mark hmark hz' hwoven))
      by_cases hne : w ++ x = []
      · obtain ⟨rfl, rfl⟩ := List.append_eq_nil_iff.1 hne
        exact ⟨_, by simpa using hhit, hsound.hit hm⟩
      · refine ⟨.gap (w ++ x) :: .hit m (y ++ (c ++ ['}'])) :: ps, ?_,
          (hsound.hit hm).gap (gap_of_run hw hz hy hne)⟩
        have hgap := Text.Pattern.Cuts.gap hne (by simpa using hsilent) (by simp) hhit
        simpa using hgap

end Weaving

section Marks

variable {p : Prop}

theorem opening?_link (s : List Char) : opening? ("\x7b@link ".toList ++ s) = some ([], s) :=
  opening?_eq_some_iff.2 ⟨[], ' ', rfl, by simp, by simp, by decide⟩

theorem mark_of_target {s w : List Char} (hs : '}' ∉ s)
    (hm : member? ⟨[], Text.trimStart s⟩ = none) (hw : LeftOver p w) :
    Mark p ("\x7b@link ".toList ++ s) w := by
  refine ⟨⟨[], s, opening?_link s, hm⟩, fun h => ?_, hw⟩
  rcases List.mem_append.1 h with h | h
  · exact absurd h (by decide)
  · exact hs h

/-- A marker that is no shorthand. -/
theorem mark_of_read? {u rest : List Char} {m : Marker}
    (h : read? (u ++ rest) = some (m, rest))
    (hm : m.member? = none) : ∃ c, u = c ++ ['}'] ∧ Mark p c [] := by
  obtain ⟨a, b, c, hs, ha, htail, hb, hc, hhead, hbody⟩ := read?_eq_some_iff.1 h
  have hu : u = ('{' :: (a ++ ("@link".toList ++ (m.tail ++ b :: (c ++ m.body))))) ++
      ['}'] := by
    apply (List.append_left_inj rest).1
    rw [hs]
    simp
  have hopen : opening? ('{' :: (a ++ ("@link".toList ++ (m.tail ++ b :: (c ++ m.body))))) =
      some (m.tail, c ++ m.body) :=
    opening?_eq_some_iff.2 ⟨a, b, rfl, ha, htail, hb⟩
  have htrim : Text.trimStart (c ++ m.body) = m.body := by
    rw [Text.trimStart_append hc]
    cases hm : m.body with
    | nil => rfl
    | cons x body => exact Text.trimStart_of_not_isBlank (hhead x (by rw [hm]; rfl))
  refine ⟨_, hu, ⟨m.tail, c ++ m.body, hopen, ?_⟩, fun hmem => ?_, leftOver_nil⟩
  · rw [htrim]
    exact hm
  · have hout := not_mem_opening ha htail hb (x := '}') (by simp)
    have hcb : '}' ∉ c := fun h => absurd (hc _ h) (by decide)
    simp only [List.mem_append, List.mem_cons, List.not_mem_nil, or_false,
      not_or] at hmem hout
    rcases hmem with hmem | hmem | hmem | hmem | hmem | hmem | hmem
    · exact absurd hmem (by decide)
    · exact hout.1 hmem
    · exact hout.2.1 hmem
    · exact hout.2.2.1 hmem
    · exact hout.2.2.2 hmem
    · exact hcb hmem
    · exact hbody hmem

/-- A marker with a target and a text is no shorthand. -/
theorem mark_of_write {target s : List Char} (ht : '}' ∉ target) (hs : '}' ∉ s)
    (htne : ∃ c ∈ target, Text.isBlank c = false) (hsne : ∃ c ∈ s, Text.isBlank c = false) :
    ∃ c, write target (some s) = c ++ ['}'] ∧ Mark p c [] := by
  refine ⟨"\x7b@link ".toList ++ (target ++ ' ' :: s), ?_, mark_of_target ?_ ?_ leftOver_nil⟩
  · rw [write_some]
    simp only [List.append_assoc]
    rfl
  · simp only [List.mem_append, List.mem_cons, not_or]
    exact ⟨ht, by decide, hs⟩
  · obtain ⟨x, hx, hfree⟩ := htne
    obtain ⟨a, b, rfl⟩ := List.append_of_mem hx
    have htrim : Text.trimStart ((a ++ x :: b) ++ ' ' :: s) =
        (Text.trimStart a ++ x :: b) ++ ' ' :: s := by
      rw [List.append_assoc, List.cons_append]
      rw [trimStart_append_cons hfree, List.append_assoc]
      rfl
    obtain ⟨d, hd, hdfree⟩ := hsne
    exact member?_eq_none_of_split htrim (by simp) (by decide +kernel)
      ⟨d, List.mem_cons_of_mem _ hd, hdfree⟩

end Marks

end Marker
end DocLinks
