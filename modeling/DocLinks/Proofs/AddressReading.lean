import DocLinks.Proofs.FullAddress

/-!
# What web addresses look like

A bare domain consists of labels, and what follows its last label decides whether it ends
there.  The reader of addresses depends on hardly anything of what follows the text that it
looks at.

**Results.**
* `read?_ne_none_append`: a text that starts with an address still does when more follows.
* `read?_of_append`: what follows an address did not matter when it was read.
* `read?_spec`: the characters of an address, and what cannot follow it.
* `tail?_ne_none_of_read?`: where an address starts, a full address before it would go on.
-/

namespace DocLinks
namespace WebAddress

/-- What may follow a text so that the end of a bare domain stays one: no at sign, and no
character of a word behind a letter or digit. -/
def Edge (s rest : List Char) : Prop :=
  ∀ c t, rest = c :: t → c ≠ '@' ∧
    (Text.endsIn isLabelChar s.getLast? = true → Text.isWord c = false)

section Edges

theorem edge_nil (s : List Char) : Edge s [] := by
  intro c t h
  cases h

theorem Edge.right {a s rest : List Char} (h : Edge (a ++ s) rest) : Edge s rest := by
  intro c t hrest
  refine ⟨(h c t hrest).1, fun hlast => (h c t hrest).2 ?_⟩
  cases s with
  | nil => simp [Text.endsIn] at hlast
  | cons d s =>
      rw [List.getLast?_append]
      rw [List.getLast?_cons] at hlast ⊢
      exact hlast

theorem endsIn_getLast? {p : Char → Bool} {l : List Char} (hne : l ≠ [])
    (hl : ∀ c ∈ l, p c = true) : Text.endsIn p l.getLast? = true := by
  rw [List.getLast?_eq_some_getLast hne]
  exact hl _ (List.getLast_mem hne)

theorem Edge.not_isLabelChar {l rest : List Char} (h : Edge l rest) (hne : l ≠ [])
    (hl : ∀ c ∈ l, isLabelChar c = true) : Text.endsIn isLabelChar rest.head? = false := by
  cases rest with
  | nil => rfl
  | cons c t =>
      have hword := (h c t rfl).2 (endsIn_getLast? hne hl)
      cases hc : isLabelChar c with
      | false => exact hc
      | true =>
          rw [isWord_of_isLabelChar hc] at hword
          exact absurd hword (by simp)

end Edges

section DomainEnds

theorem domainEnd?_slash (t : List Char) :
    domainEnd? ('/' :: t) = some (if t.head? = some '@' then '/' :: t else t) := by
  cases t with
  | nil => rfl
  | cons d t =>
      by_cases hd : d = '@'
      · subst hd
        rfl
      · rw [domainEnd?]
        · simp [hd]
        · intro rest h
          exact hd (List.cons.inj h).1

theorem domainEnd?_cons {c : Char} (hc : c ≠ '/') (t : List Char) :
    domainEnd? (c :: t) = if c = '@' ∨ Text.isWord c = true then none
      else some (c :: t) := by
  by_cases hat : c = '@'
  · subst hat
    rfl
  · rw [domainEnd?]
    · simp [hat]
    · exact fun h => hat h
    · exact fun rest h => absurd h hc
    · exact fun h => hc h

/-- The end of a bare domain takes at most a slash, and without one it leaves no word. -/
theorem domainEnd?_spec {s rest : List Char} (h : domainEnd? s = some rest) :
    s = '/' :: rest ∨ s = rest ∧ Text.endsIn Text.isWord rest.head? = false := by
  cases s with
  | nil =>
      obtain rfl := Option.some.inj h
      exact .inr ⟨rfl, rfl⟩
  | cons c t =>
      by_cases hc : c = '/'
      · subst hc
        rw [domainEnd?_slash] at h
        obtain rfl := Option.some.inj h
        split
        · refine .inr ⟨rfl, ?_⟩
          have hslash : Text.isWord '/' = false := by decide +kernel
          exact hslash
        · exact .inl rfl
      · rw [domainEnd?_cons hc] at h
        split at h
        · simp at h
        · rename_i hword
          obtain rfl := Option.some.inj h
          exact .inr ⟨rfl, by simpa [Text.endsIn] using (not_or.1 hword).2⟩

theorem length_domainEnd? {s rest : List Char} (h : domainEnd? s = some rest) :
    rest.length ≤ s.length := by
  rcases domainEnd?_spec h with rfl | ⟨rfl, -⟩
  · simp
  · exact Nat.le_refl _

variable {l s q rest : List Char}

/-- Where the end of a bare domain shows, what follows does not matter. -/
theorem domainEnd?_cons_append {c : Char} (hedge : Edge (c :: s) q) :
    domainEnd? (c :: s ++ q) = (domainEnd? (c :: s)).map (· ++ q) := by
  rw [List.cons_append]
  by_cases hc : c = '/'
  · subst hc
    rw [domainEnd?_slash, domainEnd?_slash]
    cases s with
    | nil =>
        have hat : q.head? ≠ some '@' := by
          cases q with
          | nil => simp
          | cons d q => simpa using (hedge d q rfl).1
        rw [List.nil_append, if_neg hat]
        rfl
    | cons d s =>
        rw [List.cons_append, List.head?_cons, List.head?_cons]
        split <;> rfl
  · rw [domainEnd?_cons hc, domainEnd?_cons hc]
    split <;> rfl

theorem domainEnd?_append (hne : l ≠ []) (hl : ∀ c ∈ l, isLabelChar c = true)
    (hedge : Edge (l ++ s) q) (h : domainEnd? s ≠ none) : domainEnd? (s ++ q) ≠ none := by
  cases s with
  | nil =>
      rw [List.append_nil] at hedge
      cases q with
      | nil => simp [domainEnd?]
      | cons c t =>
          obtain ⟨hat, hword⟩ := hedge c t rfl
          have hword := hword (endsIn_getLast? hne hl)
          by_cases hc : c = '/'
          · subst hc
            simp [domainEnd?_slash]
          · simp [domainEnd?_cons hc, hat, hword]
  | cons c t =>
      rw [domainEnd?_cons_append hedge.right]
      simpa using h

theorem domainEnd?_of_append (hedge : Edge s q)
    (h : domainEnd? (s ++ q) = some (rest ++ q)) :
    domainEnd? s = some rest := by
  cases s with
  | nil =>
      have hlen := length_domainEnd? h
      rw [List.nil_append, List.length_append] at hlen
      obtain rfl := List.eq_nil_of_length_eq_zero (l := rest) (by omega)
      rfl
  | cons c t =>
      rw [domainEnd?_cons_append hedge] at h
      obtain ⟨x, hx, heq⟩ := Option.map_eq_some_iff.1 h
      rw [hx, List.append_cancel_right heq]

end DomainEnds

section Labels

theorem moreLabels?_cons (c : Char) (t : List Char) :
    moreLabels? (c :: t) =
      if (c = '.' ∨ c = '-') ∧ t.takeWhile isLabelChar ≠ [] then
        (moreLabels? (t.dropWhile isLabelChar)).or
          (if c = '.' ∧ isTopLevel TopLevel.all (t.takeWhile isLabelChar) = true then
            domainEnd? (t.dropWhile isLabelChar) else none)
      else none := by
  rw [moreLabels?.eq_def]
  by_cases hc : c = '.' ∨ c = '-'
  · by_cases hlabel : t.takeWhile isLabelChar = []
    · simp [hc, hlabel]
    · simp only [Bool.or_eq_true, decide_eq_true_eq, hc, if_true, List.isEmpty_iff, hlabel,
        if_false, ne_eq, not_false_eq_true, and_self, Bool.and_eq_true]
      cases moreLabels? (t.dropWhile isLabelChar) <;> rfl
  · simp [hc]

theorem moreLabels?_nil : moreLabels? [] = none := by
  rw [moreLabels?.eq_def]

theorem takeWhile_isLabelChar_append {s q : List Char} (hne : s.takeWhile isLabelChar ≠ [])
    (hedge : Edge s q) :
    (s ++ q).takeWhile isLabelChar = s.takeWhile isLabelChar ∧
      (s ++ q).dropWhile isLabelChar = s.dropWhile isLabelChar ++ q := by
  have hlabel : ∀ c ∈ s.takeWhile isLabelChar, isLabelChar c = true :=
    fun c hc => Text.mem_takeWhile hc
  have hend : Text.endsIn isLabelChar (s.dropWhile isLabelChar ++ q).head? = false := by
    cases hs : s.dropWhile isLabelChar with
    | nil =>
        have hall : s.takeWhile isLabelChar = s := by
          have := List.takeWhile_append_dropWhile (p := isLabelChar) (l := s)
          rwa [hs, List.append_nil] at this
        rw [hall] at hne hlabel
        exact hedge.not_isLabelChar hne hlabel
    | cons c t =>
        have := Text.endsIn_dropWhile isLabelChar s
        rwa [hs] at this
  have hrun := Text.run_of_endsIn hlabel hend
  rwa [← List.append_assoc, List.takeWhile_append_dropWhile] at hrun

/-- Behind a label there are more labels, and what they end in is a slash or the end of a
word. -/
theorem moreLabels?_spec {s rest : List Char} (h : moreLabels? s = some rest) :
    ∃ d v, s = d :: (v ++ rest) ∧ (d = '.' ∨ d = '-') ∧ v ≠ [] ∧
      (∀ c ∈ v, isHostChar c = true ∨ c = '/') ∧
      (v.getLast? = some '/' ∨ Text.endsIn Text.isWord rest.head? = false) := by
  generalize hn : s.length = n
  induction n using Nat.strongRecOn generalizing s with
  | ind n ih =>
      cases s with
      | nil => simp [moreLabels?_nil] at h
      | cons d t =>
          have hdrop := length_dropWhile_le isLabelChar t
          have hsplit := List.takeWhile_append_dropWhile (p := isLabelChar) (l := t)
          have hhost : ∀ c ∈ t.takeWhile isLabelChar, isHostChar c = true ∨ c = '/' := by
            intro c hc
            simp [isHostChar, Text.mem_takeWhile hc]
          rw [moreLabels?_cons] at h
          split at h
          · rename_i hlabel
            rcases Option.or_eq_some_iff.1 h with h | ⟨-, h⟩
            · obtain ⟨d', v, ht, hd', hne, hv, hend⟩ :=
                ih _ (by rw [← hn, List.length_cons]; omega) h rfl
              rw [ht] at hsplit
              refine ⟨d, t.takeWhile isLabelChar ++ d' :: v, by simp [hsplit], hlabel.1,
                by simp, fun c hc => ?_, ?_⟩
              · rcases List.mem_append.1 hc with hc | hc
                · exact hhost c hc
                · rcases List.mem_cons.1 hc with rfl | hc
                  · rcases hd' with rfl | rfl <;> exact .inl rfl
                  · exact hv c hc
              · obtain ⟨c, w, rfl⟩ := List.exists_cons_of_ne_nil hne
                rw [List.getLast?_append, List.getLast?_cons_cons]
                rw [List.getLast?_cons] at hend ⊢
                exact hend
            · split at h
              · rcases domainEnd?_spec h with hslash | ⟨hrest, hword⟩
                · rw [hslash] at hsplit
                  refine ⟨d, t.takeWhile isLabelChar ++ ['/'], by simp [hsplit], hlabel.1,
                    by simp, fun c hc => ?_, .inl (by simp)⟩
                  rcases List.mem_append.1 hc with hc | hc
                  · exact hhost c hc
                  · exact .inr (List.mem_singleton.1 hc)
                · rw [hrest] at hsplit
                  exact ⟨d, t.takeWhile isLabelChar, by rw [hsplit], hlabel.1, hlabel.2,
                    hhost, .inr hword⟩
              · simp at h
          · simp at h

theorem length_moreLabels? {s rest : List Char} (h : moreLabels? s = some rest) :
    rest.length + 2 ≤ s.length := by
  obtain ⟨d, v, rfl, -, hne, -⟩ := moreLabels?_spec h
  have hpos := List.length_pos_iff.2 hne
  rw [List.length_cons, List.length_append]
  omega

theorem moreLabels?_append {s q : List Char} (hedge : Edge s q) (h : moreLabels? s ≠ none) :
    moreLabels? (s ++ q) ≠ none := by
  generalize hn : s.length = n
  induction n using Nat.strongRecOn generalizing s with
  | ind n ih =>
      cases s with
      | nil => exact absurd moreLabels?_nil h
      | cons c t =>
          rw [moreLabels?_cons] at h
          split at h
          · rename_i hlabel
            have hright : Edge t q := hedge.right (a := [c])
            have hsplit : Edge (t.takeWhile isLabelChar ++ t.dropWhile isLabelChar) q := by
              rwa [List.takeWhile_append_dropWhile]
            obtain ⟨htake, hdrop⟩ := takeWhile_isLabelChar_append hlabel.2 hright
            have hlen := length_dropWhile_le isLabelChar t
            rw [List.cons_append, moreLabels?_cons, htake]
            rw [hdrop, if_pos hlabel]
            intro hnone
            obtain ⟨hmore, hend⟩ := Option.or_eq_none_iff.1 hnone
            refine h (Option.or_eq_none_iff.2 ⟨?_, ?_⟩)
            · refine Classical.byContradiction fun hne => ?_
              exact ih _ (by rw [← hn, List.length_cons]; omega) hsplit.right hne rfl hmore
            · split at hend
              · rename_i htop
                rw [if_pos htop]
                refine Classical.byContradiction fun hne => ?_
                exact domainEnd?_append hlabel.2
                  (fun c hc => Text.mem_takeWhile hc) hsplit hne hend
              · rename_i htop
                rw [if_neg htop]
          · exact absurd rfl h

theorem moreLabels?_of_append {s q rest : List Char} (hedge : Edge s q)
    (h : moreLabels? (s ++ q) = some (rest ++ q)) : moreLabels? s = some rest := by
  generalize hn : s.length = n
  induction n using Nat.strongRecOn generalizing s with
  | ind n ih =>
      cases s with
      | nil =>
          have hlen := length_moreLabels? h
          rw [List.nil_append, List.length_append] at hlen
          omega
      | cons c t =>
          have hright : Edge t q := hedge.right (a := [c])
          have hlong := length_moreLabels? h
          rw [List.cons_append, moreLabels?_cons] at h
          split at h
          · rename_i hlabel
            have hne : t.takeWhile isLabelChar ≠ [] := by
              cases t with
              | nil =>
                  simp only [List.length_append, List.length_cons, List.length_nil] at hlong
                  omega
              | cons d t =>
                  intro hnil
                  have hd : isLabelChar d ≠ true := by
                    intro hd
                    simp [hd] at hnil
                  exact hlabel.2 (List.takeWhile_cons_of_neg hd)
            have hsplit : Edge (t.takeWhile isLabelChar ++ t.dropWhile isLabelChar) q := by
              rwa [List.takeWhile_append_dropWhile]
            obtain ⟨htake, hdrop⟩ := takeWhile_isLabelChar_append hne hright
            have hlen := length_dropWhile_le isLabelChar t
            rw [htake, hdrop] at h
            rw [moreLabels?_cons, if_pos ⟨hlabel.1, hne⟩]
            refine or_of_append
              (fun h => ih _ (by rw [← hn, List.length_cons]; omega) hsplit.right h rfl)
              (fun hnone => Classical.byContradiction fun hmore =>
                moreLabels?_append hsplit.right hmore hnone) (fun hend => ?_) h
            split at hend
            · rename_i htop
              rw [if_pos htop]
              exact domainEnd?_of_append hsplit.right hend
            · simp at hend
          · simp at h

end Labels

section Domains

theorem domain?_eq_some_iff {s rest : List Char} :
    domain? s = some rest ↔
      s.takeWhile isLabelChar ≠ [] ∧ moreLabels? (s.dropWhile isLabelChar) = some rest := by
  simp [domain?]

/-- A bare domain starts with a label, and a separator follows. -/
theorem domain?_spec {s rest : List Char} (h : domain? s = some rest) :
    ∃ p d v, s = p ++ d :: (v ++ rest) ∧ p ≠ [] ∧ (∀ c ∈ p, isLabelChar c = true) ∧
      (d = '.' ∨ d = '-') ∧ v ≠ [] ∧ (∀ c ∈ v, isHostChar c = true ∨ c = '/') ∧
      (v.getLast? = some '/' ∨ Text.endsIn Text.isWord rest.head? = false) := by
  obtain ⟨hne, hmore⟩ := domain?_eq_some_iff.1 h
  obtain ⟨d, v, hs, hspec⟩ := moreLabels?_spec hmore
  refine ⟨s.takeWhile isLabelChar, d, v, ?_, hne, fun c hc => Text.mem_takeWhile hc, hspec⟩
  rw [← hs, List.takeWhile_append_dropWhile]

theorem edge_dropWhile {s q : List Char} (hedge : Edge s q) :
    Edge (s.dropWhile isLabelChar) q := by
  rw [← List.takeWhile_append_dropWhile (p := isLabelChar) (l := s)] at hedge
  exact hedge.right

theorem domain?_append {s q : List Char} (hedge : Edge s q) (h : domain? s ≠ none) :
    domain? (s ++ q) ≠ none := by
  obtain ⟨rest, hrest⟩ := Option.ne_none_iff_exists'.1 h
  obtain ⟨hne, hmore⟩ := domain?_eq_some_iff.1 hrest
  obtain ⟨htake, hdrop⟩ := takeWhile_isLabelChar_append hne hedge
  obtain ⟨rest', hrest'⟩ := Option.ne_none_iff_exists'.1
    (moreLabels?_append (edge_dropWhile hedge) (by simp [hmore]))
  have hlong : domain? (s ++ q) = some rest' :=
    domain?_eq_some_iff.2 ⟨by rwa [htake], by rwa [hdrop]⟩
  simp [hlong]

theorem domain?_of_append {s q rest : List Char} (hedge : Edge s q)
    (h : domain? (s ++ q) = some (rest ++ q)) : domain? s = some rest := by
  obtain ⟨hne, hmore⟩ := domain?_eq_some_iff.1 h
  have hshort : s.takeWhile isLabelChar ≠ [] := by
    cases s with
    | nil =>
        have hlen := length_moreLabels? hmore
        have hdrop := length_dropWhile_le isLabelChar q
        rw [List.nil_append, List.length_append] at hlen
        omega
    | cons c s =>
        intro hnil
        have hc : isLabelChar c ≠ true := by
          intro hc
          simp [hc] at hnil
        exact hne (List.takeWhile_cons_of_neg hc)
  obtain ⟨-, hdrop⟩ := takeWhile_isLabelChar_append hshort hedge
  rw [hdrop] at hmore
  exact domain?_eq_some_iff.2 ⟨hshort, moreLabels?_of_append (edge_dropWhile hedge) hmore⟩

end Domains

section Addresses

variable {s q rest : List Char} {shape : Shape}

theorem read?_eq_some_iff :
    read? s = some (shape, rest) ↔
      full? s = some rest ∧ shape = .full ∨
        full? s = none ∧ domain? s = some rest ∧ shape = .domain := by
  unfold read?
  cases hfull : full? s with
  | none =>
      simp only [Option.map_eq_some_iff, Prod.mk.injEq]
      constructor
      · rintro ⟨x, hx, rfl, rfl⟩
        exact .inr ⟨trivial, hx, rfl⟩
      · rintro (⟨h, -⟩ | ⟨-, h, rfl⟩)
        · simp at h
        · exact ⟨rest, h, rfl, rfl⟩
  | some x =>
      simp only [Option.some.injEq, Prod.mk.injEq]
      constructor
      · rintro ⟨rfl, rfl⟩
        exact .inl ⟨rfl, rfl⟩
      · rintro (⟨rfl, rfl⟩ | ⟨h, -⟩)
        · exact ⟨rfl, rfl⟩
        · simp at h

theorem read?_eq_none_iff : read? s = none ↔ full? s = none ∧ domain? s = none := by
  unfold read?
  cases full? s <;> simp

/-- A text that starts with an address still does when more follows. -/
theorem read?_ne_none_append (hedge : Edge s q) (h : read? s ≠ none) :
    read? (s ++ q) ≠ none := by
  intro hnone
  obtain ⟨hfull, hdomain⟩ := read?_eq_none_iff.1 hnone
  refine h (read?_eq_none_iff.2 ⟨full?_eq_none_of_append hfull, ?_⟩)
  exact Classical.byContradiction fun hne => domain?_append hedge hne hdomain

/-- What follows an address did not matter when it was read. -/
theorem read?_of_append (hedge : Edge s q) (h : read? (s ++ q) = some (shape, rest ++ q)) :
    read? s = some (shape, rest) := by
  rcases read?_eq_some_iff.1 h with ⟨hfull, rfl⟩ | ⟨hnone, hdomain, rfl⟩
  · exact read?_eq_some_iff.2 (.inl ⟨full?_of_append hfull, rfl⟩)
  · exact read?_eq_some_iff.2
      (.inr ⟨full?_eq_none_of_append hnone, domain?_of_append hedge hdomain, rfl⟩)

/-- An address starts with the characters of a domain name, one of them a letter or digit,
and a separator follows them. -/
structure Form (u p : List Char) (d : Char) (v : List Char) : Prop where
  eq : u = p ++ d :: v
  host : ∀ c ∈ p, isHostChar c = true
  label : ∃ c ∈ p, isLabelChar c = true
  separator : d ∈ [':', '/', '.', '-']
  tight : Tight u

/-- What cannot follow an address: what would belong to it. -/
def Final (u rest : List Char) : Prop :=
  tail? true rest = none ∨
    (∀ c ∈ u, isHostChar c = true ∨ c = '/') ∧
      (u.getLast? = some '/' ∨ Text.endsIn Text.isWord rest.head? = false)

theorem read?_spec (h : read? s = some (shape, rest)) :
    ∃ u p d v, s = u ++ rest ∧ Form u p d v ∧ Final u rest := by
  rcases read?_eq_some_iff.1 h with ⟨hfull, -⟩ | ⟨-, hdomain, -⟩
  · obtain ⟨p, d, v, rfl, hhost, hlabel, hd, hv, hrest⟩ := full?_spec hfull
    refine ⟨p ++ d :: v, p, d, v, by simp, ⟨rfl, hhost, hlabel, ?_, ?_⟩, .inl hrest⟩
    · rcases hd with rfl | rfl <;> simp
    · have hd : Tight [d] := by
        rcases hd with rfl | rfl <;> exact tight_of_isInner (by decide)
      exact (tight_of_forall_isInner fun c hc => isInner_of_isHostChar (hhost c hc)).append
        (hd.append hv)
  · obtain ⟨p, d, v, rfl, hne, hp, hd, hvne, hv, hrest⟩ := domain?_spec hdomain
    have hhost : ∀ c ∈ p, isHostChar c = true := fun c hc => by simp [isHostChar, hp c hc]
    have hchars : ∀ c ∈ p ++ d :: v, isHostChar c = true ∨ c = '/' := by
      intro c hc
      rcases List.mem_append.1 hc with hc | hc
      · exact .inl (hhost c hc)
      · rcases List.mem_cons.1 hc with rfl | hc
        · rcases hd with rfl | rfl <;> exact .inl rfl
        · exact hv c hc
    have hlast : (p ++ d :: v).getLast? = v.getLast? := by
      obtain ⟨c, w, rfl⟩ := List.exists_cons_of_ne_nil hvne
      rw [List.getLast?_append, List.getLast?_cons_cons, List.getLast?_cons]
      rfl
    refine ⟨p ++ d :: v, p, d, v, by simp, ⟨rfl, hhost, ?_, ?_, ?_⟩, .inr ⟨hchars, ?_⟩⟩
    · obtain ⟨c, p, rfl⟩ := List.exists_cons_of_ne_nil hne
      exact ⟨c, by simp, hp c (by simp)⟩
    · rcases hd with rfl | rfl <;> simp
    · refine tight_of_forall_isInner fun c hc => ?_
      rcases hchars c hc with hc | rfl
      · exact isInner_of_isHostChar hc
      · decide
    · rw [hlast]
      exact hrest

/-- Where an address starts, a full address that has begun goes on as well. -/
theorem tail?_ne_none_of_read? (h : read? s ≠ none) : tail? true s ≠ none := by
  obtain ⟨⟨shape, rest⟩, hread⟩ := Option.ne_none_iff_exists'.1 h
  obtain ⟨u, p, d, v, rfl, ⟨rfl, hhost, ⟨c, hc, hlabel⟩, -, -⟩, -⟩ := read?_spec hread
  obtain ⟨a, b, rfl⟩ := List.append_of_mem hc
  have ha : ∀ x ∈ a, isInner x = true :=
    fun x hx => isInner_of_isHostChar (hhost x (List.mem_append_left _ hx))
  have hgoes : ∀ t, Goes true (a ++ c :: t) t := by
    intro t
    clear hhost hc hread h
    induction a with
    | nil => exact .last (isInner_of_isLabelChar hlabel) (isLast_of_isLabelChar hlabel)
    | cons x a ih =>
        exact .inner (ha x (by simp)) (ih fun y hy => ha y (List.mem_cons_of_mem _ hy))
  have := tail?_ne_none (hgoes (b ++ d :: (v ++ rest)))
  simpa using this

theorem isHostChar_of_read? (h : read? s ≠ none) :
    ∃ c t, s = c :: t ∧ isHostChar c = true := by
  obtain ⟨⟨shape, rest⟩, hread⟩ := Option.ne_none_iff_exists'.1 h
  obtain ⟨u, p, d, v, rfl, ⟨rfl, hhost, ⟨c, hc, -⟩, -, -⟩, -⟩ := read?_spec hread
  cases p with
  | nil => simp at hc
  | cons x p => exact ⟨x, _, rfl, hhost x (by simp)⟩

end Addresses

end WebAddress
end DocLinks
