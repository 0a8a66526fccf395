import DocLinks.Proofs.AddressTail
import DocLinks.Proofs.CharacterRuns

/-!
# Full addresses

A full address starts with a scheme and a colon, or with a domain name and a slash, and has a
tail.

**Results.**
* `afterScheme?_eq_some_iff`, `afterHost?_eq_some_iff`: what stands before the tail.
* `full?_ne_none_append`, `full?_of_append`: what follows a full address did not matter.
* `full?_spec`: the characters of a full address, and where it ends.
-/

namespace DocLinks
namespace WebAddress

section Characters

/-- The letters and digits of domain names are those of ASCII and the two letters that count
as such. -/
theorem cases_of_isLabelChar {c : Char} (h : isLabelChar c = true) :
    c.isAlphanum = true ∨ c = '\u017f' ∨ c = '\u212a' := by
  simp only [isLabelChar, foldCase] at h
  split at h
  · rename_i hupper
    exact .inl (Text.isAlphanum_iff.2 (.inl (.inl (by simpa using hupper))))
  · split at h
    · rename_i hs
      exact .inr (.inl (by simpa using hs))
    · split at h
      · rename_i hk
        exact .inr (.inr (by simpa using hk))
      · simp only [Bool.or_eq_true, Bool.and_eq_true, decide_eq_true_eq] at h
        exact .inl (Text.isAlphanum_iff.2 (h.imp_left .inr))

theorem isWord_of_isLabelChar {c : Char} (h : isLabelChar c = true) :
    Text.isWord c = true := by
  rcases cases_of_isLabelChar h with h | rfl | rfl
  · exact Text.isWord_of_isAsciiWord (by simp [Text.isAsciiWord, h])
  · decide +kernel
  · decide +kernel

theorem isBlank_of_isLabelChar {c : Char} (h : isLabelChar c = true) :
    Text.isBlank c = false := by
  cases hblank : Text.isBlank c with
  | false => rfl
  | true =>
      have hword := Text.isWord_of_isBlank hblank
      rw [isWord_of_isLabelChar h] at hword
      exact absurd hword (by simp)

/-- No character of the given ones is a letter or digit of a domain name. -/
theorem not_mem_of_isLabelChar {c : Char} (h : isLabelChar c = true) {l : List Char}
    (hl : l.any isLabelChar = false) : c ∉ l := by
  intro hc
  have hany : l.any isLabelChar = true := List.any_eq_true.2 ⟨c, hc, h⟩
  rw [hl] at hany
  exact absurd hany (by simp)

theorem isInner_of_isLabelChar {c : Char} (h : isLabelChar c = true) : isInner c = true := by
  have hout :=
    not_mem_of_isLabelChar h (l := ['(', ')', '<', '>', '{', '}', '[', ']']) (by decide)
  simp only [isInner, isBlank_of_isLabelChar h, Bool.false_or, Bool.not_eq_true']
  simpa using hout

theorem isLast_of_isLabelChar {c : Char} (h : isLabelChar c = true) : isLast c = true := by
  have hout := not_mem_of_isLabelChar h (l := endPunctuation) (by decide)
  simp only [isLast, isBlank_of_isLabelChar h, Bool.not_false, Bool.true_and,
    Bool.not_eq_true']
  simpa using hout

theorem isInner_of_isHostChar {c : Char} (h : isHostChar c = true) : isInner c = true := by
  simp only [isHostChar, Bool.or_eq_true, beq_iff_eq] at h
  rcases h with (h | rfl) | rfl
  · exact isInner_of_isLabelChar h
  · decide
  · decide

theorem tight_of_forall_isInner {u : List Char}
    (h : ∀ c ∈ u, isInner c = true) : Tight u := by
  induction u with
  | nil => exact ⟨by simp, by simp⟩
  | cons c u ih =>
      exact (tight_of_isInner (h c (by simp))).append
        (ih fun d hd => h d (List.mem_cons_of_mem _ hd))

end Characters

section Schemes

theorem isLabelChar_of_mem_scheme {p : List Char}
    (hp : p.map foldCase = "http".toList ∨ p.map foldCase = "https".toList) {c : Char}
    (hc : c ∈ p) : isLabelChar c = true := by
  have hfold : foldCase c ∈ "https".toList := by
    have hmem : foldCase c ∈ p.map foldCase := List.mem_map.2 ⟨c, hc, rfl⟩
    have hlong : "https".toList = "http".toList ++ ['s'] := by decide
    rcases hp with hp | hp
    · rw [hlong, ← hp]
      exact List.mem_append_left _ hmem
    · rwa [hp] at hmem
  have hletters : ("https".toList.all fun d => 'a' ≤ d && d ≤ 'z') = true := by decide
  simp only [isLabelChar, List.all_eq_true.1 hletters _ hfold, Bool.true_or]

theorem afterScheme?_eq_some_iff {s rest : List Char} :
    afterScheme? s = some rest ↔
      ∃ p, s = p ++ ':' :: rest ∧
        (p.map foldCase = "http".toList ∨ p.map foldCase = "https".toList) := by
  constructor
  · intro h
    unfold afterScheme? at h
    split at h
    · rename_i a b c d s
      split at h
      · rename_i hname
        split at h
        · obtain rfl := Option.some.inj h
          exact ⟨[a, b, c, d], rfl, .inl hname⟩
        · rename_i e s _
          split at h
          · rename_i he
            obtain rfl := Option.some.inj h
            refine ⟨[a, b, c, d, e], rfl, .inr ?_⟩
            have : ([a, b, c, d] ++ [e]).map foldCase = "http".toList ++ ['s'] := by
              rw [List.map_append, hname]
              simp [he]
            exact this
          · simp at h
        · simp at h
      · simp at h
    · simp at h
  · rintro ⟨p, rfl, hp⟩
    rcases p with _ | ⟨a, _ | ⟨b, _ | ⟨c, _ | ⟨d, _ | ⟨e, _ | ⟨f, p⟩⟩⟩⟩⟩⟩ <;>
      simp [afterScheme?] at hp ⊢
    · exact hp
    · obtain ⟨ha, hb, hc, hd, he⟩ := hp
      have hcolon : e ≠ ':' := by
        rintro rfl
        exact absurd he (by decide)
      simp [ha, hb, hc, hd, he]

theorem afterScheme?_append {s rest : List Char} (q : List Char)
    (h : afterScheme? s = some rest) :
    afterScheme? (s ++ q) = some (rest ++ q) := by
  obtain ⟨p, rfl, hp⟩ := afterScheme?_eq_some_iff.1 h
  exact afterScheme?_eq_some_iff.2 ⟨p, by simp, hp⟩

theorem afterScheme?_of_append {s q x : List Char} (h : afterScheme? (s ++ q) = some x)
    (hlen : q.length ≤ x.length) : ∃ y, x = y ++ q ∧ afterScheme? s = some y := by
  obtain ⟨p, hs, hp⟩ := afterScheme?_eq_some_iff.1 h
  have hsplit : s ++ q = (p ++ [':']) ++ x := by
    rw [hs]
    simp
  obtain ⟨y, rfl, rfl⟩ := Text.exists_of_append_eq_append hsplit hlen
  exact ⟨y, rfl, afterScheme?_eq_some_iff.2 ⟨p, by simp, hp⟩⟩

/-- The texts that are left when up to `n` slashes are taken, shortest first. -/
def slashStarts : (n : Nat) → List Char → List (List Char)
  | 0, s => [s]
  | n + 1, '/' :: s => slashStarts n s ++ ['/' :: s]
  | _ + 1, s => [s]

/-- The texts behind the colon of a scheme from which a full address may go on, in the order
in which they are tried. -/
def colonStarts : List Char → List (List Char)
  | '/' :: s => slashStarts 2 s
  | c :: s => if isLabelChar c || c == '%' then [s] else []
  | [] => []

theorem slashStarts_of_ne {c : Char} (hc : c ≠ '/') (n : Nat) (s : List Char) :
    slashStarts n (c :: s) = [c :: s] := by
  cases n with
  | zero => rfl
  | succ n =>
      rw [slashStarts]
      intro t h
      exact hc (List.cons.inj h).1

theorem slashStarts_nil (n : Nat) : slashStarts n [] = [[]] := by
  cases n <;> rfl

theorem findSome?_tail?_single (x : List Char) :
    [x].findSome? (tail? false) = tail? false x := by
  simp only [List.findSome?_cons, List.findSome?_nil]
  cases tail? false x <;> rfl

theorem findSome?_tail?_pair (x y : List Char) :
    [x, y].findSome? (tail? false) = (tail? false x).or (tail? false y) := by
  simp only [List.findSome?_cons, List.findSome?_nil]
  cases tail? false x <;> cases tail? false y <;> rfl

theorem afterColon?_eq_findSome? (s : List Char) :
    afterColon? s = (colonStarts s).findSome? (tail? false) := by
  cases s with
  | nil => rfl
  | cons c s =>
      by_cases hc : c = '/'
      · subst hc
        cases s with
        | nil => exact (findSome?_tail?_single []).symm
        | cons d s =>
            by_cases hd : d = '/'
            · subst hd
              cases s with
              | nil => exact (findSome?_tail?_pair [] ['/']).symm
              | cons e s =>
                  by_cases he : e = '/'
                  · subst he
                    have hthree : colonStarts ('/' :: '/' :: '/' :: s) =
                        [s, '/' :: s] ++ ['/' :: '/' :: s] := rfl
                    rw [hthree, List.findSome?_append]
                    rw [findSome?_tail?_pair, findSome?_tail?_single]
                    rfl
                  · have htwo : colonStarts ('/' :: '/' :: e :: s) =
                        [e :: s, '/' :: e :: s] := by
                      rw [colonStarts, slashStarts, slashStarts_of_ne he]
                      rfl
                    rw [htwo, findSome?_tail?_pair, afterColon?]
                    intro t h
                    exact he (List.cons.inj h).1
            · have hstart : colonStarts ('/' :: d :: s) = [d :: s] := by
                rw [colonStarts, slashStarts_of_ne hd]
              rw [hstart, findSome?_tail?_single, afterColon?]
              · intro t h
                exact hd (List.cons.inj h).1
              · intro t h
                exact hd (List.cons.inj h).1
      · have hstart : colonStarts (c :: s) = if isLabelChar c ||
            c == '%' then [s] else [] := by
          rw [colonStarts]
          exact fun h => hc h
        rw [hstart, afterColon?]
        · split
          · rw [findSome?_tail?_single]
          · rfl
        · exact fun t h => absurd h hc
        · exact fun t h => absurd h hc
        · exact fun h => hc h

/-- Only slashes are taken. -/
theorem exists_of_mem_slashStarts {n : Nat} {s x : List Char} (h : x ∈ slashStarts n s) :
    ∃ u, s = u ++ x ∧ ∀ c ∈ u, c = '/' := by
  induction n generalizing s with
  | zero =>
      obtain rfl := List.mem_singleton.1 h
      exact ⟨[], rfl, by simp⟩
  | succ n ih =>
      cases s with
      | nil =>
          rw [slashStarts_nil] at h
          obtain rfl := List.mem_singleton.1 h
          exact ⟨[], rfl, by simp⟩
      | cons c s =>
          by_cases hc : c = '/'
          · subst hc
            rcases List.mem_append.1 h with h | h
            · obtain ⟨u, rfl, hu⟩ := ih h
              exact ⟨'/' :: u, rfl, by simpa using hu⟩
            · obtain rfl := List.mem_singleton.1 h
              exact ⟨[], rfl, by simp⟩
          · rw [slashStarts_of_ne hc] at h
            obtain rfl := List.mem_singleton.1 h
            exact ⟨[], rfl, by simp⟩

/-- Before the start of the rest stand slashes, or a single letter, digit or percent sign. -/
theorem exists_of_mem_colonStarts {s x : List Char} (h : x ∈ colonStarts s) :
    ∃ u, u ≠ [] ∧ s = u ++ x ∧
      ∀ c ∈ u, c = '/' ∨ isLabelChar c = true ∨ c = '%' := by
  cases s with
  | nil => simp [colonStarts] at h
  | cons c s =>
      by_cases hc : c = '/'
      · subst hc
        obtain ⟨u, rfl, hu⟩ := exists_of_mem_slashStarts h
        refine ⟨'/' :: u, by simp, rfl, fun c hmem => .inl ?_⟩
        rcases List.mem_cons.1 hmem with rfl | hmem
        · rfl
        · exact hu c hmem
      · rw [colonStarts] at h
        · split at h
          · rename_i hstart
            obtain rfl := List.mem_singleton.1 h
            refine ⟨[c], by simp, rfl, fun d hd => .inr ?_⟩
            obtain rfl := List.mem_singleton.1 hd
            simpa using hstart
          · simp at h
        · exact fun h => hc h

theorem slashStarts_append (n : Nat) (s q : List Char) :
    ∃ extra, (∀ x ∈ extra, x.length < q.length) ∧
      slashStarts n (s ++ q) = extra ++ (slashStarts n s).map (· ++ q) := by
  induction n generalizing s with
  | zero => exact ⟨[], by simp, rfl⟩
  | succ n ih =>
      cases s with
      | nil =>
          cases q with
          | nil => exact ⟨[], by simp, rfl⟩
          | cons c q =>
              by_cases hc : c = '/'
              · subst hc
                refine ⟨slashStarts n q, fun x hx => ?_, rfl⟩
                obtain ⟨u, rfl, -⟩ := exists_of_mem_slashStarts hx
                rw [List.length_cons, List.length_append]
                omega
              · exact ⟨[], by simp, by rw [List.nil_append, slashStarts_of_ne hc]; rfl⟩
      | cons c s =>
          by_cases hc : c = '/'
          · subst hc
            obtain ⟨extra, hextra, hstarts⟩ := ih s
            refine ⟨extra, hextra, ?_⟩
            rw [List.cons_append, slashStarts, hstarts]
            rw [slashStarts, List.map_append, List.append_assoc]
            rfl
          · rw [List.cons_append, slashStarts_of_ne hc, slashStarts_of_ne hc]
            exact ⟨[], by simp, rfl⟩

/-- More text gives more starts; they lie in what was added, and they are tried first. -/
theorem colonStarts_append (s q : List Char) :
    ∃ extra, (∀ x ∈ extra, x.length < q.length) ∧
      colonStarts (s ++ q) = extra ++ (colonStarts s).map (· ++ q) := by
  cases s with
  | nil =>
      refine ⟨colonStarts q, fun x hx => ?_, by simp [colonStarts]⟩
      obtain ⟨u, hu, rfl, -⟩ := exists_of_mem_colonStarts hx
      have hpos := List.length_pos_iff.2 hu
      rw [List.length_append]
      omega
  | cons c s =>
      by_cases hc : c = '/'
      · subst hc
        exact slashStarts_append 2 s q
      · refine ⟨[], by simp, ?_⟩
        have hstart : ∀ t, colonStarts (c :: t) = if isLabelChar c ||
            c == '%' then [t] else [] := by
          intro t
          rw [colonStarts]
          exact fun h => hc h
        rw [List.cons_append, hstart, hstart]
        split <;> rfl

theorem afterColon?_ne_none_append {s : List Char} (q : List Char)
    (h : afterColon? s ≠ none) :
    afterColon? (s ++ q) ≠ none := by
  obtain ⟨extra, -, hstarts⟩ := colonStarts_append s q
  rw [afterColon?_eq_findSome?] at h ⊢
  rw [hstarts, ne_eq, List.findSome?_eq_none_iff] at *
  intro hnone
  refine h fun x hx => tail?_eq_none_of_append (hnone (x ++ q) ?_)
  exact List.mem_append_right _ (List.mem_map.2 ⟨x, hx, rfl⟩)

theorem length_afterColon? {s rest : List Char} (h : afterColon? s = some rest) :
    rest.length < s.length := by
  rw [afterColon?_eq_findSome?] at h
  obtain ⟨x, hx, hrest⟩ := List.exists_of_findSome?_eq_some h
  obtain ⟨u, -, rfl, -⟩ := exists_of_mem_colonStarts hx
  have hlen := length_tail? hrest
  rw [List.length_append]
  omega

theorem afterColon?_of_append {s q rest : List Char}
    (h : afterColon? (s ++ q) = some (rest ++ q)) :
    afterColon? s = some rest := by
  obtain ⟨extra, hextra, hstarts⟩ := colonStarts_append s q
  rw [afterColon?_eq_findSome?] at h ⊢
  rw [hstarts, List.findSome?_append, Option.or_eq_some_iff] at h
  rcases h with h | ⟨-, h⟩
  · obtain ⟨x, hx, hrest⟩ := List.exists_of_findSome?_eq_some h
    have hlen := length_tail? hrest
    have hshort := hextra x hx
    rw [List.length_append] at hlen
    omega
  · exact findSome?_of_append (fun x _ => tail?_of_append) h

end Schemes

section Hosts

/-- Whether a domain name ends in a top-level domain that may have a path behind it. -/
def endsInTopLevel (host : List Char) : Bool :=
  match Text.cutAtLast (· == '.') host with
  | some (before, top) => !before.isEmpty && isTopLevel TopLevel.withPath top
  | none => false

theorem afterHost?_eq_some_iff {s rest : List Char} :
    afterHost? s = some rest ↔
      ∃ host, s = host ++ '/' :: rest ∧ (∀ c ∈ host, isHostChar c = true) ∧
        endsInTopLevel host = true := by
  unfold afterHost? endsInTopLevel
  constructor
  · intro h
    split at h
    · rename_i t ht
      split at h
      · rename_i before top hcut
        split at h
        · rename_i htop
          obtain rfl := Option.some.inj h
          refine ⟨s.takeWhile isHostChar, ?_,
            fun c hc => List.all_eq_true.1 List.all_takeWhile c hc, ?_⟩
          · rw [← ht, List.takeWhile_append_dropWhile]
          · rw [hcut]
            exact htop
        · simp at h
      · simp at h
    · simp at h
  · rintro ⟨host, rfl, hhost, htop⟩
    have hslash : isHostChar '/' = false := by decide
    obtain ⟨htake, hdrop⟩ := Text.run_of_endsIn (t := '/' :: rest) hhost hslash
    rw [hdrop, htake]
    cases hcut : Text.cutAtLast (· == '.') host with
    | none => simp [hcut] at htop
    | some parts =>
        rw [hcut] at htop
        simp only [htop, if_true]

theorem afterHost?_append {s rest : List Char} (q : List Char)
    (h : afterHost? s = some rest) :
    afterHost? (s ++ q) = some (rest ++ q) := by
  obtain ⟨host, rfl, hhost, htop⟩ := afterHost?_eq_some_iff.1 h
  exact afterHost?_eq_some_iff.2 ⟨host, by simp, hhost, htop⟩

theorem afterHost?_of_append {s q x : List Char} (h : afterHost? (s ++ q) = some x)
    (hlen : q.length ≤ x.length) : ∃ y, x = y ++ q ∧ afterHost? s = some y := by
  obtain ⟨host, hs, hhost, htop⟩ := afterHost?_eq_some_iff.1 h
  have hsplit : s ++ q = (host ++ ['/']) ++ x := by
    rw [hs]
    simp
  obtain ⟨y, rfl, rfl⟩ := Text.exists_of_append_eq_append hsplit hlen
  exact ⟨y, rfl, afterHost?_eq_some_iff.2 ⟨host, by simp, hhost, htop⟩⟩

theorem TopLevel.starts_withPath :
    ∀ d ∈ TopLevel.withPath, ∃ c t, d.toList = c :: t ∧ ('a' ≤ c && c ≤ 'z') = true := by
  have hall : (TopLevel.withPath.all fun d =>
      d.toList.head?.any fun c => 'a' ≤ c && c ≤ 'z') = true := by
    decide +kernel
  intro d hd
  have hhead := List.all_eq_true.1 hall d hd
  cases hlist : d.toList with
  | nil => simp [hlist] at hhead
  | cons c t => exact ⟨c, t, rfl, by simpa [hlist] using hhead⟩

/-- A domain name that ends in a top-level domain has a letter in it. -/
theorem exists_label_of_endsInTopLevel {host : List Char} (h : endsInTopLevel host = true) :
    ∃ c ∈ host, isLabelChar c = true := by
  unfold endsInTopLevel at h
  split at h
  · rename_i before top hcut
    simp only [Bool.and_eq_true, isTopLevel, List.contains_iff_mem] at h
    obtain ⟨c, t, hlist, hc⟩ := TopLevel.starts_withPath _ h.2
    rw [String.toList_ofList] at hlist
    cases top with
    | nil => simp at hlist
    | cons d top =>
        rw [List.map_cons] at hlist
        have hd : isLabelChar d = true := by
          simp only [isLabelChar, (List.cons.inj hlist).1, hc, Bool.true_or]
        rw [Text.cutAtLast, Option.map_eq_some_iff] at hcut
        obtain ⟨⟨x, y⟩, hfirst, hxy⟩ := hcut
        obtain ⟨-, htop⟩ := Prod.mk.inj hxy
        obtain ⟨e, -, hreverse, -⟩ := Text.cutAtFirst_eq hfirst
        refine ⟨d, ?_, hd⟩
        rw [← List.mem_reverse, hreverse]
        have hmem : d ∈ x := by
          rw [← List.mem_reverse, htop]
          exact List.mem_cons_self
        exact List.mem_append_left _ hmem
  · simp at h

end Hosts

section Full

theorem full?_eq_or (s : List Char) :
    full? s = ((afterScheme? s).bind afterColon?).or
      ((afterHost? s).bind (tail? false)) := by
  unfold full?
  cases (afterScheme? s).bind afterColon? <;> rfl

theorem scheme_ne_none_append {s : List Char} (q : List Char)
    (h : (afterScheme? s).bind afterColon? ≠ none) :
    (afterScheme? (s ++ q)).bind afterColon? ≠ none := by
  cases hs : afterScheme? s with
  | none =>
      rw [hs] at h
      exact absurd rfl h
  | some x =>
      rw [hs, Option.bind_some] at h
      rw [afterScheme?_append q hs, Option.bind_some]
      exact afterColon?_ne_none_append q h

theorem host_ne_none_append {s : List Char} (q : List Char)
    (h : (afterHost? s).bind (tail? false) ≠ none) :
    (afterHost? (s ++ q)).bind (tail? false) ≠ none := by
  cases hs : afterHost? s with
  | none =>
      rw [hs] at h
      exact absurd rfl h
  | some x =>
      rw [hs, Option.bind_some] at h
      rw [afterHost?_append q hs, Option.bind_some]
      exact tail?_ne_none_append q h

theorem full?_ne_none_append {s : List Char} (q : List Char) (h : full? s ≠ none) :
    full? (s ++ q) ≠ none := by
  rw [full?_eq_or] at h ⊢
  intro hnone
  obtain ⟨hscheme, hhost⟩ := Option.or_eq_none_iff.1 hnone
  refine h (Option.or_eq_none_iff.2 ⟨?_, ?_⟩)
  · exact Classical.byContradiction fun hs => scheme_ne_none_append q hs hscheme
  · exact Classical.byContradiction fun hs => host_ne_none_append q hs hhost

theorem full?_eq_none_of_append {s q : List Char} (h : full? (s ++ q) = none) :
    full? s = none := by
  cases hfull : full? s with
  | none => rfl
  | some rest => exact absurd h (full?_ne_none_append q (by simp [hfull]))

/-- What follows a full address did not matter when it was read. -/
theorem full?_of_append {s q rest : List Char} (h : full? (s ++ q) = some (rest ++ q)) :
    full? s = some rest := by
  rw [full?_eq_or] at h ⊢
  refine or_of_append (fun h => ?_) (fun hnone => ?_) (fun h => ?_) h
  · obtain ⟨x, hscheme, hx⟩ := Option.bind_eq_some_iff.1 h
    have hlen := length_afterColon? hx
    rw [List.length_append] at hlen
    obtain ⟨y, rfl, hy⟩ := afterScheme?_of_append hscheme (by omega)
    rw [hy, Option.bind_some, afterColon?_of_append hx]
  · exact Classical.byContradiction fun hs => scheme_ne_none_append q hs hnone
  · obtain ⟨x, hhost, hx⟩ := Option.bind_eq_some_iff.1 h
    have hlen := length_tail? hx
    rw [List.length_append] at hlen
    obtain ⟨y, rfl, hy⟩ := afterHost?_of_append hhost (by omega)
    rw [hy, Option.bind_some, tail?_of_append hx]

/-- A full address starts with a name of letters and digits, which a colon or a slash
follows, and it goes on as far as it can. -/
theorem full?_spec {s rest : List Char} (h : full? s = some rest) :
    ∃ p d v, s = p ++ d :: (v ++ rest) ∧ (∀ c ∈ p, isHostChar c = true) ∧
      (∃ c ∈ p, isLabelChar c = true) ∧ (d = ':' ∨ d = '/') ∧ Tight v ∧
      tail? true rest = none := by
  rw [full?_eq_or] at h
  rcases Option.or_eq_some_iff.1 h with h | ⟨-, h⟩
  · obtain ⟨x, hscheme, hx⟩ := Option.bind_eq_some_iff.1 h
    obtain ⟨p, rfl, hp⟩ := afterScheme?_eq_some_iff.1 hscheme
    rw [afterColon?_eq_findSome?] at hx
    obtain ⟨y, hy, hrest⟩ := List.exists_of_findSome?_eq_some hx
    obtain ⟨u, -, rfl, hu⟩ := exists_of_mem_colonStarts hy
    obtain ⟨v, -, rfl, hv⟩ := (goes_of_tail? hrest).tight
    have hlabel := fun c hc => isLabelChar_of_mem_scheme hp (c := c) hc
    refine ⟨p, ':', u ++ v, by simp, fun c hc => by simp [isHostChar, hlabel c hc], ?_,
      .inl rfl, Tight.append (tight_of_forall_isInner fun c hc => ?_) hv, tail?_rest hrest⟩
    · cases p with
      | nil => simp at hp
      | cons c p => exact ⟨c, by simp, hlabel c (by simp)⟩
    · rcases hu c hc with rfl | hc | rfl
      · decide
      · exact isInner_of_isLabelChar hc
      · decide
  · obtain ⟨x, hhost, hrest⟩ := Option.bind_eq_some_iff.1 h
    obtain ⟨host, rfl, hchars, htop⟩ := afterHost?_eq_some_iff.1 hhost
    obtain ⟨v, -, rfl, hv⟩ := (goes_of_tail? hrest).tight
    exact ⟨host, '/', v, rfl, hchars, exists_label_of_endsInTopLevel htop, .inr rfl, hv,
      tail?_rest hrest⟩

end Full

end WebAddress
end DocLinks
