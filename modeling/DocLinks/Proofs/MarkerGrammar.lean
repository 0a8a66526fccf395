import DocLinks.Expansion.Marker
import DocLinks.Proofs.CharacterRuns
import DocLinks.Proofs.Cutting

/-!
# The grammar of markers

What a marker looks like, without the way in which it is read.  A marker opens with a brace,
blanks, the tag and a blank behind it; from there on it goes up to the first closing brace.

**Results.**
* `opening?_eq_some_iff`, `read?_eq_some_iff`: what an opening and a marker look like.
* `member?_eq_some_iff`: what the shorthand of a member looks like.
* `opening?_of_append_brace`: the brace of another marker is no part of an opening.
* `read?_of_opening?`: an opening with a closing brace behind it is a marker.
* `pattern_finds_iff`: what the pattern of markers finds.
-/

namespace DocLinks
namespace Marker

/-- What follows the tag of a marker: the end of its name, and the text behind the first
blank. -/
def afterTag? (s : List Char) : Option (List Char × List Char) :=
  match s.dropWhile Text.isWord with
  | c :: rest => if Text.isBlank c then some (s.takeWhile Text.isWord, rest) else none
  | [] => none

/-- Reads the start of a marker up to the first blank behind its tag. -/
def opening? : List Char → Option (List Char × List Char)
  | '{' :: s => (Text.after? "@link".toList (Text.trimStart s)).bind afterTag?
  | _ => none

theorem read?_eq_bind (s : List Char) :
    read? s = (opening? s).bind fun (tail, rest) =>
      (Text.cutAtFirst (· == '}') (Text.trimStart rest)).map fun (body, after) =>
        (⟨tail, body⟩, after) := by
  unfold read?
  split
  · rename_i s
    rw [opening?, inner?]
    cases Text.after? "@link".toList (Text.trimStart s) with
    | none => rfl
    | some rest =>
        simp only [Option.bind_some, afterTag?]
        cases rest.dropWhile Text.isWord with
        | nil => rfl
        | cons c blanks =>
            by_cases hc : Text.isBlank c = true
            · simp [hc]
            · simp [hc]
  · rename_i hne
    rw [opening?]
    · rfl
    · exact hne

theorem afterTag?_eq_some_iff {s tail rest : List Char} :
    afterTag? s = some (tail, rest) ↔
      ∃ b, s = tail ++ b :: rest ∧ (∀ c ∈ tail, Text.isWord c = true) ∧
      Text.isBlank b = true := by
  unfold afterTag?
  constructor
  · intro h
    split at h
    · rename_i b blanks hb
      simp only [Option.ite_none_right_eq_some, Option.some.injEq, Prod.mk.injEq] at h
      obtain ⟨hblank, rfl, rfl⟩ := h
      refine ⟨b, ?_, fun c hc => Text.mem_takeWhile hc, hblank⟩
      rw [← hb, List.takeWhile_append_dropWhile]
    · simp at h
  · rintro ⟨b, rfl, htail, hblank⟩
    have hword := Text.isWord_of_isBlank hblank
    obtain ⟨htake, hdrop⟩ := Text.run_of_endsIn (t := b :: rest) htail hword
    rw [hdrop, htake]
    simp [hblank]

theorem opening?_eq_some_iff {s tail rest : List Char} :
    opening? s = some (tail, rest) ↔
      ∃ a b, s = '{' :: (a ++ ("@link".toList ++ (tail ++ b :: rest))) ∧
        (∀ c ∈ a, Text.isBlank c = true) ∧ (∀ c ∈ tail, Text.isWord c = true) ∧
        Text.isBlank b = true := by
  constructor
  · intro h
    unfold opening? at h
    split at h
    · rename_i s
      obtain ⟨t, ht, htag⟩ := Option.bind_eq_some_iff.1 h
      obtain ⟨b, rfl, htail, hblank⟩ := afterTag?_eq_some_iff.1 htag
      refine ⟨s.takeWhile Text.isBlank, b, ?_,
        fun c hc => Text.mem_takeWhile hc, htail, hblank⟩
      rw [← Text.eq_append_of_after? ht, Text.takeWhile_append_trimStart]
    · simp at h
  · rintro ⟨a, b, rfl, ha, htail, hblank⟩
    have htrim : Text.trimStart (a ++ ("@link".toList ++ (tail ++ b :: rest))) =
        "@link".toList ++ (tail ++ b :: rest) := by
      rw [Text.trimStart_append ha]
      exact Text.trimStart_of_not_isBlank (by decide)
    rw [opening?, htrim]
    rw [Text.after?_append, Option.bind_some]
    exact afterTag?_eq_some_iff.2 ⟨b, rfl, htail, hblank⟩

theorem opening?_append {s tail rest : List Char} (t : List Char)
    (h : opening? s = some (tail, rest)) : opening? (s ++ t) = some (tail, rest ++ t) := by
  obtain ⟨a, b, rfl, ha, htail, hblank⟩ := opening?_eq_some_iff.1 h
  exact opening?_eq_some_iff.2 ⟨a, b, by simp, ha, htail, hblank⟩

/-- Behind the first brace an opening has neither braces nor parentheses. -/
theorem not_mem_opening {a tail : List Char} {b : Char} (ha : ∀ c ∈ a, Text.isBlank c = true)
    (htail : ∀ c ∈ tail, Text.isWord c = true) (hblank : Text.isBlank b = true) {x : Char}
    (hx : x = '{' ∨ x = '}' ∨ x = ')') : x ∉ a ++ ("@link".toList ++ (tail ++ [b])) := by
  have hxb : Text.isBlank x = false := by rcases hx with rfl | rfl | rfl <;> decide
  have hxw : Text.isWord x = false := by rcases hx with rfl | rfl | rfl <;> decide
  have hxl : x ∉ "@link".toList := by rcases hx with rfl | rfl | rfl <;> decide
  simp only [List.mem_append, List.mem_singleton, not_or]
  refine ⟨fun h => ?_, hxl, fun h => ?_, fun h => ?_⟩
  · simp [ha x h] at hxb
  · simp [htail x h] at hxw
  · subst h
    simp [hblank] at hxb

/-- The brace of another marker, or the end of one, is no part of an opening. -/
theorem opening?_of_append_brace {s t tail rest : List Char} {x : Char} (hs : s ≠ [])
    (hx : x = '{' ∨ x = '}' ∨ x = ')') (h : opening? (s ++ x :: t) = some (tail, rest)) :
    ∃ rest', opening? s = some (tail, rest') := by
  obtain ⟨a, b, hst, ha, htail, hblank⟩ := opening?_eq_some_iff.1 h
  obtain ⟨c, s, rfl⟩ := List.exists_cons_of_ne_nil hs
  obtain ⟨rfl, hst⟩ := List.cons.inj hst
  have hsplit : s ++ x :: t = (a ++ ("@link".toList ++ (tail ++ [b]))) ++ rest := by
    simpa using hst
  rcases List.append_eq_append_iff.1 hsplit with ⟨w, hw, hxt⟩ | ⟨w, rfl, -⟩
  · cases w with
    | nil =>
        refine ⟨[], opening?_eq_some_iff.2 ⟨a, b, ?_, ha, htail, hblank⟩⟩
        rw [List.append_nil] at hw
        rw [← hw]
    | cons d w =>
        obtain ⟨rfl, -⟩ := List.cons.inj hxt
        refine absurd ?_ (not_mem_opening ha htail hblank hx)
        rw [hw]
        simp
  · exact ⟨w, opening?_eq_some_iff.2 ⟨a, b, by simp, ha, htail, hblank⟩⟩

theorem read?_eq_some_iff {s rest : List Char} {m : Marker} :
    read? s = some (m, rest) ↔
      ∃ a b c, s =
        '{' :: (a ++ ("@link".toList ++ (m.tail ++ b :: (c ++ (m.body ++ '}' :: rest))))) ∧
        (∀ x ∈ a, Text.isBlank x = true) ∧ (∀ x ∈ m.tail, Text.isWord x = true) ∧
        Text.isBlank b = true ∧ (∀ x ∈ c, Text.isBlank x = true) ∧
        (∀ x, m.body.head? = some x → Text.isBlank x = false) ∧ '}' ∉ m.body := by
  rw [read?_eq_bind]
  constructor
  · intro h
    obtain ⟨⟨tail, r⟩, hopen, h⟩ := Option.bind_eq_some_iff.1 h
    obtain ⟨⟨body, after⟩, hcut, h⟩ := Option.map_eq_some_iff.1 h
    obtain ⟨rfl, rfl⟩ := Prod.mk.inj h
    obtain ⟨a, b, rfl, ha, htail, hblank⟩ := opening?_eq_some_iff.1 hopen
    obtain ⟨x, hx, htrim, hbody⟩ := Text.cutAtFirst_eq hcut
    have hx' : x = '}' := by simpa using hx
    subst hx'
    refine ⟨a, b, r.takeWhile Text.isBlank, ?_, ha, htail, hblank,
      fun c hc => Text.mem_takeWhile hc, ?_, ?_⟩
    · rw [← htrim, Text.takeWhile_append_trimStart]
    · intro y hy
      cases body with
      | nil => simp at hy
      | cons z body =>
          simp only [List.head?_cons, Option.some.injEq] at hy
          subst hy
          have hhead := List.head?_dropWhile_not Text.isBlank r
          rw [← Text.trimStart, htrim] at hhead
          exact hhead
    · intro hmem
      simpa using hbody '}' hmem
  · rintro ⟨a, b, c, rfl, ha, htail, hblank, hc, hhead, hbody⟩
    have hopen : opening? _ = some (m.tail, c ++ (m.body ++ '}' :: rest)) :=
      opening?_eq_some_iff.2 ⟨a, b, rfl, ha, htail, hblank⟩
    simp only [hopen, Option.bind_some]
    rw [Text.trimStart_append hc]
    have htrim : Text.trimStart (m.body ++ '}' :: rest) = m.body ++ '}' :: rest := by
      cases hm : m.body with
      | nil => exact Text.trimStart_of_not_isBlank (by decide)
      | cons z body => exact Text.trimStart_of_not_isBlank (hhead z (by rw [hm]; rfl))
    rw [htrim, Text.cutAtFirst_append]
    · rfl
    · intro x hx
      have : x ≠ '}' := fun h => hbody (h ▸ hx)
      simpa using this
    · rfl

theorem read?_append {s rest : List Char} {m : Marker} (t : List Char)
    (h : read? s = some (m, rest)) : read? (s ++ t) = some (m, rest ++ t) := by
  obtain ⟨a, b, c, rfl, ha, htail, hblank, hc, hhead, hbody⟩ := read?_eq_some_iff.1 h
  exact read?_eq_some_iff.2 ⟨a, b, c, by simp, ha, htail, hblank, hc, hhead, hbody⟩

theorem opening?_isSome_of_read? {s : List Char} (h : read? s ≠ none) :
    opening? s ≠ none := by
  intro hopen
  rw [read?_eq_bind, hopen] at h
  exact h rfl

/-- An opening with a closing brace somewhere behind it is a marker. -/
theorem read?_of_opening? {s tail rest : List Char} (h : opening? s = some (tail, rest))
    (hs : '}' ∈ s) : read? s ≠ none := by
  obtain ⟨a, b, rfl, ha, htail, hblank⟩ := opening?_eq_some_iff.1 h
  have hout := not_mem_opening ha htail hblank (x := '}') (by simp)
  have hrest : '}' ∈ rest := by
    simp only [List.mem_append, List.mem_cons, List.not_mem_nil, or_false, not_or] at hs hout
    rcases hs with hs | hs | hs | hs | hs | hs
    · exact absurd hs (by decide)
    · exact absurd hs hout.1
    · exact absurd hs hout.2.1
    · exact absurd hs hout.2.2.1
    · exact absurd hs hout.2.2.2
    · exact hs
  have htrim : '}' ∈ Text.trimStart rest := by
    rw [← Text.takeWhile_append_trimStart rest, List.mem_append] at hrest
    rcases hrest with hrest | hrest
    · exact absurd (Text.mem_takeWhile hrest) (by decide)
    · exact hrest
  intro hnone
  rw [read?_eq_bind, h] at hnone
  rw [Option.bind_some, Option.map_eq_none_iff] at hnone
  exact absurd (Text.cutAtFirst_eq_none hnone _ htrim) (by decide)

/-- The shorthand of a member: a separator, a name and nothing else but blanks. -/
theorem member?_eq_some_iff {m : Marker} {k : Member} :
    m.member? = some k ↔
      ∃ blanks, m.tail = [] ∧ m.body = k.separator :: (k.name ++ blanks) ∧
        isSeparator k.separator = true ∧ k.name ≠ [] ∧
        (∀ c ∈ k.name, isMemberChar c = true) ∧
        ∀ c ∈ blanks, Text.isBlank c = true := by
  constructor
  · intro h
    unfold member? at h
    split at h
    · rename_i c s htail hbody
      simp only [Option.ite_none_right_eq_some, Bool.and_eq_true, Option.some.injEq,
        Bool.not_eq_true', List.isEmpty_eq_false_iff] at h
      obtain ⟨⟨⟨hs, hne⟩, hblank⟩, rfl⟩ := h
      refine ⟨s.dropWhile isMemberChar, htail, ?_, hs, hne,
        fun c hc => Text.mem_takeWhile hc, ?_⟩
      · rw [hbody, List.takeWhile_append_dropWhile]
      · exact List.all_eq_true.1 hblank
    · simp at h
  · rintro ⟨blanks, htail, hbody, hs, hne, hname, hblank⟩
    have hend : ∀ c ∈ blanks, isMemberChar c = false := by
      intro c hc
      have hword := Text.isWord_of_isBlank (hblank c hc)
      have hdollar : c ≠ '$' := by
        rintro rfl
        exact absurd (hblank _ hc) (by decide)
      simp [isMemberChar, hword, hdollar]
    have hrest : Text.endsIn isMemberChar blanks.head? = false := by
      cases blanks with
      | nil => rfl
      | cons c blanks => exact hend c (by simp)
    obtain ⟨htake, hdrop⟩ := Text.run_of_endsIn hname hrest
    have hall : Text.allBlank blanks = true := List.all_eq_true.2 hblank
    unfold member?
    rw [htail, hbody]
    simp [htake, hdrop, hs, hne, hall]

theorem advances_read? : Text.Pattern.Advances fun _ s => read? s := by
  intro _ s m rest h
  obtain ⟨a, b, c, rfl, -⟩ := read?_eq_some_iff.1 h
  exact ⟨'{' :: (a ++ ("@link".toList ++ (m.tail ++ b :: (c ++ (m.body ++ ['}']))))),
    by simp, by simp⟩

theorem pattern_bounded : pattern.Bounded :=
  Text.Pattern.ofReader_bounded advances_read?

theorem pattern_finds_iff {before u rest : List Char} {m : Marker} :
    pattern.Finds before u rest m ↔ u ≠ [] ∧ read? (u ++ rest) = some (m, rest) :=
  Text.Pattern.ofReader_finds_iff advances_read?

theorem pattern_eq_none_iff {before s : List Char} :
    pattern before s = none ↔ read? s = none :=
  Option.map_eq_none_iff

theorem write_none (s : List Char) : write s none = "\x7b@link ".toList ++ s ++ ['}'] := by
  unfold write
  rw [List.append_nil]

theorem write_some (target s : List Char) :
    write target (some s) = "\x7b@link ".toList ++ target ++ [' '] ++ s ++ ['}'] := by
  unfold write
  rw [List.append_assoc _ [' '] s]
  rfl

end Marker

end DocLinks
