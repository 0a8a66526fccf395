import DocLinks.Expansion.WebAddress
import DocLinks.Publication.Caption

/-!
# The grammar of captions

An example is cut if its text has the form of one with a caption: blanks, the opening tag,
the caption, the closing tag, blanks that end a line, and code.  A text may have this form in
many ways, since the caption may hold closing tags itself, and the code may start with
blanks.

**Algorithm.**  Of all ways those with the shortest caption are taken, and of these the one
with the most blanks behind it.

**Results.**
* `afterTag?_eq_some_iff`: tags are told by simple case folding.
* `exists_leaves_of_afterLineEnd?`: as many blanks as possible are passed over.
* `exists_closes_of_findEnd?`: the search for the end of a caption stops at the first place
  that will do.
* `exists_preferred_of_cut?`, `not_captioned_of_cut?`: what is cut, and where.
* `split_by_grammar`: which examples are changed, and to what.
-/

namespace DocLinks
namespace Caption

section Tags

/-- A tag is written in letters of any case. -/
def IsTag (tag written : List Char) : Prop :=
  written.map WebAddress.foldCase = tag

/-- The letters that letters beyond ASCII count as, and these letters. -/
def sharedLetters : List Char :=
  ['s', '\u017f', 'k', '\u212a']

theorem toLower_of_not_ascii {c : Char} (hc : ¬ c.toNat < 128) : c.toLower = c :=
  dif_neg fun h => hc (Nat.lt_of_le_of_lt h.2 (by decide : 'Z'.toNat < 128))

/-- Apart from the shared letters, a letter counts as the one that it is in lower case. -/
theorem foldCase_eq_iff {a c : Char} (ha : a ∉ sharedLetters) :
    WebAddress.foldCase c = a ↔ c.toLower = a := by
  have hascii : ∀ n < 128, WebAddress.foldCase (Char.ofNat n) =
      (Char.ofNat n).toLower := by decide
  by_cases hc : c.toNat < 128
  · have hsame := hascii c.toNat hc
    rw [Char.ofNat_toNat] at hsame
    rw [hsame]
  · have hbig : ¬ c ≤ 'Z' :=
      fun hle => hc (Nat.lt_of_le_of_lt hle (by decide : 'Z'.toNat < 128))
    simp only [sharedLetters, List.mem_cons, List.not_mem_nil, or_false, not_or] at ha
    rw [toLower_of_not_ascii hc, WebAddress.foldCase, if_neg (by simp [hbig])]
    by_cases hs : c = '\u017f'
    · subst hs
      simp [Ne.symm ha.1, Ne.symm ha.2.1]
    · by_cases hk : c = '\u212a'
      · subst hk
        simp [Ne.symm ha.2.2.1, Ne.symm ha.2.2.2]
      · simp [hs, hk]

theorem isTag_nil_iff {written : List Char} : IsTag [] written ↔ written = [] :=
  List.map_eq_nil_iff

theorem isTag_cons_iff {a : Char} {tag written : List Char} (ha : a ∉ sharedLetters) :
    IsTag (a :: tag) written ↔ ∃ c w, written = c :: w ∧ c.toLower = a ∧ IsTag tag w := by
  rw [IsTag, List.map_eq_cons_iff]
  simp only [foldCase_eq_iff ha, IsTag]

/-- A text goes on after a tag if it starts with it, whatever the case of its letters. -/
theorem afterTag?_eq_some_iff {tag s rest : List Char}
    (htag : tag.all (!sharedLetters.contains ·) = true) :
    afterTag? tag s = some rest ↔ ∃ written, s = written ++ rest ∧ IsTag tag written := by
  induction tag generalizing s with
  | nil =>
      rw [afterTag?, Option.some.injEq]
      constructor
      · rintro rfl
        exact ⟨[], rfl, rfl⟩
      · rintro ⟨written, rfl, hwritten⟩
        rw [isTag_nil_iff.1 hwritten, List.nil_append]
  | cons a tag ih =>
      obtain ⟨hfirst, hrest⟩ := Bool.and_eq_true_iff.1 htag
      have ha : a ∉ sharedLetters := by simpa using hfirst
      simp only [isTag_cons_iff ha]
      cases s with
      | nil =>
          rw [afterTag?]
          constructor
          · simp
          · rintro ⟨_, hs, c, w, rfl, -⟩
            simp at hs
      | cons c s =>
          rw [afterTag?]
          split
          · rename_i hc
            rw [ih hrest]
            constructor
            · rintro ⟨w, rfl, hw⟩
              exact ⟨c :: w, rfl, c, w, rfl, hc.symm, hw⟩
            · rintro ⟨_, hs, c', w, rfl, -, hw⟩
              exact ⟨w, (List.cons.inj hs).2, hw⟩
          · rename_i hc
            constructor
            · simp
            · rintro ⟨_, hs, c', w, rfl, hlower, -⟩
              rw [(List.cons.inj hs).1] at hc
              exact absurd hlower.symm hc

end Tags

section LineEnds

/-- Blanks the last of which ends a line. -/
def EndsLine (blanks : List Char) : Prop :=
  (∀ c ∈ blanks, Text.isBlank c = true) ∧ ∃ c ∈ blanks.getLast?, isLineEnd c = true

/-- A text starts with blanks that end a line, and code comes after them. -/
structure Leaves (s blanks code : List Char) : Prop where
  form : s = blanks ++ code
  endsLine : EndsLine blanks
  code_ne_nil : code ≠ []

variable {c : Char} {s blanks code : List Char}

theorem not_endsLine_nil : ¬ EndsLine [] := by
  rintro ⟨-, c, hc, -⟩
  simp at hc

theorem endsLine_singleton_iff :
    EndsLine [c] ↔ Text.isBlank c = true ∧ isLineEnd c = true := by
  simp [EndsLine]

theorem endsLine_cons_iff (hne : blanks ≠ []) :
    EndsLine (c :: blanks) ↔ Text.isBlank c = true ∧ EndsLine blanks := by
  obtain ⟨d, blanks, rfl⟩ := List.exists_cons_of_ne_nil hne
  rw [EndsLine, EndsLine, List.getLast?_cons_cons]
  rw [List.forall_mem_cons, and_assoc]

theorem leaves_cons_iff : Leaves (c :: s) blanks code ↔ Text.isBlank c = true ∧
    ((blanks = [c] ∧ code = s ∧ isLineEnd c = true ∧ s ≠ []) ∨
      ∃ more, blanks = c :: more ∧ Leaves s more code) := by
  constructor
  · rintro ⟨hform, hends, hcode⟩
    cases blanks with
    | nil => exact absurd hends not_endsLine_nil
    | cons d more =>
        obtain ⟨rfl, rfl⟩ := List.cons.inj hform
        by_cases hmore : more = []
        · subst hmore
          obtain ⟨hblank, hend⟩ := endsLine_singleton_iff.1 hends
          exact ⟨hblank, .inl ⟨rfl, rfl, hend, hcode⟩⟩
        · obtain ⟨hblank, hends⟩ := (endsLine_cons_iff hmore).1 hends
          exact ⟨hblank, .inr ⟨more, rfl, rfl, hends, hcode⟩⟩
  · rintro ⟨hblank, ⟨rfl, rfl, hend, hcode⟩ | ⟨more, rfl, rfl, hends, hcode⟩⟩
    · exact ⟨rfl, endsLine_singleton_iff.2 ⟨hblank, hend⟩, hcode⟩
    · have hmore : more ≠ [] := by
        rintro rfl
        exact not_endsLine_nil hends
      exact ⟨rfl, (endsLine_cons_iff hmore).2 ⟨hblank, hends⟩, hcode⟩

theorem not_leaves_of_afterLineEnd? (h : afterLineEnd? s = none) :
    ¬ Leaves s blanks code := by
  induction s generalizing blanks with
  | nil =>
      rintro ⟨hform, -, hcode⟩
      exact hcode (List.append_eq_nil_iff.1 hform.symm).2
  | cons c s ih =>
      rw [leaves_cons_iff]
      rintro ⟨hblank, hcases⟩
      rw [afterLineEnd?, if_pos hblank] at h
      split at h
      · simp at h
      · rename_i hnone
        rcases hcases with ⟨-, -, hend, hne⟩ | ⟨more, -, hmore⟩
        · simp [hend, hne] at h
        · exact ih hnone hmore

/-- As many blanks as possible are passed over. -/
theorem exists_leaves_of_afterLineEnd? (h : afterLineEnd? s = some code) :
    ∃ blanks, Leaves s blanks code ∧
      ∀ other rest, Leaves s other rest → other.length ≤ blanks.length := by
  induction s with
  | nil => simp [afterLineEnd?] at h
  | cons c s ih =>
      rw [afterLineEnd?] at h
      split at h
      · rename_i hblank
        split at h
        · rename_i rest hrest
          obtain rfl := Option.some.inj h
          obtain ⟨more, hmore, hlongest⟩ := ih hrest
          refine ⟨c :: more, leaves_cons_iff.2 ⟨hblank, .inr ⟨more, rfl, hmore⟩⟩,
            fun other rest' ho => ?_⟩
          obtain ⟨-, ⟨rfl, -⟩ | ⟨more', rfl, hmore'⟩⟩ := leaves_cons_iff.1 ho
          · exact Nat.succ_le_succ (Nat.zero_le _)
          · exact Nat.succ_le_succ (hlongest more' rest' hmore')
        · -- nothing further on will do, so the line has to end here
          rename_i hnone
          split at h
          · rename_i hend
            obtain rfl := Option.some.inj h
            simp only [Bool.and_eq_true, Bool.not_eq_true',
              List.isEmpty_eq_false_iff] at hend
            refine ⟨[c], leaves_cons_iff.2 ⟨hblank, .inl ⟨rfl, rfl, hend⟩⟩,
              fun other rest' ho => ?_⟩
            obtain ⟨-, ⟨rfl, -⟩ | ⟨more', -, hmore'⟩⟩ := leaves_cons_iff.1 ho
            · exact Nat.le_refl _
            · exact absurd hmore' (not_leaves_of_afterLineEnd? hnone)
          · simp at h
      · simp at h

end LineEnds

section Closing

/-- The tag before a caption. -/
def openingTag : List Char :=
  "<caption>".toList

/-- The tag behind a caption. -/
def closingTag : List Char :=
  "</caption>".toList

/-- A text starts with a caption, and the closing tag, blanks that end a line, and code come
after it. -/
def Closes (s caption blanks code : List Char) : Prop :=
  ∃ closing rest, s = caption ++ closing ++ rest ∧ IsTag closingTag closing ∧
  Leaves rest blanks code

variable {c : Char} {s acc caption blanks code : List Char}

theorem afterTag?_closingTag_iff {rest : List Char} :
    afterTag? closingTag s = some rest ↔ ∃ written, s = written ++ rest ∧
    IsTag closingTag written :=
  afterTag?_eq_some_iff (by decide)

theorem afterTag?_openingTag_iff {rest : List Char} :
    afterTag? openingTag s = some rest ↔ ∃ written, s = written ++ rest ∧
    IsTag openingTag written :=
  afterTag?_eq_some_iff (by decide)

theorem closes_nil_iff : Closes s [] blanks code ↔
    ∃ rest, afterTag? closingTag s = some rest ∧ Leaves rest blanks code := by
  simp only [afterTag?_closingTag_iff, Closes, List.nil_append]
  constructor
  · rintro ⟨closing, rest, hs, htag, hleaves⟩
    exact ⟨rest, ⟨closing, hs, htag⟩, hleaves⟩
  · rintro ⟨rest, ⟨closing, hs, htag⟩, hleaves⟩
    exact ⟨closing, rest, hs, htag, hleaves⟩

theorem closes_cons_iff {d : Char} :
    Closes (c :: s) (d :: caption) blanks code ↔ d = c ∧ Closes s caption blanks code := by
  simp only [Closes, List.cons_append, List.cons.injEq]
  constructor
  · rintro ⟨closing, rest, ⟨rfl, hs⟩, htag, hleaves⟩
    exact ⟨rfl, closing, rest, hs, htag, hleaves⟩
  · rintro ⟨rfl, closing, rest, hs, htag, hleaves⟩
    exact ⟨closing, rest, ⟨rfl, hs⟩, htag, hleaves⟩

theorem not_closes_nil : ¬ Closes [] caption blanks code := by
  rintro ⟨closing, rest, hs, -, hleaves⟩
  have hrest : blanks ++ code = [] := hleaves.form ▸ (List.append_eq_nil_iff.1 hs.symm).2
  exact hleaves.code_ne_nil (List.append_eq_nil_iff.1 hrest).2

/-- The code behind a caption that ends here. -/
def codeAfter? (s : List Char) : Option (List Char) :=
  (afterTag? closingTag s).bind afterLineEnd?

theorem not_closes_of_codeAfter? (h : codeAfter? s = none) : ¬ Closes s [] blanks code := by
  rw [closes_nil_iff]
  rintro ⟨rest, hrest, hleaves⟩
  rw [codeAfter?, hrest, Option.bind_some] at h
  exact not_leaves_of_afterLineEnd? h hleaves

theorem exists_closes_of_codeAfter? (h : codeAfter? s = some code) :
    ∃ blanks, Closes s [] blanks code ∧
      ∀ other rest, Closes s [] other rest → other.length ≤ blanks.length := by
  obtain ⟨rest, hrest, hcode⟩ := Option.bind_eq_some_iff.1 h
  obtain ⟨blanks, hleaves, hlongest⟩ := exists_leaves_of_afterLineEnd? hcode
  refine ⟨blanks, closes_nil_iff.2 ⟨rest, hrest, hleaves⟩, fun other rest' hcloses => ?_⟩
  obtain ⟨rest'', hrest'', hleaves'⟩ := closes_nil_iff.1 hcloses
  obtain rfl : rest'' = rest := Option.some.inj (hrest''.symm.trans hrest)
  exact hlongest other rest' hleaves'

/-- A caption has at least one character, and from then on it may end anywhere. -/
theorem findEnd?_cons (acc : List Char) (c : Char) (s : List Char) : findEnd? acc (c :: s) =
    match if acc.isEmpty then none else codeAfter? (c :: s) with
    | some code => some (acc.reverse, code)
    | none => findEnd? (c :: acc) s := rfl

theorem not_closes_of_findEnd? (h : findEnd? acc s = none)
    (hne : acc.reverse ++ caption ≠ []) :
    ¬ Closes s caption blanks code := by
  induction s generalizing acc caption with
  | nil => exact not_closes_nil
  | cons c s ih =>
      rw [findEnd?_cons] at h
      split at h
      · simp at h
      · rename_i hhere
        cases caption with
        | nil =>
            rw [if_neg (by simpa using hne)] at hhere
            exact not_closes_of_codeAfter? hhere
        | cons d caption =>
            intro hcloses
            obtain ⟨rfl, hrest⟩ := closes_cons_iff.1 hcloses
            exact ih h (by simp) hrest

/-- The search for the end of a caption stops at the first place that will do. -/
theorem exists_closes_of_findEnd? (h : findEnd? acc s = some (caption, code)) :
    ∃ more blanks, caption = acc.reverse ++ more ∧ Closes s more blanks code ∧
      (∀ more' blanks' code', acc.reverse ++ more' ≠ [] → Closes s more' blanks' code' →
        more.length ≤ more'.length) ∧
      ∀ blanks' code', Closes s more blanks' code' → blanks'.length ≤ blanks.length := by
  induction s generalizing acc with
  | nil => simp [findEnd?] at h
  | cons c s ih =>
      rw [findEnd?_cons] at h
      split at h
      · rename_i code' hhere
        obtain ⟨rfl, rfl⟩ := Prod.mk.inj (Option.some.inj h)
        split at hhere
        · simp at hhere
        · obtain ⟨blanks, hcloses, hlongest⟩ := exists_closes_of_codeAfter? hhere
          exact ⟨[], blanks, (List.append_nil _).symm, hcloses,
            fun _ _ _ _ _ => Nat.zero_le _, hlongest⟩
      · rename_i hhere
        obtain ⟨more, blanks, rfl, hcloses, hshortest, hlongest⟩ := ih h
        refine ⟨c :: more, blanks, by simp, closes_cons_iff.2 ⟨rfl, hcloses⟩,
          fun more' blanks' code' hne hcloses' => ?_, fun blanks' code' hcloses' => ?_⟩
        · cases more' with
          | nil =>
              rw [if_neg (by simpa using hne)] at hhere
              exact absurd hcloses' (not_closes_of_codeAfter? hhere)
          | cons d more' =>
              obtain ⟨-, hrest⟩ := closes_cons_iff.1 hcloses'
              exact Nat.succ_le_succ (hshortest more' blanks' code' (by simp) hrest)
        · exact hlongest blanks' code' (closes_cons_iff.1 hcloses').2

end Closing

section Grammar

/-- An example text in the form of one with a caption: blanks, the opening tag, the caption,
the closing tag, blanks that end a line, and code. -/
structure Captioned (s caption blanks code : List Char) : Prop where
  form : ∃ lead opening closing, s = lead ++ opening ++ caption ++
  closing ++ blanks ++ code ∧
    (∀ c ∈ lead, Text.isBlank c = true) ∧ IsTag openingTag opening ∧ IsTag closingTag closing
  caption_ne_nil : caption ≠ []
  endsLine : EndsLine blanks
  code_ne_nil : code ≠ []

/-- Of all forms of a text with a caption, the one with the shortest caption and, for this
caption, with the most blanks behind it. -/
structure Preferred (s caption blanks code : List Char) : Prop where
  captioned : Captioned s caption blanks code
  shortest {caption' blanks' code' : List Char} :
    Captioned s caption' blanks' code' → caption.length ≤ caption'.length
  longest {blanks' code' : List Char} :
    Captioned s caption blanks' code' → blanks'.length ≤ blanks.length

variable {c : Char} {s caption blanks code caption' blanks' code' : List Char}

theorem isBlank_of_toLower (h : c.toLower = '<') : Text.isBlank c = false := by
  have hascii : ∀ n < 128, (Char.ofNat n).toLower = '<' →
      Text.isBlank (Char.ofNat n) = false := by
    decide
  by_cases hc : c.toNat < 128
  · have hblank := hascii c.toNat hc
    rw [Char.ofNat_toNat] at hblank
    exact hblank h
  · rw [toLower_of_not_ascii hc] at h
    exact absurd (by rw [h]; decide) hc

/-- Behind its blanks, a text with a caption goes on with the opening tag. -/
theorem captioned_iff : Captioned s caption blanks code ↔ caption ≠ [] ∧
    ∃ rest, afterTag? openingTag (Text.trimStart s) = some rest ∧
    Closes rest caption blanks code := by
  simp only [afterTag?_openingTag_iff]
  constructor
  · rintro ⟨⟨lead, opening, closing, rfl, hlead, hopening, hclosing⟩, hcaption, hends, hcode⟩
    refine ⟨hcaption, caption ++ closing ++ (blanks ++ code), ⟨opening, ?_, hopening⟩,
      closing, blanks ++ code, rfl, hclosing, rfl, hends, hcode⟩
    obtain ⟨c, w, rfl, hc, -⟩ := (isTag_cons_iff (by decide)).1 hopening
    simp only [Text.trimStart, List.append_assoc,
      List.dropWhile_append_of_pos hlead, List.cons_append]
    rw [List.dropWhile_cons_of_neg (by rw [isBlank_of_toLower hc]; exact Bool.false_ne_true)]
  · rintro ⟨hcaption, rest, ⟨opening, htrim, hopening⟩, closing, _, rfl, hclosing,
      rfl, hends, hcode⟩
    refine ⟨⟨s.takeWhile Text.isBlank, opening, closing, ?_, fun c hc => ?_, hopening,
      hclosing⟩, hcaption,
      hends, hcode⟩
    · simp only [List.append_assoc] at htrim ⊢
      rw [← htrim, Text.takeWhile_append_trimStart]
    · exact List.all_eq_true.1 List.all_takeWhile c hc

theorem cut?_eq (s : List Char) :
    cut? s = (afterTag? openingTag (Text.trimStart s)).bind (findEnd? []) := rfl

/-- A text that is not cut has no caption in any way. -/
theorem not_captioned_of_cut? (h : cut? s = none) : ¬ Captioned s caption blanks code := by
  rw [captioned_iff]
  rintro ⟨hcaption, rest, hrest, hcloses⟩
  rw [cut?_eq, hrest, Option.bind_some] at h
  exact not_closes_of_findEnd? h hcaption hcloses

/-- A text is cut in the preferred way. -/
theorem exists_preferred_of_cut? (h : cut? s = some (caption, code)) :
    ∃ blanks, Preferred s caption blanks code := by
  obtain ⟨rest, hrest, hfind⟩ := Option.bind_eq_some_iff.1 h
  obtain ⟨more, blanks, hmore, hcloses, hshortest, hlongest⟩ :=
    exists_closes_of_findEnd? hfind
  obtain rfl : caption = more := hmore
  have hother : ∀ {caption' blanks' code'}, Captioned s caption' blanks' code' →
      caption' ≠ [] ∧ Closes rest caption' blanks' code' := by
    intro caption' blanks' code' hcaptioned
    obtain ⟨hne, rest', hrest', hcloses'⟩ := captioned_iff.1 hcaptioned
    obtain rfl : rest' = rest := Option.some.inj (hrest'.symm.trans hrest)
    exact ⟨hne, hcloses'⟩
  refine ⟨blanks, captioned_iff.2 ⟨caption_ne_nil hfind, rest, hrest, hcloses⟩,
    fun hcaptioned => ?_, fun hcaptioned => ?_⟩
  · obtain ⟨hne, hcloses'⟩ := hother hcaptioned
    exact hshortest _ _ _ hne hcloses'
  · exact hlongest _ _ (hother hcaptioned).2

/-- A text is cut in one way at most: there is one shortest caption, and one longest run of
blanks. -/
theorem Preferred.unique (h : Preferred s caption blanks code)
    (h' : Preferred s caption' blanks' code') :
    caption = caption' ∧ blanks = blanks' ∧ code = code' := by
  obtain ⟨-, rest, hrest, closing, tail, hs, hclosing, hleaves⟩ :=
    captioned_iff.1 h.captioned
  obtain ⟨-, rest', hrest', closing', tail', hs', hclosing', hleaves'⟩ :=
    captioned_iff.1 h'.captioned
  obtain rfl : rest' = rest := Option.some.inj (hrest'.symm.trans hrest)
  have hlength : caption.length = caption'.length :=
    Nat.le_antisymm (h.shortest h'.captioned) (h'.shortest h.captioned)
  have hclosings : closing.length = closing'.length := by
    rw [← List.length_map (f := WebAddress.foldCase), hclosing]
    rw [← hclosing', List.length_map]
  rw [hs, List.append_assoc, List.append_assoc] at hs'
  obtain ⟨rfl, htail⟩ := List.append_inj hs' hlength
  obtain ⟨-, rfl⟩ := List.append_inj htail hclosings
  have hblanks : blanks.length = blanks'.length :=
    Nat.le_antisymm (h'.longest h.captioned) (h.longest h'.captioned)
  obtain ⟨rfl, rfl⟩ := List.append_inj (hleaves.form.symm.trans hleaves'.form) hblanks
  exact ⟨rfl, rfl, rfl⟩

end Grammar

section Examples

variable {e : Example} {caption blanks code : List Char}

theorem split_of_caption (h : e.caption ≠ "") : split e = e := by
  rw [split, if_neg (by simpa using h)]

theorem split_of_preferred (h : e.caption = "")
    (hpreferred : Preferred e.code.toList caption blanks code) :
    split e = ⟨String.ofList caption, String.ofList code⟩ := by
  rw [split, if_pos (by simpa using h)]
  cases hcut : cut? e.code.toList with
  | none => exact absurd hpreferred.captioned (not_captioned_of_cut? hcut)
  | some parts =>
      obtain ⟨caption', code'⟩ := parts
      obtain ⟨blanks', hpreferred'⟩ := exists_preferred_of_cut? hcut
      obtain ⟨rfl, -, rfl⟩ := hpreferred.unique hpreferred'
      rfl

/-- A caption that is moved is not empty. -/
theorem ofList_ne_empty (h : Captioned e.code.toList caption blanks code) :
    String.ofList caption ≠ "" := fun hempty =>
  h.caption_ne_nil (by simpa using congrArg String.toList hempty)

/-- An example that has no caption yet is changed if and only if its text has the form of one
with a caption. Of all such forms the preferred one tells the new caption and the new code.
Other examples are left as they are, and so is an example that has been changed. -/
theorem split_by_grammar (e : Example) :
    (split e ≠ e ↔ e.caption = "" ∧ ∃ caption blanks code,
      Captioned e.code.toList caption blanks code) ∧
    (split e ≠ e → ∃ caption blanks code, Preferred e.code.toList caption blanks code) ∧
    (∀ caption blanks code, e.caption = "" → Preferred e.code.toList caption blanks code →
      split e = ⟨String.ofList caption, String.ofList code⟩) ∧
    split (split e) = split e := by
  by_cases hcaption : e.caption = ""
  · cases hcut : cut? e.code.toList with
    | none =>
        have hkept : split e = e := by rw [split, hcut, ite_self]
        have hnone : ∀ {caption blanks code},
            ¬ Captioned e.code.toList caption blanks code :=
          not_captioned_of_cut? hcut
        refine ⟨iff_of_false (fun h => h hkept) ?_, fun h => absurd hkept h,
          fun _ _ _ _ hpreferred => absurd hpreferred.captioned hnone, by rw [hkept, hkept]⟩
        rintro ⟨-, caption, blanks, code, hcaptioned⟩
        exact hnone hcaptioned
    | some parts =>
        obtain ⟨caption, code⟩ := parts
        obtain ⟨blanks, hpreferred⟩ := exists_preferred_of_cut? hcut
        have hsplit := split_of_preferred hcaption hpreferred
        have hnew : (split e).caption ≠ "" := by
          rw [hsplit]
          exact ofList_ne_empty hpreferred.captioned
        refine ⟨iff_of_true (fun h => hnew (by rw [h, hcaption]))
          ⟨hcaption, _, _, _, hpreferred.captioned⟩,
          fun _ => ⟨_, _, _, hpreferred⟩, fun _ _ _ _ h => split_of_preferred hcaption h,
          split_of_caption hnew⟩
  · have hkept := split_of_caption hcaption
    exact ⟨iff_of_false (fun h => h hkept) fun h => hcaption h.1, fun h => absurd hkept h,
      fun _ _ _ h => absurd h hcaption, by rw [hkept, hkept]⟩

/-- The caption goes on where a closing tag is not followed by the end of a line, and the
last blanks are left as the code if there is nothing else. -/
example :
    split ⟨"", "\n<CAPTION>a</caption> b</Caption>\n\n \n"⟩ = ⟨"a</caption> b", " \n"⟩ := by
  decide +kernel

end Examples
end Caption
end DocLinks
