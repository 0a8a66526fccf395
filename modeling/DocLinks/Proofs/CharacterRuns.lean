import DocLinks.Text.Split
import DocLinks.Text.Word

/-!
# Runs of characters

Where a run of characters of one class ends, and that blanks are no characters of words.

**Results.**
* `isWord_of_isBlank`: no blank is a character of words.
* `run_of_endsIn`: a run ends where no character of its class follows.
* `cutAtFirst_append`, `cutAtFirst_eq_none`: where a cut is made, and when none is.
* `exists_of_append_eq_append`: two ways to split a text compared.
-/

namespace DocLinks
namespace Text

/-- The ranges of the blank characters. -/
def blankRanges : CodeRanges :=
  [(0x09, 0x0D), (0x20, 0x20), (0x85, 0x85), (0xA0, 0xA0), (0x1680, 0x1680),
   (0x2000, 0x200A), (0x2028, 0x2029), (0x202F, 0x202F), (0x205F, 0x205F), (0x3000, 0x3000)]

theorem isBlank_eq_contains (c : Char) : isBlank c = blankRanges.contains c := by
  rw [Bool.eq_iff_iff, CodeRanges.contains_iff]
  simp only [isBlank, blankRanges, Bool.or_eq_true, beq_iff_eq, Bool.and_eq_true,
    decide_eq_true_eq, List.mem_cons, List.not_mem_nil, or_false, exists_eq_or_imp,
    exists_eq_left]
  constructor <;> omega

theorem isAlphanum_iff {c : Char} :
    c.isAlphanum = true ↔ (('A' ≤ c ∧ c ≤ 'Z') ∨ ('a' ≤ c ∧ c ≤ 'z')) ∨
    ('0' ≤ c ∧ c ≤ '9') := by
  have hchar : c.isAlphanum = (decide ('A' ≤ c ∧ c ≤ 'Z') || ('a' ≤ c && c ≤ 'z') ||
      ('0' ≤ c && c ≤ '9')) := rfl
  rw [hchar]
  simp only [Bool.or_eq_true, Bool.and_eq_true, decide_eq_true_eq]

theorem toNat_of_isAsciiWord {c : Char} (h : isAsciiWord c = true) :
    0x30 ≤ c.toNat ∧ c.toNat ≤ 0x7A := by
  have hval : c.toNat = c.val.toNat := rfl
  simp only [isAsciiWord, Bool.or_eq_true, isAlphanum_iff, beq_iff_eq, Char.le_def,
    UInt32.le_iff_toNat_le] at h
  rcases h with ((h | h) | h) | rfl
  · simp at h
    omega
  · simp at h
    omega
  · simp at h
    omega
  · decide

/-- The two tables have no code point in common; they are compared range by range. -/
theorem blankRanges_wordRanges :
    (blankRanges.all fun b => wordRanges.all fun w => Nat.blt b.2 w.1 ||
      Nat.blt w.2 b.1) = true := by
  decide +kernel

theorem isWord_of_isBlank {c : Char} (h : isBlank c = true) : isWord c = false := by
  rw [isBlank_eq_contains, CodeRanges.contains_iff] at h
  obtain ⟨b, hb, hc⟩ := h
  cases hw : isWord c with
  | false => rfl
  | true =>
      simp only [isWord, Bool.or_eq_true, Bool.and_eq_true, CodeRanges.contains_iff] at hw
      rcases hw with hw | ⟨-, w, hw, hcw⟩
      · have hlow : ∀ b ∈ blankRanges, b.2 < 0x30 ∨ 0x7A < b.1 := by decide
        have hword := toNat_of_isAsciiWord hw
        have := hlow b hb
        omega
      · have h := List.all_eq_true.1 (List.all_eq_true.1 blankRanges_wordRanges b hb) w hw
        simp only [Bool.or_eq_true, Nat.blt_eq] at h
        omega

theorem trimStart_append {s t : List Char} (hs : ∀ c ∈ s, isBlank c = true) :
    trimStart (s ++ t) = trimStart t :=
  List.dropWhile_append_of_pos hs

theorem trimStart_of_not_isBlank {c : Char} {s : List Char} (hc : isBlank c = false) :
    trimStart (c :: s) = c :: s := by
  rw [trimStart, List.dropWhile_cons_of_neg (by simp [hc])]

theorem mem_takeWhile {p : Char → Bool} {s : List Char} {c : Char} (h : c ∈ s.takeWhile p) :
    p c = true :=
  List.all_eq_true.1 List.all_takeWhile c h

/-- A run of characters of a class ends where no character of the class follows. -/
theorem run_of_endsIn {p : Char → Bool} {s t : List Char} (hs : ∀ x ∈ s, p x = true)
    (ht : endsIn p t.head? = false) :
    (s ++ t).takeWhile p = s ∧ (s ++ t).dropWhile p = t := by
  rw [List.takeWhile_append_of_pos hs, List.dropWhile_append_of_pos hs]
  cases t with
  | nil => simp
  | cons c t =>
      have hc : p c = false := ht
      rw [List.takeWhile_cons_of_neg (by simp [hc])]
      rw [List.dropWhile_cons_of_neg (by simp [hc])]
      simp

theorem endsIn_dropWhile (p : Char → Bool) (s : List Char) :
    endsIn p (s.dropWhile p).head? = false := by
  cases hs : s.dropWhile p with
  | nil => rfl
  | cons c t =>
      have hhead := List.head?_dropWhile_not p s
      rw [hs] at hhead
      simpa [endsIn] using hhead

theorem cutAtFirst_append {p : Char → Bool} {s t : List Char} {c : Char}
    (hs : ∀ x ∈ s, p x = false) (hc : p c = true) :
    cutAtFirst p (s ++ c :: t) = some (s, t) := by
  induction s with
  | nil => simp [cutAtFirst, hc]
  | cons d s ih =>
      have hd : p d = false := hs d (by simp)
      rw [List.cons_append, cutAtFirst, ih fun x hx => hs x (List.mem_cons_of_mem _ hx)]
      simp [hd]

theorem cutAtFirst_eq_none {p : Char → Bool} {s : List Char} (h : cutAtFirst p s = none) :
    ∀ x ∈ s, p x = false := by
  induction s with
  | nil => simp
  | cons c s ih =>
      rw [cutAtFirst] at h
      split at h
      · simp at h
      · rename_i hc
        rw [Option.map_eq_none_iff] at h
        intro x hx
        rcases List.mem_cons.1 hx with rfl | hx
        · simpa using hc
        · exact ih h x hx

/-- What is left of a text, if it is not shorter than what was added to it, ends in that. -/
theorem exists_of_append_eq_append {s q u x : List Char} (h : s ++ q = u ++ x)
    (hlen : q.length ≤ x.length) : ∃ y, x = y ++ q ∧ s = u ++ y := by
  rcases List.append_eq_append_iff.1 h with ⟨w, rfl, hw⟩ | ⟨w, rfl, hw⟩
  · have hlen' := congrArg List.length hw
    rw [List.length_append] at hlen'
    have hnil : w = [] := List.eq_nil_of_length_eq_zero (by omega)
    subst hnil
    exact ⟨[], hw.symm, by simp⟩
  · exact ⟨w, hw, rfl⟩

end Text

end DocLinks
