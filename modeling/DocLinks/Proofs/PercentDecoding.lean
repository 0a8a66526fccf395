import DocLinks.Percent
import DocLinks.Text.Hexadecimal
import DocLinks.Text.Split

/-!
# Percent encoding is undone by decoding

Decoding puts a byte in place of every percent sign with two hexadecimal digits behind it,
leaves all else as it is, and reads the bytes as UTF-8.

**Results.**
* `decode?_encode`: what was encoded is decoded again; so encoding is injective
  (`encode_injective`).
* `not_mem_encode`: what is encoded is gone.
* `mem_encode_hash_iff`, `beforeFirst_encode`: encoding neither makes number signs nor moves
  them.
-/

namespace DocLinks
namespace Percent

/-- The bytes of a text in which percent signs with two digits stand for bytes. -/
def decodeBytes : List Char → List UInt8
  | '%' :: a :: b :: s =>
      match Text.hexValue? a, Text.hexValue? b with
      | some x, some y => UInt8.ofNat (x * 16 + y) :: decodeBytes s
      | _, _ => String.utf8EncodeChar '%' ++ decodeBytes (a :: b :: s)
  | c :: s => String.utf8EncodeChar c ++ decodeBytes s
  | [] => []

/-- The text that percent encoding was applied to, unless its bytes are no text. -/
def decode? (s : List Char) : Option (List Char) :=
  (decodeBytes s).toByteArray.utf8Decode?.map Array.toList

theorem hexValue?_hexDigit (n : Fin 16) : Text.hexValue? (hexDigit n.val) = some n.val := by
  revert n
  decide

theorem decodeBytes_cons {c : Char} (hc : c ≠ '%') (s : List Char) :
    decodeBytes (c :: s) = String.utf8EncodeChar c ++ decodeBytes s := by
  rw [decodeBytes]
  rintro a b t rfl
  exact absurd rfl hc

theorem decodeBytes_encodeByte (b : UInt8) (s : List Char) :
    decodeBytes (encodeByte b ++ s) = b :: decodeBytes s := by
  have hlt : b.toNat < 256 := UInt8.toNat_lt b
  have hhigh := hexValue?_hexDigit ⟨b.toNat / 16, by omega⟩
  have hlow := hexValue?_hexDigit ⟨b.toNat % 16, by omega⟩
  have hvalue : b.toNat / 16 * 16 + b.toNat % 16 = b.toNat := by omega
  rw [encodeByte, List.cons_append, List.cons_append]
  rw [List.cons_append, List.nil_append, decodeBytes]
  rw [hhigh, hlow]
  simp only [hvalue, UInt8.ofNat_toNat]

theorem decodeBytes_flatMap_encodeByte (bytes : List UInt8) (s : List Char) :
    decodeBytes (bytes.flatMap encodeByte ++ s) = bytes ++ decodeBytes s := by
  induction bytes with
  | nil => rfl
  | cons b bytes ih =>
      rw [List.flatMap_cons, List.append_assoc, decodeBytes_encodeByte]
      rw [ih, List.cons_append]

theorem ne_percent_of_isKept {c : Char} (h : isKept c = true) : c ≠ '%' := by
  rintro rfl
  exact absurd h (by decide)

theorem decodeBytes_encodeChar (c : Char) (s : List Char) :
    decodeBytes (encodeChar c ++ s) = String.utf8EncodeChar c ++ decodeBytes s := by
  unfold encodeChar
  split
  · rename_i h
    rw [List.singleton_append, decodeBytes_cons (ne_percent_of_isKept h)]
  · exact decodeBytes_flatMap_encodeByte _ s

theorem decodeBytes_encode (s : List Char) :
    decodeBytes (encode s) = s.flatMap String.utf8EncodeChar := by
  induction s with
  | nil => rfl
  | cons c s ih =>
      rw [encode, List.flatMap_cons, decodeBytes_encodeChar]
      rw [← encode, ih, List.flatMap_cons]

theorem decode?_eq_some_iff {s t : List Char} :
    decode? s = some t ↔ decodeBytes s = t.flatMap String.utf8EncodeChar := by
  have hbytes : (t.flatMap String.utf8EncodeChar).toByteArray = t.utf8Encode := rfl
  rw [decode?, Option.map_eq_some_iff]
  constructor
  · rintro ⟨a, ha, rfl⟩
    have hget := ByteArray.utf8Encode_get_utf8Decode? (b := (decodeBytes s).toByteArray)
      (h := by rw [ha]; rfl)
    rw [← List.toByteArray_inj, hbytes, ← hget]
    simp [ha]
  · intro h
    rw [h, hbytes, List.utf8Decode?_utf8Encode]
    exact ⟨_, rfl, rfl⟩

/-- What was encoded is decoded again. -/
theorem decode?_encode (s : List Char) : decode? (encode s) = some s :=
  decode?_eq_some_iff.2 (decodeBytes_encode s)

theorem encode_injective {s t : List Char} (h : encode s = encode t) : s = t := by
  have hs := decode?_encode s
  rw [h, decode?_encode t] at hs
  exact (Option.some.inj hs).symm

theorem encode_append (s t : List Char) : encode (s ++ t) = encode s ++ encode t :=
  List.flatMap_append

section Pieces

/-- What follows a character that is no hexadecimal digit is decoded on its own. -/
theorem decodeBytes_append {c : Char} (hc : Text.hexValue? c = none) (s t : List Char) :
    decodeBytes (s ++ c :: t) = decodeBytes s ++ decodeBytes (c :: t) := by
  fun_induction decodeBytes s with
  | case1 a b s x y hx hy ih =>
      simp only [List.cons_append, decodeBytes, hx, hy, ih]
  | case2 a b s hab ih =>
      simp only [List.cons_append, decodeBytes] at ih ⊢
      rw [ih, List.append_assoc]
  | case3 a s hs ih =>
      by_cases ha : a = '%'
      · subst ha
        rcases s with _ | ⟨d, _ | ⟨d', s⟩⟩
        · cases t with
          | nil => simp [decodeBytes]
          | cons e t => simp [decodeBytes, hc]
        · simp only [List.cons_append, List.nil_append, decodeBytes, hc] at ih ⊢
          cases hd : Text.hexValue? d <;> simp [ih]
        · exact absurd rfl (hs d d' s rfl)
      · rw [List.cons_append, decodeBytes_cons ha]
        rw [ih, List.append_assoc]
  | case4 => rfl

theorem decodeBytes_of_not_mem {s : List Char} (h : '%' ∉ s) :
    decodeBytes s = s.flatMap String.utf8EncodeChar := by
  induction s with
  | nil => rfl
  | cons c s ih =>
      simp only [List.mem_cons, not_or] at h
      rw [decodeBytes_cons (Ne.symm h.1), ih h.2, List.flatMap_cons]

/-- What stands before and behind a character that is no hexadecimal digit may be left alone
by decoding; then all of it is. -/
theorem decode?_append_of_not_mem {c : Char} (hc : Text.hexValue? c = none) {s t : List Char}
    (hs : decode? s = some s) (ht : '%' ∉ c :: t) :
    decode? (s ++ c :: t) = some (s ++ c :: t) := by
  rw [decode?_eq_some_iff] at hs ⊢
  rw [decodeBytes_append hc, hs]
  rw [decodeBytes_of_not_mem ht, List.flatMap_append]

end Pieces

section Signs

theorem not_mem_encodeByte {c : Char} (hhex : Text.hexValue? c = none)
    (hc : c ≠ '%') (b : UInt8) :
    c ∉ encodeByte b := by
  have hlt : b.toNat < 256 := UInt8.toNat_lt b
  have hdigit : ∀ n : Fin 16, c ≠ hexDigit n.val := by
    rintro n rfl
    rw [hexValue?_hexDigit] at hhex
    cases hhex
  have hhigh := hdigit ⟨b.toNat / 16, by omega⟩
  have hlow := hdigit ⟨b.toNat % 16, by omega⟩
  intro hmem
  simp only [encodeByte, List.mem_cons, List.not_mem_nil, or_false] at hmem
  rcases hmem with h | h | h
  · exact hc h
  · exact hhigh h
  · exact hlow h

/-- A character that is not kept, and is not used for encoding others, is in no encoded
text. -/
theorem not_mem_encode {c : Char} (hkept : isKept c = false) (hhex : Text.hexValue? c = none)
    (hc : c ≠ '%') (s : List Char) : c ∉ encode s := by
  intro hmem
  obtain ⟨d, -, hd⟩ := List.mem_flatMap.1 hmem
  unfold encodeChar at hd
  split at hd
  · rename_i hdkept
    rw [← List.mem_singleton.1 hd, hkept] at hdkept
    cases hdkept
  · obtain ⟨b, -, hb⟩ := List.mem_flatMap.1 hd
    exact not_mem_encodeByte hhex hc b hb

theorem mem_encodeChar_hash {c : Char} (h : '#' ∈ encodeChar c) : c = '#' := by
  unfold encodeChar at h
  split at h
  · exact (List.mem_singleton.1 h).symm
  · obtain ⟨b, -, hb⟩ := List.mem_flatMap.1 h
    exact absurd hb (not_mem_encodeByte (by decide) (by decide) b)

theorem mem_encode_hash_iff {s : List Char} : '#' ∈ encode s ↔ '#' ∈ s := by
  constructor
  · intro h
    obtain ⟨c, hc, hmem⟩ := List.mem_flatMap.1 h
    exact mem_encodeChar_hash hmem ▸ hc
  · intro h
    exact List.mem_flatMap.2 ⟨'#', h, by
      rw [encodeChar_hash]; exact List.mem_singleton_self _⟩

/-- Encoding does not move the first number sign. -/
theorem beforeFirst_encode (s : List Char) :
    Text.beforeFirst (· == '#') (encode s) = encode (Text.beforeFirst (· == '#') s) := by
  induction s with
  | nil => rfl
  | cons c s ih =>
      rw [encode, List.flatMap_cons, ← encode]
      by_cases hc : c = '#'
      · subst hc
        rw [encodeChar_hash]
        rfl
      · have hfree : ∀ x ∈ encodeChar c, (!(x == '#')) = true := by
          intro x hx
          have : x ≠ '#' := by
            rintro rfl
            exact hc (mem_encodeChar_hash hx)
          simpa using this
        unfold Text.beforeFirst at ih ⊢
        rw [List.takeWhile_append_of_pos hfree, ih]
        rw [List.takeWhile_cons_of_pos (by simpa using hc)]
        rfl

end Signs

end Percent
end DocLinks
