import DocLinks.Text.Hexadecimal

/-!
# Quoted texts in TOML

A text stands between two quotes or between two runs of three quotes; only the latter may
contain line breaks.  Between double quotes a backslash starts an escape, between single
quotes it does not.

**Results.**  `escape?_length`, `scanShort_length` and `scanLong_length`: what is left is not
longer than what was given, which is why reading ends.
-/

namespace DocLinks
namespace Toml

/-- Whether a character may stand in a text or a comment: controls may not, the tab aside. -/
def isPlain (c : Char) : Bool :=
  c == '\t' || (0x20 ≤ c.toNat && c.toNat != 0x7F)

/-- The character that a one-letter escape stands for. -/
def letterEscape? : Char → Option Char
  | 'b' => some '\x08'
  | 't' => some '\t'
  | 'n' => some '\n'
  | 'f' => some '\x0c'
  | 'r' => some '\r'
  | 'e' => some '\x1b'
  | '"' => some '"'
  | '\\' => some '\\'
  | _ => none

/-- How many hexadecimal digits follow the letter of an escape. -/
def escapeDigits? : Char → Option Nat
  | 'x' => some 2
  | 'u' => some 4
  | 'U' => some 8
  | _ => none

/-- Reads what follows a backslash. -/
def escape? : List Char → Option (Char × List Char)
  | [] => none
  | c :: s =>
      match letterEscape? c, escapeDigits? c with
      | some x, _ => some (x, s)
      | none, some n =>
          if (s.take n).length = n then
            ((Text.hexNumber? (s.take n)).bind Text.charOfNumber?).map fun x => (x, s.drop n)
          else none
      | none, none => none

theorem escape?_length {s rest : List Char} {x : Char} (h : escape? s = some (x, rest)) :
    rest.length < s.length := by
  cases s with
  | nil => simp [escape?] at h
  | cons c s =>
      simp only [escape?] at h
      split at h
      · simp only [Option.some.injEq, Prod.mk.injEq] at h
        simp [h.2]
      · split at h
        · obtain ⟨_, _, h⟩ := Option.map_eq_some_iff.1 h
          simp only [Prod.mk.injEq] at h
          simp only [← h.2, List.length_drop, List.length_cons]
          omega
        · simp at h
      · simp at h

/-- Puts a character in front of what has been read. -/
def push (c : Char) : List Char × List Char → List Char × List Char
  | (s, rest) => (c :: s, rest)

/-- Whether a character starts an escape between the given quotes. -/
def startsEscape (quote c : Char) : Bool :=
  quote == '"' && c == '\\'

/-- Reads a text up to its closing quote. -/
def scanShort (quote : Char) : List Char → Option (List Char × List Char)
  | [] => none
  | c :: s =>
      if c = quote then some ([], s)
      else if startsEscape quote c then
        match h : escape? s with
        | some (x, rest) =>
            have := escape?_length h
            (scanShort quote rest).map (push x)
        | none => none
      else if isPlain c then (scanShort quote s).map (push c)
      else none
  termination_by s => s.length
  decreasing_by
    · simp only [List.length_cons]
      omega
    · simp

theorem scanShort_length {quote : Char} {s t rest : List Char}
    (h : scanShort quote s = some (t, rest)) : rest.length ≤ s.length := by
  fun_induction scanShort quote s generalizing t with
  | case1 => simp at h
  | case2 =>
      simp only [Option.some.injEq, Prod.mk.injEq] at h
      simp [h.2]
  | case3 c s hc he x rest' hx hlt ih =>
      obtain ⟨⟨t', r'⟩, h', heq⟩ := Option.map_eq_some_iff.1 h
      simp only [push, Prod.mk.injEq] at heq
      have := ih (heq.2 ▸ h')
      simp only [List.length_cons]
      omega
  | case4 => simp at h
  | case5 c s hc he hp ih =>
      obtain ⟨⟨t', r'⟩, h', heq⟩ := Option.map_eq_some_iff.1 h
      simp only [push, Prod.mk.injEq] at heq
      have := ih (heq.2 ▸ h')
      simp only [List.length_cons]
      omega
  | case6 => simp at h

/-- The text without the blanks and line breaks at its start. -/
def skipLines : List Char → List Char
  | ' ' :: s => skipLines s
  | '\t' :: s => skipLines s
  | '\n' :: s => skipLines s
  | '\r' :: '\n' :: s => skipLines s
  | s => s

theorem skipLines_length (s : List Char) : (skipLines s).length ≤ s.length := by
  fun_induction skipLines s <;> simp_all <;> omega

/-- Whether nothing but blanks stands before the next line break. -/
def endsLine : List Char → Bool
  | ' ' :: s => endsLine s
  | '\t' :: s => endsLine s
  | '\n' :: _ => true
  | '\r' :: '\n' :: _ => true
  | _ => false

/-- What follows the closing run of quotes: up to two more quotes right behind it still
belong to the text. -/
def closeLong (quote : Char) : List Char → List Char × List Char
  | [] => ([], [])
  | [c] => if c = quote then ([quote], []) else ([], [c])
  | c :: d :: s =>
      if c = quote then if d = quote then ([quote, quote], s) else ([quote], d :: s)
      else ([], c :: d :: s)

theorem closeLong_length (quote : Char) (s : List Char) :
    (closeLong quote s).2.length ≤ s.length := by
  unfold closeLong
  split
  · simp
  · split <;> simp
  · split
    · split
      · simp only [List.length_cons]
        omega
      · simp
    · simp

/-- Whether a text starts with a run of three quotes. -/
def startsLong (quote : Char) : List Char → Bool
  | a :: b :: c :: _ => a == quote && b == quote && c == quote
  | _ => false

/-- Reads a text up to its closing run of quotes.  A backslash at the end of a line joins it
to the next character that is no blank. -/
def scanLong (quote : Char) : List Char → Option (List Char × List Char)
  | [] => none
  | c :: s =>
      if startsLong quote (c :: s) then some (closeLong quote (s.drop 2))
      else if startsEscape quote c then
        if endsLine s then scanLong quote (skipLines s)
        else
          match h : escape? s with
          | some (x, rest) =>
              have := escape?_length h
              (scanLong quote rest).map (push x)
          | none => none
      else if isPlain c || c == '\n' || (c == '\r' && s.head? == some '\n') then
        (scanLong quote s).map (push c)
      else none
  termination_by s => s.length
  decreasing_by
    · have := skipLines_length s
      simp only [List.length_cons]
      omega
    · simp only [List.length_cons]
      omega
    · simp

theorem scanLong_length {quote : Char} {s t rest : List Char}
    (h : scanLong quote s = some (t, rest)) : rest.length ≤ s.length := by
  fun_induction scanLong quote s generalizing t with
  | case1 => simp at h
  | case2 c s hs =>
      have hl := closeLong_length quote (s.drop 2)
      simp only [Option.some.injEq] at h
      rw [h] at hl
      simp only [List.length_drop] at hl
      simp only [List.length_cons]
      omega
  | case3 c s hs he hl ih =>
      have h1 := ih h
      have h2 := skipLines_length s
      simp only [List.length_cons]
      omega
  | case4 c s hs he hl x rest' hx hlt ih =>
      obtain ⟨⟨t', r'⟩, h', heq⟩ := Option.map_eq_some_iff.1 h
      simp only [push, Prod.mk.injEq] at heq
      have := ih (heq.2 ▸ h')
      simp only [List.length_cons]
      omega
  | case5 => simp at h
  | case6 c s hs he hp ih =>
      obtain ⟨⟨t', r'⟩, h', heq⟩ := Option.map_eq_some_iff.1 h
      simp only [push, Prod.mk.injEq] at heq
      have := ih (heq.2 ▸ h')
      simp only [List.length_cons]
      omega
  | case7 => simp at h

/-- The text without the line break at its start. -/
def dropLineBreak : List Char → List Char
  | '\n' :: s => s
  | '\r' :: '\n' :: s => s
  | s => s

theorem dropLineBreak_length (s : List Char) : (dropLineBreak s).length ≤ s.length := by
  unfold dropLineBreak
  split
  · simp
  · simp only [List.length_cons]
    omega
  · simp

end Toml
end DocLinks
