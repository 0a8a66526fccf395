import DocLinks.Json.Number
import DocLinks.Text.Hexadecimal

/-!
# The tokens of a JSON text

A text is cut into tokens from left to right.  The first place where no token can be read
ends the list with a token that says what is wrong there; what follows is never looked at.

Two kinds of literal are well delimited and still have no value: a text with half of a
surrogate pair, which is its own token, and a number that is too large, which is left to its
numeral.

**Results.**  `step_length`: what is left after a token is shorter, which is why cutting
ends.
-/

namespace DocLinks
namespace Json

/-- What can be wrong with a JSON text: it ends too early, it is not JSON, or it is not of
the wanted form. -/
inductive Problem where
  | cutShort
  | malformed
  | mismatch
  deriving DecidableEq, Repr, Inhabited

/-- A token of a JSON text.  A bad text contains half of a surrogate pair, and a broken one
cannot be read to its end. -/
inductive Token where
  | openArray
  | closeArray
  | openObject
  | closeObject
  | colon
  | comma
  | null
  | bool (b : Bool)
  | numeral (n : Numeral)
  | text (s : String)
  | badText
  | brokenText (p : Problem)
  | broken (p : Problem)
  deriving Inhabited

/-- The blanks that may stand between tokens. -/
def isGap (c : Char) : Bool :=
  c == ' ' || c == '\n' || c == '\t' || c == '\r'

/-- The number of bytes a character takes. -/
def byteWidth (c : Char) : Nat :=
  if c.toNat < 0x80 then 1 else if c.toNat < 0x800 then 2
    else if c.toNat < 0x10000 then 3 else 4

/-- The number of bytes a text takes. -/
def byteLength (s : List Char) : Nat :=
  s.foldl (fun n c => n + byteWidth c) 0

/-- What is wrong with a text where four hexadecimal digits should stand: it is cut short if
not even four bytes are left. -/
def hexProblem (s : List Char) : Problem :=
  if byteLength s < 4 then .cutShort else .malformed

/-- The character that a one-letter escape stands for. -/
def simpleEscape? (c : Char) : Option Char :=
  match c with
  | '"' => some '"'
  | '\\' => some '\\'
  | '/' => some '/'
  | 'b' => some '\x08'
  | 'f' => some '\x0c'
  | 'n' => some '\n'
  | 'r' => some '\r'
  | 't' => some '\t'
  | _ => none

/-- Whether a number is the first half of a surrogate pair. -/
def isHighHalf (n : Nat) : Bool := 0xD800 ≤ n && n ≤ 0xDBFF

/-- Whether a number is the second half of a surrogate pair. -/
def isLowHalf (n : Nat) : Bool := 0xDC00 ≤ n && n ≤ 0xDFFF

/-- The character of a surrogate pair. -/
def joinHalves (high low : Nat) : Char :=
  Char.ofNat (0x10000 + (high - 0xD800) * 0x400 + (low - 0xDC00))

/-- The result of reading a text in quotes.  A bad one is delimited but has no value; the
closing quote of a broken one is not reached. -/
inductive TextScan where
  | done (s : List Char) (rest : List Char)
  | bad (rest : List Char)
  | broken (p : Problem)

namespace TextScan

/-- Puts a character in front of the text. -/
def push (c : Char) : TextScan → TextScan
  | done s rest => done (c :: s) rest
  | bad rest => bad rest
  | broken p => broken p

/-- Takes the value from the text; whatever else is wrong comes later. -/
def spoil : TextScan → TextScan
  | done _ rest => bad rest
  | bad rest => bad rest
  | broken _ => broken .malformed

/-- What follows the closing quote. -/
def rest : TextScan → List Char
  | done _ r => r
  | bad r => r
  | broken _ => []

@[simp] theorem rest_push (c : Char) (t : TextScan) : (t.push c).rest = t.rest := by
  cases t <;> rfl

@[simp] theorem rest_spoil (t : TextScan) : t.spoil.rest = t.rest := by
  cases t <;> rfl

@[simp] theorem rest_done (s r : List Char) : (done s r).rest = r := rfl

@[simp] theorem rest_broken (p : Problem) : (broken p).rest = [] := rfl

end TextScan

/-- Reads a text after its opening quote. -/
def scanText : List Char → TextScan
  | [] => .broken .cutShort
  | '"' :: s => .done [] s
  | ['\\'] => .broken .cutShort
  | '\\' :: 'u' :: a :: b :: c :: d :: s =>
      match Text.hexNumber? [a, b, c, d] with
      | none => .broken (hexProblem (a :: b :: c :: d :: s))
      | some n =>
          if isLowHalf n then (scanText s).spoil
          else if isHighHalf n then
            match s with
            | '\\' :: 'u' :: e :: f :: g :: h :: s' =>
                match Text.hexNumber? [e, f, g, h] with
                | some m =>
                    if isLowHalf m then (scanText s').push (joinHalves n m)
                    else (scanText ('\\' :: 'u' :: e :: f :: g :: h :: s')).spoil
                | none => .broken (hexProblem (e :: f :: g :: h :: s'))
            | '\\' :: 'u' :: s' => .broken (hexProblem s')
            | ['\\'] => .broken .cutShort
            | [] => .broken .cutShort
            | x :: s' => (scanText (x :: s')).spoil
          else (scanText s).push (Char.ofNat n)
  | '\\' :: 'u' :: s => .broken (hexProblem s)
  | '\\' :: c :: s =>
      match simpleEscape? c with
      | some x => (scanText s).push x
      | none => .broken .malformed
  | c :: s => if c.toNat < 0x20 then .broken .malformed else (scanText s).push c
  termination_by s => s.length

/-- What follows the closing quote is shorter than the text. -/
theorem scanText_length (s : List Char) : (scanText s).rest.length ≤ s.length := by
  fun_induction scanText s <;> simp_all <;> omega

/-- The result of reading a number. -/
inductive NumeralScan where
  | done (n : Numeral) (rest : List Char)
  | broken (p : Problem)

/-- What is wrong where a digit should stand. -/
def missingDigit (s : List Char) : Problem :=
  if s.isEmpty then .cutShort else .malformed

/-- The run of digits at the start of a text, as their values, and the rest. -/
def digits (s : List Char) : List Nat × List Char :=
  ((s.takeWhile Char.isDigit).map fun c => c.toNat - 48, s.dropWhile Char.isDigit)

theorem digits_length (s : List Char) : (digits s).2.length ≤ s.length :=
  (List.dropWhile_sublist _).length_le

/-- Reads the exponent of a number, after its mark. -/
def scanExponent (n : Numeral) (s : List Char) : NumeralScan :=
  let (negative, s) :=
    match s with
    | '+' :: s => (false, s)
    | '-' :: s => (true, s)
    | s => (false, s)
  match digits s with
  | ([], rest) => .broken (missingDigit rest)
  | (ds, rest) =>
      let e : Int := Numeral.natural ds
      .done { n with isFloat := true, exponent := if negative then -e else e } rest

/-- Reads what may follow the digits of a number: an exponent. -/
def scanAfterDigits (n : Numeral) : List Char → NumeralScan
  | 'e' :: s => scanExponent n s
  | 'E' :: s => scanExponent n s
  | s => .done n s

/-- Reads what may follow the whole part of a number: a fraction and an exponent. -/
def scanAfterWhole (n : Numeral) : List Char → NumeralScan
  | '.' :: s =>
      match digits s with
      | ([], rest) => .broken (missingDigit rest)
      | (ds, rest) => scanAfterDigits { n with isFloat := true, fraction := ds } rest
  | s => scanAfterDigits n s

/-- Reads a number after its sign. -/
def scanNumeral (negative : Bool) (s : List Char) : NumeralScan :=
  match digits s with
  | ([], rest) => .broken (missingDigit rest)
  | (0 :: _ :: _, _) => .broken .malformed
  | (ds, rest) => scanAfterWhole ⟨negative, ds, [], false, 0⟩ rest

/-- What follows a number. -/
def NumeralScan.rest : NumeralScan → List Char
  | done _ r => r
  | broken _ => []

theorem scanExponent_length (n : Numeral) (s : List Char) :
    (scanExponent n s).rest.length ≤ s.length := by
  have key (t : List Char) (h : t.length ≤ s.length) : (digits t).2.length ≤ s.length :=
    Nat.le_trans (digits_length t) h
  unfold scanExponent
  split
  rename_i negative t heq
  have ht : t.length ≤ s.length := by
    split at heq <;> (obtain ⟨-, rfl⟩ := Prod.mk.inj heq; simp)
  split
  · simp [NumeralScan.rest]
  · rename_i ds rest _ hd
    have := key t ht
    rw [hd] at this
    simpa [NumeralScan.rest] using this

theorem scanAfterDigits_length (n : Numeral) (s : List Char) :
    (scanAfterDigits n s).rest.length ≤ s.length := by
  unfold scanAfterDigits
  split
  · exact Nat.le_trans (scanExponent_length n _) (by simp)
  · exact Nat.le_trans (scanExponent_length n _) (by simp)
  · simp [NumeralScan.rest]

theorem scanAfterWhole_length (n : Numeral) (s : List Char) :
    (scanAfterWhole n s).rest.length ≤ s.length := by
  unfold scanAfterWhole
  split
  · rename_i t
    split
    · simp [NumeralScan.rest]
    · rename_i ds rest _ hd
      have h := digits_length t
      rw [hd] at h
      exact Nat.le_trans (scanAfterDigits_length _ _) (Nat.le_trans h (by simp))
  · exact scanAfterDigits_length n _

theorem scanNumeral_length (negative : Bool) (s : List Char) :
    (scanNumeral negative s).rest.length ≤ (digits s).2.length := by
  unfold scanNumeral
  split
  · simp [NumeralScan.rest]
  · simp [NumeralScan.rest]
  · rename_i ds rest _ _ hd
    exact Nat.le_trans (scanAfterWhole_length _ _) (by simp [hd])

/-- What is wrong where the word `lead` should stand, or what follows it. -/
def scanWord : (lead s : List Char) → Except Problem (List Char)
  | [], s => .ok s
  | _ :: _, [] => .error .cutShort
  | a :: lead, c :: s => if a = c then scanWord lead s else .error .malformed

theorem scanWord_length {lead s rest : List Char} (h : scanWord lead s = .ok rest) :
    rest.length ≤ s.length := by
  induction lead generalizing s with
  | nil =>
      simp only [scanWord, Except.ok.injEq] at h
      simp [h]
  | cons a lead ih =>
      cases s with
      | nil => simp [scanWord] at h
      | cons c s =>
          simp only [scanWord] at h
          split at h
          · exact Nat.le_trans (ih h) (by simp)
          · simp at h

/-- A token, and what follows it unless it ends the reading. -/
structure Step where
  token : Token
  rest : List Char

/-- Reads a literal word after its first letter. -/
def wordStep (word : List Char) (token : Token) (s : List Char) : Step :=
  match scanWord word s with
  | .ok rest => ⟨token, rest⟩
  | .error p => ⟨.broken p, []⟩

/-- Reads a number after its sign, as a token. -/
def numeralStep (negative : Bool) (s : List Char) : Step :=
  match scanNumeral negative s with
  | .done n rest => ⟨.numeral n, rest⟩
  | .broken p => ⟨.broken p, []⟩

/-- Reads a text after its opening quote, as a token. -/
def textStep (s : List Char) : Step :=
  match scanText s with
  | .done t rest => ⟨.text (String.ofList t), rest⟩
  | .bad rest => ⟨.badText, rest⟩
  | .broken p => ⟨.brokenText p, []⟩

/-- Reads the token that starts with the character `c`. -/
def step (c : Char) (s : List Char) : Step :=
  match c with
  | '[' => ⟨.openArray, s⟩
  | ']' => ⟨.closeArray, s⟩
  | '\x7b' => ⟨.openObject, s⟩
  | '\x7d' => ⟨.closeObject, s⟩
  | ':' => ⟨.colon, s⟩
  | ',' => ⟨.comma, s⟩
  | '"' => textStep s
  | '-' => numeralStep true s
  | 'n' => wordStep ['u', 'l', 'l'] .null s
  | 't' => wordStep ['r', 'u', 'e'] (.bool true) s
  | 'f' => wordStep ['a', 'l', 's', 'e'] (.bool false) s
  | c => if c.isDigit then numeralStep false (c :: s) else ⟨.broken .malformed, []⟩

theorem wordStep_length (word : List Char) (token : Token) (s : List Char) :
    (wordStep word token s).rest.length ≤ s.length := by
  unfold wordStep
  split
  · rename_i rest h
    exact scanWord_length h
  · simp

theorem numeralStep_length (negative : Bool) (s : List Char) :
    (numeralStep negative s).rest.length ≤ (digits s).2.length := by
  have h := scanNumeral_length negative s
  unfold numeralStep
  split
  · rename_i hn
    rw [hn] at h
    exact h
  · simp

theorem textStep_length (s : List Char) : (textStep s).rest.length ≤ s.length := by
  have h := scanText_length s
  unfold textStep
  split
  · rename_i ht
    rw [ht] at h
    exact h
  · rename_i ht
    rw [ht] at h
    exact h
  · simp

/-- A step leaves less than it was given. -/
theorem step_length (c : Char) (s : List Char) :
    (step c s).rest.length < (c :: s).length := by
  have word (w : List Char) (t : Token) : (wordStep w t s).rest.length < (c :: s).length :=
    Nat.lt_succ_of_le (wordStep_length w t s)
  unfold step
  split
  · simp
  · simp
  · simp
  · simp
  · simp
  · simp
  · exact Nat.lt_succ_of_le (textStep_length s)
  · exact Nat.lt_succ_of_le (Nat.le_trans (numeralStep_length true s) (digits_length s))
  · exact word _ _
  · exact word _ _
  · exact word _ _
  · split
    · rename_i hd
      have h := numeralStep_length false (c :: s)
      have hdrop : (digits (c :: s)).2 = (digits s).2 := by simp [digits, hd]
      rw [hdrop] at h
      exact Nat.lt_succ_of_le (Nat.le_trans h (digits_length s))
    · simp

/-- The tokens of a text, up to the first place that cannot be read. -/
def tokens : List Char → List Token
  | [] => []
  | c :: s =>
      if isGap c then tokens s
      else (step c s).token :: tokens (step c s).rest
  termination_by s => s.length
  decreasing_by
    · simp
    · exact step_length c s

end Json
end DocLinks
