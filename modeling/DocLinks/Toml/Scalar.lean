import DocLinks.Text.Hexadecimal
import DocLinks.Text.Split
import DocLinks.Toml.Basic

/-!
# Unquoted TOML values

Truth values, numbers, dates and times, each recognised by its spelling alone.

Integers may have 128 bits, with or without a sign.  Floating-point numbers are refused if
they are too large for 64 bits.

Moments have a canonical spelling: a capital mark between date and time, a fraction of at
most nine digits without needless zeros, and a plus sign for no distance to universal time.

**Results.**  `digitRun?_ne_nil`: a run of digits is never empty; `canonicalFraction_ne_nil`:
nor is a canonical fraction.
-/

namespace DocLinks
namespace Toml

/-- A run of digits without the low lines that may stand between two of them. -/
def digitRun? (isDigit : Char → Bool) (s : List Char) : Option (List Char) :=
  let groups := Text.fields (· == '_') s
  if groups.all fun g => !g.isEmpty && g.all isDigit then some groups.flatten else none

theorem digitRun?_ne_nil {isDigit : Char → Bool} {s digits : List Char}
    (h : digitRun? isDigit s = some digits) : digits ≠ [] := by
  simp only [digitRun?, Option.ite_none_right_eq_some, Option.some.injEq] at h
  obtain ⟨hall, rfl⟩ := h
  cases hg : Text.fields (· == '_') s with
  | nil => exact absurd hg (Text.fields_ne_nil _ _)
  | cons g gs =>
      rw [hg] at hall
      simp only [List.all_cons, Bool.and_eq_true, Bool.not_eq_true',
        List.isEmpty_eq_false_iff] at hall
      simp [hall.1.1]

/-- The number that digits of the given base stand for. -/
def naturalOf (base : Nat) (digits : List Char) : Nat :=
  digits.foldl (fun n c => n * base + (Text.hexValue? c).getD 0) 0

/-- The digits of a decimal number without needless zeros at its start. -/
def wholeDigits? (s : List Char) : Option (List Char) :=
  match digitRun? Char.isDigit s with
  | some ('0' :: _ :: _) => none
  | digits => digits

/-- A sign and what follows it. -/
def splitSign : List Char → Bool × List Char
  | '-' :: s => (true, s)
  | '+' :: s => (false, s)
  | s => (false, s)

/-- The class of the digits of a base, and the base, by the letter that introduces it. -/
def base? : Char → Option ((Char → Bool) × Nat)
  | 'x' => some (fun c => (Text.hexValue? c).isSome, 16)
  | 'o' => some (fun c => '0' ≤ c && c ≤ '7', 8)
  | 'b' => some (fun c => c == '0' || c == '1', 2)
  | _ => none

/-- The integer that a text spells, however large. -/
def integerOf? (s : List Char) : Option Int :=
  match s with
  | '0' :: c :: digits =>
      (base? c).bind fun (isDigit, base) =>
        (digitRun? isDigit digits).map fun ds => naturalOf base ds
  | s =>
      let (negative, body) := splitSign s
      (wholeDigits? body).map fun ds =>
        let n : Int := naturalOf 10 ds
        if negative then -n else n

/-- Whether an integer fits 128 bits. -/
def fitsInteger (n : Int) : Bool :=
  -(Nat.pow 2 127 : Int) ≤ n && n < (Nat.pow 2 128 : Int)

/-- The number next to no floating-point number any more: half a step above the largest
one. -/
def floatLimit : Nat := Nat.pow 2 1024 - Nat.pow 2 970

/-- Whether `m · 10^e` is too large for a floating-point number.  The first two questions
only keep the powers of ten small. -/
def isTooLarge (m : Nat) (e : Int) : Bool :=
  let size : Int := (Nat.toDigits 10 m).length + e
  if m = 0 || size < 300 then false
  else if 310 < size then true
  else if 0 ≤ e then floatLimit ≤ m * Nat.pow 10 e.toNat
  else floatLimit * Nat.pow 10 (-e).toNat ≤ m

/-- The exponent that a text spells. -/
def exponent? (s : List Char) : Option Int :=
  let (negative, body) := splitSign s
  (digitRun? Char.isDigit body).map fun ds =>
    let n : Int := naturalOf 10 ds
    if negative then -n else n

/-- Whether a text without a sign spells a number that has a floating-point number next to
it. -/
def isFinite (s : List Char) : Bool :=
  let (mantissa, exponent, hasExponent) :=
    match Text.cutAtFirst (fun c => c == 'e' || c == 'E') s with
    | some (mantissa, exponent) => (mantissa, exponent? exponent, true)
    | none => (s, some 0, false)
  match Text.cutAtFirst (· == '.') mantissa, exponent with
  | some (whole, fraction), some e =>
      match wholeDigits? whole, digitRun? Char.isDigit fraction with
      | some ds, some fs => !isTooLarge (naturalOf 10 (ds ++ fs)) (e - fs.length)
      | _, _ => false
  | none, some e =>
      match wholeDigits? mantissa with
      | some ds => hasExponent && !isTooLarge (naturalOf 10 ds) e
      | none => false
  | _, none => false

/-- Whether a text spells a floating-point number. -/
def isFloat (s : List Char) : Bool :=
  let body := (splitSign s).2
  body == ['i', 'n', 'f'] || body == ['n', 'a', 'n'] || isFinite body

/-- The number that exactly two digits stand for, if it is at most the given one. -/
def twoDigits? (most : Nat) : List Char → Option Nat
  | [a, b] =>
      let n := naturalOf 10 [a, b]
      if a.isDigit && b.isDigit && n ≤ most then some n else none
  | _ => none

/-- The number of days of a month. -/
def daysOfMonth (year month : Nat) : Nat :=
  if month = 2 then
    if year % 4 = 0 && (year % 100 ≠ 0 || year % 400 = 0) then 29 else 28
  else if [4, 6, 9, 11].contains month then 30
  else 31

/-- Whether a text spells a date. -/
def isDate (s : List Char) : Bool :=
  match Text.fields (· == '-') s with
  | [year, month, day] =>
      match twoDigits? 12 month, twoDigits? 31 day with
      | some m, some d =>
          year.length == 4 && year.all Char.isDigit && 1 ≤ m && 1 ≤ d &&
            d ≤ daysOfMonth (naturalOf 10 year) m
      | _, _ => false
  | _ => false

/-- Whether a text spells the seconds of a time; there may be a leap second and a
fraction. -/
def isSeconds (s : List Char) : Bool :=
  match Text.fields (· == '.') s with
  | [seconds] => (twoDigits? 60 seconds).isSome
  | [seconds, fraction] =>
      (twoDigits? 60 seconds).isSome && !fraction.isEmpty && fraction.all Char.isDigit
  | _ => false

/-- Whether a text spells a time; the seconds may be missing. -/
def isTime (s : List Char) : Bool :=
  match Text.fields (· == ':') s with
  | [hours, minutes] => (twoDigits? 23 hours).isSome && (twoDigits? 59 minutes).isSome
  | [hours, minutes, seconds] =>
      (twoDigits? 23 hours).isSome && (twoDigits? 59 minutes).isSome && isSeconds seconds
  | _ => false

/-- Whether a text spells the distance to universal time. -/
def isOffset (s : List Char) : Bool :=
  match Text.fields (· == ':') s with
  | [hours, minutes] => (twoDigits? 23 hours).isSome && (twoDigits? 59 minutes).isSome
  | _ => false

/-- The characters that may introduce the distance to universal time. -/
def isZoneMark (c : Char) : Bool :=
  c == 'Z' || c == 'z' || c == '+' || c == '-'

/-- Whether a text spells a time that may be followed by its distance to universal time. -/
def isZonedTime (s : List Char) : Bool :=
  let time := Text.beforeFirst isZoneMark s
  isTime time &&
    match s.drop time.length with
    | [] => true
    | ['Z'] => true
    | ['z'] => true
    | '+' :: offset => isOffset offset
    | '-' :: offset => isOffset offset
    | _ => false

/-- The characters that may stand between a date and a time. -/
def isTimeMark (c : Char) : Bool :=
  c == 'T' || c == 't' || c == ' '

/-- Whether a text spells a date, a time or both. -/
def isMoment (s : List Char) : Bool :=
  match Text.cutAtFirst isTimeMark s with
  | some (date, time) => isDate date && isZonedTime time
  | none => isDate s || isTime s

/-- The canonical fraction of a second: whole nanoseconds, without the zeros at the end. -/
def canonicalFraction (digits : List Char) : List Char :=
  match ((digits.take 9).reverse.dropWhile (· == '0')).reverse with
  | [] => ['0']
  | digits => digits

/-- The canonical spelling of a time. -/
def canonicalTime (s : List Char) : List Char :=
  match Text.cutAtFirst (· == '.') s with
  | some (whole, fraction) => whole ++ '.' :: canonicalFraction fraction
  | none => s

/-- The canonical spelling of the distance to universal time; no distance has a plus sign. -/
def canonicalZone (s : List Char) : List Char :=
  if s = ['z'] then ['Z']
  else if s = ['-', '0', '0', ':', '0', '0'] then ['+', '0', '0', ':', '0', '0']
  else s

/-- The canonical spelling of a time that may be followed by its distance to universal
time. -/
def canonicalZonedTime (s : List Char) : List Char :=
  let time := Text.beforeFirst isZoneMark s
  canonicalTime time ++ canonicalZone (s.drop time.length)

/-- The canonical spelling of a moment: a capital mark between its date and its time. -/
def canonicalMoment (s : List Char) : List Char :=
  match Text.cutAtFirst isTimeMark s with
  | some (date, time) => date ++ 'T' :: canonicalZonedTime time
  | none => canonicalTime s

theorem canonicalFraction_ne_nil (digits : List Char) : canonicalFraction digits ≠ [] := by
  unfold canonicalFraction
  split
  · simp
  · assumption

/-- The value of an unquoted text. -/
def scalar? (s : List Char) : Option Value :=
  if s = ['t', 'r', 'u', 'e'] then some (.bool true)
  else if s = ['f', 'a', 'l', 's', 'e'] then some (.bool false)
  else
    match integerOf? s with
    | some n => if fitsInteger n then some (.integer n) else none
    | none =>
        if isFloat s then some (.float (String.ofList (s.filter (· != '_'))))
        else if isMoment s then some (.moment (String.ofList (canonicalMoment s)))
        else none

end Toml
end DocLinks
