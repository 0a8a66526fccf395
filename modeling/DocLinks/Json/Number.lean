import DocLinks.Json.Shortest

/-!
# JSON numbers

A numeral is the text of a number, cut into its digits.  Its value is an integer if it is
written as one and fits 64 bits, and otherwise a floating-point number; a numeral that is too
large for both has no value.

**Reading.**  Up to 64 bits of digits are kept as one integer, what does not fit only counts
towards the exponent, and the product with a power of ten is rounded once more.

**Writing.**  A floating-point number is written with the fewest digits that read back, and
always with a point or an exponent.
-/

namespace DocLinks
namespace Json

/-- The value of a number: an integer between `-2^63` and `2^64 - 1`, or a finite
floating-point number. -/
inductive Number where
  | integer (n : Int)
  | float (x : Float)
  deriving Inhabited

/-- The text of a number, cut into its parts: the sign, the digits before and after the
point, and the exponent, which is zero if there is none.  With a point or an exponent it is a
float. -/
structure Numeral where
  negative : Bool
  whole : List Nat
  fraction : List Nat
  isFloat : Bool
  exponent : Int
  deriving Inhabited, DecidableEq, Repr

namespace Numeral

/-- One more than the largest unsigned integer of 64 bits. -/
def wordLimit : Nat := Nat.pow 2 64

/-- Appends digits to a significand as long as it fits a word, and gives the digits left
over. -/
def takeFitting (significand : Nat) : List Nat → Nat × List Nat
  | [] => (significand, [])
  | d :: ds =>
      if significand * 10 + d < wordLimit then takeFitting (significand * 10 + d) ds
      else (significand, d :: ds)

/-- The floating-point number next to a power of ten. -/
def powerOfTen (k : Nat) : Float :=
  Float.ofScientific 1 false k

/-- The largest exponent of ten that has a floating-point number next to it. -/
def maxPower : Nat := 308

/-- Divides by a power of ten, in several steps if the power itself is too large. -/
def scaleDown (f : Float) (k : Nat) : Float :=
  if k ≤ maxPower then f / powerOfTen k
  else if f == 0.0 then f
  else scaleDown (f / powerOfTen maxPower) (k - maxPower)
  termination_by k
  decreasing_by
    rename_i h _
    simp only [maxPower] at h ⊢
    omega

/-- Multiplies with a power of ten, unless the result is too large. -/
def scaleUp? (f : Float) (k : Nat) : Option Float :=
  if k ≤ maxPower then
    let g := f * powerOfTen k
    if g.isInf then none else some g
  else if f == 0.0 then some f
  else none

/-- The floating-point number `significand · 10^exponent`, unless it is too large. -/
def scale? (significand : Nat) (exponent : Int) : Option Float :=
  let f := significand.toUInt64.toFloat
  if 0 ≤ exponent then scaleUp? f exponent.toNat else some (scaleDown f (-exponent).toNat)

/-- The floating-point value of a numeral. -/
def float? (n : Numeral) : Option Float :=
  let (whole, dropped) := takeFitting 0 n.whole
  let (significand, rest) := takeFitting whole n.fraction
  let taken : Int := (n.fraction.length - rest.length : Nat)
  (scale? significand (dropped.length - taken + n.exponent)).map fun f =>
    if n.negative then -f else f

/-- The digits as one natural number. -/
def natural (digits : List Nat) : Nat :=
  digits.foldl (fun n d => n * 10 + d) 0

/-- The integer value of a numeral, if it is written as an integer that fits 64 bits.  A
negative zero is no integer. -/
def integer? (n : Numeral) : Option Int :=
  let m := natural n.whole
  if n.isFloat then none
  else if n.negative then
    if 0 < m && m ≤ Nat.pow 2 63 then some (-(m : Int)) else none
  else if m < wordLimit then some m
  else none

/-- The value of a numeral, unless it is too large. -/
def value? (n : Numeral) : Option Number :=
  match n.integer? with
  | some i => some (.integer i)
  | none => n.float?.map .float

/-- The numeral of an integer. -/
def ofInt (n : Int) : Numeral :=
  ⟨n < 0, (Nat.toDigits 10 n.natAbs).map fun c => c.toNat - 48, [], false, 0⟩

end Numeral

/-- How a floating-point number is laid out.  Decimal exponents from `plainFrom` on and below
`plainBelow` are written positionally, and a whole number ends with `wholeEnd` then.  The two
marks introduce exponents. -/
structure FloatLayout where
  plainFrom : Int
  plainBelow : Int
  wholeEnd : List Char
  exponentMark : List Char
  negativeExponentMark : List Char

/-- Positional from a hundred-thousandth up to ten quadrillion, whole numbers with `.0`,
exponents with their sign. -/
def floatLayout : FloatLayout :=
  ⟨-5, 16, ['.', '0'], ['e', '+'], ['e', '-']⟩

namespace FloatLayout

/-- Writes `digits · 10^k`, where the digits are neither empty nor start with zero. -/
def write (l : FloatLayout) (digits : List Char) (k : Int) : List Char :=
  let point := digits.length + k
  let exponent := point - 1
  if l.plainFrom ≤ exponent && exponent < l.plainBelow then
    if 0 ≤ k then digits ++ List.replicate k.toNat '0' ++ l.wholeEnd
    else if 0 < point then digits.take point.toNat ++ '.' :: digits.drop point.toNat
    else ['0', '.'] ++ List.replicate (-point).toNat '0' ++ digits
  else
    let mark := if 0 ≤ exponent then l.exponentMark else l.negativeExponentMark
    let mantissa :=
      match digits with
      | d :: e :: rest => d :: '.' :: e :: rest
      | _ => digits
    mantissa ++ mark ++ Nat.toDigits 10 exponent.natAbs

end FloatLayout

/-- A finite floating-point number without its sign, as a significand and an exponent of
two. -/
def binaryOfFloat (x : Float) : Shortest.Binary :=
  let bits : Nat := x.toBits.toNat % Nat.pow 2 63
  let field : Nat := bits / Nat.pow 2 52
  let low : Nat := bits % Nat.pow 2 52
  if field == 0 then ⟨low, -1074, false⟩
  else ⟨Nat.pow 2 52 + low, (field : Int) - 1075, low == 0 && 1 < field⟩

/-- The text of a floating-point number. -/
def writeFloat (x : Float) : List Char :=
  let sign := if Nat.pow 2 63 ≤ x.toBits.toNat then ['-'] else []
  let b := binaryOfFloat x
  let digits :=
    match if b.significand == 0 then none else b.shortest? with
    | some (d, k) => floatLayout.write (Nat.toDigits 10 d) k
    | none => '0' :: floatLayout.wholeEnd
  sign ++ digits

/-- The text of a number. -/
def Number.write : Number → List Char
  | .integer n => (if n < 0 then ['-'] else []) ++ Nat.toDigits 10 n.natAbs
  | .float x => writeFloat x

end Json
end DocLinks
