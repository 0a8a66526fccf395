/-!
# Shortest decimals

The decimal with the fewest digits that lies in the interval of numbers rounding to a given
binary one.

**Input.**  A positive binary number `m · 2^q`, and whether the next smaller one is only half
as far away as the next larger one.

**Algorithm.**  The grids `10^k` are tried from coarse to fine.  Of each grid only the two
neighbours of the number have to be looked at: if any point of the grid lies in the interval,
so does one of them.  All comparisons are between natural numbers, after both sides have been
multiplied by the powers of two and ten that clear the denominators.

**Results.**  `shortest?_mem`: the decimal found lies in the interval.
-/

namespace DocLinks
namespace Json
namespace Shortest

/-- A positive binary number `significand · 2^exponent` among its neighbours.  It is narrow
below if the next smaller number is only half as far away as usual. -/
structure Binary where
  significand : Nat
  exponent : Int
  narrowBelow : Bool

namespace Binary

/-- Four times the number, in units of `2^exponent`. -/
def middle (b : Binary) : Nat := 4 * b.significand

/-- Four times the lower end of the interval that rounds to the number. -/
def low (b : Binary) : Nat := 4 * b.significand - if b.narrowBelow then 1 else 2

/-- Four times the upper end of the interval. -/
def high (b : Binary) : Nat := 4 * b.significand + 2

/-- The ends belong to the interval iff the significand is even. -/
def closed (b : Binary) : Bool := b.significand % 2 == 0

/-- The factor of the binary side once denominators are cleared on the grid `10^k`. -/
def binaryFactor (b : Binary) (k : Int) : Nat :=
  Nat.pow 2 (b.exponent - 2).toNat * Nat.pow 10 (-k).toNat

/-- The factor of the decimal side once denominators are cleared on the grid `10^k`. -/
def decimalFactor (b : Binary) (k : Int) : Nat :=
  Nat.pow 10 k.toNat * Nat.pow 2 (2 - b.exponent).toNat

/-- Whether `d · 10^k` rounds to the number. -/
def accepts (b : Binary) (k : Int) (d : Nat) : Bool :=
  let x := d * b.decimalFactor k
  let lo := b.low * b.binaryFactor k
  let hi := b.high * b.binaryFactor k
  if b.closed then lo ≤ x && x ≤ hi else lo < x && x < hi

/-- The nearer of the two grid points `d` and `d + 1` around the number; a tie goes to the
even one. -/
def nearer (b : Binary) (k : Int) (d : Nat) : Nat :=
  let v := b.middle * b.binaryFactor k
  let below := v - d * b.decimalFactor k
  let above := (d + 1) * b.decimalFactor k - v
  if below < above then d
  else if above < below then d + 1
  else if d % 2 == 0 then d else d + 1

/-- The accepted grid point next to the number, if there is one. -/
def onGrid? (b : Binary) (k : Int) : Option Nat :=
  let d := b.middle * b.binaryFactor k / b.decimalFactor k
  if b.accepts k d then
    if b.accepts k (d + 1) then some (b.nearer k d) else some d
  else if b.accepts k (d + 1) then some (d + 1)
  else none

/-- The grids from coarse to fine: every finite number of 64 bits has a hit on one of
them. -/
def grids : List Int :=
  (List.range 660).map fun (i : Nat) => (310 : Int) - i

/-- The digits and the exponent of ten of the shortest decimal. -/
def shortest? (b : Binary) : Option (Nat × Int) :=
  grids.findSome? fun k => (b.onGrid? k).map fun d => (d, k)

theorem accepts_of_onGrid? {b : Binary} {k : Int} {d : Nat} (h : b.onGrid? k = some d) :
    b.accepts k d = true := by
  simp only [onGrid?] at h
  split at h
  · rename_i h0
    split at h
    · rename_i h1
      simp only [Option.some.injEq] at h
      subst h
      simp only [nearer]
      split
      · exact h0
      · split
        · exact h1
        · split
          · exact h0
          · exact h1
    · simp only [Option.some.injEq] at h
      exact h ▸ h0
  · split at h
    · rename_i h1
      simp only [Option.some.injEq] at h
      exact h ▸ h1
    · simp at h

theorem shortest?_mem {b : Binary} {d : Nat} {k : Int} (h : b.shortest? = some (d, k)) :
    b.accepts k d = true := by
  obtain ⟨k', _, hk⟩ := List.exists_of_findSome?_eq_some h
  obtain ⟨d', hd, he⟩ := Option.map_eq_some_iff.1 hk
  obtain ⟨rfl, rfl⟩ := Prod.mk.inj he
  exact accepts_of_onGrid? hd

end Binary

end Shortest
end Json
end DocLinks
