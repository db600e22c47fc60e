/-!
# Numbers

The number of a literal is a binary64 value. A finite one is a sign and a whole multiple of the
least positive value, `2 ^ (-1074)`, so every finite value is exact and all arithmetic on it is
arithmetic of natural numbers.

* `Number`: the values.
* `Number.ofRatio`: the value nearest to a ratio, ties to the even neighbour, overflow to infinity.
-/

namespace Lox

/-- **A binary64 value.** `finite s u` is `u * 2 ^ (-1074)`, negated when `s` holds; there are two
zeros. -/
inductive Number where
  | nan
  | infinite (negative : Bool)
  | finite (negative : Bool) (units : Nat)
  deriving DecidableEq, Repr, Inhabited

namespace Number

/-- The binary exponent of the unit: `finite false (2 ^ unitExponent)` is one. -/
def unitExponent : Nat := 1074

/-- The units of `2 ^ 1024`, the first magnitude that no finite value reaches. -/
def overflowUnits : Nat := Nat.pow 2 (1024 + unitExponent)

/-- `num / den` to the nearest whole number, a half to the even one. -/
def roundHalfEven (num den : Nat) : Nat :=
  let q := num / den
  let r := num % den
  if 2 * r < den then q
  else if den < 2 * r then q + 1
  else q + q % 2

/-- The distance between neighbouring values at magnitude `units`: one unit up to `2 ^ 53`, and
then such that 53 binary digits remain. -/
def spacing (units : Nat) : Nat :=
  Nat.pow 2 (units.log2 - 52)

/-- **The value nearest to `num / den` units**, ties to the neighbour whose last digit is even. -/
def ofRatio (negative : Bool) (num den : Nat) : Number :=
  let step := spacing (num / den)
  let units := roundHalfEven num (den * step) * step
  if units < overflowUnits then .finite negative units else .infinite negative

end Number

end Lox
