import Lox.Number.Basic

/-!
# Writing numbers

A number is written with the fewest significant digits that read back as the same value, never with
an exponent. Among texts of that length the one nearest to the value is taken, and of two equally
near ones that with an even last digit.

* `Number.shortest`: the digits.
* `Number.text`: the whole text, with sign and special values.
-/

namespace Lox.Number

/-- `digits * 10 ^ exponent`. -/
structure Decimal where
  digits : Nat
  exponent : Int
  deriving DecidableEq, Repr, Inhabited

/-- **The texts that read back as a value**, as an interval in halves of a unit around twice its
units. -/
structure Neighbourhood where
  /-- Twice the units of the value. -/
  centre : Nat
  low : Nat
  high : Nat
  /-- The ends themselves round to the value. -/
  closed : Bool
  deriving Repr

/-- Half the way to each neighbour. Below a power of two the neighbour is only half as far, down to
the least spacing. The ends belong to the value whose last binary digit is even. -/
def neighbourhood (units : Nat) : Neighbourhood :=
  let above := spacing units
  let below := if units == Nat.pow 2 52 * above then spacing (units - 1) else above
  { centre := 2 * units, low := 2 * units - below, high := 2 * units + above,
    closed := units / above % 2 == 0 }

/-- `d * 10 ^ exponent` lies in the neighbourhood. Both sides of each comparison are scaled by the
same power of ten to be whole. -/
def Neighbourhood.contains (n : Neighbourhood) (exponent : Int) (d : Nat) : Bool :=
  let scale := Nat.pow 10 (-exponent).toNat
  let point := d * Nat.pow 10 exponent.toNat * Nat.pow 2 (unitExponent + 1)
  if n.closed then n.low * scale ≤ point && point ≤ n.high * scale
  else n.low * scale < point && point < n.high * scale

/-- The best multiple of `10 ^ exponent` in the neighbourhood: of the two multiples around the
centre, the nearer one that lies in it. -/
def Neighbourhood.onGrid? (n : Neighbourhood) (exponent : Int) : Option Nat :=
  let num := n.centre * Nat.pow 10 (-exponent).toNat
  let den := Nat.pow 10 exponent.toNat * Nat.pow 2 (unitExponent + 1)
  let nearest := roundHalfEven num den
  let other := if nearest * den ≤ num then nearest + 1 else nearest - 1
  if n.contains exponent nearest then some nearest
  else if n.contains exponent other then some other
  else none

/-- The first hit on the grids `10 ^ exponent`, `10 ^ (exponent - 1)` and so on, `tries` of them;
the nearest point of the last one if there is none. -/
def Neighbourhood.search (n : Neighbourhood) : (tries : Nat) → (exponent : Int) → Decimal
  | 0, exponent =>
    ⟨roundHalfEven (n.centre * Nat.pow 10 (-exponent).toNat)
      (Nat.pow 10 exponent.toNat * Nat.pow 2 (unitExponent + 1)), exponent⟩
  | tries + 1, exponent =>
    match n.onGrid? exponent with
    | some d => ⟨d, exponent⟩
    | none => n.search tries (exponent - 1)

/-- The least `k` with the value below `10 ^ k`, for a value that is not zero: its whole digits
after a shift by 324 places, which makes every value at least one. -/
def decimalMagnitude (units : Nat) : Int :=
  (Nat.toDigits 10 (units * Nat.pow 10 324 / Nat.pow 2 unitExponent)).length - 324

/-- **The shortest digits** of a value that is not zero. Seventeen significant digits tell any two
values apart, so seventeen grids below the magnitude suffice. -/
def shortest (units : Nat) : Decimal :=
  (neighbourhood units).search 17 (decimalMagnitude units)

/-- A decimal in positional form: zeros are written out, and a point only before a fraction. -/
def Decimal.positional (d : Decimal) : List Char :=
  let digits := Nat.toDigits 10 d.digits
  let places := (-d.exponent).toNat
  if places == 0 then digits ++ List.replicate d.exponent.toNat '0'
  else if places < digits.length then
    digits.take (digits.length - places) ++ '.' :: digits.drop (digits.length - places)
  else '0' :: '.' :: (List.replicate (places - digits.length) '0' ++ digits)

/-- The text of a magnitude. -/
def magnitudeText (units : Nat) : List Char :=
  if units == 0 then ['0'] else (shortest units).positional

/-- **The text of a number.** -/
def text : Number → String
  | .nan => "NaN"
  | .infinite true => "-Inf"
  | .infinite false => "+Inf"
  | .finite true units => String.ofList ('-' :: magnitudeText units)
  | .finite false units => String.ofList (magnitudeText units)

end Lox.Number
