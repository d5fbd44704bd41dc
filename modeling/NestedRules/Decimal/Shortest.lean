/-!
The shortest decimal that reads back as a given double. A double stands for every real number that
rounds to it; among the decimals of that interval the fewest digits win, and of those the nearest.
-/

namespace NestedRules.Decimal

structure Double where
  significand : Nat
  exponent : Int

structure Scaled where
  digits : Nat
  exponent : Int

/-- The digits without the zeros at their end, and how many places the point stands after the start
    of the first of them. -/
def Scaled.placed (d : Scaled) : List Char × Int :=
  let all := Nat.toDigits 10 d.digits
  ((all.reverse.dropWhile (· = '0')).reverse, all.length + d.exponent)

namespace Double

def ofBits (bits : UInt64) : Double :=
  let fraction := bits.toNat % Nat.pow 2 52
  match bits.toNat / Nat.pow 2 52 % Nat.pow 2 11 with
  | 0 => ⟨fraction, -1074⟩
  | biased => ⟨Nat.pow 2 52 + fraction, (biased : Int) - 1075⟩

/-- The interval of reals that round to a double, in quarters of its last place: the next double below
    a power of two is half as far away as the one above. The ends belong to it when the significand
    is even. -/
def low (x : Double) : Nat :=
  if x.significand = Nat.pow 2 52 ∧ -1074 < x.exponent then 4 * x.significand - 1
  else 4 * x.significand - 2

def high (x : Double) : Nat := 4 * x.significand + 2

def quarter (x : Double) (g : Int) : Nat × Nat :=
  (Nat.pow 2 (x.exponent - 2).toNat * Nat.pow 10 (-g).toNat,
    Nat.pow 2 (2 - x.exponent).toNat * Nat.pow 10 g.toNat)

def rounds (x : Double) (g : Int) (c : Nat) : Bool :=
  let (num, den) := x.quarter g
  if x.significand % 2 = 0 then x.low * num ≤ c * den ∧ c * den ≤ x.high * num
  else x.low * num < c * den ∧ c * den < x.high * num

/-- The multiple of `10 ^ g` nearest to the double, if it is one that rounds to it; the even one of
    two that are equally near. -/
def onGrid? (x : Double) (g : Int) : Option Nat :=
  let (num, den) := x.quarter g
  let value := 4 * x.significand * num
  let below := value / den
  let excess := value - below * den
  let rest := (below + 1) * den - value
  let downFirst := excess < rest || (excess = rest && below % 2 = 0)
  let candidates := if downFirst then [below, below + 1] else [below + 1, below]
  candidates.find? (x.rounds g)

def magnitude (x : Double) : Int :=
  let (num, den) := x.quarter 0
  let value := 4 * x.significand * num
  if den ≤ value then (Nat.toDigits 10 (value / den)).length
  else 1 - ((Nat.toDigits 10 (den / value)).length : Int)

def shortest (x : Double) : Scaled :=
  let grids := (List.range 17).map fun n => x.magnitude - (n + 1 : Nat)
  (grids.findSome? fun g => (x.onGrid? g).map (⟨·, g⟩)).getD ⟨0, 0⟩

end Double

end NestedRules.Decimal
