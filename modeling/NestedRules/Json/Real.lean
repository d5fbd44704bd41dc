import NestedRules.Decimal.Shortest

/-!
How a real number is written: the fewest digits that read back, positional between `1e-5` and `1e16`
and with a point always, in scientific notation with a signed exponent elsewhere.
-/

namespace NestedRules.Json

open NestedRules.Decimal

def zeros (n : Nat) : List Char := List.replicate n '0'

def layOut (digits : List Char) (point : Int) : List Char :=
  if digits.isEmpty then ['0', '.', '0']
  else if digits.length ≤ point ∧ point ≤ 16 then
    digits ++ zeros (point.toNat - digits.length) ++ ['.', '0']
  else if 0 < point ∧ point ≤ 16 then
    digits.take point.toNat ++ '.' :: digits.drop point.toNat
  else if -5 < point ∧ point ≤ 0 then
    '0' :: '.' :: zeros (-point).toNat ++ digits
  else
    let fraction := if digits.length = 1 then [] else '.' :: digits.drop 1
    let sign := if point ≤ 0 then '-' else '+'
    digits.take 1 ++ fraction ++ 'e' :: sign :: Nat.toDigits 10 (point - 1).natAbs

def realText (x : Float) : String :=
  let (digits, point) := (Double.ofBits x.toBits).shortest.placed
  let sign := if x.toBits.toNat < Nat.pow 2 63 then [] else ['-']
  String.ofList (sign ++ layOut digits point)

end NestedRules.Json
