import NestedRules.Json.Value

/-!
Reading a number, one character at a time, and the value of what was read. A number without fraction
and exponent is an integer where it fits 64 bits; any other is a real. Its digits count as long as
they fit 64 bits, and the power of ten that is left over is applied to the double next to them.
-/

namespace NestedRules.Json

inductive Numeral.Stage
  | sign | zero | whole | point | fraction | mark | markSign | exponent
  deriving DecidableEq

/-- The part of a number that has been read; digits stand newest first. -/
structure Numeral where
  negative : Bool
  whole : List Nat
  fraction : List Nat
  shrinks : Bool
  exponent : List Nat
  stage : Numeral.Stage

def digit? (c : Char) : Option Nat := if c.isDigit then some (c.toNat - '0'.toNat) else none

namespace Numeral

def empty : Numeral := ⟨false, [], [], false, [], .sign⟩

def start? (c : Char) : Option Numeral :=
  if c = '-' then some { empty with negative := true }
  else
    (digit? c).map fun d =>
      { empty with whole := [d], stage := if d = 0 then .zero else .whole }

inductive Progress
  | more (n : Numeral)
  | ended
  | malformed

def pushWhole (n : Numeral) (d : Nat) : Progress :=
  .more { n with whole := d :: n.whole, stage := if n.stage = .sign ∧ d = 0 then .zero else .whole }

def pushFraction (n : Numeral) (d : Nat) : Progress :=
  .more { n with fraction := d :: n.fraction, stage := .fraction }

def pushExponent (n : Numeral) (d : Nat) : Progress :=
  .more { n with exponent := d :: n.exponent, stage := .exponent }

def isMark (c : Char) : Bool := c = 'e' || c = 'E'

def push (n : Numeral) (c : Char) : Progress :=
  match n.stage, digit? c with
  | .sign, some d | .whole, some d => n.pushWhole d
  | .point, some d | .fraction, some d => n.pushFraction d
  | .mark, some d | .markSign, some d | .exponent, some d => n.pushExponent d
  | .zero, some _ => .malformed
  | .zero, none | .whole, none =>
    if c = '.' then .more { n with stage := .point }
    else if isMark c then .more { n with stage := .mark }
    else .ended
  | .fraction, none => if isMark c then .more { n with stage := .mark } else .ended
  | .mark, none =>
    if c = '+' then .more { n with stage := .markSign }
    else if c = '-' then .more { n with shrinks := true, stage := .markSign }
    else .malformed
  | .exponent, none => .ended
  | .sign, none | .point, none | .markSign, none => .malformed

def isComplete (n : Numeral) : Bool :=
  match n.stage with
  | .zero | .whole | .fraction | .exponent => true
  | .sign | .point | .mark | .markSign => false

/-- Appends digits to a significand as long as it stays below `2 ^ 64`; the number of digits left is
    the second part. -/
def accumulate (significand : Nat) : List Nat → Nat × Nat
  | [] => (significand, 0)
  | d :: ds =>
    let next := significand * 10 + d
    if next < Nat.pow 2 64 then accumulate next ds else (significand, ds.length + 1)

def powerOfTen (e : Nat) : Float := Float.ofScientific 1 false e

def divide (x : Float) (e : Nat) : Float :=
  if e ≤ 308 then x / powerOfTen e
  else if x == 0 then x
  else divide (x / powerOfTen 308) (e - 308)
termination_by e

def scale? (significand : Nat) (e : Int) : Option Float :=
  let x := significand.toUInt64.toFloat
  if e < 0 then some (divide x e.natAbs)
  else if significand = 0 then some x
  else if 308 < e then none
  else
    let y := x * powerOfTen e.toNat
    if y.isInf then none else some y

def value? (n : Numeral) : Option Value :=
  let (significand, dropped) := accumulate 0 n.whole.reverse
  let isInteger := n.fraction.isEmpty && n.exponent.isEmpty && dropped = 0
  if isInteger && !n.negative then some (.integer significand)
  else if isInteger && 0 < significand && significand ≤ Nat.pow 2 63 then
    some (.integer (-(significand : Int)))
  else
    let (significand, ignored) := accumulate significand n.fraction.reverse
    let exponent : Nat := n.exponent.foldr (fun d e => e * 10 + d) 0
    let scale : Int := (dropped : Int) - (n.fraction.length - ignored : Nat)
      + if n.shrinks then -(exponent : Int) else exponent
    (scale? significand scale).map fun x => .real (if n.negative then -x else x)

end Numeral

end NestedRules.Json
