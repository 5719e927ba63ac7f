/-
  The shortest decimal that is read back as the same binary number, and how it is written.
-/
import InterfaceRecord.Decimal.Binary64

namespace InterfaceRecord.Decimal

/-- The number `digits * 10 ^ exponent`. -/
structure Scientific where
  digits : Nat
  exponent : Int
deriving DecidableEq, Repr

namespace Binary64

/-- The ends of the interval of numbers that are rounded to `x`, over the common denominator that
comes last. -/
def interval (x : Binary64) : Nat × Nat × Nat :=
  let (n, d) := scale (4 * x.mantissa) 1 (-(x.exponent - 2))
  let (unit, _) := scale 1 1 (-(x.exponent - 2))
  let below := if x.mantissa = leastFull ∧ minExponent < x.exponent then unit else 2 * unit
  (n - below, n + 2 * unit, d)

/-- The exponent of the leading decimal digit of `num / den`, for positive numbers. -/
def leadingPower (num den : Nat) : Int :=
  if den ≤ num then ((Nat.toDigits 10 (num / den)).length : Int) - 1
  else -(((List.range 400).find? fun j => den ≤ num * Nat.pow 10 j).getD 400 : Int)

/-- The grid point `d * 10 ^ k` nearest to `x` among those that are read back as `x`, if one is. -/
def onGrid? (x : Binary64) (k : Int) : Option Nat :=
  let (n, d) := x.ratio
  let (low, high, common) := x.interval
  let tens (c : Nat) : Nat × Nat :=
    if k < 0 then (c, Nat.pow 10 (-k).toNat) else (c * Nat.pow 10 k.toNat, 1)
  let inside (c : Nat) : Bool :=
    let (a, b) := tens c
    let (l, m, h) := (low * b, a * common, high * b)
    if x.mantissa % 2 = 0 then l ≤ m && m ≤ h else l < m && m < h
  let down := if k < 0 then n * Nat.pow 10 (-k).toNat / d else n / (d * Nat.pow 10 k.toNat)
  let distance (c : Nat) : Nat :=
    let (a, b) := tens c
    if n * b < a * d then a * d - n * b else n * b - a * d
  match inside down, inside (down + 1) with
  | true, true =>
    some (if distance (down + 1) < distance down ∨
      (distance (down + 1) = distance down ∧ down % 2 = 1) then down + 1 else down)
  | true, false => some down
  | false, true => some (down + 1)
  | false, false => none

end Binary64

/-- Moves zeros at the end of the digits into the exponent, at most `fuel` of them. -/
def Scientific.trim : Nat → Scientific → Scientific
  | 0, x => x
  | fuel + 1, x =>
    if x.digits ≠ 0 ∧ x.digits % 10 = 0 then trim fuel ⟨x.digits / 10, x.exponent + 1⟩ else x

/-- The decimal with the fewest digits that is read back as `x`. -/
def shortest (x : Binary64) : Scientific :=
  if x.mantissa = 0 then ⟨0, 0⟩
  else
    let (n, d) := x.ratio
    let top := Binary64.leadingPower n d
    let found := (List.range 17).findSome? fun (i : Nat) =>
      (x.onGrid? (top - (i : Int))).map fun digits => Scientific.mk digits (top - (i : Int))
    (found.getD ⟨n / d, 0⟩).trim 400

/-- How a decimal is written: with a point if it stands within the first sixteen digits or behind
at most four zeros, and with an exponent otherwise. -/
def Scientific.text (x : Scientific) : String :=
  let digits := Nat.toDigits 10 x.digits
  let length : Int := digits.length
  let point := length + x.exponent
  let zeros (n : Int) : List Char := List.replicate n.toNat '0'
  String.ofList <|
    if x.digits = 0 then ['0', '.', '0']
    else if 0 ≤ x.exponent ∧ point ≤ 16 then digits ++ zeros x.exponent ++ ['.', '0']
    else if 0 < point ∧ point ≤ 16 then digits.take point.toNat ++ ['.'] ++ digits.drop point.toNat
    else if -5 < point ∧ point ≤ 0 then ['0', '.'] ++ zeros (-point) ++ digits
    else
      let tail := if digits.length = 1 then [] else '.' :: digits.drop 1
      digits.take 1 ++ tail ++ ['e'] ++ (toString (point - 1)).toList

end InterfaceRecord.Decimal
