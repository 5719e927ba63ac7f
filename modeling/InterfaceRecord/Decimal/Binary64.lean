/-
  Non-negative numbers in binary floating point with 53 digits, and rounding to them. All of it is
  exact arithmetic on natural numbers.
-/
namespace InterfaceRecord.Decimal

/-- The number `mantissa * 2 ^ exponent`. -/
structure Binary64 where
  mantissa : Nat
  exponent : Int
deriving DecidableEq, Repr

namespace Binary64

/-- The smallest exponent. -/
def minExponent : Int := -1074

/-- The largest exponent of a mantissa with all 53 digits. -/
def maxExponent : Int := 971

/-- The smallest mantissa with all 53 digits. -/
def leastFull : Nat := 0x10000000000000

def zero : Binary64 := ⟨0, minExponent⟩

/-- `num / den * 2 ^ (-q)` as a fraction. -/
def scale (num den : Nat) (q : Int) : Nat × Nat :=
  if q < 0 then (num * Nat.pow 2 (-q).toNat, den) else (num, den * Nat.pow 2 q.toNat)

/-- The quotient rounded to the nearest integer; a half goes to the even neighbour. -/
def roundQuotient (num den : Nat) : Nat :=
  let m := num / den
  let r := num % den
  if den < 2 * r ∨ (2 * r = den ∧ m % 2 = 1) then m + 1 else m

/-- The exponent of the leading binary digit of `num / den`, for positive numbers. -/
def leadingExponent (num den : Nat) : Int :=
  let k : Int := (num.log2 : Int) - den.log2
  let (n, d) := scale num den k
  if d ≤ n then k else k - 1

/-- The nearest number of this kind, a half going to the even one; nothing if there is none that
large. -/
def ofRatio? (num den : Nat) : Option Binary64 :=
  if num = 0 then some zero
  else
    let q := max (leadingExponent num den - 52) minExponent
    let (n, d) := scale num den q
    let m := roundQuotient n d
    let result : Binary64 := if m = 2 * leastFull then ⟨leastFull, q + 1⟩ else ⟨m, q⟩
    if maxExponent < result.exponent then none else some result

def ofNat? (n : Nat) : Option Binary64 := ofRatio? n 1

/-- The number as a fraction. -/
def ratio (x : Binary64) : Nat × Nat := scale x.mantissa 1 (-x.exponent)

def mul? (x y : Binary64) : Option Binary64 :=
  ofRatio? (x.ratio.1 * y.ratio.1) (x.ratio.2 * y.ratio.2)

/-- The rounded quotient by a number that is not zero. -/
def div? (x y : Binary64) : Option Binary64 :=
  ofRatio? (x.ratio.1 * y.ratio.2) (x.ratio.2 * y.ratio.1)

/-- Divides by `10 ^ exponent`, in steps of at most `10 ^ 308`, each of them rounded. -/
def divPow10? : Nat → Binary64 → Nat → Option Binary64
  | 0, _, _ => some zero
  | fuel + 1, x, exponent =>
    if exponent ≤ 308 then do x.div? (← ofNat? (Nat.pow 10 exponent))
    else if x.mantissa = 0 then some x
    else do divPow10? fuel (← x.div? (← ofNat? (Nat.pow 10 308))) (exponent - 308)

/-- The number written as `significand * 10 ^ exponent`: the significand is rounded first, and the
product or the quotient with the rounded power of ten after that. -/
def ofDecimal? (significand : Nat) (exponent : Int) : Option Binary64 := do
  let x ← ofNat? significand
  if 0 ≤ exponent then
    if exponent ≤ 308 then x.mul? (← ofNat? (Nat.pow 10 exponent.toNat))
    else if x.mantissa = 0 then some x else none
  else divPow10? 4 x (-exponent).toNat

end Binary64

end InterfaceRecord.Decimal
