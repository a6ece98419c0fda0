/-
The shortest decimal that reads back as a given binary number: of the decimals with the fewest
digits in the interval of reals that round to the number, the one nearest to it.
-/
import ResilientClient.Binary64.Basic

namespace ResilientClient.Binary64

/-- A positive quantity `num / den`. -/
structure Ratio where
  num : Nat
  den : Nat

/-- The quantity `n · 2 ^ e`. -/
def Ratio.ofScaled (n : Nat) (e : Int) : Ratio :=
  if 0 ≤ e then ⟨n * twoTo e.toNat, 1⟩ else ⟨n, twoTo (-e).toNat⟩

/-- The quotient by `10 ^ p`. -/
def Ratio.overPow10 (r : Ratio) (p : Int) : Ratio :=
  if 0 ≤ p then ⟨r.num, r.den * tenTo p.toNat⟩ else ⟨r.num * tenTo (-p).toNat, r.den⟩

/-- The decimal exponent of the leading digit. -/
def Ratio.log10 (r : Ratio) : Int :=
  if r.den ≤ r.num then ((Nat.toDigits 10 (r.num / r.den)).length : Int) - 1
  else
    let places := (Nat.toDigits 10 (r.den / r.num)).length
    if r.den ≤ r.num * tenTo (places - 1) then -((places : Int) - 1) else -(places : Int)

/-- A number with the two ends of the interval of reals that round to it, all in quarters of its
own spacing; the ends belong to the interval when the mantissa is even. -/
structure Neighbourhood where
  lower : Ratio
  center : Ratio
  upper : Ratio
  closed : Bool

/-- The neighbourhood of `mantissa · 2 ^ exponent`; the spacing below a power of two is half of
that above it, except at the bottom of the range. -/
def Neighbourhood.of (mantissa : Nat) (exponent : Int) : Neighbourhood :=
  let down := if mantissa = twoTo 52 ∧ -1074 < exponent then 1 else 2
  { lower := .ofScaled (4 * mantissa - down) (exponent - 2)
    center := .ofScaled (4 * mantissa) (exponent - 2)
    upper := .ofScaled (4 * mantissa + 2) (exponent - 2)
    closed := mantissa % 2 == 0 }

/-- Whether `digits · 10 ^ p` rounds to the number. -/
def Neighbourhood.contains (n : Neighbourhood) (digits : Nat) (p : Int) : Bool :=
  let lo := n.lower.overPow10 p
  let hi := n.upper.overPow10 p
  if n.closed then lo.num ≤ digits * lo.den && digits * hi.den ≤ hi.num
  else lo.num < digits * lo.den && digits * hi.den < hi.num

/-- The decimal of the grid `10 ^ p` that rounds to the number, the nearer one if both neighbours
on the grid do, the even one if they are equally near. -/
def Neighbourhood.pick (n : Neighbourhood) (p : Int) : Option Nat :=
  let c := n.center.overPow10 p
  let below := c.num / c.den
  match n.contains below p, n.contains (below + 1) p with
  | true, true => some (roundDiv c.num c.den)
  | true, false => some below
  | false, true => some (below + 1)
  | false, false => none

/-- The first grid from `10 ^ p` downwards, over at most `grids` of them, with a decimal that
rounds to the number. -/
def Neighbourhood.search (n : Neighbourhood) : Nat → Int → Nat × Int
  | 0, p => (n.center.num / n.center.den, p)
  | grids + 1, p =>
    match n.pick p with
    | some digits => (digits, p)
    | none => n.search grids (p - 1)

/-- A decimal with the zeros at the end of its digits moved into the exponent. -/
def stripZeros : Nat → Nat → Int → Nat × Int
  | 0, digits, p => (digits, p)
  | fuel + 1, digits, p =>
    if digits ≠ 0 ∧ digits % 10 = 0 then stripZeros fuel (digits / 10) (p + 1) else (digits, p)

/-- The digits and the exponent of the shortest decimal of `mantissa · 2 ^ exponent`. -/
def shortest (mantissa : Nat) (exponent : Int) : Nat × Int :=
  let n := Neighbourhood.of mantissa exponent
  let (digits, p) := n.search 17 n.center.log10
  stripZeros 20 digits p

end ResilientClient.Binary64
