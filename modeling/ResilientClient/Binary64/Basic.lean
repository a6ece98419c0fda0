/-
Numbers in the 64-bit binary floating-point format, held as their bits: the exact value of a word,
rounding of a quotient to the nearest word with ties to even, and the arithmetic built on it.
-/
import ResilientClient.Power

namespace ResilientClient

/-- A word of the 64-bit binary format: a sign bit, eleven exponent bits, 52 fraction bits. -/
structure Binary64 where
  bits : UInt64
deriving DecidableEq, Repr

namespace Binary64

/-- What a word denotes; a finite number is `± mantissa · 2 ^ exponent`. -/
inductive Value where
  | nan
  | infinite (negative : Bool)
  | finite (negative : Bool) (mantissa : Nat) (exponent : Int)
deriving DecidableEq, Repr

/-- The sign bit. -/
def negative (x : Binary64) : Bool := decide (twoTo 63 ≤ x.bits.toNat)

/-- The eleven exponent bits. -/
def exponentField (x : Binary64) : Nat := x.bits.toNat / twoTo 52 % twoTo 11

/-- The fraction bits. -/
def fractionField (x : Binary64) : Nat := x.bits.toNat % twoTo 52

/-- The value of a word. -/
def value (x : Binary64) : Value :=
  if x.exponentField = 2047 then
    if x.fractionField = 0 then .infinite x.negative else .nan
  else if x.exponentField = 0 then .finite x.negative x.fractionField (-1074)
  else .finite x.negative (twoTo 52 + x.fractionField) ((x.exponentField : Int) - 1075)

/-- The word with a given sign and given exponent and fraction bits. -/
def ofFields (negative : Bool) (magnitude : Nat) : Binary64 :=
  ⟨((if negative then twoTo 63 else 0) + magnitude).toUInt64⟩

/-- The one word used for a result that is not a number. -/
def nan : Binary64 := ofFields false (0x7FF8 * twoTo 48)

/-- The magnitude bits of an infinity. -/
def infinityField : Nat := 2047 * twoTo 52

/-- The infinity of a sign. -/
def infinity (negative : Bool) : Binary64 := ofFields negative infinityField

/-- The zero of a sign. -/
def zero (negative : Bool) : Binary64 := ofFields negative 0

/-! ## Rounding -/

/-- A quotient rounded to the nearest integer, a half to the even neighbour. -/
def roundDiv (num den : Nat) : Nat :=
  let q := num / den
  let twice := 2 * (num % den)
  if twice < den then q
  else if den < twice then q + 1
  else q + q % 2

/-- The ratio `num / den · 2 ^ -e` as a quotient of integers. -/
def scaled (num den : Nat) (e : Int) : Nat × Nat :=
  if 0 ≤ e then (num, den * twoTo e.toNat) else (num * twoTo (-e).toNat, den)

/-- The exponent at which the ratio of two positive integers has a 53-bit mantissa, and no less
than the smallest exponent of the format. -/
def scaleOf (num den : Nat) : Int :=
  let guess : Int := (Nat.log2 num : Int) - (Nat.log2 den : Int) - 53
  let (n, d) := scaled num den guess
  max (if n / d < twoTo 53 then guess else guess + 1) (-1074)

/-- The word nearest to `± num / den`, ties to the even mantissa, the infinity beyond the range. -/
def ofRatio (negative : Bool) (num den : Nat) : Binary64 :=
  if num = 0 then zero negative
  else
    let e := scaleOf num den
    let (n, d) := scaled num den e
    let field := (e + 1074).toNat * twoTo 52 + roundDiv n d
    if field < infinityField then ofFields negative field else infinity negative

/-- The word nearest to `± mantissa · 2 ^ exponent`. -/
def ofScaled (negative : Bool) (mantissa : Nat) (exponent : Int) : Binary64 :=
  if 0 ≤ exponent then ofRatio negative (mantissa * twoTo exponent.toNat) 1
  else ofRatio negative mantissa (twoTo (-exponent).toNat)

/-- The word nearest to a natural number. -/
def ofNat (n : Nat) : Binary64 := ofRatio false n 1

/-! ## Arithmetic -/

/-- The word with the opposite sign. -/
def neg (x : Binary64) : Binary64 := ⟨x.bits ^^^ 0x8000000000000000⟩

def isNaN (x : Binary64) : Bool :=
  match x.value with
  | .nan => true
  | _ => false

def isFinite (x : Binary64) : Bool :=
  match x.value with
  | .finite .. => true
  | _ => false

def isInfinite (x : Binary64) : Bool :=
  match x.value with
  | .infinite _ => true
  | _ => false

/-- The word is a zero of either sign. -/
def isZero (x : Binary64) : Bool :=
  match x.value with
  | .finite _ m _ => m == 0
  | _ => false

/-- The rounded product. -/
def mul (x y : Binary64) : Binary64 :=
  match x.value, y.value with
  | .nan, _ => nan
  | _, .nan => nan
  | .infinite s, .infinite t => infinity (s != t)
  | .infinite s, .finite t m _ => if m = 0 then nan else infinity (s != t)
  | .finite s m _, .infinite t => if m = 0 then nan else infinity (s != t)
  | .finite s m e, .finite t n f => ofScaled (s != t) (m * n) (e + f)

/-- The rounded quotient. -/
def div (x y : Binary64) : Binary64 :=
  match x.value, y.value with
  | .nan, _ => nan
  | _, .nan => nan
  | .infinite _, .infinite _ => nan
  | .infinite s, .finite t _ _ => infinity (s != t)
  | .finite s _ _, .infinite t => zero (s != t)
  | .finite s m e, .finite t n f =>
    if n = 0 then (if m = 0 then nan else infinity (s != t))
    else if f ≤ e then ofRatio (s != t) (m * twoTo (e - f).toNat) n
    else ofRatio (s != t) m (n * twoTo (f - e).toNat)

/-- A finite value as an integer number of units `2 ^ unit`, for a unit no larger than its own. -/
def inUnits (negative : Bool) (mantissa : Nat) (exponent unit : Int) : Int :=
  let n : Int := mantissa * twoTo (exponent - unit).toNat
  if negative then -n else n

/-- The rounded sum. -/
def add (x y : Binary64) : Binary64 :=
  match x.value, y.value with
  | .nan, _ => nan
  | _, .nan => nan
  | .infinite s, .infinite t => if s = t then infinity s else nan
  | .infinite s, .finite .. => infinity s
  | .finite .., .infinite t => infinity t
  | .finite s m e, .finite t n f =>
    let unit := min e f
    let sum := inUnits s m e unit + inUnits t n f unit
    if sum = 0 then zero (s && t) else ofScaled (decide (sum < 0)) sum.natAbs unit

instance : Mul Binary64 := ⟨mul⟩
instance : Div Binary64 := ⟨div⟩
instance : Add Binary64 := ⟨add⟩

/-- The numeric order; no word is below or above one that is not a number. -/
def lt (x y : Binary64) : Bool :=
  match x.value, y.value with
  | .nan, _ => false
  | _, .nan => false
  | .infinite s, .infinite t => s && !t
  | .infinite s, .finite .. => s
  | .finite .., .infinite t => !t
  | .finite s m e, .finite t n f =>
    let unit := min e f
    decide (inUnits s m e unit < inUnits t n f unit)

/-- The smaller of two words; one that is not a number gives way to the other. -/
def minimum (x y : Binary64) : Binary64 :=
  if x.isNaN then y else if y.isNaN then x else if lt y x then y else x

/-- The larger of two words; one that is not a number gives way to the other. -/
def maximum (x y : Binary64) : Binary64 :=
  if x.isNaN then y else if y.isNaN then x else if lt x y then y else x

/-- Repeated squaring from the lowest bit of the exponent, collecting factors into `acc`. -/
def powLoop (acc square : Binary64) (n : Nat) : Binary64 :=
  let acc := if n % 2 = 1 then acc * square else acc
  if n / 2 = 0 then acc else powLoop acc (square * square) (n / 2)
termination_by n

/-- A power with a natural exponent, each product rounded. -/
def pow (x : Binary64) (n : Nat) : Binary64 := powLoop (ofNat 1) x n

end Binary64

end ResilientClient
