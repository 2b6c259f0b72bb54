import BuildMeta.Failure

/-!
# Binary floating-point numbers

A number that is not an integer is kept with 53 binary digits and an exponent of bounded size.  Every
operation has an exact result, a fraction, which is rounded to the nearest such number, the even one
of two.  What is too large becomes infinite.
-/

namespace BuildMeta

/-- A fraction of natural numbers. -/
structure Fraction where
  num : Nat
  den : Nat
deriving Repr, BEq, DecidableEq, Inhabited

namespace Fraction

/-- The largest natural number that is not above a fraction. -/
def floor (f : Fraction) : Nat := f.num / f.den

/-- The natural number nearest to a fraction, the even one of two. -/
def nearest (f : Fraction) : Nat :=
  let q := f.num / f.den
  let twice := 2 * (f.num % f.den)
  if f.den < twice || (twice == f.den && q % 2 == 1) then q + 1 else q

/-- A fraction divided by a power of a base. -/
def divPow (f : Fraction) (base : Nat) (exponent : Int) : Fraction :=
  if 0 ≤ exponent then ⟨f.num, f.den * Nat.pow base exponent.toNat⟩
  else ⟨f.num * Nat.pow base (-exponent).toNat, f.den⟩

/-- Whether a fraction is below another. -/
def isBelow (f g : Fraction) : Bool := f.num * g.den < g.num * f.den

/-- The distance between two fractions. -/
def distance (f g : Fraction) : Fraction :=
  ⟨(f.num * g.den - g.num * f.den) + (g.num * f.den - f.num * g.den), f.den * g.den⟩

end Fraction

/-- A binary floating-point number. -/
inductive Binary64 where
  /-- A mantissa of at most 53 binary digits times a power of two, with a sign. -/
  | finite (negative : Bool) (mantissa : Nat) (exponent : Int)
  | infinite (negative : Bool)
  /-- The result of an operation that has none. -/
  | nan
deriving Repr, BEq, DecidableEq, Inhabited

namespace Binary64

/-! ## Rounding -/

/-- The exponent of the smallest numbers. -/
def lowestExponent : Int := -1074

/-- The exponent of the largest numbers. -/
def highestExponent : Int := 971

/-- The exponent at which a fraction above zero has a whole part of 53 binary digits, or the lowest
exponent. -/
def exponentOf (f : Fraction) : Int :=
  let guess : Int := Int.ofNat f.num.log2 - Int.ofNat f.den.log2 - 52
  let exponent := if (f.divPow 2 guess).floor < Nat.pow 2 52 then guess - 1 else guess
  if exponent < lowestExponent then lowestExponent else exponent

/-- The number nearest to a fraction with a sign. -/
def round (negative : Bool) (f : Fraction) : Binary64 :=
  if f.num == 0 then finite negative 0 lowestExponent
  else
    let exponent := exponentOf f
    let mantissa := (f.divPow 2 exponent).nearest
    let full := mantissa == Nat.pow 2 53
    let exponent := if full then exponent + 1 else exponent
    if highestExponent < exponent then infinite negative
    else finite negative (if full then Nat.pow 2 52 else mantissa) exponent

/-- The number nearest to a quotient. -/
def ofQuotient (num : Int) (den : Nat) : Binary64 := round (num < 0) ⟨num.natAbs, den⟩

/-- The number nearest to an integer, which may be too large. -/
def ofInt (n : Int) : Except Failure Binary64 :=
  match ofQuotient n 1 with
  | infinite _ => .error .tooLarge
  | x => .ok x

/-! ## Parts -/

/-- Whether a number has a minus sign. -/
def isNegative : Binary64 → Bool
  | finite negative .. => negative
  | infinite negative => negative
  | nan => false

/-- The distance of a finite number from zero. -/
def size? : Binary64 → Option Fraction
  | finite _ mantissa exponent => some ((⟨mantissa, 1⟩ : Fraction).divPow 2 (-exponent))
  | _ => none

/-- The exact value of a finite number as a quotient. -/
def quotient? (x : Binary64) : Option (Int × Nat) :=
  x.size?.map fun f => (if x.isNegative then -Int.ofNat f.num else Int.ofNat f.num, f.den)

/-- Whether a number is zero, of either sign. -/
def isZero : Binary64 → Bool
  | finite _ mantissa _ => mantissa == 0
  | _ => false

/-- The integer that is left of a number without its binary places. -/
def truncate (x : Binary64) : Except Failure Int :=
  match x, x.size? with
  | nan, _ => .error .badValue
  | _, none => .error .tooLarge
  | _, some f => .ok (if x.isNegative then -Int.ofNat f.floor else Int.ofNat f.floor)

/-! ## Comparing -/

/-- Whether a number equals a quotient. -/
def isQuotient (x : Binary64) (num : Int) (den : Nat) : Bool :=
  match x.quotient? with
  | some (n, d) => n * den == num * d
  | none => false

/-- Whether a number equals an integer. -/
def isInt (x : Binary64) (n : Int) : Bool := x.isQuotient n 1

/-- Whether two numbers are equal; zeros of both signs are, and what is not a number equals nothing. -/
def same (x y : Binary64) : Bool :=
  match x, y with
  | infinite a, infinite b => a == b
  | _, _ =>
    match y.quotient? with
    | some (n, d) => x.isQuotient n d
    | none => false

/-! ## Arithmetic -/

/-- The product with a positive integer. -/
def times (x : Binary64) (k : Nat) : Binary64 :=
  match x.quotient? with
  | some (n, d) => ofQuotient (n * k) d
  | none => x

/-- The quotient of a number by a positive integer without its remainder, and the remainder.  Each
step of the division is rounded. -/
def divMod (x : Binary64) (k : Nat) : Binary64 × Binary64 :=
  match x.quotient? with
  | none => (nan, nan)
  | some (n, d) =>
    let rest := n.tmod (k * d)
    let whole := ofQuotient (n - rest) d
    let ratio := match whole.quotient? with
      | some (n, d) => ofQuotient n (d * k)
      | none => whole
    let (ratio, remainder) := if rest < 0
      then (match ratio.quotient? with
        | some (n, d) => ofQuotient (n - d) d
        | none => ratio, ofQuotient (rest + k * d) d)
      else (ratio, ofQuotient rest d)
    let quotient := match ratio.quotient? with
      | some (n, d) =>
        let below := n / d
        ofQuotient (if (d : Int) < 2 * (n - below * d) then below + 1 else below) 1
      | none => ratio
    (quotient, remainder)

end Binary64

end BuildMeta
