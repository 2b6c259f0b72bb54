import BuildMeta.Binary64.Basic

/-!
# Decimal texts of binary floating-point numbers

A number is written with the fewest decimal digits that read back as the same number, or with a given
count of digits.  Digits are always those of the exact value, rounded to the nearest.
-/

namespace BuildMeta

/-- A decimal number between zero and one, by the digits after its point, times a power of ten. -/
structure Decimal where
  digits : List Char
  exponent : Int
deriving Repr, BEq, DecidableEq, Inhabited

namespace Decimal

/-- Zeros. -/
def zeros (n : Nat) : List Char := List.replicate n '0'

/-- The decimal number `n / 10 ^ places * 10 ^ exponent`. -/
def ofNat (n places : Nat) (exponent : Int) : Decimal :=
  let digits := Nat.toDigits 10 n
  ⟨digits, exponent + (Int.ofNat digits.length - Int.ofNat places)⟩

/-- A decimal number without the zeros at its end; one digit is left. -/
def trimmed (d : Decimal) : Decimal :=
  match (d.digits.reverse.dropWhile (· == '0')).reverse with
  | [] => ⟨['0'], 1⟩
  | digits => ⟨digits, d.exponent⟩

/-- The digits before the point and those after it. -/
def parts (d : Decimal) : List Char × List Char :=
  if d.exponent ≤ 0 then (['0'], zeros (-d.exponent).toNat ++ d.digits)
  else
    let n := d.exponent.toNat
    (d.digits.take n ++ zeros (n - d.digits.length), d.digits.drop n)

/-- Two parts with a point between them; without digits after it the point stands only if `always`. -/
def pointed (always : Bool) (whole places : List Char) : List Char :=
  if places.isEmpty && !always then whole else whole ++ '.' :: places

/-- A decimal number in full. -/
def positional (always : Bool) (d : Decimal) : List Char := pointed always d.parts.1 d.parts.2

/-- The exponent of a number, with a sign and two digits at least. -/
def exponentText (e : Int) : List Char :=
  let digits := Nat.toDigits 10 e.natAbs
  ['e', if e < 0 then '-' else '+'] ++ zeros (2 - digits.length) ++ digits

/-- A decimal number with one digit before its point and an exponent. -/
def scientific (always : Bool) (d : Decimal) : List Char :=
  pointed always (d.digits.take 1) (d.digits.drop 1) ++ exponentText (d.exponent - 1)

end Decimal

namespace Fraction

/-- The smallest exponent at which a power of ten is above a fraction above zero. -/
def decimalExponent (f : Fraction) : Int :=
  let low : Int := (Int.ofNat f.num.log2 - Int.ofNat f.den.log2 - 1) * 30103 / 100000
  (List.range 3).foldl (fun e _ =>
    if (f.divPow 10 e).isBelow ⟨1, 1⟩ then e else e + 1) low

/-- A fraction above zero, rounded to a count of decimal digits. -/
def toDecimal (f : Fraction) (count : Nat) : Decimal :=
  let exponent := f.decimalExponent
  .ofNat (f.divPow 10 (exponent - count)).nearest count exponent

end Fraction

namespace Binary64

/-! ## Reading -/

/-- The number nearest to the decimal number that digits, decimal places and an exponent write. -/
def ofDecimal (negative : Bool) (whole places : List Char) (exponent : Int) : Binary64 :=
  let digits := (whole ++ places).dropWhile (· == '0')
  let exponent := exponent - Int.ofNat places.length
  let top := exponent + Int.ofNat digits.length
  if digits.isEmpty || top < -330 then round negative ⟨0, 1⟩
  else if 310 < top then infinite negative
  else
    let n := digits.foldl (fun n c => 10 * n + (c.toNat - '0'.toNat)) 0
    round negative ((⟨n, 1⟩ : Fraction).divPow 10 (-exponent))

/-! ## Writing -/

/-- The decimal numbers with a count of digits next to a number above zero that read back as it. -/
def faithful (x : Binary64) (f : Fraction) (exponent : Int) (count : Nat) : List Nat :=
  let low := (f.divPow 10 (exponent - count)).floor
  [low, low + 1].filter fun n =>
    round x.isNegative ((⟨n, 1⟩ : Fraction).divPow 10 (count - exponent)) == x

/-- The nearer of the decimal numbers next to a number. -/
def nearer (f : Fraction) (exponent : Int) (count : Nat) : List Nat → Option Nat
  | [] => none
  | [n] => some n
  | low :: _ =>
    let n := (f.divPow 10 (exponent - count)).nearest
    some (if n == low then low else low + 1)

/-- The shortest decimal number that reads back as a number above zero. -/
def shortest (x : Binary64) (f : Fraction) : Decimal :=
  let exponent := f.decimalExponent
  let found := (List.range 17).findSome? fun k =>
    (nearer f exponent (k + 1) (x.faithful f exponent (k + 1))).map fun n =>
      (Decimal.ofNat n (k + 1) exponent).trimmed
  found.getD (f.toDecimal 17).trimmed

/-- A number as `write` writes its distance from zero, with its sign. -/
def signed (x : Binary64) (write : Fraction → List Char) : String :=
  match x, x.size? with
  | nan, _ => "nan"
  | _, none => if x.isNegative then "-inf" else "inf"
  | _, some f => String.ofList ((if x.isNegative then ['-'] else []) ++ write f)

/-- A number with the fewest digits that read back as it: in full with one decimal place at least, or
with an exponent if it is very small or large. -/
def text (x : Binary64) : String :=
  x.signed fun f =>
    if f.num == 0 then ['0', '.', '0']
    else
      let d := x.shortest f
      if -4 < d.exponent && d.exponent ≤ 16 then
        d.parts.1 ++ '.' :: (if d.parts.2.isEmpty then ['0'] else d.parts.2)
      else d.scientific false

/-- A number in full with a count of decimal places. -/
def fixed (places : Nat) (always : Bool) (x : Binary64) : String :=
  x.signed fun f =>
    let digits := Nat.toDigits 10 (f.divPow 10 (-Int.ofNat places)).nearest
    let digits := Decimal.zeros (places + 1 - digits.length) ++ digits
    let n := digits.length - places
    Decimal.pointed always (digits.take n) (digits.drop n)

/-- The decimal digits of a number; those of zero are zeros. -/
def decimal (count : Nat) (f : Fraction) : Decimal :=
  if f.num == 0 then ⟨Decimal.zeros count, 1⟩
  else
    let d := f.toDecimal count
    ⟨d.digits.take count, d.exponent⟩

/-- A number with one digit before its point, a count of decimal places and an exponent. -/
def scientific (places : Nat) (always : Bool) (x : Binary64) : String :=
  x.signed fun f => (decimal (places + 1) f).scientific always

/-- A number with a count of digits, in full or with an exponent, whichever is shorter.  Zeros at its
end stand only if `always`. -/
def general (precision : Nat) (always : Bool) (x : Binary64) : String :=
  x.signed fun f =>
    let count := if precision == 0 then 1 else precision
    let d := decimal count f
    let shown := if always then d else d.trimmed
    if -4 < d.exponent && d.exponent ≤ count then shown.positional always
    else shown.scientific always

end Binary64

end BuildMeta
