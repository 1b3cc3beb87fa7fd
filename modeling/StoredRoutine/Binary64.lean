import StoredRoutine.Text.Basic

/-!
Floating point numbers of 64 bits as exact values: a sign, a whole number below `2 ^ 53` and a power
of two. Rounding a quotient goes to the nearest such number, a tie to the even one.
-/
namespace StoredRoutine

inductive Binary64 where
  | nan
  | infinite (negative : Bool)
  /-- The value `mantissa * 2 ^ exponent`, with its sign. -/
  | finite (negative : Bool) (mantissa : Nat) (exponent : Int)
  deriving DecidableEq, Repr

namespace Binary64

def twoPow (n : Nat) : Nat := Nat.pow 2 n

def tenPow (n : Nat) : Nat := Nat.pow 10 n

/-- The exponent of the smallest positive number. -/
def leastExponent : Int := -1074

/-- The exponent of the greatest finite number. -/
def greatestExponent : Int := 971

def zero (negative : Bool) : Binary64 := finite negative 0 leastExponent

/-- A quotient rounded to the nearest whole number, a tie to the even one. -/
def roundDiv (num den : Nat) : Nat :=
  let q := num / den
  let r := num % den
  if 2 * r < den then q else if den < 2 * r then q + 1 else q + q % 2

/-- A quotient divided by a power of two, as a quotient. -/
def scale (num den : Nat) (e : Int) : Nat × Nat :=
  if 0 ≤ e then (num, den * twoPow e.toNat) else (num * twoPow (-e).toNat, den)

/-- The exponent for which a positive quotient has a mantissa of 53 bits, but no less than the
least one. -/
def exponentFor (num den : Nat) : Int :=
  let e : Int := (Nat.log2 num : Int) - Nat.log2 den - 52
  let (n, d) := scale num den e
  let e := if n / d < twoPow 52 then e - 1 else if n / d < twoPow 53 then e else e + 1
  max e leastExponent

/-- The number nearest to a quotient; beyond the greatest finite number lies infinity. -/
def ofRatio (negative : Bool) (num den : Nat) : Binary64 :=
  if num = 0 then zero negative
  else
    let e := exponentFor num den
    let (n, d) := scale num den e
    let m := roundDiv n d
    let (m, e) := if m = twoPow 53 then (twoPow 52, e + 1) else (m, e)
    if greatestExponent < e then infinite negative else finite negative m e

/-- The number nearest to a whole number, if the greatest finite number is not below it. -/
def ofInt? (n : Int) : Option Binary64 :=
  match ofRatio (n < 0) n.natAbs 1 with
  | infinite _ => none
  | x => some x

/-- The number nearest to `digits * 10 ^ e`. Exponents far beyond the range are decided at once. -/
def ofDecimal (negative : Bool) (digits : Nat) (e : Int) : Binary64 :=
  let magnitude : Int := (Nat.toDigits 10 digits).length + e
  if digits = 0 || magnitude < -400 then zero negative
  else if 400 < magnitude then infinite negative
  else if 0 ≤ e then ofRatio negative (digits * tenPow e.toNat) 1
  else ofRatio negative digits (tenPow (-e).toNat)

/-- The whole number toward zero. -/
def truncate (negative : Bool) (mantissa : Nat) (exponent : Int) : Int :=
  let n := if 0 ≤ exponent then mantissa * twoPow exponent.toNat
    else mantissa / twoPow (-exponent).toNat
  if negative then -(n : Int) else n

/-!
The shortest decimal that reads back as a number: on the grid of one digit, of two, and so on up
to seventeen, the two neighbours of the value are tried, and the first grid that has one nearer to
the value than to any other number wins. Of two such neighbours the nearer one is taken.
-/

/-- A decimal: `digits * 10 ^ exponent`. -/
structure Decimal where
  digits : Nat
  exponent : Int
  deriving DecidableEq, Repr

/-- The numerator over four times a power of two, and the power of ten, as whole numbers: scaled
so that both a decimal exponent and a binary one can be compared without fractions. -/
def common (e p : Int) : Nat × Nat :=
  let twos : Nat := twoPow (e - 2).toNat
  let halves : Nat := twoPow (2 - e).toNat
  let tens : Nat := tenPow p.toNat
  let tenths : Nat := tenPow (-p).toNat
  (twos * tenths, tens * halves)

/-- Whether a decimal reads back as a positive number; a bound itself does iff the mantissa is
even. -/
def readsBack (m : Nat) (e : Int) (c : Nat) (p : Int) : Bool :=
  let (unit, ten) := common e p
  let low := (if m = twoPow 52 && leastExponent < e then 4 * m - 1 else 4 * m - 2) * unit
  let high := (4 * m + 2) * unit
  let x := c * ten
  if m % 2 = 0 then low ≤ x && x ≤ high else low < x && x < high

/-- The distance of a decimal from a positive number, in a unit that depends on the exponents
only. -/
def distance (m : Nat) (e : Int) (c : Nat) (p : Int) : Nat :=
  let (unit, ten) := common e p
  let v := 4 * m * unit
  let x := c * ten
  (v - x) + (x - v)

/-- The best decimal on the grid of a power of ten. -/
def onGrid? (m : Nat) (e p : Int) : Option Decimal :=
  let (unit, ten) := common e p
  let c := 4 * m * unit / ten
  let below := readsBack m e c p && c != 0
  let above := readsBack m e (c + 1) p
  match below, above with
  | true, true =>
    let d := distance m e c p
    let d' := distance m e (c + 1) p
    if d < d' || (d = d' && c % 2 = 0) then some ⟨c, p⟩ else some ⟨c + 1, p⟩
  | true, false => some ⟨c, p⟩
  | false, true => some ⟨c + 1, p⟩
  | false, false => none

/-- The decimal exponent of the first digit of a positive number. -/
def magnitude (m : Nat) (e : Int) : Int :=
  let (unit, ten) := common e 0
  let whole := 4 * m * unit / ten
  if whole ≠ 0 then (Nat.toDigits 10 whole).length - 1
  else
    -- below one, the digits of the reciprocal tell, up to one
    let inverse := (ten + 4 * m * unit - 1) / (4 * m * unit)
    let k : Int := (Nat.toDigits 10 inverse).length
    let (unit, ten) := common e (-(k - 1))
    if 4 * m * unit / ten ≠ 0 then -(k - 1) else -k

/-- A decimal without zeros at its end, shortened at most `fuel` times. -/
def Decimal.trimmed : Nat → Decimal → Decimal
  | 0, d => d
  | fuel + 1, d =>
    if d.digits ≠ 0 && d.digits % 10 = 0 then trimmed fuel ⟨d.digits / 10, d.exponent + 1⟩ else d

/-- The shortest decimal of a positive number. -/
def shortest (m : Nat) (e : Int) : Decimal :=
  let first := magnitude m e
  let found := (List.range 17).findSome? fun (n : Nat) => onGrid? m e (first - n)
  (found.getD ⟨0, 0⟩).trimmed 20

/-!
The written form of a number: its shortest decimal, with a point and at least one digit after it
from `10 ^ -4` to below `10 ^ 16`, and with an exponent of at least two digits elsewhere.
-/

def exponentText (e : Int) : Text :=
  let digits := (Nat.toDigits 10 e.natAbs).leftpad 2 '0'
  'e' :: (if e < 0 then '-' else '+') :: digits

/-- Digits with a point after the first `n` of them, zeros filling in on either side. -/
def positional (digits : Text) (n : Int) : Text :=
  if n ≤ 0 then "0.".toList ++ List.replicate (-n).toNat '0' ++ digits
  else
    let whole := (digits.take n.toNat).rightpad n.toNat '0'
    let fraction := digits.drop n.toNat
    whole ++ '.' :: (if fraction.isEmpty then ['0'] else fraction)

def scientific (digits : Text) (e : Int) : Text :=
  digits.take 1 ++ (if digits.length ≤ 1 then [] else '.' :: digits.drop 1) ++ exponentText e

/-- The written form of a positive number. -/
def positiveText (m : Nat) (e : Int) : Text :=
  let d := shortest m e
  let digits := Nat.toDigits 10 d.digits
  let first : Int := d.exponent + digits.length - 1
  if first < -4 || 16 ≤ first then scientific digits first else positional digits (first + 1)

def text : Binary64 → Text
  | nan => "nan".toList
  | infinite negative => (if negative then ['-'] else []) ++ "inf".toList
  | finite negative m e =>
    (if negative then ['-'] else []) ++ (if m = 0 then "0.0".toList else positiveText m e)

end Binary64

end StoredRoutine
