import StoredRoutine.Binary64
import StoredRoutine.Text.Basic

/-!
Decimal numbers in text: how they are read, and how they are rounded to a number of digits.
-/
namespace StoredRoutine.Decimal

/-!
Decimal digits of every script of Unicode, and the blanks that may stand around a written number.
-/

/-- The zeros outside ASCII; the other digits of a script follow its zero. -/
def zeros : List Nat := [
  1632, 1776, 1984, 2406, 2534, 2662, 2790, 2918, 3046, 3174, 3302, 3430,
  3558, 3664, 3792, 3872, 4160, 4240, 6112, 6160, 6470, 6608, 6784, 6800,
  6992, 7088, 7232, 7248, 42528, 43216, 43264, 43472, 43504, 43600, 44016, 65296,
  66720, 68912, 69734, 69872, 69942, 70096, 70384, 70736, 70864, 71248, 71360, 71472,
  71904, 72016, 72784, 73040, 73120, 92768, 92864, 93008, 120782, 120792, 120802, 120812,
  120822, 123200, 123632, 125264, 130032]

/-- The value of a decimal digit. -/
def digit? (c : Char) : Option Nat :=
  let n := c.toNat
  if n < 128 then if 48 ≤ n && n ≤ 57 then some (n - 48) else none
  else (zeros.find? fun z => z ≤ n && n < z + 10).map (n - ·)

/-- Blanks around a number: all but the four ASCII separators. -/
def isNumberBlank (c : Char) : Bool := isBlank c && !(28 ≤ c.toNat && c.toNat ≤ 31)

/-!
Reading numbers from text: digits may be of any script, and a single underscore may stand between
two digits. Blanks around the number are skipped.
-/

def trimmed (t : Text) : Text :=
  ((t.dropWhile isNumberBlank).reverse.dropWhile isNumberBlank).reverse

/-- The sign in front of a number, if any, and what follows it. -/
def signed : Text → Bool × Text
  | '-' :: t => (true, t)
  | '+' :: t => (false, t)
  | t => (false, t)

/-- A run of digits at the start of a text, as its value and length, and what follows it. An
underscore belongs to the run if a digit stands on either side. -/
def digitRun (value length : Nat) : Text → (Nat × Nat) × Text
  | [] => ((value, length), [])
  | c :: t =>
    match digit? c with
    | some d => digitRun (value * 10 + d) (length + 1) t
    | none =>
      match c, t with
      | '_', c' :: t' =>
        match digit? c' with
        | some d =>
          if length = 0 then ((value, length), c :: t)
          else digitRun (value * 10 + d) (length + 1) t'
        | none => ((value, length), c :: t)
      | _, _ => ((value, length), c :: t)

/-- Why a text is no whole number. -/
inductive IntegerFault where
  | malformed
  | tooLong (digits : Nat)
  deriving DecidableEq, Repr

/-- Whole numbers with more digits than this are neither read nor written. -/
def maxDigits : Nat := 4300

/-- The whole number that a text writes. The number of digits is looked at before what follows
them, if that is no misplaced underscore. -/
def integer (t : Text) : Except IntegerFault Int :=
  let (negative, t) := signed (trimmed t)
  let ((n, digits), rest) := digitRun 0 0 t
  if rest.head? = some '_' then .error .malformed
  else if maxDigits < digits then .error (.tooLong digits)
  else if digits = 0 || !rest.isEmpty then .error .malformed
  else .ok (if negative then -(n : Int) else n)

def integer? (t : Text) : Option Int := (integer t).toOption

/-- An exponent part that takes up all of a text; an empty text is the exponent zero. -/
def exponent? : Text → Option Int
  | [] => some 0
  | c :: t =>
    if c = 'e' || c = 'E' then
      let (negative, t) := signed t
      match digitRun 0 0 t with
      | ((n, _ + 1), []) => some (if negative then -(n : Int) else n)
      | _ => none
    else none

/-- A number without sign that is written with digits. -/
def unsigned? (negative : Bool) (t : Text) : Option Binary64 :=
  let ((whole, n), rest) := digitRun 0 0 t
  match rest with
  | '.' :: rest =>
    let ((fraction, k), rest) := digitRun 0 0 rest
    if n + k = 0 then none
    else (exponent? rest).map fun e =>
      .ofDecimal negative (whole * Binary64.tenPow k + fraction) (e - k)
  | rest => if n = 0 then none else (exponent? rest).map fun e => .ofDecimal negative whole e

/-- The floating point number that a text writes, infinities and the undefined value included. -/
def float? (t : Text) : Option Binary64 :=
  let (negative, t) := signed (trimmed t)
  let word := String.ofList (t.map fun c => Char.toLower c)
  if word = "inf" || word = "infinity" then some (.infinite negative)
  else if word = "nan" then some .nan
  else unsigned? negative t

/-!
Decimals with a given number of digits: a quotient is rounded to so many places after the point or
to so many digits from its first one on, a tie going to the even digit.
-/

open Binary64 (tenPow roundDiv)

/-- The decimal exponent of the first digit of a positive quotient. -/
def firstExponent (num den : Nat) : Int :=
  let e : Int := (Nat.toDigits 10 num).length - (Nat.toDigits 10 den).length
  if num * tenPow (-e).toNat < den * tenPow e.toNat then e - 1 else e

/-- A quotient rounded to some digits from its first one on: these digits as a number, and the
exponent of the first. Zero has zeros only. -/
def significant (digits num den : Nat) : Nat × Int :=
  if num = 0 then (0, 0)
  else
    let e := firstExponent num den
    let shift : Int := digits - 1 - e
    let n := roundDiv (num * tenPow shift.toNat) (den * tenPow (-shift).toNat)
    if n = tenPow digits then (n / 10, e + 1) else (n, e)

/-- How a decimal is written. -/
structure Style where
  /-- The point stays without digits after it, and so do zeros at the end. -/
  full : Bool
  /-- At least one digit follows the point. -/
  fraction : Bool := false

/-- The point and the digits after it. -/
def Style.fractionText (s : Style) (digits : Text) : Text :=
  if !digits.isEmpty then '.' :: digits
  else if s.fraction then ['.', '0']
  else if s.full then ['.']
  else []

/-- A text without the zeros at its end. -/
def withoutZeros (digits : Text) : Text := (digits.reverse.dropWhile (· == '0')).reverse

/-- A quotient with some places after the point. -/
def fixedText (s : Style) (places num den : Nat) : Text :=
  let n := roundDiv (num * tenPow places) den
  let digits := (Nat.toDigits 10 n).leftpad (places + 1) '0'
  let whole := digits.length - places
  digits.take whole ++ s.fractionText (digits.drop whole)

/-- A quotient with one digit before the point, some after it, and an exponent. -/
def scientificText (s : Style) (places num den : Nat) : Text :=
  let (n, e) := significant (places + 1) num den
  let digits := (Nat.toDigits 10 n).leftpad (places + 1) '0'
  digits.take 1 ++ s.fractionText (digits.drop 1) ++ Binary64.exponentText e

/-- A quotient with some significant digits, in the shorter of the two forms. -/
def generalText (s : Style) (digits num den : Nat) : Text :=
  let k := max digits 1
  let (n, e) := significant k num den
  let shown := (Nat.toDigits 10 n).leftpad k '0'
  let kept (t : Text) : Text := if s.full then t else withoutZeros t
  if e < -4 || (k : Int) ≤ e then
    shown.take 1 ++ s.fractionText (kept (shown.drop 1)) ++ Binary64.exponentText e
  else if e < 0 then
    '0' :: s.fractionText (List.replicate (-e - 1).toNat '0' ++ kept shown)
  else shown.take (e.toNat + 1) ++ s.fractionText (kept (shown.drop (e.toNat + 1)))

end StoredRoutine.Decimal
