import StoredRoutine.Decimal
import StoredRoutine.Json.Basic
import StoredRoutine.Text.Basic

/-!
Reading JSON: a text is cut into tokens, and a list of tokens is read from left to right with a
stack of the arrays and objects that are still open.
-/
namespace StoredRoutine.Json

/-!
The tokens of a JSON text: brackets, separators, and scalars, which are quoted texts, numbers and
three words. White space between tokens means nothing.
-/

inductive Token where
  | openArray
  | closeArray
  | openObject
  | closeObject
  | comma
  | colon
  | scalar (v : Value)
  deriving DecidableEq, Repr

namespace Token

def punctuation? (c : Char) : Option Token :=
  if c = '[' then some openArray
  else if c = ']' then some closeArray
  else if c = '\x7b' then some openObject
  else if c = '\x7d' then some closeObject
  else if c = ',' then some comma
  else if c = ':' then some colon
  else none

def isSpace (c : Char) : Bool := c == ' ' || c == '\n' || c == '\r' || c == '\t'

/-- A character of a number or a word. -/
def isWordPart (c : Char) : Bool :=
  !isSpace c && (punctuation? c).isNone && c != '"'

/-- The number of four digits. -/
def code? (a b c d : Char) : Option Nat := do
  return (((← Text.hexDigit? a) * 16 + (← Text.hexDigit? b)) * 16 + (← Text.hexDigit? c)) * 16 +
    (← Text.hexDigit? d)

def isHighHalf (n : Nat) : Bool := 0xD800 ≤ n && n < 0xDC00
def isLowHalf (n : Nat) : Bool := 0xDC00 ≤ n && n < 0xE000

/-- The character that two halves of a number make. -/
def joined (high low : Nat) : Char :=
  Char.ofNat (0x10000 + (high - 0xD800) * 0x400 + (low - 0xDC00))

/-- What a letter stands for after a backslash. -/
def escaped? (c : Char) : Option Char :=
  if c = 'n' then some '\n'
  else if c = 'r' then some '\r'
  else if c = 't' then some '\t'
  else if c = 'b' then some (Char.ofNat 8)
  else if c = 'f' then some (Char.ofNat 12)
  else if c = '"' || c = '\\' || c = '/' then some c
  else none

/-- The character that is written by its number, after the backslash and the letter for it, and
what follows. A number beyond four digits is written in two halves; one half alone is no
character. -/
def numbered? : Text → Option (Char × Text)
  | a :: b :: c :: d :: t => do
    let n ← code? a b c d
    if isHighHalf n then
      match t with
      | '\\' :: 'u' :: e :: f :: g :: h :: t => do
        let m ← code? e f g h
        if isLowHalf m then some (joined n m, t) else none
      | _ => none
    else if isLowHalf n then none
    else some (Char.ofNat n, t)
  | _ => none

/-- The character that starts a text after a backslash, and what follows. -/
def escape? : Text → Option (Char × Text)
  | [] => none
  | c :: t => if c = 'u' then numbered? t else (escaped? c).map (·, t)

theorem length_of_numbered? {t rest : Text} {x : Char} (h : numbered? t = some (x, rest)) :
    rest.length < t.length := by
  unfold numbered? at h
  split at h
  · obtain ⟨n, -, h⟩ := Option.bind_eq_some_iff.1 h
    split at h
    · split at h
      · obtain ⟨m, -, h⟩ := Option.bind_eq_some_iff.1 h
        split at h
        · obtain ⟨-, rfl⟩ := Prod.mk.inj (Option.some.inj h)
          simp
          omega
        · simp at h
      · simp at h
    · split at h
      · simp at h
      · obtain ⟨-, rfl⟩ := Prod.mk.inj (Option.some.inj h)
        simp
        omega
  · simp at h

theorem length_of_escape? {t rest : Text} {x : Char} (h : escape? t = some (x, rest)) :
    rest.length < t.length := by
  cases t with
  | nil => simp [escape?] at h
  | cons c t =>
    simp only [escape?] at h
    split at h
    · have := length_of_numbered? h
      simp
      omega
    · obtain ⟨y, -, he⟩ := Option.map_eq_some_iff.1 h
      obtain ⟨-, rfl⟩ := Prod.mk.inj he
      simp

/-- The text up to the closing quote and what follows it; the opening quote is left out. -/
def quoted? : Text → Option (Text × Text)
  | [] => none
  | c :: t =>
    if c = '"' then some ([], t)
    else if c = '\\' then
      match _h : escape? t with
      | some (x, rest) => (quoted? rest).map fun (inner, rest) => (x :: inner, rest)
      | none => none
    else if c.toNat < 0x20 then none
    else (quoted? t).map fun (inner, rest) => (c :: inner, rest)
termination_by t => t.length
decreasing_by
  · have := length_of_escape? _h
    simp
    omega
  · simp

theorem length_of_quoted? {t inner rest : Text} (h : quoted? t = some (inner, rest)) :
    rest.length < t.length := by
  fun_induction quoted? t generalizing inner with
  | case1 => simp at h
  | case2 =>
    obtain ⟨-, rfl⟩ := Prod.mk.inj (Option.some.inj h)
    simp
  | case3 t x r he _ ih =>
    obtain ⟨⟨i, r'⟩, hq, h⟩ := Option.map_eq_some_iff.1 h
    obtain ⟨-, rfl⟩ := Prod.mk.inj h
    have := length_of_escape? he
    have := ih hq
    simp
    omega
  | case4 => simp at h
  | case5 => simp at h
  | case6 c t _ _ _ ih =>
    obtain ⟨⟨i, r⟩, hq, h⟩ := Option.map_eq_some_iff.1 h
    obtain ⟨-, rfl⟩ := Prod.mk.inj h
    have := ih hq
    simp
    omega

/-- The whole number that digits write, perhaps after a minus sign; a zero is not written in front
of other digits. -/
def wholeNumber? (negative : Bool) (digits : Text) : Option Int :=
  if digits.head? = some '0' && 1 < digits.length then none
  else
    let n := Nat.ofDigitChars 10 digits 0
    some (if negative then -(n : Int) else n)

/-- The value of a number. Only a number without fraction and exponent is a whole number. -/
def number? (t : Text) : Option Value :=
  let negative := t.head? = some '-'
  let digits := if negative then t.drop 1 else t
  if !(digits.head?.any isAsciiDigit) then none
  else if digits.all isAsciiDigit then (wholeNumber? negative digits).map .integer
  else if digits.all fun c => isAsciiDigit c || c == '-' || c == '+' || c == '.' || c == 'e' ||
      c == 'E' then
    (Decimal.float? t).map .real
  else none

/-- The scalars that are written as words; numbers that are not finite are among them. -/
def words : List (String × Value) :=
  [("null", .null), ("true", .boolean true), ("false", .boolean false), ("NaN", .real .nan),
    ("Infinity", .real (.infinite false)), ("-Infinity", .real (.infinite true))]

/-- The value of a number or a word. -/
def word? (t : Text) : Option Value := words.lookup (String.ofList t) <|> number? t

/-- The tokens of a text, if it is made of tokens. -/
def read : Text → Option (List Token)
  | [] => some []
  | c :: t =>
    if isSpace c then read t
    else if c = '"' then
      match _h : quoted? t with
      | some (inner, rest) => (read rest).map (.scalar (.text inner) :: ·)
      | none => none
    else match punctuation? c with
      | some token => (read t).map (token :: ·)
      | none => do
        let v ← word? (c :: t.takeWhile isWordPart)
        let tokens ← read (t.dropWhile isWordPart)
        return .scalar v :: tokens
termination_by t => t.length
decreasing_by
  · simp
  · have := length_of_quoted? _h
    simp
    omega
  · simp
  · simpa [Nat.lt_succ_iff] using (List.dropWhile_sublist _).length_le

end Token

/-- An array or object that is still open, with its items before the current one, the latest
first. -/
inductive Frame where
  | array (items : List Json)
  | object (members : List (Text × Json)) (name : Text)

mutual

/-- Reads on where a value starts. -/
def value? (stack : List Frame) : List Token → Option Json
  | .scalar v :: ts => after? stack (scalar v) ts
  | .openArray :: .closeArray :: ts => after? stack (array []) ts
  | .openArray :: ts => value? (.array [] :: stack) ts
  | .openObject :: .closeObject :: ts => after? stack (object []) ts
  | .openObject :: .scalar (.text name) :: .colon :: ts => value? (.object [] name :: stack) ts
  | _ => none

/-- Reads on after a value. -/
def after? (stack : List Frame) (j : Json) (ts : List Token) : Option Json :=
  match ts, stack with
  | [], [] => some j
  | .comma :: ts, .array items :: stack => value? (.array (j :: items) :: stack) ts
  | .closeArray :: ts, .array items :: stack => after? stack (array (j :: items).reverse) ts
  | .comma :: .scalar (.text next) :: .colon :: ts, .object members name :: stack =>
    value? (.object ((name, j) :: members) next :: stack) ts
  | .closeObject :: ts, .object members name :: stack =>
    after? stack (object ((name, j) :: members).reverse) ts
  | _, _ => none

end

/-- The value that a text writes. -/
def read? (t : Text) : Option Json := (Token.read t).bind (value? [])

end StoredRoutine.Json
