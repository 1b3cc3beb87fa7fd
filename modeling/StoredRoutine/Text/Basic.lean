/-!
Scanned text as a list of characters, so that a scanner is a recursion on its data. Text is cut
into lines at line feeds and into words at blanks; both cuts are undone by joining. Blanks are
white space in any script, the zero-width characters not among them.
-/
namespace StoredRoutine

/-- The Unicode white space characters and the four ASCII separators `U+001C` to `U+001F`. -/
def isBlank (c : Char) : Bool :=
  let n := c.toNat
  (9 ≤ n && n ≤ 13) || (28 ≤ n && n ≤ 32) || n == 0x85 || n == 0xA0 || n == 0x1680 ||
    (0x2000 ≤ n && n ≤ 0x200A) || n == 0x2028 || n == 0x2029 || n == 0x202F || n == 0x205F ||
    n == 0x3000

/-- Every character that ASCII counts as white space is blank. -/
theorem isBlank_of_isWhitespace {c : Char} (h : c.isWhitespace = true) : isBlank c = true := by
  simp only [Char.isWhitespace, Bool.or_eq_true, decide_eq_true_eq] at h
  rcases h with ((h | h) | h) | h <;> subst h <;> decide

@[simp] theorem isBlank_newline : isBlank '\n' = true := by decide
@[simp] theorem isBlank_return : isBlank '\r' = true := by decide
@[simp] theorem isBlank_space : isBlank ' ' = true := by decide

abbrev Text := List Char

namespace Text

def trimLeft (t : Text) : Text := t.dropWhile isBlank

def trimRight (t : Text) : Text := (t.reverse.dropWhile isBlank).reverse

/-- Text without the blanks around it. -/
def trim (t : Text) : Text := trimRight (trimLeft t)

/-- Empty, or nothing but blanks. -/
def allBlank (t : Text) : Bool := t.all isBlank

/-- The leading blanks of a text. -/
def indentation (t : Text) : Text := t.takeWhile isBlank

/-- The pieces between line feeds; a text without line feed is one line, also when it is empty. -/
def lines (t : Text) : List Text := t.splitOn '\n'

def ofLines (ls : List Text) : Text := ['\n'].intercalate ls

/-- The maximal runs of characters that are not blank. -/
def words (t : Text) : List Text := (t.splitOnP isBlank).filter (! ·.isEmpty)

def ofWords (ws : List Text) : Text := [' '].intercalate ws

/-- The text after a given start, if it has that start. -/
def after? : (start t : Text) → Option Text
  | [], t => some t
  | _ :: _, [] => none
  | a :: start, b :: t => if a = b then after? start t else none

/-- Every occurrence of a character written twice. -/
def double (x : Char) (t : Text) : Text := t.flatMap fun c => if c = x then [x, x] else [c]

@[simp] theorem indentation_append_trimLeft (t : Text) : indentation t ++ trimLeft t = t :=
  List.takeWhile_append_dropWhile

theorem after?_eq_some_iff {start t r : Text} : after? start t = some r ↔ t = start ++ r := by
  induction start generalizing t with
  | nil => simp [after?, eq_comm]
  | cons a start ih =>
    cases t with
    | nil => simp [after?]
    | cons b t =>
      by_cases h : a = b
      · simp [after?, h, ih]
      · simp [after?, h, Ne.symm h]

theorem length_lt_of_after? {a : Char} {start t r : Text} (h : after? (a :: start) t = some r) :
    r.length < t.length := by
  have h := congrArg List.length (after?_eq_some_iff.1 h)
  rw [List.length_append, List.length_cons] at h
  omega

/-!
Texts in the order of their code points, compared character by character.
-/

/-- No later than another text. -/
def le (s t : Text) : Bool := !decide (t < s)

def sort (ts : List Text) : List Text := ts.mergeSort le

/-- The distinct texts of a list, in ascending order. -/
def sortedSet (ts : List Text) : List Text := sort ts.eraseDups

end Text

/-!
ASCII classes of characters. Names of placeholders, bind markers and tags are made of ASCII
characters alone, so these classes are exact for them.
-/

def isAsciiUpper (c : Char) : Bool := 'A' ≤ c && c ≤ 'Z'
def isAsciiLower (c : Char) : Bool := 'a' ≤ c && c ≤ 'z'
def isAsciiLetter (c : Char) : Bool := isAsciiUpper c || isAsciiLower c
def isAsciiDigit (c : Char) : Bool := '0' ≤ c && c ≤ '9'

/-- A character that may start an identifier. -/
def isNameStart (c : Char) : Bool := isAsciiLetter c || c == '_'

/-- A character that may continue an identifier. -/
def isNamePart (c : Char) : Bool := isAsciiLetter c || isAsciiDigit c || c == '_'

theorem isNamePart_of_isNameStart {c : Char} (h : isNameStart c = true) : isNamePart c = true := by
  simp [isNameStart, isNamePart] at h ⊢
  rcases h with h | h <;> simp [h]

theorem isNamePart_of_isBlank {c : Char} (h : isBlank c = true) : isNamePart c = false := by
  have hle : ∀ d : Char, d ≤ c ↔ d.toNat ≤ c.toNat := fun d => UInt32.le_iff_toNat_le
  have hge : ∀ d : Char, c ≤ d ↔ c.toNat ≤ d.toNat := fun d => UInt32.le_iff_toNat_le
  have heq : ∀ d : Char, c = d ↔ c.toNat = d.toNat := fun d => ⟨congrArg _, Char.toNat_inj.1⟩
  simp [isBlank, isNamePart, isAsciiLetter, isAsciiUpper, isAsciiLower, isAsciiDigit, hle, hge,
    heq] at h ⊢
  omega

/-!
Line breaks in any of the three spellings: a carriage return and a line feed together are one
break, and so is either of them alone.
-/

namespace Text

def isBreak (c : Char) : Bool := c == '\n' || c == '\r'

/-- How many line breaks a text has, a carriage return before a line feed counting with it. -/
def breaks : Text → Nat
  | [] => 0
  | '\r' :: '\n' :: t => breaks t + 1
  | c :: t => if isBreak c then breaks t + 1 else breaks t

/-- The text with every line break written as a single line feed. -/
def unifyBreaks : Text → Text
  | [] => []
  | '\r' :: '\n' :: t => '\n' :: unifyBreaks t
  | c :: t => (if c = '\r' then '\n' else c) :: unifyBreaks t

/-- Whether a character ends a line on a display. -/
def endsLine (c : Char) : Bool :=
  let n := c.toNat
  (10 ≤ n && n ≤ 13) || (28 ≤ n && n ≤ 30) || n == 0x85 || n == 0x2028 || n == 0x2029

/-- The last line that is not blank, if blanks around the text do not count. -/
def lastLine (t : Text) : Text := (t.trim.reverse.takeWhile (! endsLine ·)).reverse

end Text

/-!
Hexadecimal text of numbers and bytes, which is written in lower case and read in either.
-/

abbrev Bytes := List UInt8

namespace Text

/-- A number in hexadecimal, with zeros in front up to a width. -/
def hex (width n : Nat) : Text := (Nat.toDigits 16 n).leftpad width '0'

/-- Two digits for every byte. -/
def hexBytes (bs : Bytes) : Text := bs.flatMap fun b => hex 2 b.toNat

def hexDigit? (c : Char) : Option Nat :=
  if '0' ≤ c && c ≤ '9' then some (c.toNat - 48)
  else if 'a' ≤ c && c ≤ 'f' then some (c.toNat - 87)
  else if 'A' ≤ c && c ≤ 'F' then some (c.toNat - 55)
  else none

/-- The bytes that pairs of digits write. -/
def bytesOfHex? : Text → Option Bytes
  | [] => some []
  | [_] => none
  | a :: b :: t => do
    let byte := (← hexDigit? a) * 16 + (← hexDigit? b)
    return .ofNat byte :: (← bytesOfHex? t)

/-- A character by its number: two, four or eight digits, as few as it needs. -/
def hexEscape (c : Char) : Text :=
  let n := c.toNat
  if n < 0x100 then '\\' :: 'x' :: hex 2 n
  else if n < 0x10000 then '\\' :: 'u' :: hex 4 n
  else '\\' :: 'U' :: hex 8 n

end Text

end StoredRoutine
