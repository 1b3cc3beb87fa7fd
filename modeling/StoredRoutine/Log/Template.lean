import StoredRoutine.Cause
import StoredRoutine.Decimal
import StoredRoutine.Json.Basic
import StoredRoutine.Text.Word

/-!
Formats of log lines. Text stands for itself, and two percent signs stand for one. A directive,
which starts with a percent sign, takes the value of a field and lays it out: flags, a width, a
precision and a letter say how. A directive without a field takes the value that the one before it
left, if any. Rendering goes from left to right, and the first fault decides.
-/
namespace StoredRoutine.Log

/-- A width or a precision. -/
inductive Size where
  | standard
  | number (n : Nat)
  /-- A star: the value to be shown is the size. -/
  | star
  deriving DecidableEq, Repr

structure Directive where
  field : Option Text
  flags : Text
  width : Size
  precision : Size
  /-- Missing if the format ends before it. -/
  letter : Option Char
  /-- How many characters follow the letter. -/
  following : Nat
  deriving DecidableEq, Repr

inductive Piece where
  | literal (c : Char)
  | directive (d : Directive)
  /-- A directive whose field name is not closed. -/
  | unclosed
  deriving DecidableEq, Repr

namespace Template

/-- Why a format has no text for a record. -/
inductive Fault where
  /-- There is no complete directive with a field. -/
  | noDirective (format : Text)
  | unknownField (name : Text)
  | unclosedName
  | incomplete
  | tooWide
  | tooPrecise
  | unknownLetter (letter : Char) (place : Nat)
  | noValue
  | sizeNotInteger
  /-- A size that the type of sizes has no room for. -/
  | sizeTooLarge (type : String)
  | notNumeric (letter : Char) (type : String)
  | notReal (type : String)
  | notCharacter
  | noSuchCharacter
  | tooLarge
  /-- A whole number with more digits than a text can have. -/
  | tooManyDigits
  /-- A text that memory has no room for. -/
  | noRoom
  deriving DecidableEq, Repr

/-- A letter in a message, if it is one that messages show. -/
def shownLetter (c : Char) : Char := if 31 ≤ c.toNat && c.toNat < 126 then c else '?'

/-- The letters that ask for a whole number in another base. -/
def baseLetters : Text := ['o', 'x', 'X']

def Fault.message : Fault → String
  | .noDirective format => s!"Invalid format '{String.ofList format}' for '%' style"
  | .unknownField name =>
    s!"Formatting field not found in record: {String.ofList (Text.quoted name)}"
  | .unclosedName => "incomplete format key"
  | .incomplete => "incomplete format"
  | .tooWide => "width too big"
  | .tooPrecise => "precision too big"
  | .unknownLetter letter place =>
    s!"unsupported format character '{shownLetter letter}' " ++
      s!"(0x{String.ofList (Text.hex 1 letter.toNat)}) at index {place}"
  | .noValue => "not enough arguments for format string"
  | .sizeNotInteger => "* wants int"
  | .sizeTooLarge type => s!"Python int too large to convert to C {type}"
  | .notNumeric letter type =>
    let number := if baseLetters.contains letter then "an integer" else "a real number"
    s!"%{letter} format: {number} is required, not {type}"
  | .notReal type => s!"must be real number, not {type}"
  | .notCharacter => "%c requires int or char"
  | .noSuchCharacter => "%c arg not in range(0x110000)"
  | .tooLarge => "int too large to convert to float"
  | .tooManyDigits => "precision too large"
  | .noRoom => ""

instance : Cause Fault where
  message := Fault.message
  kind
    | .noDirective _ | .unknownField _ | .unclosedName | .incomplete | .tooWide | .tooPrecise
    | .unknownLetter _ _ => .value
    | .noSuchCharacter | .tooLarge | .sizeTooLarge _ | .tooManyDigits => .range
    | .noRoom => .memory
    | .noValue | .sizeNotInteger | .notNumeric _ _ | .notReal _ | .notCharacter => .type

/-! Reading -/

def isFlag (c : Char) : Bool := ['-', '+', ' ', '#', '0'].contains c

/-- A name up to its closing parenthesis and what follows that; parentheses inside of it are
balanced. -/
def name? (depth : Nat) : Text → Option (Text × Text)
  | [] => none
  | c :: t =>
    if c = ')' && depth = 0 then some ([], t)
    else
      let depth := if c = ')' then depth - 1 else if c = '(' then depth + 1 else depth
      (name? depth t).map fun (name, rest) => (c :: name, rest)

def number (digits : Text) : Nat := digits.foldl (fun n c => n * 10 + (c.toNat - 48)) 0

/-- A size at the start of a text, and what follows it. -/
def size : Text → Size × Text
  | '*' :: t => (.star, t)
  | t =>
    let digits := t.takeWhile isAsciiDigit
    (if digits.isEmpty then .standard else .number (number digits), t.dropWhile isAsciiDigit)

/-- A precision, which starts with a point; the point alone is the precision zero. -/
def precision : Text → Size × Text
  | '.' :: t =>
    match size t with
    | (.standard, t) => (.number 0, t)
    | r => r
  | t => (.standard, t)

/-- One letter that may stand before the letter of a directive and means nothing. -/
def skipLength : Text → Text
  | c :: t => if ['h', 'l', 'L'].contains c then t else c :: t
  | [] => []

/-- What a directive holds after its field, and what follows it. -/
def layout (field : Option Text) (t : Text) : Directive × Text :=
  let flags := t.takeWhile isFlag
  let (width, t) := size (t.dropWhile isFlag)
  let (precision, t) := precision t
  match skipLength t with
  | [] => (⟨field, flags, width, precision, none, 0⟩, [])
  | c :: t => (⟨field, flags, width, precision, some c, t.length⟩, t)

/-- A directive after its percent sign, and what follows it. -/
def directive : Text → Piece × Text
  | '(' :: t =>
    match name? 0 t with
    | none => (.unclosed, [])
    | some (name, t) =>
      let (d, t) := layout (some name) t
      (.directive d, t)
  | t =>
    let (d, t) := layout none t
    (.directive d, t)

/-- The pieces of a format with at most `fuel` characters. -/
def piecesWithin : Nat → Text → List Piece
  | 0, _ => []
  | _, [] => []
  | fuel + 1, '%' :: '%' :: t => .literal '%' :: piecesWithin fuel t
  | fuel + 1, '%' :: t =>
    let (piece, t) := directive t
    piece :: piecesWithin fuel t
  | fuel + 1, c :: t => .literal c :: piecesWithin fuel t

def pieces (format : Text) : List Piece := piecesWithin format.length format

/-- The letters of the directives that a format may be told by, in either case. -/
def knownLetters : Text := "diouxefgcrsa%".toList

/-- A size made of digits of any script, if there is one; a star is one too. -/
def skipDigits? : Text → Option Text
  | '*' :: t => some t
  | c :: t =>
    let isDigit (c : Char) : Bool := (Decimal.digit? c).isSome
    if isDigit c then some (t.dropWhile isDigit) else none
  | [] => none

/-- Whether a text starts with a complete directive that has a field. -/
def startsWithDirective (t : Text) : Bool :=
  match Text.after? ['%', '('] t with
  | none => false
  | some t =>
    let name := t.takeWhile isWordChar
    match t.dropWhile isWordChar with
    | ')' :: t =>
      let t := t.dropWhile isFlag
      let t := (skipDigits? t).getD t
      let t := match t with
        | '.' :: t' => (skipDigits? t').getD t
        | t => t
      !name.isEmpty && t.head?.any fun c => knownLetters.contains (caseless c)
    | _ => false

/-- Whether a complete directive with a field occurs in a format. -/
def isFormat : Text → Bool
  | [] => false
  | c :: t => startsWithDirective (c :: t) || isFormat t

/-! Rendering -/

/-- The value that a directive is about to show; missing once it has been shown. -/
abbrev Rendering := StateT (Option Json) (Except Fault)

def next : Rendering Json := do
  match ← get with
  | some j =>
    set (none : Option Json)
    return j
  | none => throw .noValue

/-- A size, if one is given, that must not exceed a limit; the type is that of sizes up to it. -/
def Size.value (limit : Nat) (type : String) (fault : Fault) : Size → Rendering (Option Int)
  | .standard => return none
  | .number n => if limit < n then throw fault else return some n
  | .star => do
    match ← next with
    | .scalar (.integer n) =>
      if limit < n || n < -(limit : Int) - 1 then throw (.sizeTooLarge type) else return some n
    | .scalar (.boolean b) => return some (if b then 1 else 0)
    | _ => throw .sizeNotInteger

/-- How a shown value is laid out. -/
structure Frame where
  flags : Text
  width : Nat
  leftAligned : Bool
  precision : Option Nat

def Frame.has (f : Frame) (flag : Char) : Bool := f.flags.contains flag

/-- A text filled up with blanks. -/
def Frame.padded (f : Frame) (t : Text) : Text :=
  if f.leftAligned then t.rightpad f.width ' ' else t.leftpad f.width ' '

/-- A number filled up with blanks, or with zeros after its sign and the mark of its base. -/
def Frame.number (f : Frame) (negative : Bool) (mark digits : Text) : Text :=
  let sign : Text :=
    if negative then ['-'] else if f.has '+' then ['+'] else if f.has ' ' then [' '] else []
  let head := sign ++ mark
  if f.has '0' && !f.leftAligned then head ++ digits.leftpad (f.width - head.length) '0'
  else f.padded (head ++ digits)

def Frame.text (f : Frame) (t : Text) : Text :=
  f.padded (match f.precision with
    | some n => t.take n
    | none => t)

def Frame.integer (f : Frame) (letter : Char) (n : Int) : Text :=
  let digits (base : Nat) : Text := (Nat.toDigits base n.natAbs).leftpad (f.precision.getD 0) '0'
  let upper (t : Text) : Text := t.map Char.toUpper
  let mark (t : Text) : Text := if f.has '#' then t else []
  let negative : Bool := n < 0
  match letter with
  | 'o' => f.number negative (mark ['0', 'o']) (digits 8)
  | 'x' => f.number negative (mark ['0', 'x']) (digits 16)
  | 'X' => f.number negative (mark ['0', 'X']) (upper (digits 16))
  | _ => f.number negative [] (digits 10)

/-- A whole number in a form for floating point numbers. -/
def Frame.real (f : Frame) (letter : Char) (n : Int) : Text :=
  let places := f.precision.getD 6
  let s : Decimal.Style := ⟨f.has '#', false⟩
  let digits := match letter.toLower with
    | 'e' => Decimal.scientificText s places n.natAbs 1
    | 'f' => Decimal.fixedText s places n.natAbs 1
    | _ => Decimal.generalText s places n.natAbs 1
  f.number (n < 0) [] (if letter.isUpper then digits.map Char.toUpper else digits)

def whole? : Json → Option Int
  | .scalar (.integer n) => some n
  | .scalar (.boolean b) => some (if b then 1 else 0)
  | _ => none

/-- The floating point number nearest to a whole number, which is a whole number, too. -/
def nearest? (n : Int) : Option Int :=
  match Binary64.ofInt? n with
  | some (.finite negative m e) => some (Binary64.truncate negative m e)
  | _ => none

def character (j : Json) : Except Fault Char :=
  match j, whole? j with
  | .scalar (.text [c]), _ => .ok c
  | _, some n => if 0 ≤ n && n < 0x110000 then .ok (Char.ofNat n.toNat) else .error .noSuchCharacter
  | _, none => .error .notCharacter

/-- The greatest width and the greatest precision. -/
def maxWidth : Nat := 9223372036854775807
def maxPrecision : Nat := 2147483647

/-- The greatest number of digits of a whole number. -/
def maxDigits : Nat := maxPrecision - 3

/-- The greatest width for which there is memory. -/
def maxRoom : Nat := 100000000000

/-- A text that was laid out, if there is room for it. -/
def Frame.fitted (f : Frame) (t : Unit → Text) : Rendering Text :=
  if maxRoom < f.width then throw .noRoom else return t ()

/-- A value as the letter of a directive shows it; the letter stands at a place of the format. -/
def Frame.shown (f : Frame) (letter : Char) (place : Nat) : Rendering Text := do
  if ['s', 'r', 'a'].contains letter then
    let j ← next
    f.fitted fun _ => f.text <|
      if letter = 's' then j.shown
      else if letter = 'r' then j.inspected
      else Text.asciiOnly j.inspected
  else
    let j ← next
    if ['d', 'i', 'u', 'o', 'x', 'X'].contains letter then
      match whole? j with
      | some n =>
        if f.precision.any (maxDigits < ·) then throw .tooManyDigits
        f.fitted fun _ => f.integer letter n
      | none => throw (.notNumeric letter j.typeName)
    else if ['e', 'f', 'g'].contains letter.toLower then
      match whole? j with
      | none => throw (.notReal j.typeName)
      | some n =>
        match nearest? n with
        | some n => f.fitted fun _ => f.real letter n
        | none => throw .tooLarge
    else if letter = 'c' then
      let c ← (character j : Except Fault Char)
      f.fitted fun _ => f.padded [c]
    else throw (.unknownLetter letter place)

/-- The text of a directive in a format of some length; the value of its field is the next one to
be shown. -/
def Directive.render (length : Nat) (fields : List (Text × Json)) (d : Directive) :
    Rendering Text := do
  match d.field with
  | none => pure ()
  | some name =>
    match fields.lookup name with
    | some j => set (some j)
    | none => throw (.unknownField name)
  let width ← Size.value maxWidth "ssize_t" .tooWide d.width
  let precision ← Size.value maxPrecision "int" .tooPrecise d.precision
  let frame : Frame := ⟨d.flags, (width.getD 0).natAbs,
    d.flags.contains '-' || width.any (· < 0), precision.map Int.toNat⟩
  match d.letter with
  | none => throw .incomplete
  | some letter => frame.shown letter (length - d.following - 1)

def renderPiece (length : Nat) (fields : List (Text × Json)) : Piece → Rendering Text
  | .literal c => return [c]
  | .unclosed => throw .unclosedName
  | .directive d => Directive.render length fields d

def renderAll (length : Nat) (fields : List (Text × Json)) : List Piece → Rendering Text
  | [] => return []
  | p :: ps => do
    let t ← renderPiece length fields p
    return t ++ (← renderAll length fields ps)

/-- The text of a format for some fields. At first, all fields together are the value to be
shown. -/
def render (format : Text) (fields : List (Text × Json)) : Except Fault Text :=
  (·.1) <$> (renderAll format.length fields (pieces format)).run (some (.object fields))

end Template

end StoredRoutine.Log
