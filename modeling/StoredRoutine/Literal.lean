import StoredRoutine.Cause
import StoredRoutine.Decimal
import StoredRoutine.Json.Basic
import StoredRoutine.Text.Quoted

/-!
SQL literals. A literal of some kind is made from a value; the missing value gives `null`, and so
do blank text and empty binary data. Text doubles its quotes, so that no value can end its literal
early.
-/
namespace StoredRoutine.Literal

inductive Kind where
  | integer
  | float
  | string
  | binary
  deriving DecidableEq, Repr

def Kind.all : List Kind := [.integer, .float, .string, .binary]

def Kind.word : Kind → String
  | .integer => "int"
  | .float => "float"
  | .string => "string"
  | .binary => "binary"

def Kind.ofWord? (s : String) : Option Kind := Kind.all.find? (·.word == s)

/-- Why a value has no literal of a kind. -/
inductive Fault where
  | unknownKind (word : String)
  | infinite
  | notANumber
  /-- No whole number is written by a text, which is given as messages show it. -/
  | notAnInteger (shown : Text)
  | tooManyDigits (digits : Nat)
  /-- A whole number has more digits than are written. -/
  | tooLong
  | notAFloat (shown : Text)
  | tooLarge
  /-- No number can be made from values of a type. -/
  | notNumeric (kind : Kind) (type : String)
  /-- A value that is no text has no blanks that could be looked at. -/
  | notText (type : String)
  | binaryAsText
  | textAsBinary
  | noLength (type : String)
  | itemNotInteger (type : String)
  | itemNoByte
  deriving DecidableEq, Repr

/-- Messages show at most this much of a text that is no whole number. -/
def shownLength : Nat := 200

/-- What can be turned into a number of a kind. -/
def numericTypes : Kind → String
  | .integer => "a string, a bytes-like object or a real number"
  | _ => "a string or a real number"

def Fault.message : Fault → String
  | .unknownKind word =>
    s!"Unknown literal kind '{word}', expecting one of " ++ ", ".intercalate (Kind.all.map (·.word))
  | .infinite => "cannot convert float infinity to integer"
  | .notANumber => "cannot convert float NaN to integer"
  | .notAnInteger shown =>
    "invalid literal for int() with base 10: " ++ String.ofList (shown.take shownLength)
  | .tooManyDigits digits =>
    s!"Exceeds the limit ({Decimal.maxDigits} digits) for integer string conversion: value has " ++
      s!"{digits} digits; use sys.set_int_max_str_digits() to increase the limit"
  | .tooLong =>
    s!"Exceeds the limit ({Decimal.maxDigits} digits) for integer string conversion; use " ++
      "sys.set_int_max_str_digits() to increase the limit"
  | .notAFloat shown => "could not convert string to float: " ++ String.ofList shown
  | .tooLarge => "int too large to convert to float"
  | .notNumeric kind type =>
    s!"{kind.word}() argument must be {numericTypes kind}, not '{type}'"
  | .notText type => s!"'{type}' object has no attribute 'strip'"
  | .binaryAsText => "a bytes-like object is required, not 'str'"
  | .textAsBinary => "string argument without an encoding"
  | .noLength type => s!"object of type '{type}' has no len()"
  | .itemNotInteger type => s!"'{type}' object cannot be interpreted as an integer"
  | .itemNoByte => "bytes must be in range(0, 256)"

instance : Cause Fault where
  message := Fault.message
  kind
    | .infinite | .tooLarge => .range
    | .notText _ => .member
    | .unknownKind _ | .notANumber | .notAnInteger _ | .tooManyDigits _ | .tooLong | .notAFloat _
    | .itemNoByte => .value
    | .notNumeric _ _ | .binaryAsText | .textAsBinary | .noLength _ | .itemNotInteger _ => .type

def nullText : Text := "null".toList

/-- Binary data as the text that it is made of, if it is all ASCII. -/
def asciiText? (bs : Bytes) : Option Text :=
  if bs.all (·.toNat < 128) then some (bs.map fun b => Char.ofNat b.toNat) else none

/-- The whole number that a text writes, which messages show in another form. -/
def readInteger (shown t : Text) : Except Fault Int :=
  match Decimal.integer t with
  | .ok n => .ok n
  | .error .malformed => .error (.notAnInteger shown)
  | .error (.tooLong digits) => .error (.tooManyDigits digits)

/-- The whole number that a value stands for. -/
def toInteger : Value → Except Fault Int
  | .boolean b => .ok (if b then 1 else 0)
  | .integer n => .ok n
  | .real (.finite negative m e) => .ok (Binary64.truncate negative m e)
  | .real (.infinite _) => .error .infinite
  | .real .nan => .error .notANumber
  | .text t => readInteger (Text.quoted t) t
  | .binary bs =>
    match asciiText? bs with
    | some t => readInteger (Text.quotedBytes bs) t
    | none => .error (.notAnInteger (Text.quotedBytes bs))
  | .null => .error (.notNumeric .integer Value.null.typeName)

/-- The floating point number that a value stands for. -/
def toFloat : Value → Except Fault Binary64
  | .boolean b => .ok (.ofRatio false (if b then 1 else 0) 1)
  | .integer n =>
    match Binary64.ofInt? n with
    | some x => .ok x
    | none => .error .tooLarge
  | .real x => .ok x
  | .text t =>
    match Decimal.float? t with
    | some x => .ok x
    | none => .error (.notAFloat (Text.quoted t))
  | .binary bs =>
    match (asciiText? bs).bind Decimal.float? with
    | some x => .ok x
    | none => .error (.notAFloat (Text.quotedBytes bs))
  | .null => .error (.notNumeric .float Value.null.typeName)

def integer (n : Int) : Text := (toString n).toList

/-- Whether a whole number has few enough digits to be written. -/
def isWritable (n : Int) : Bool := n.natAbs < Binary64.tenPow Decimal.maxDigits

/-- The literal of a whole number. -/
def ofInteger (n : Int) : Except Fault Text :=
  if isWritable n then .ok (integer n) else .error .tooLong

def string (t : Text) : Text :=
  if t.allBlank then nullText else '\'' :: t.double '\'' ++ ['\'']

def binary (bs : Bytes) : Text :=
  if bs.isEmpty then nullText else 'X' :: '\'' :: Text.hexBytes bs ++ ['\'']

def ofValue (kind : Kind) (v : Value) : Except Fault Text :=
  match kind, v with
  | _, .null => .ok nullText
  | .integer, v => (toInteger v).bind ofInteger
  | .float, v => (toFloat v).map Binary64.text
  | .string, .text t => .ok (string t)
  | .string, .binary _ => .error .binaryAsText
  | .string, v => .error (.notText v.typeName)
  | .binary, .binary bs => .ok (binary bs)
  | .binary, .text t => if t.isEmpty then .ok nullText else .error .textAsBinary
  | .binary, v => .error (.noLength v.typeName)

/-- The byte that an item of an array stands for. -/
def byte (item : Json) : Except Fault UInt8 :=
  let ofInteger (n : Int) : Except Fault UInt8 :=
    if 0 ≤ n && n < 256 then .ok (.ofNat n.toNat) else .error .itemNoByte
  match item with
  | .scalar (.integer n) => ofInteger n
  | .scalar (.boolean b) => ofInteger (if b then 1 else 0)
  | item => .error (.itemNotInteger item.typeName)

/-- The literal of a kind. Only binary data can be given by its items, and the items of an object
are its names. -/
def ofJson (kind : Kind) : Json → Except Fault Text
  | .scalar v => ofValue kind v
  | .array items =>
    match kind with
    | .binary => (items.mapM byte).map binary
    | .string => .error (.notText (Json.array items).typeName)
    | kind => .error (.notNumeric kind (Json.array items).typeName)
  | .object members =>
    match kind with
    | .binary => ((members.map fun m => Json.string m.1).mapM byte).map binary
    | .string => .error (.notText (Json.object members).typeName)
    | kind => .error (.notNumeric kind (Json.object members).typeName)

/-- The literal of a kind that is given by its word; the word is looked at first. -/
def quote (word : String) (j : Json) : Except Fault Text :=
  match Kind.ofWord? word with
  | none => .error (.unknownKind word)
  | some kind => ofJson kind j

end StoredRoutine.Literal
