import StoredRoutine.Text.Basic

/-!
The encodings of text files. Writing fails at the first run of characters beyond an encoding's
range, reading at the first bad byte sequence.
-/
namespace StoredRoutine

/-!
UTF-8. Reading stops at the first bad sequence and tells where it starts, how many bytes it has
and why it is bad: the second byte of a sequence is held to the range that its first byte leaves.
-/

namespace Utf8

inductive Reason where
  | invalidStart
  | invalidContinuation
  | unexpectedEnd
  deriving DecidableEq, Repr

/-- A bad sequence: the offset of its first byte and its bytes. -/
structure Fault where
  position : Nat
  bytes : Bytes
  reason : Reason
  deriving DecidableEq, Repr

def encodeChar (c : Char) : Bytes :=
  let n := c.toNat
  if n < 0x80 then [.ofNat n]
  else if n < 0x800 then [.ofNat (0xC0 + n / 0x40), .ofNat (0x80 + n % 0x40)]
  else if n < 0x10000 then
    [.ofNat (0xE0 + n / 0x1000), .ofNat (0x80 + n / 0x40 % 0x40), .ofNat (0x80 + n % 0x40)]
  else
    [.ofNat (0xF0 + n / 0x40000), .ofNat (0x80 + n / 0x1000 % 0x40),
      .ofNat (0x80 + n / 0x40 % 0x40), .ofNat (0x80 + n % 0x40)]

def encode (t : Text) : Bytes := t.flatMap encodeChar

def isContinuation (b : UInt8) : Bool := 0x80 ≤ b && b ≤ 0xBF

/-- The second bytes that may follow a first byte of two or more. -/
def isSecond (a b : UInt8) : Bool :=
  (if a = 0xE0 then 0xA0 else if a = 0xF0 then 0x90 else 0x80) ≤ b &&
    b ≤ (if a = 0xED then 0x9F else if a = 0xF4 then 0x8F else 0xBF)

/-- The low bits that a continuation byte contributes. -/
def tail (b : UInt8) : Nat := b.toNat - 0x80

/-- The characters of bytes that start at an offset. -/
def decodeFrom (position : Nat) : Bytes → Except Fault Text
  | [] => .ok []
  | a :: rest =>
    if a < 0x80 then (decodeFrom (position + 1) rest).map (Char.ofNat a.toNat :: ·)
    else if a < 0xC2 || 0xF4 < a then .error ⟨position, [a], .invalidStart⟩
    else match rest with
    | [] => .error ⟨position, [a], .unexpectedEnd⟩
    | b :: rest =>
      if !isSecond a b then .error ⟨position, [a], .invalidContinuation⟩
      else if a < 0xE0 then
        (decodeFrom (position + 2) rest).map
          (Char.ofNat ((a.toNat - 0xC0) * 0x40 + tail b) :: ·)
      else match rest with
      | [] => .error ⟨position, [a, b], .unexpectedEnd⟩
      | c :: rest =>
        if !isContinuation c then .error ⟨position, [a, b], .invalidContinuation⟩
        else if a < 0xF0 then
          (decodeFrom (position + 3) rest).map
            (Char.ofNat ((a.toNat - 0xE0) * 0x1000 + tail b * 0x40 + tail c) :: ·)
        else match rest with
        | [] => .error ⟨position, [a, b, c], .unexpectedEnd⟩
        | d :: rest =>
          if !isContinuation d then .error ⟨position, [a, b, c], .invalidContinuation⟩
          else
            (decodeFrom (position + 4) rest).map (Char.ofNat
              ((a.toNat - 0xF0) * 0x40000 + tail b * 0x1000 + tail c * 0x40 + tail d) :: ·)

def decode (bs : Bytes) : Except Fault Text := decodeFrom 0 bs

end Utf8

inductive Encoding where
  | utf8
  | latin1
  | ascii
  deriving DecidableEq, Repr

namespace Encoding

def all : List Encoding := [utf8, latin1, ascii]

def name : Encoding → String
  | utf8 => "utf-8"
  | latin1 => "latin-1"
  | ascii => "ascii"

/-- A name as it is looked up: its words in lower case, joined by underscores. -/
def key (s : String) : String :=
  let belongs (c : Char) : Bool := c.isAlphanum || c == '.'
  let cut := s.toList.map fun c => if belongs c then c.toLower else ' '
  "_".intercalate (((cut.splitOn ' ').filter (! ·.isEmpty)).map String.ofList)

/-- The keys of an encoding besides that of its name. They may also be asked for with points for
their underscores. -/
def otherKeys : Encoding → List String
  | utf8 => ["u8", "utf", "utf8", "utf8_ucs2", "utf8_ucs4", "cp65001"]
  | latin1 =>
    ["8859", "cp819", "csisolatin1", "ibm819", "iso8859", "iso8859_1", "iso_8859_1",
      "iso_8859_1_1987", "iso_ir_100", "l1", "latin", "latin1"]
  | ascii =>
    ["646", "ansi_x3.4_1968", "ansi_x3_4_1968", "ansi_x3.4_1986", "cp367", "csascii", "ibm367",
      "iso646_us", "iso_646.irv_1991", "iso_ir_6", "us", "us_ascii"]

/-- A key with underscores for its points. -/
def pointless (key : String) : String := key.map fun c => if c = '.' then '_' else c

/-- Keys of codes that are no encodings of text. -/
def codeKeys : List String := [
  "base64", "base64_codec", "base_64", "bz2", "bz2_codec", "hex", "hex_codec", "quopri",
  "quopri_codec", "quoted_printable", "quotedprintable", "rot13", "rot_13", "uu", "uu_codec", "zip",
  "zlib", "zlib_codec"]

/-- Whether a key, perhaps with points for its underscores, is among some keys. -/
def isAmong (keys : List String) (key : String) : Bool :=
  keys.contains key || keys.contains (pointless key)

/-- The encoding that goes by a name. -/
def ofName? (s : String) : Option Encoding :=
  all.find? fun e => key e.name = key s || isAmong e.otherKeys (key s)

/-- Why a name stands for no encoding. -/
inductive NameFault where
  | unknown (name : String)
  /-- It stands for a code that is no encoding of text. -/
  | notText (name : String)
  | nullCharacter
  deriving DecidableEq, Repr

def NameFault.message : NameFault → String
  | unknown name => s!"unknown encoding: {name}"
  | notText name =>
    s!"'{name}' is not a text encoding; use codecs.open() to handle arbitrary codecs"
  | nullCharacter => "embedded null character"

/-- The name of the encoding of the surroundings. -/
def surrounding : String := "locale"

/-- The encoding that a name stands for. -/
def named (s : String) : Except NameFault Encoding :=
  if s.contains '\x00' then .error .nullCharacter
  else if s = surrounding then .ok utf8
  else match ofName? s with
    | some e => .ok e
    | none => .error (if isAmong codeKeys (key s) then .notText s else .unknown s)

/-- How many characters, from the first one on, a single-byte encoding has. -/
def range : Encoding → Nat
  | utf8 => 0x110000
  | latin1 => 256
  | ascii => 128

/-- A run of characters that an encoding does not have. -/
structure EncodeFault where
  encoding : Encoding
  position : Nat
  characters : Text
  deriving DecidableEq, Repr

inductive DecodeReason where
  | utf8 (reason : Utf8.Reason)
  | outOfRange
  deriving DecidableEq, Repr

/-- Bytes that an encoding does not have. -/
structure DecodeFault where
  encoding : Encoding
  position : Nat
  bytes : Bytes
  reason : DecodeReason
  deriving DecidableEq, Repr

def encode (e : Encoding) (t : Text) : Except EncodeFault Bytes :=
  match e with
  | utf8 => .ok (Utf8.encode t)
  | e =>
    let fits (c : Char) : Bool := c.toNat < e.range
    if t.all fits then .ok (t.map fun c => .ofNat c.toNat)
    else .error ⟨e, (t.takeWhile fits).length, (t.dropWhile fits).takeWhile (! fits ·)⟩

def decode (e : Encoding) (bs : Bytes) : Except DecodeFault Text :=
  match e with
  | utf8 => (Utf8.decode bs).mapError fun f => ⟨utf8, f.position, f.bytes, .utf8 f.reason⟩
  | e =>
    let fits (b : UInt8) : Bool := b.toNat < e.range
    match bs.dropWhile fits with
    | [] => .ok (bs.map fun b => Char.ofNat b.toNat)
    | b :: _ => .error ⟨e, (bs.takeWhile fits).length, [b], .outOfRange⟩

/-- The positions of a run, its last one included. -/
def span (position length : Nat) : String :=
  if length ≤ 1 then s!"{position}" else s!"{position}-{position + length - 1}"

def DecodeReason.message (e : Encoding) : DecodeReason → String
  | .utf8 .invalidStart => "invalid start byte"
  | .utf8 .invalidContinuation => "invalid continuation byte"
  | .utf8 .unexpectedEnd => "unexpected end of data"
  | .outOfRange => s!"ordinal not in range({e.range})"

def DecodeFault.message (f : DecodeFault) : String :=
  let what := match f.bytes with
    | [b] => s!"byte 0x{String.ofList (Text.hex 2 b.toNat)}"
    | _ => "bytes"
  s!"'{f.encoding.name}' codec can't decode {what} in position {span f.position f.bytes.length}: " ++
    f.reason.message f.encoding

def EncodeFault.message (f : EncodeFault) : String :=
  let what := match f.characters with
    | [c] => s!"character '{String.ofList (Text.hexEscape c)}'"
    | _ => "characters"
  s!"'{f.encoding.name}' codec can't encode {what} in position " ++
    s!"{span f.position f.characters.length}: ordinal not in range({f.encoding.range})"

end Encoding

end StoredRoutine
