import StoredRoutine.Binary64
import StoredRoutine.Text.Basic
import StoredRoutine.Text.Quoted

/-!
JSON values, the values of a database among them, and how they are written: in a document, and in a
message.
-/
namespace StoredRoutine

/-!
Values of a database: what a column of a row holds and what a literal stands for.
-/

inductive Value where
  | null
  | boolean (b : Bool)
  | integer (n : Int)
  | real (x : Binary64)
  | text (t : Text)
  | binary (bs : Bytes)
  deriving DecidableEq, Repr

namespace Value

/-- The text of a value that replaces a placeholder. -/
def shown : Value → Text
  | null => "None".toList
  | boolean b => (if b then "True" else "False").toList
  | integer n => (toString n).toList
  | real x => x.text
  | text t => t
  | binary bs => Text.quotedBytes bs

/-- How messages call the type of a value. -/
def typeName : Value → String
  | null => "NoneType"
  | boolean _ => "bool"
  | integer _ => "int"
  | real _ => "float"
  | text _ => "str"
  | binary _ => "bytes"

end Value

/-!
JSON values and their written form: one item a line, indented by four blanks a level, with the
members of an object in the order of their names. Numbers that are not finite and binary data have
no written form.
-/

inductive Json where
  | scalar (v : Value)
  | array (items : List Json)
  | object (members : List (Text × Json))

namespace Json

def null : Json := scalar .null
def string (t : Text) : Json := scalar (.text t)
def number (n : Int) : Json := scalar (.integer n)

/-- A text that may be missing. -/
def optional : Option Text → Json
  | none => null
  | some t => string t

/-- An object with members named by strings. -/
def record (members : List (String × Json)) : Json :=
  object (members.map fun (name, j) => (name.toList, j))

/-- Whether a value counts as nothing: null, false, zero, or something empty. -/
def isNothing : Json → Bool
  | scalar .null | scalar (.boolean false) | scalar (.integer 0) | scalar (.text [])
  | scalar (.binary []) | scalar (.real (.finite _ 0 _)) | array [] | object [] => true
  | _ => false

/-- A value without a written form. -/
inductive Unwritable where
  | notFinite (x : Binary64)
  | binary
  deriving DecidableEq, Repr

def Unwritable.message : Unwritable → String
  | .notFinite x =>
    s!"Out of range float values are not JSON compliant: {String.ofList x.text}"
  | .binary => "Object of type bytes is not JSON serializable"

def escapedChar (c : Char) : Text :=
  if c = '"' then ['\\', '"']
  else if c = '\\' then ['\\', '\\']
  else if c = '\n' then ['\\', 'n']
  else if c = '\r' then ['\\', 'r']
  else if c = '\t' then ['\\', 't']
  else if c = Char.ofNat 8 then ['\\', 'b']
  else if c = Char.ofNat 12 then ['\\', 'f']
  else if c.toNat < 0x20 then '\\' :: 'u' :: Text.hex 4 c.toNat
  else [c]

def stringText (t : Text) : Text := '"' :: t.flatMap escapedChar ++ ['"']

/-- The written form of a value that has no parts. Whole numbers are written whatever their length:
those of metadata count the lines of a file, which has never so many that their number could not be
written. -/
def scalarText : Value → Except Unwritable Text
  | .null => .ok "null".toList
  | .boolean b => .ok (if b then "true" else "false").toList
  | .integer n => .ok (toString n).toList
  | .real (.finite negative m e) => .ok (Binary64.finite negative m e).text
  | .real x => .error (.notFinite x)
  | .text t => .ok (stringText t)
  | .binary _ => .error .binary

/-- A line break and the indentation of a level. -/
def freshLine (level : Nat) : Text := '\n' :: List.replicate (4 * level) ' '

/-- Written items between brackets, each on its own line. -/
def enclosed (opening closing : Char) (level : Nat) (items : List Text) : Text :=
  if items.isEmpty then [opening, closing]
  else
    opening :: freshLine (level + 1) ++ (',' :: freshLine (level + 1)).intercalate items ++
      freshLine level ++ [closing]

mutual

/-- The written form of a value at a level; the first member without one decides the fault. -/
def write (level : Nat) : Json → Except Unwritable Text
  | scalar v => scalarText v
  | array items => do
    return enclosed '[' ']' level (← (writeItems (level + 1) items).mapM id)
  | object members => do
    let written := (writeMembers (level + 1) members).mergeSort fun a b => Text.le a.1 b.1
    return enclosed '{' '}' level (← written.mapM fun (name, t) => do
      return stringText name ++ ": ".toList ++ (← t))

def writeItems (level : Nat) : List Json → List (Except Unwritable Text)
  | [] => []
  | j :: js => write level j :: writeItems level js

def writeMembers (level : Nat) : List (Text × Json) → List (Text × Except Unwritable Text)
  | [] => []
  | (name, j) :: ms => (name, write level j) :: writeMembers level ms

end

def toText (j : Json) : Except Unwritable Text := write 0 j

/-!
Values as messages show them: on one line, with texts in quotes inside of arrays and objects.
-/

/-- How messages call the type of a value. -/
def typeName : Json → String
  | scalar v => v.typeName
  | array _ => "list"
  | object _ => "dict"

def inspectedScalar : Value → Text
  | .text t => Text.quoted t
  | v => v.shown

mutual

/-- A value as an item of another one. -/
def inspected : Json → Text
  | scalar v => inspectedScalar v
  | array items => '[' :: ", ".toList.intercalate (inspectedItems items) ++ [']']
  | object members => '\x7b' :: ", ".toList.intercalate (inspectedMembers members) ++ ['\x7d']

def inspectedItems : List Json → List Text
  | [] => []
  | j :: js => inspected j :: inspectedItems js

def inspectedMembers : List (Text × Json) → List Text
  | [] => []
  | (name, j) :: ms => (Text.quoted name ++ ": ".toList ++ inspected j) :: inspectedMembers ms

end

/-- A value by itself; a text stands without quotes. -/
def shown : Json → Text
  | scalar v => v.shown
  | j => inspected j

end Json

end StoredRoutine
