import StoredRoutine.Cause
import StoredRoutine.Encoding
import StoredRoutine.FileTree.Basic
import StoredRoutine.Text.Quoted

/-!
Reading and writing text files and making directories, with the ways in which each can fail.
-/
namespace StoredRoutine

def OsError.kind : OsError → FailureKind
  | .notFound => .notFound
  | .exists => .present
  | .notDirectory => .notDirectory
  | .isDirectory => .isDirectory
  | .busy | .nameTooLong => .system

/-- A failed operation on a path, or on a path and the path it should move to. -/
structure OsFailure where
  error : OsError
  path : String
  target : Option String
  deriving DecidableEq, Repr

def OsFailure.message (f : OsFailure) : String :=
  let paths := match f.target with
    | none => quotedString f.path
    | some target => quotedString f.path ++ " -> " ++ quotedString target
  s!"[Errno {f.error.number}] {f.error.text}: {paths}"

/-- Why a text file could not be read or written. -/
inductive AccessFailure where
  | os (failure : OsFailure)
  | nulByte
  | encodingName (fault : Encoding.NameFault)
  | undecodable (fault : Encoding.DecodeFault)
  | unencodable (fault : Encoding.EncodeFault)
  deriving DecidableEq, Repr

def AccessFailure.message : AccessFailure → String
  | os failure => failure.message
  | nulByte => "embedded null byte"
  | encodingName fault => fault.message
  | undecodable fault => fault.message
  | unencodable fault => fault.message

def AccessFailure.kind : AccessFailure → FailureKind
  | os failure => failure.error.kind
  | nulByte => .value
  | encodingName .nullCharacter => .value
  | encodingName _ => .lookUp
  | undecodable _ => .decoding
  | unencodable _ => .encoding

instance : Cause AccessFailure where
  message := AccessFailure.message
  kind := AccessFailure.kind

namespace FileTree

/-- What a path names, if it names anything. A path that is too long cannot even be asked about. -/
def find? (t : FileTree) (directory : Place) (path : String) : Except OsFailure (Option Node) :=
  if path.contains '\x00' then .ok none
  else match t.locate directory path with
    | .ok place => .ok (t.get? place)
    | .error .nameTooLong => .error ⟨.nameTooLong, path, none⟩
    | .error _ => .ok none

def hasFile (t : FileTree) (directory : Place) (path : String) : Except OsFailure Bool :=
  (t.find? directory path).map fun
    | some (.file _) => true
    | _ => false

def hasDirectory (t : FileTree) (directory : Place) (path : String) : Except OsFailure Bool :=
  (t.find? directory path).map (· == some .directory)

/-- Whether a path names anything. -/
def hasAny (t : FileTree) (directory : Place) (path : String) : Except OsFailure Bool :=
  (t.find? directory path).map (·.isSome)

def readBytes (t : FileTree) (directory : Place) (path : String) : Except AccessFailure Bytes :=
  if path.contains '\x00' then .error .nulByte
  else match t.locate directory path with
    | .error e => .error (.os ⟨e, path, none⟩)
    | .ok place =>
      match t.get? place with
      | some (.file content) => .ok content
      | some .directory => .error (.os ⟨.isDirectory, path, none⟩)
      | none => .error (.os ⟨.notFound, path, none⟩)

/-- The text of a file in a named encoding, with its line breaks as they are. -/
def readText (t : FileTree) (directory : Place) (path encoding : String) :
    Except AccessFailure Text := do
  if encoding.contains '\x00' then throw (.encodingName .nullCharacter)
  let content ← t.readBytes directory path
  let e ← (Encoding.named encoding).mapError .encodingName
  (e.decode content).mapError .undecodable

def readUtf8 (t : FileTree) (directory : Place) (path : String) : Except AccessFailure Text :=
  t.readText directory path "utf-8"

/-- Where a path lies from which its components are looked up. -/
def origin (directory : Place) (p : Path) : Place := if p.isAbsolute then [] else directory

/-- The tree with one more directory, in a directory that exists. -/
def makeDirectory (t : FileTree) (directory : Place) (p : Path) : Except OsFailure FileTree :=
  let fail (e : OsError) := Except.error ⟨e, p.toString, none⟩
  match p.parts.getLast? with
  | none => fail .exists
  | some name =>
    match t.walk (origin directory p) p.parts.dropLast with
    | .error e => fail e
    | .ok place =>
      match t.get? place with
      | some .directory =>
        if name = ".." || (t.get? (place ++ [name])).isSome then fail .exists
        else if isTooLong name || pathLimit ≤ p.toString.utf8ByteSize then fail .nameTooLong
        else .ok (t.put (place ++ [name]) .directory)
      | some (.file _) => fail .notDirectory
      | none => fail .notFound

/-- The outcome of making a directory that may be there already. -/
def settle (t : FileTree) (directory : Place) (p : Path) :
    Except OsFailure FileTree → FileTree × Except OsFailure Unit
  | .ok t' => (t', .ok ())
  | .error f =>
    if f.error ≠ .notFound && t.isDirectory directory p.toString then (t, .ok ())
    else (t, .error f)

/-- Makes a directory and the missing ones above it; its components are given from the last on. -/
def makeDirectoriesUp (directory : Place) (root : String) :
    List String → FileTree → FileTree × Except OsFailure Unit
  | [], t => settle t directory ⟨root, []⟩ (t.makeDirectory directory ⟨root, []⟩)
  | c :: up, t =>
    let p : Path := ⟨root, (c :: up).reverse⟩
    match t.makeDirectory directory p with
    | .error ⟨.notFound, _, _⟩ =>
      match makeDirectoriesUp directory root up t with
      | (t, .error f) => (t, .error f)
      | (t, .ok ()) => settle t directory p (t.makeDirectory directory p)
    | outcome => settle t directory p outcome

/-- Makes a directory and the missing ones above it. What was made stays when a later step
fails. -/
def makeDirectories (t : FileTree) (directory : Place) (p : Path) :
    FileTree × Except AccessFailure Unit :=
  if p.toString.contains '\x00' then (t, .error .nulByte)
  else
    let (t, outcome) := makeDirectoriesUp directory p.root p.parts.reverse t
    (t, outcome.mapError .os)

/-- Writes a file, or makes a directory, together with the missing directories above it. -/
def makeNode (t : FileTree) (directory : Place) (path : String) (node : Node) :
    FileTree × Except AccessFailure Unit :=
  let p := Path.ofString path
  match node with
  | .directory => t.makeDirectories directory p
  | .file content =>
    match t.makeDirectories directory p.parent with
    | (t, .error f) => (t, .error f)
    | (t, .ok ()) =>
      match t.readBytes directory path, t.locate directory p.parent.toString with
      | .error (.os ⟨.isDirectory, path, _⟩), _ => (t, .error (.os ⟨.isDirectory, path, none⟩))
      | .error (.os ⟨.nameTooLong, path, _⟩), _ => (t, .error (.os ⟨.nameTooLong, path, none⟩))
      | _, .ok above => (t.put (above ++ p.parts.getLast?.toList) (.file content), .ok ())
      | _, .error e => (t, .error (.os ⟨e, path, none⟩))

def removeFile (t : FileTree) (directory : Place) (path : String) :
    FileTree × Except AccessFailure Unit :=
  match t.readBytes directory path, t.locate directory path with
  | .ok _, .ok place => (t.remove place, .ok ())
  | .error f, _ => (t, .error f)
  | _, .error e => (t, .error (.os ⟨e, path, none⟩))

/-!
Writing a text file in two phases: a temporary file beside the target takes the text and then the
name of the target. A target that already holds the text is left alone, and a failure leaves every
file as it was.
-/

/-- A name for a temporary file that no file in a directory has: it is longer than all of them. -/
def temporaryName (taken : List String) (name : String) : String :=
  let longest := (taken.map String.length).foldl max 0
  s!".{name}." ++ "".pushn '*' (longest + 1) ++ ".tmp"

/-- How many random characters the name of a temporary file has. -/
def randomLength : Nat := 8

/-- The name of the temporary file of a target, with other characters in place of random ones. -/
def exampleName (target : Path) : String :=
  s!".{target.name}." ++ "".pushn '*' randomLength ++ ".tmp"

/-- How messages show the temporary file of a target. -/
def shownTemporary (directory : Place) (target : Path) : String :=
  ((target.parent.resolve directory).child s!".{target.name}.*.tmp").toString

/-- Gives the name of a target to a temporary file beside it. -/
def rename (t : FileTree) (directory place : Place) (temporary : String) (content : Bytes)
    (target : Path) : FileTree × Except AccessFailure Unit :=
  let without := t.remove (place ++ [temporary])
  let fail (e : OsError) :=
    (without, Except.error (.os ⟨e, shownTemporary directory target, some target.toString⟩))
  if target.name = "" || target.name = ".." then fail .busy
  else if t.get? (place ++ [target.name]) = some .directory then fail .isDirectory
  else (without.put (place ++ [target.name]) (.file content), .ok ())

/-- Writes a target in a directory that exists. -/
def writeBeside (t : FileTree) (directory place : Place) (target : Path) (text : Text)
    (encoding : String) : FileTree × Except AccessFailure Unit :=
  if target.name.contains '\x00' then (t, .error .nulByte)
  else if isTooLong (exampleName target) then
    (t, .error (.os ⟨.nameTooLong, shownTemporary directory target, none⟩))
  else
    let temporary := temporaryName (t.names place) target.name
    let begun := t.put (place ++ [temporary]) (.file [])
    match Encoding.named encoding with
    | .error fault => (begun.remove (place ++ [temporary]), .error (.encodingName fault))
    | .ok e =>
      match e.encode text with
      | .error fault => (begun.remove (place ++ [temporary]), .error (.unencodable fault))
      | .ok content =>
        let written := begun.put (place ++ [temporary]) (.file content)
        written.rename directory place temporary content target

/-- Writes a text to a file, making the directories above it. The answer tells whether the file
had to be written. -/
def writeAtomically (t : FileTree) (directory : Place) (path : String) (text : Text)
    (encoding : String) : FileTree × Except AccessFailure Bool :=
  let target := Path.ofString path
  let old : Except AccessFailure (Option Text) := do
    if ← (t.hasFile directory target.toString).mapError .os then
      return some (← t.readText directory target.toString encoding)
    return none
  match old with
  | .error f => (t, .error f)
  | .ok (some old) => if old = text then (t, .ok false) else write t target
  | .ok none => write t target
where
  write (t : FileTree) (target : Path) : FileTree × Except AccessFailure Bool :=
    match t.makeDirectories directory target.parent with
    | (t, .error f) => (t, .error f)
    | (t, .ok ()) =>
      match t.walk (origin directory target) target.parts.dropLast with
      | .error e => (t, .error (.os ⟨e, shownTemporary directory target, none⟩))
      | .ok place =>
        let (t, outcome) := t.writeBeside directory place target text encoding
        (t, outcome.map fun _ => true)

/-- The tree in the middle of writing a text to a file, if the writing is broken off there: the
directories above the file are made, and the temporary file is gone again. -/
def midway (t : FileTree) (directory : Place) (path : String) (text : Text) (encoding : String) :
    FileTree :=
  match t.writeAtomically directory path text encoding with
  | (_, .ok true) => (t.makeDirectories directory (Path.ofString path).parent).1
  | _ => t

end FileTree

end StoredRoutine
