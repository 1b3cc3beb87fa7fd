import StoredRoutine.OrderedMap
import StoredRoutine.Text.Basic

/-!
Files and directories by their places, and the paths that lead to them.
-/
namespace StoredRoutine

/-!
Paths as text and as components. A path drops empty components and single points; a component of
two points stays, since only the file tree knows what it names. One leading slash or exactly two
make a path absolute and are kept as they are.
-/

structure Path where
  /-- Nothing for a relative path, else the leading slash or slashes. -/
  root : String
  parts : List String
  deriving DecidableEq, Repr

namespace Path

/-- The texts between slashes. -/
def components (s : String) : List String := (s.toList.splitOn '/').map String.ofList

/-- How a text starts: three or more slashes count as one. -/
def rootOf (s : String) : String :=
  match (s.toList.takeWhile (· == '/')).length with
  | 0 => ""
  | 2 => "//"
  | _ => "/"

def ofString (s : String) : Path :=
  ⟨rootOf s, (components s).filter fun c => c != "" && c != "."⟩

def toString (p : Path) : String :=
  if p.root = "" && p.parts.isEmpty then "." else p.root ++ "/".intercalate p.parts

instance : ToString Path := ⟨toString⟩

def isAbsolute (p : Path) : Bool := p.root != ""

/-- A path below another; an absolute path stands for itself. -/
def join (p q : Path) : Path := if q.isAbsolute then q else ⟨p.root, p.parts ++ q.parts⟩

/-- A path with one more component. -/
def child (p : Path) (name : String) : Path := ⟨p.root, p.parts ++ [name]⟩

def parent (p : Path) : Path := ⟨p.root, p.parts.dropLast⟩

/-- The last component, empty for a path without components. -/
def name (p : Path) : String := p.parts.getLast?.getD ""

/-- The name up to its last point, unless that point is its first or last character. -/
def stemOf (name : String) : String :=
  let cs := name.toList
  let suffix := (cs.reverse.takeWhile (· != '.')).length
  if suffix = 0 || cs.length ≤ suffix + 1 then name
  else String.ofList (cs.take (cs.length - suffix - 1))

def stem (p : Path) : String := stemOf p.name

/-- Components with each pair of a name and two points after it removed; nothing lies above the
root. -/
def normalize (parts : List String) : List String :=
  parts.foldl (fun done c => if c = ".." then done.dropLast else done ++ [c]) []

/-- Where a path lies, without looking at the files: its components from the root on. -/
def absoluteParts (directory : List String) (p : Path) : List String :=
  normalize (if p.isAbsolute then p.parts else directory ++ p.parts)

/-- The path of a place given by its components from the root on. -/
def ofAbsolute (parts : List String) : Path := ⟨"/", parts⟩

/-- The absolute path that a path stands for, seen from a directory. -/
def resolve (directory : List String) (p : Path) : Path := ofAbsolute (absoluteParts directory p)

/-- The absolute path that a path stands for, with the slashes that it starts with. -/
def absolute (directory : List String) (p : Path) : Path :=
  ⟨if p.isAbsolute then p.root else "/", absoluteParts directory p⟩

/-- Paths in the order of their components. -/
def le (p q : Path) : Bool := !decide (q.parts < p.parts)

end Path

/-!
A tree of files as a value: directories and files by their place, which is the list of components
from the root on. Names in a path are looked up one after the other, so two points name the parent
of an existing directory only, and nothing lies below a file.
-/

/-- A place in the tree: components from the root on. -/
abbrev Place := List String

inductive Node where
  | directory
  | file (content : Bytes)
  deriving DecidableEq, Repr

structure FileTree where
  nodes : OrderedMap Place Node
  deriving DecidableEq, Repr

inductive OsError where
  | notFound
  | exists
  | notDirectory
  | isDirectory
  | busy
  | nameTooLong
  deriving DecidableEq, Repr

namespace OsError

def number : OsError → Nat
  | notFound => 2
  | busy => 16
  | «exists» => 17
  | notDirectory => 20
  | isDirectory => 21
  | nameTooLong => 36

def text : OsError → String
  | notFound => "No such file or directory"
  | busy => "Device or resource busy"
  | «exists» => "File exists"
  | notDirectory => "Not a directory"
  | isDirectory => "Is a directory"
  | nameTooLong => "File name too long"

end OsError

namespace FileTree

def empty : FileTree := ⟨∅⟩

instance : EmptyCollection FileTree := ⟨empty⟩

/-- What lies at a place; the root is a directory. -/
def get? (t : FileTree) (place : Place) : Option Node :=
  if place.isEmpty then some .directory else t.nodes.get? place

def put (t : FileTree) (place : Place) (node : Node) : FileTree := ⟨t.nodes.insert place node⟩

def remove (t : FileTree) (place : Place) : FileTree := ⟨t.nodes.erase place⟩

/-- A node with all directories above it. -/
def place (t : FileTree) (place : Place) (node : Node) : FileTree :=
  let above := (List.range place.length).map fun n => place.take n
  let t := above.foldl (fun t p => if (t.get? p).isSome then t else t.put p .directory) t
  t.put place node

/-- The most bytes that the name of a file has. -/
def nameLimit : Nat := 255

/-- The number of bytes from which on a path is too long to be looked up. -/
def pathLimit : Nat := 4096

def isTooLong (name : String) : Bool := nameLimit < name.utf8ByteSize

/-- The place that components name from a place on; each must exist in the directory before it. -/
def walk (t : FileTree) : Place → List String → Except OsError Place
  | here, [] => .ok here
  | here, c :: cs =>
    match t.get? here with
    | some .directory =>
      if c = "" || c = "." then walk t here cs
      else if c = ".." then walk t here.dropLast cs
      else if (t.get? (here ++ [c])).isSome then walk t (here ++ [c]) cs
      else .error (if isTooLong c then .nameTooLong else .notFound)
    | some (.file _) => .error .notDirectory
    | none => .error .notFound

/-- The place that a path names, seen from a directory. A trailing slash asks for a directory. -/
def locate (t : FileTree) (directory : Place) (path : String) : Except OsError Place :=
  if path.isEmpty then .error .notFound
  else if pathLimit ≤ path.utf8ByteSize then .error .nameTooLong
  else t.walk (if path.startsWith "/" then [] else directory) (Path.components path)

/-- What a path names; nothing if it cannot be a path or its place does not exist. -/
def node? (t : FileTree) (directory : Place) (path : String) : Option Node :=
  if path.contains '\x00' then none
  else match t.locate directory path with
    | .ok place => t.get? place
    | .error _ => none

def pathExists (t : FileTree) (directory : Place) (path : String) : Bool :=
  (t.node? directory path).isSome

def isFile (t : FileTree) (directory : Place) (path : String) : Bool :=
  match t.node? directory path with
  | some (.file _) => true
  | _ => false

def isDirectory (t : FileTree) (directory : Place) (path : String) : Bool :=
  t.node? directory path = some .directory

/-- The names in a directory. -/
def names (t : FileTree) (place : Place) : List String :=
  t.nodes.keys.filterMap fun p => if p.dropLast = place then p.getLast? else none

/-- The files with their contents, by place. -/
def files (t : FileTree) : List (Place × Bytes) :=
  t.nodes.entries.filterMap fun (p, n) =>
    match n with
    | .file content => some (p, content)
    | .directory => none

@[simp] theorem get?_root (t : FileTree) : t.get? [] = some .directory := rfl

theorem get?_put {t : FileTree} {place p : Place} {node : Node} (h : place ≠ []) :
    (t.put place node).get? p = if p = place then some node else t.get? p := by
  by_cases hp : p = []
  · subst hp
    simp [get?, Ne.symm h]
  · simp [get?, put, hp]

end FileTree

end StoredRoutine
