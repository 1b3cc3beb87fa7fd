import StoredRoutine.OrderedMap
import StoredRoutine.Text.Basic

/-!
The DocBlock of a source: where it lies, and what its lines say.
-/
namespace StoredRoutine

/-!
Where the DocBlock of a source lies: from the first line that holds only the opening marker to the
first later line that holds only the closing marker.
-/

namespace DocBlock

def isOpening (line : Text) : Bool := line.trim == "/**".toList

def isClosing (line : Text) : Bool := line.trim == "*/".toList

structure Bounds where
  /-- Index of the opening line. -/
  first : Nat
  /-- Index of the closing line. -/
  last : Nat
  deriving DecidableEq, Repr

/-- One pass over the lines from an index on. It looks for the opening line until the index of that
line is known, and then for the closing one. -/
def boundsFrom : Option Nat → Nat → List Text → Option Bounds
  | _, _, [] => none
  | none, i, line :: lines => boundsFrom (if isOpening line then some i else none) (i + 1) lines
  | some first, i, line :: lines =>
    if isClosing line then some ⟨first, i⟩ else boundsFrom (some first) (i + 1) lines

def bounds? (lines : List Text) : Option Bounds := boundsFrom none 0 lines

/-- After the opening line the pass finds the closing one. -/
theorem boundsFrom_some (first i : Nat) (lines : List Text) :
    boundsFrom (some first) i lines =
      (lines.findIdx? isClosing).map fun inner => ⟨first, i + inner⟩ := by
  induction lines generalizing i with
  | nil => rfl
  | cons line lines ih =>
    rw [boundsFrom, List.findIdx?_cons]
    split
    · rfl
    · rw [ih, Option.map_map]
      simp only [Function.comp_def, ← Nat.add_assoc, Nat.add_right_comm i 1]

theorem boundsFrom_none (i : Nat) (lines : List Text) :
    boundsFrom none i lines = do
      let first ← lines.findIdx? isOpening
      let inner ← (lines.drop (first + 1)).findIdx? isClosing
      return ⟨i + first, i + first + 1 + inner⟩ := by
  induction lines generalizing i with
  | nil => rfl
  | cons line lines ih =>
    rw [boundsFrom, List.findIdx?_cons]
    split
    · rw [boundsFrom_some]
      exact Option.map_eq_bind
    · rw [ih]
      simp only [Option.bind_eq_bind, Option.bind_map, Function.comp_def, List.drop_succ_cons,
        ← Nat.add_assoc, Nat.add_right_comm i 1]

/-- The pass is a search for the opening line and, in the lines after it, one for the closing line. -/
theorem bounds?_eq_findIdx? (lines : List Text) :
    bounds? lines = do
      let first ← lines.findIdx? isOpening
      let inner ← (lines.drop (first + 1)).findIdx? isClosing
      return ⟨first, first + 1 + inner⟩ := by
  rw [bounds?, boundsFrom_none]
  simp only [Nat.zero_add]

/-!
Tags of a DocBlock. A tag line is an at sign and a name, perhaps followed by blanks and more text.
A registered tag has positional arguments, filled by the first words of its content; the remaining
words are its description. An unregistered tag keeps its content only.
-/

structure Tag where
  name : Text
  arguments : OrderedMap Text Text
  description : Text
  /-- The text after the name, without the blanks around it. -/
  content : Text
  deriving DecidableEq, Repr

/-- The names of the positional arguments of each registered tag. -/
abbrev Schemas := OrderedMap Text (List Text)

def paramTag : Text := "param".toList
def typeTag : Text := "type".toList
def returnTag : Text := "return".toList

def typeArgument : Text := "type".toList
def nameArgument : Text := "name".toList

/-- Parameters have a type and a name; designation and return type are one word each. -/
def standardSchemas : Schemas :=
  .ofList [(paramTag, [typeArgument, nameArgument]), (typeTag, [typeArgument]),
    (returnTag, [typeArgument])]

/-- A character that may continue the name of a tag. -/
def isTagNamePart (c : Char) : Bool := isNamePart c || c == '-'

/-- The name on a tag line and the text after it; the line is given without decoration. -/
def tagLine? (line : Text) : Option (Text × Text) :=
  match line.trimLeft with
  | '@' :: c :: t =>
    if isNameStart c then
      let rest : Text := t.dropWhile isTagNamePart
      let content := rest.trimLeft
      if (rest.isEmpty || rest.length != content.length) && !content.contains '\n' then
        some (c :: t.takeWhile isTagNamePart, content)
      else none
    else none
  | _ => none

/-- Positional arguments from words; an argument without a word is empty. -/
def assign : (arguments words : List Text) → List (Text × Text)
  | [], _ => []
  | a :: as, [] => (a, []) :: assign as []
  | a :: as, w :: ws => (a, w) :: assign as ws

/-- The tag with a name and the text after that name. -/
def Tag.parse (schemas : Schemas) (name content : Text) : Tag :=
  let content := content.trim
  match schemas.get? name with
  | none => { name, arguments := ∅, description := [], content }
  | some arguments =>
    { name, content
      arguments := .ofList (assign arguments content.words)
      description := .ofWords (content.words.drop arguments.length) }

def Tag.argument (tag : Tag) (name : Text) : Text := (tag.arguments.get? name).getD []

end DocBlock

/-!
The DocBlock of a source: a short description up to the first empty line, a long description up to
the first tag, and tags, each continued by the lines up to the next one. A source without DocBlock
has an empty one.
-/

structure DocBlock where
  bounds : Option DocBlock.Bounds
  shortDescription : Text
  longDescription : Text
  tags : List DocBlock.Tag
  deriving DecidableEq, Repr

namespace DocBlock

/-- A line without the blanks around it and without a leading asterisk and one space after it. -/
def undecorated (line : Text) : Text :=
  let bare : Text := match line.trim with
    | '*' :: ' ' :: t => t
    | '*' :: t => t
    | t => t
  bare.trimRight

/-- Lines without the blank lines before the first and after the last line that is not blank. -/
def trimLines (lines : List Text) : List Text :=
  ((lines.dropWhile (·.allBlank)).reverse.dropWhile (·.allBlank)).reverse

inductive Section where
  | short
  | long
  | tags
  deriving DecidableEq, Repr

/-- What the rest of the lines of a DocBlock add to its parts. -/
structure Draft where
  short : List Text
  long : List Text
  /-- Lines that continue the tag before them. -/
  continuation : List Text
  tags : List (Text × List Text)
  deriving DecidableEq, Repr

/-- Sorting undecorated lines into parts, from a section on; `started` says that the short
description has a line. -/
def draft (s : Section) (started : Bool) : List Text → Draft
  | [] => ⟨[], [], [], []⟩
  | line :: lines =>
    match tagLine? line, s with
    | some (name, content), _ =>
      let d := draft .tags started lines
      { d with continuation := [], tags := (name, content :: d.continuation) :: d.tags }
    | none, .tags =>
      let d := draft .tags started lines
      { d with continuation := line :: d.continuation }
    | none, .short =>
      if line.isEmpty then draft (if started then .long else .short) started lines
      else
        let d := draft .short true lines
        { d with short := line :: d.short }
    | none, .long =>
      let d := draft .long started lines
      { d with long := line :: d.long }

/-- The descriptions and tags in the lines between the markers. -/
def parse (schemas : Schemas) (lines : List Text) : Text × Text × List Tag :=
  let d := draft .short false (lines.map undecorated)
  (.ofLines (trimLines d.short), .ofLines (trimLines d.long),
    d.tags.map fun (name, lines) => .parse schemas name (.ofLines lines))

/-- The DocBlock in the lines of a source. -/
def extract (schemas : Schemas) (lines : List Text) : DocBlock :=
  match bounds? lines with
  | none => ⟨none, [], [], []⟩
  | some b =>
    let (short, long, tags) := parse schemas ((lines.take b.last).drop (b.first + 1))
    ⟨some b, short, long, tags⟩

/-- The tags with a given name, in order. -/
def tagsNamed (doc : DocBlock) (name : Text) : List Tag := doc.tags.filter (·.name == name)

end DocBlock

end StoredRoutine
