import StoredRoutine.DocBlock
import StoredRoutine.Log.Record
import StoredRoutine.Text.Basic

/-!
The parameters of a routine: the bind markers of its payload, and the tags that document them.
-/
namespace StoredRoutine

/-!
Bind markers of a routine: a colon and an identifier, where the colon does not follow another
colon, so that a cast written with two colons has none.
-/

namespace BindMarker

/-- The markers of a text; `afterColon` says that the character before the text is a colon. -/
def scan (afterColon : Bool) : Text → List Text
  | [] => []
  | c :: t =>
    if c = ':' && !afterColon && t.head?.any isNameStart then
      (':' :: t.takeWhile isNamePart) :: scan false (t.dropWhile isNamePart)
    else scan (c = ':') t
termination_by t => t.length
decreasing_by
  · simpa [Nat.lt_succ_iff] using (List.dropWhile_sublist _).length_le
  · simp

/-- The distinct markers of a text in order of first occurrence. -/
def discover (t : Text) : List Text := (scan false t).eraseDups

end BindMarker

/-!
Documented parameters and their agreement with the bind markers of a routine: both must name the
same parameters, and then each marker takes the type and description that document it.
-/

namespace Parameter

structure Documented where
  name : Text
  type : Text
  description : Text
  deriving DecidableEq, Repr

/-- A bind marker with its documented type, if that is not empty. -/
structure Descriptor where
  name : Text
  type : Option Text
  deriving DecidableEq, Repr

/-- A documented name with its colon, which may be left out. -/
def markerName (name : Text) : Text :=
  match name.trim with
  | [] => []
  | ':' :: t => ':' :: t
  | t => ':' :: t

/-- The parameter that a tag documents, if it names one. -/
def Documented.ofTag? (tag : DocBlock.Tag) : Option Documented :=
  match markerName (tag.argument DocBlock.nameArgument) with
  | [] => none
  | name => some ⟨name, tag.argument DocBlock.typeArgument, tag.description⟩

/-- The parameters that tags document; the first tag for a name counts. -/
def documented (tags : List DocBlock.Tag) : List Documented :=
  (tags.filterMap Documented.ofTag?).foldl
    (fun ds d => if ds.any (·.name == d.name) then ds else ds ++ [d]) []

/-- Bind markers without documentation and documented names without bind marker. -/
structure Mismatch where
  undocumented : List Text
  unused : List Text
  deriving DecidableEq, Repr

def compare (discovered : List Text) (ds : List Documented) : Mismatch :=
  let names := ds.map (·.name)
  ⟨discovered.filter (! names.contains ·), names.filter (! discovered.contains ·)⟩

def Mismatch.isEmpty (m : Mismatch) : Bool := m.undocumented.isEmpty && m.unused.isEmpty

/-- One note for every name that one side lacks. -/
def Mismatch.notes (m : Mismatch) : List Diagnostic :=
  m.undocumented.map (fun name =>
    .note s!"Parameter '{String.ofList name}' is not documented in the DocBlock") ++
  m.unused.map (fun name =>
    .note s!"Documented parameter '{String.ofList name}' does not occur in the routine")

/-- The last parameter documented under a name. -/
def find? (ds : List Documented) (name : Text) : Option Documented :=
  ds.reverse.find? (·.name == name)

/-- The documented parameters in the order of the bind markers. -/
def arranged (discovered : List Text) (ds : List Documented) : List Documented :=
  discovered.filterMap (find? ds)

def Documented.descriptor (d : Documented) : Descriptor :=
  ⟨d.name, if d.type.isEmpty then none else some d.type⟩

/-- The documented parameters by bind marker, or what the two sides lack. -/
def validate (discovered : List Text) (ds : List Documented) : Except Mismatch (List Documented) :=
  let m := compare discovered ds
  if m.isEmpty then .ok (arranged discovered ds) else .error m

end Parameter

end StoredRoutine
