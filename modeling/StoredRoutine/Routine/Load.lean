import StoredRoutine.Cause
import StoredRoutine.DocBlock
import StoredRoutine.FileTree.Access
import StoredRoutine.Literal
import StoredRoutine.Parameter
import StoredRoutine.Placeholder
import StoredRoutine.Routine.Metadata
import StoredRoutine.Task
import StoredRoutine.Text.Basic

/-!
Compiling one routine: its source is read, the placeholders of the whole text are resolved, the
declarations of its DocBlock are checked, the bind markers of its payload are held against the
documented parameters, and placeholders and magic constants are substituted line by line in the
payload. The first rule that is broken decides the failure.
-/
namespace StoredRoutine.Routine

/-!
The payload of a routine: its source from the first line after the DocBlock on that is not blank,
or from the first such line if there is no DocBlock.
-/

/-- The index of the first payload line; the number of lines if there is none. -/
def payloadOffset (lines : List Text) (doc : DocBlock) : Nat :=
  let start := match doc.bounds with
    | some b => b.last + 1
    | none => 0
  start + ((lines.drop start).takeWhile (·.allBlank)).length

/-- The line of the source, counted from one, that holds the payload line at an index. -/
def lineNumber (index offset : Int) : Int := offset + index + 1

/-!
Why a single routine cannot be loaded, by cause, and the message of each cause.
-/

inductive LoadFailure where
  /-- No file can have the path. -/
  | invalidPath
  | unreadable (failure : AccessFailure)
  | emptySource
  | unresolvedPlaceholders (placeholders : List Text)
  | designationTagMissing
  | designationTagRepeated
  | designationTagEmpty
  | unknownDesignation (word : Text)
  | returnTagRedundant (designation : Designation)
  | returnTagMissing
  | returnTagRepeated
  | returnTagEmpty
  | returnType (fault : ReturnType.Fault)
  | parameters (mismatch : Parameter.Mismatch)
  deriving DecidableEq, Repr

namespace LoadFailure

/-- The failure on placeholders without value, which it lists distinct and in ascending order. -/
def ofUnresolved (placeholders : List Text) : LoadFailure :=
  unresolvedPlaceholders (Text.sortedSet placeholders)

def message : LoadFailure → String
  | invalidPath => AccessFailure.nulByte.message
  | unreadable failure => "Unable to read source file: " ++ failure.message
  | emptySource => "Source file is empty"
  | unresolvedPlaceholders _ => "Unknown placeholder(s) found"
  | designationTagMissing => "Tag @type not found in DocBlock."
  | designationTagRepeated => "Multiple @type tags found in DocBlock."
  | designationTagEmpty => "Unable to find the designation type of the stored routine."
  | unknownDesignation word => s!"'{String.ofList word}' is not a valid designation type"
  | returnTagRedundant d =>
    s!"Redundant @return tag found in DocBlock (designation type '{d.word}')."
  | returnTagMissing => "Tag @return not found in DocBlock."
  | returnTagRepeated => "Multiple @return tags found in DocBlock."
  | returnTagEmpty => "Invalid return tag. Expected: @return <type>."
  | returnType fault => fault.message
  | parameters _ => "Parameters of routine and DocBlock do not match"

/-- The class of a failure, unless it is none of the program's own. -/
def class? : LoadFailure → Option ErrorClass
  | invalidPath | returnType .absent => none
  | unreadable _ | emptySource => some .unreadableSource
  | unresolvedPlaceholders _ => some .unresolvedPlaceholder
  | designationTagMissing | designationTagRepeated | designationTagEmpty => some .designationTag
  | unknownDesignation _ => some .invalidDesignation
  | returnTagRedundant _ | returnTagMissing | returnTagRepeated | returnTagEmpty => some .returnTag
  | returnType _ => some .invalidReturnType
  | parameters _ => some .parameterMismatch

/-- Whether a failure concerns its routine only, so that a batch goes on after it. -/
def isLocal (f : LoadFailure) : Bool := f.class?.any (·.isLocal)

/-- The kind under which a failure is logged. -/
def kind (f : LoadFailure) : String := (f.class?.map (·.name)).getD ""

/-- What a failure is about. -/
def details : LoadFailure → List (String × Json)
  | unresolvedPlaceholders ps => [("placeholders", .array (ps.map .string))]
  | unknownDesignation word => [("designation", .string word)]
  | parameters m =>
    [("undocumented", .array (m.undocumented.map .string)),
      ("unused", .array (m.unused.map .string))]
  | _ => []

end LoadFailure

instance : Cause LoadFailure where
  message := LoadFailure.message
  kind
    | .invalidPath => .value
    | .returnType .absent => .member
    | f => .routine f.kind
  details := LoadFailure.details

/-- What tells the user which source was not loaded. -/
def failureNotice (path : String) : String := s!"Failed to load file '{path}'"

/-- What the user reads about a source that was not loaded: why, and which file. -/
def describeFailure (path message : String) : List String := [message, failureNotice path]

/-!
What the DocBlock of a routine declares about its result: exactly one designation, and a return
type for the designations that carry one and for no other.
-/

def designation (doc : DocBlock) : Except LoadFailure Designation :=
  match doc.tagsNamed DocBlock.typeTag with
  | [] => .error .designationTagMissing
  | _ :: _ :: _ => .error .designationTagRepeated
  | [tag] =>
    let word := tag.argument DocBlock.typeArgument
    if word.isEmpty then .error .designationTagEmpty
    else match Designation.ofWord? word with
      | some d => .ok d
      | none => .error (.unknownDesignation word)

def declaredReturnType (doc : DocBlock) (d : Designation) : Except LoadFailure (Option Text) :=
  let tags := doc.tagsNamed DocBlock.returnTag
  if d.returnsValue then
    match tags with
    | [] => .error .returnTagMissing
    | _ :: _ :: _ => .error .returnTagRepeated
    | [tag] =>
      let type := tag.argument DocBlock.typeArgument
      if type.isEmpty then .error .returnTagEmpty else .ok (some type)
  else if tags.isEmpty then .ok none
  else .error (.returnTagRedundant d)

/-- Holds a declared return type to the rules of its designation. -/
def checkReturnType (d : Designation) (type : Option Text) : Except LoadFailure Unit :=
  match ReturnType.fault? d type with
  | some fault => .error (.returnType fault)
  | none => .ok ()

def fileConstant : Text := "__FILE__".toList
def routineConstant : Text := "__ROUTINE__".toList
def directoryConstant : Text := "__DIR__".toList
def lineConstant : Text := "__LINE__".toList

/-- The constants that are the same on every line: absolute path, routine and directory, each as a
string literal. -/
def magicConstants (directory : Place) (source : Source) : List (Text × Text) :=
  let path := (Path.ofString source.path).resolve directory
  let quoted (s : String) : Text := Literal.string s.toList
  [(fileConstant, quoted path.toString), (routineConstant, quoted source.routineName),
    (directoryConstant, quoted path.parent.toString)]

/-- What is replaced on a payload line, by its index in the payload. -/
def lineReplacements (shared : OrderedMap Text Text) (offset index : Nat) : OrderedMap Text Text :=
  shared.insert lineConstant (Literal.integer (lineNumber index offset))

/-- The payload with placeholders and constants substituted, each line for itself. -/
def substitutePayload (shared : OrderedMap Text Text) (offset : Nat) (payload : List Text) : Text :=
  .ofLines (payload.mapIdx fun index line =>
    Placeholder.substitute (lineReplacements shared offset index) line)

/-- The text of a source, which must not be blank. -/
def readSource (files : FileTree) (directory : Place) (path : String) : Except LoadFailure Text :=
  match files.readUtf8 directory path with
  | .error .nulByte => .error .invalidPath
  | .error f => .error (.unreadable f)
  | .ok text => if text.allBlank then .error .emptySource else .ok text

/-- The replacements for the placeholders of a text, which must all have a value. -/
def replacements (pairs : Placeholder.Pairs) (text : Text) :
    Except LoadFailure (OrderedMap Text Text) :=
  let r := Placeholder.resolve pairs text
  if r.unknown.isEmpty then .ok r.replacements else .error (.ofUnresolved r.unknown)

/-- The record of a routine, from the text of its source. -/
def compile (directory : Place) (pairs : Placeholder.Pairs) (source : Source) (text : Text) :
    Except LoadFailure Metadata := do
  let lines := text.lines
  let doc := DocBlock.extract DocBlock.standardSchemas lines
  let offset := payloadOffset lines doc
  let payload := lines.drop offset
  let replace ← replacements pairs text
  let designation ← designation doc
  let returnType ← declaredReturnType doc designation
  checkReturnType designation returnType
  let documented ← (Parameter.validate (BindMarker.discover (.ofLines payload))
    (Parameter.documented (doc.tagsNamed DocBlock.paramTag))).mapError .parameters
  return {
    routineName := source.routineName
    designation, returnType
    parameters := documented.map (·.descriptor)
    documentation := ⟨doc.shortDescription, doc.longDescription, documented⟩
    payloadOffset := offset
    source := substitutePayload (replace.insertMany (magicConstants directory source)) offset
      payload }

/-- The source with its unresolved placeholders marked, as it is shown to the user. -/
def unresolvedReports (text : Text) (placeholders : List Text) : List Report :=
  [.diagnostic (.text ["Unknown placeholder(s):"]),
    .diagnostic (.listing (placeholders.map String.ofList)),
    .diagnostic (.text ((Placeholder.markUnresolved placeholders text).lines.map String.ofList))]

def loaderLog : String := "loader.routine_loader"

/-- What is reported about the outcome of compiling a text. -/
def outcomeReports (text : Text) : Except LoadFailure Metadata → List Report
  | .ok m =>
    [.debug loaderLog (s!"Compiled routine {m.routineName}: designation={m.designation.word}, " ++
      s!"parameters={m.parameters.length}, offset={m.payloadOffset}")]
  | .error (.unresolvedPlaceholders placeholders) => unresolvedReports text placeholders
  | .error (.parameters mismatch) => mismatch.notes.map .diagnostic
  | .error _ => []

def announcement (source : Source) : Report :=
  .diagnostic (.text [s!"Loading routine {source.routineName}"])

/-- Loads the routine of a source, reporting on the way. -/
def load {σ : Type} [Host σ] (pairs : Placeholder.Pairs) (source : Source) :
    Task σ LoadFailure Metadata := do
  Task.report (announcement source)
  let text ← Task.ofExcept (readSource (← Task.files) (← Task.directory) source.path)
  let outcome := compile (← Task.directory) pairs source text
  Task.reportAll (outcomeReports text outcome)
  Task.ofExcept outcome

end StoredRoutine.Routine
