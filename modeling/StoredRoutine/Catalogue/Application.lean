import StoredRoutine.Catalogue.Module
import StoredRoutine.CommandLine.Run
import StoredRoutine.EnvFile.Parser
import StoredRoutine.NamePolicy
import StoredRoutine.Parameter
import StoredRoutine.Scratch.Image
import StoredRoutine.Text.Word

/-!
The functions of the program as naming policies. Most look at the name alone; others read a file with
that name, look at the environment, change how the program logs, or run the program inside of itself.
-/
namespace StoredRoutine.Catalogue

open NamePolicy (Result)
open CommandLine (Platform)

/-- The characters of a text as texts. -/
def characters (t : Text) : List Text := t.map ([·])

/-- What the parts of a DocBlock are shown as, if its lines have room for no tag. -/
def parts (lines : List Text) : Json :=
  let (short, long, _) := DocBlock.parse DocBlock.standardSchemas lines
  .array [.string short, .string long, .array []]

/-- A statement as it is shown. -/
def shownStatement (s : Script.Statement) : Text :=
  "ScriptStatement(text=".toList ++ Text.quoted s.text ++ s!", line={s.line})".toList

/-- Why a text is no document: its characters are not pairs. -/
def noPairs : Raised :=
  ⟨.serialization, "Error of encoding to JSON: 'dictionary update sequence element #0 has " ++
    "length 1; 2 is required'."⟩

/-- Whether a text is a name of records. -/
def isRecordName : Text → Bool
  | [] => false
  | c :: t => isWordChar c && (Decimal.digit? c).isNone && t.all isWordChar

def ofTexts (ts : List Text) : Result := .ofJson (.array (ts.map .string))

/-- Something that is known by how it is shown. -/
def known (text : String) : Result := ⟨.string text.toList, .shown text⟩

/-- Something new. -/
def novel (text : String) : Result := ⟨.string text.toList, .unique⟩

/-- A value of a type that cannot be looked up. -/
def unhashable (value : Json) (type : String) : Result :=
  ⟨value, .fails ⟨.type, s!"unhashable type: '{type}'"⟩⟩

/-- A policy as a result; it is like no other thing, and there may be none. -/
def policyResult : Option NamePolicy → Result
  | some p => novel s!"<function {p.word}>"
  | none => .nothing

/-- What an action makes of a name alone, if it looks at nothing else. -/
def Action.onText (name : Text) : Action → Option (Except Raised Result)
  | camelCase => some (.ok (.ofText (CamelCase.ofName name)))
  | passThrough => some (.ok (.ofText name))
  | marker => some (.ok (.ofText (Parameter.markerName name)))
  | markers => some (.ok (ofTexts (BindMarker.discover name)))
  | placeholders => some (.ok (ofTexts (Placeholder.find name)))
  | statements => some (.ok (ofTexts ((Script.statements name).map shownStatement)))
  | statementTexts => some (.ok (ofTexts (Script.statementTexts name)))
  | lineBreaks => some (.ok (.ofJson (.number name.breaks)))
  | undecorated => some (.ok (.ofText (DocBlock.undecorated name)))
  | paragraph => some (.ok (.ofText (.ofLines (DocBlock.trimLines (characters name)))))
  | bounds | nothing => some (.ok .nothing)
  | docblock => some (.ok (.ofJson (parts (characters name))))
  | documented => some (if name.isEmpty then .ok (ofTexts []) else .error (noMember "arguments"))
  | pairs => some (if name.isEmpty then .ok (.ofJson (.object [])) else .error (noMember "items"))
  | document =>
    some (if name.isEmpty then .ok (.ofText "\x7b\x7d\n".toList) else .error noPairs)
  | designation => some <|
    match Designation.ofWord? name with
    | some d => .ok ⟨.string d.word.toList, .shown s!"DesignationType.{d.title}"⟩
    | none => .error (unknownDesignation name)
  | path => some (.ok (known (Path.ofString (String.ofList name)).toString))
  | recordType => some <|
    if isRecordName name then .ok (novel s!"<class '{String.ofList name}'>")
    else .error ⟨.value,
      s!"Type names and field names must be valid identifiers: {String.ofList (Text.quoted name)}"⟩
  | formatter => some <|
    let format := if name.isEmpty then Log.Formatter.messageOnly else name
    if Log.Template.isFormat format then .ok (novel "<ColoredFormatter object>")
    else .error (.ofCause (Log.Template.Fault.noDirective format))
  | member module => some <|
    match member? module (String.ofList name) with
    | some _ => .ok (novel (String.ofList name))
    | none => .error ⟨.member, s!"module '{module}' has no attribute '{String.ofList name}'"⟩
  | dropMember module => some <|
    match member? module (String.ofList name) with
    | some _ => .ok .nothing
    | none => .error ⟨.member, s!"'module' object has no attribute '{String.ofList name}'"⟩
  | layout => some <|
    if name.isEmpty then .ok (known "<module>")
    else .error ⟨.type, "unsupported format string passed to module.__format__"⟩
  | same text => some (.ok (known text))
  | made form => some <|
    let shown := s!"{form.type}({form.field}={String.ofList (Text.quoted name)}, {form.others})"
    .ok (match form.incomparable with
      | some type => unhashable (.string shown.toList) type
      | none => known shown)
  | .fresh before after => some <| .ok <| novel <|
    match after with
    | some after => before ++ String.ofList name ++ after
    | none => before
  | fails fault => some (.error fault)
  | policy | configuredPolicy | setting | flag | replacementValues | definitions
  | hasDefinitions | script | textFile | logger | logging | database | plan | program => none

/-- An object whose members may be missing. -/
def object (members : List (Text × Option Text)) : Json :=
  .object (members.map fun (name, v) => (name, .optional v))

/-- A logger as it is shown. -/
def shownLogger (logging : Log.Logging) (name : String) : String :=
  let (shown, _, level) := Log.describe logging name
  let type := if Log.isRoot name then "RootLogger" else "Logger"
  s!"<{type} {shown} ({level.name})>"

/-- Work whose failure is seen from outside. -/
def raising {σ ε α : Type} [Cause ε] (work : Task σ ε α) : Task σ Raised α :=
  Task.mapError .ofCause work

/-- What a file defines; nothing if there is no such file. -/
def definitionsOf (platform : Platform) (path : String) :
    Task Session Raised (OrderedMap Text (Option Text)) := do
  if path.contains '\x00' then throw (.ofCause AccessFailure.nulByte)
  else if (← Task.files).isFile (← Task.directory) path then
    raising (EnvFile.readDefinitions platform.reader platform.environment path)
  else return ∅

/-- What an action makes of a name in a session. -/
def Action.inSession (platform : Platform) (name : String) :
    Action → Task Session Raised Result
  | policy => do
    return policyResult (← raising (NamePolicy.find platform.importer name))
  | configuredPolicy => do
    return policyResult (← raising (NamePolicy.findConfigured platform.importer name))
  | setting =>
    pure (.ofJson (.optional ((Settings.optional platform.environment name).map (·.toList))))
  | flag => pure (.ofJson (.scalar (.boolean (Settings.flag platform.environment name))))
  | replacementValues => do
    let values ← raising (EnvFile.readValues platform.reader platform.environment name)
    return .ofJson (object (values.entries.map fun (name, v) => (name, some v)))
  | definitions => do
    let values ← definitionsOf platform name
    return unhashable (object values.entries) "collections.OrderedDict"
  | hasDefinitions => do
    let values ← definitionsOf platform name
    return .ofJson (.scalar (.boolean (values.size ≠ 0)))
  | script => do return .ofText (← raising (Scratch.readScript name))
  | textFile => do
    let files ← Task.files
    let text ← raising (Task.ofExcept (files.readUtf8 (← Task.directory) name))
    return .ofText text
  | logger => do
    raising (Log.configure name none)
    return known (shownLogger (← Task.look Session.logging) name)
  | logging => do
    raising (Log.setup { level := .string name.toList })
    return .nothing
  | database => do
    let _ ← raising (Scratch.openAt (some name) none false : Task Session _ (Scratch Scratch.Kept))
    return novel "<SqliteScratchDatabase object>"
  | plan => do
    let settings := Settings.ofEnvironment (← Task.directory) platform.environment
    let _ ← raising (settings.replacementValues platform.reader platform.environment)
    let _ ← raising (NamePolicy.findConfigured platform.importer (settings.policyPath.getD ""))
    return novel "<LoaderOrchestrator object>"
  | program => do
    let paths := name.toList.map String.singleton
    return .ofJson (.number (← raising (CommandLine.runInside Scratch.Kept platform { paths })))
  | action =>
    Task.ofExcept ((action.onText name.toList).getD (.ok .nothing))

/-- An importer that knows the modules of the program, whose functions it can be told to apply. -/
def importing (apply : Function → String → Task Session Raised Result) : Importer where
  load module := Task.ofExcept (findModule module)
  member module name := pure ((member? module name).map (·.map fun f => ⟨f.word, apply f⟩))

/-- The importer that the program runs with. Its policies may run the program inside of itself, but
only up to some depth. -/
def importer (environment : Environment) : Nat → Importer
  | 0 => importing fun _ _ => throw ⟨.recursion, "maximum recursion depth exceeded"⟩
  | depth + 1 => importing fun f name =>
    f.action.inSession ⟨environment, .standard, importer environment depth⟩ name

end StoredRoutine.Catalogue
