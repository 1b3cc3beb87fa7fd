import StoredRoutine.Cause
import StoredRoutine.Text.Quoted

/-!
All functions of the program, by their names. A function that was made for something else than naming
may still be asked for as a naming policy; one that asks for more than a name fails.
-/
namespace StoredRoutine.Catalogue

/-!
How modules and functions fail that are asked for something they do not have.
-/

def relativeModule (name : String) : Raised :=
  ⟨.type, "the 'package' argument is required to perform a relative import for " ++
    quotedString name⟩

/-- A module that does not exist, perhaps below one that holds no modules. -/
def missingModule (name : String) (above : Option String) : Raised :=
  ⟨.module, "No module named " ++ quotedString name ++
    match above with
    | none => ""
    | some above => "; " ++ quotedString above ++ " is not a package"⟩

def unknownDesignation (word : Text) : Raised :=
  ⟨.value, String.ofList (Text.quoted word) ++ " is not a valid DesignationType"⟩

/-- A name, which is a text, has nothing by some name. -/
def noMember (name : String) : Raised := ⟨.member, s!"'str' object has no attribute '{name}'"⟩

/-- Words as they are listed in a sentence. -/
def listed : List String → String
  | [] => ""
  | [a] => a
  | [a, b] => s!"{a} and {b}"
  | words => ", ".intercalate words.dropLast ++ ", and " ++ words.getLast?.getD ""

def plural (n : Nat) : String := if n = 1 then "" else "s"

/-- A function asks for more than it is given. -/
def argumentsMissing (callee : String) (arguments : List String) : Raised :=
  let n := arguments.length
  ⟨.type, s!"{callee}() missing {n} required positional argument{plural n}: " ++
    listed (arguments.map fun name => s!"'{name}'")⟩

/-- A function takes less than a name on top of what it has already. -/
def argumentsSurplus (callee : String) (already : Nat) : Raised :=
  let given := if already = 0 then "1 was" else s!"{already + 1} were"
  ⟨.type, s!"{callee}() takes {already} positional argument{plural already} but {given} given"⟩

/-- What is made from a name alone: its first field is the name, and the others are as they always
are. -/
structure Form where
  type : String
  field : String
  /-- The other fields, as they are shown. -/
  others : String
  /-- The type of whatever in it cannot be compared. -/
  incomparable : Option String
  deriving DecidableEq, Repr

/-- What a function does with the name of a routine. -/
inductive Action where
  | camelCase
  | passThrough
  /-- The bind marker for a name. -/
  | marker
  /-- The bind markers in a text. -/
  | markers
  | placeholders
  | statements
  | statementTexts
  | lineBreaks
  /-- A line of a DocBlock without its decoration. -/
  | undecorated
  /-- The characters of a text as lines of a paragraph. -/
  | paragraph
  /-- The bounds of a DocBlock in the characters of a text. -/
  | bounds
  /-- The parts of a DocBlock whose lines are the characters of a text. -/
  | docblock
  /-- The parameters that the characters of a text document, which have no arguments. -/
  | documented
  /-- Replacement values under their placeholders, of which a text has none. -/
  | pairs
  /-- The metadata document of the characters of a text. -/
  | document
  | designation
  | path
  /-- A type of records without fields. -/
  | recordType
  /-- The formatter of a log format. -/
  | formatter
  /-- The policy at a path. -/
  | policy
  /-- The policy at a path that was configured. -/
  | configuredPolicy
  /-- The setting with a name. -/
  | setting
  | flag
  /-- The replacement values of a file. -/
  | replacementValues
  /-- What a file defines, if there is such a file. -/
  | definitions
  /-- Whether a file defines anything. -/
  | hasDefinitions
  /-- The text of a script. -/
  | script
  /-- The text of a file, with its line breaks as they are. -/
  | textFile
  | logger
  /-- Sets up logging from a level on. -/
  | logging
  /-- Opens a scratch database. -/
  | database
  /-- Plans a run from the settings. -/
  | plan
  /-- Runs the program on the paths that the characters of a text are. -/
  | program
  /-- What a module has under a name. -/
  | member (module : String)
  /-- Drops what a module has under a name. -/
  | dropMember (module : String)
  /-- A text within a module, of which a module can only be shown as it is. -/
  | layout
  | nothing
  /-- The same thing for all names. -/
  | same (text : String)
  | made (form : Form)
  /-- Something new, shown as a text before the name and one after it; without the latter it is
  shown without the name. -/
  | fresh (before : String) (after : Option String)
  | fails (fault : Raised)
  deriving DecidableEq, Repr

/-- A function by the name that it has. -/
structure Function where
  word : String
  action : Action
  deriving DecidableEq, Repr

/-- Functions that take a text. -/
def functions : List Function := [
  ⟨"camel_case", .camelCase⟩, ⟨"pass_through", .passThrough⟩, ⟨"_bind_name", .marker⟩,
  ⟨"discover_parameters", .markers⟩, ⟨"find_placeholders", .placeholders⟩,
  ⟨"split_script", .statements⟩, ⟨"split_statements", .statementTexts⟩,
  ⟨"_count_line_breaks", .lineBreaks⟩, ⟨"_strip_decoration", .undecorated⟩,
  ⟨"_join_paragraph", .paragraph⟩, ⟨"find_docblock", .bounds⟩, ⟨"parse_docblock", .docblock⟩,
  ⟨"documented_parameters", .documented⟩, ⟨"normalize_replace_pairs", .pairs⟩,
  ⟨"serialize_metadata", .document⟩, ⟨"DesignationType", .designation⟩, ⟨"Path", .path⟩,
  ⟨"NamedTuple", .recordType⟩, ⟨"ColoredFormatter", .formatter⟩, ⟨"load_mangler", .policy⟩,
  ⟨"resolve_mangler", .configuredPolicy⟩, ⟨"_optional", .setting⟩, ⟨"_flag", .flag⟩,
  ⟨"read_replace_pairs", .replacementValues⟩, ⟨"dotenv_values", .definitions⟩,
  ⟨"load_dotenv", .hasDefinitions⟩, ⟨"read_script", .script⟩, ⟨"read_text_file", .textFile⟩,
  ⟨"get_logger", .logger⟩, ⟨"setup_logging", .logging⟩, ⟨"SqliteScratchDatabase", .database⟩,
  ⟨"LoaderOrchestrator", .plan⟩, ⟨"main", .program⟩,
  ⟨"extract_docblock", .same ("DocBlock(start=None, end=None, short_description='', " ++
    "long_description='', tags=())")⟩,
  ⟨"iter_fragments", .fresh "<generator object iter_fragments>" none⟩,
  ⟨"LoggingDiagnosticSink", .fresh "<LoggingDiagnosticSink object>" none⟩,
  ⟨"create_scratch_engine", .fresh "Engine(sqlite:///" (some ")")⟩,
  ⟨"String", .fresh "VARCHAR(" (some ")")⟩, ⟨"StaticPool", .fresh "<StaticPool object>" none⟩]

/-- What is made from a name. -/
def forms : List Form := [
  ⟨"BatchResult", "metadata", "failed_paths=[]", some "BatchResult"⟩,
  ⟨"DocBlock", "start", "end=None, short_description='', long_description='', tags=()", none⟩,
  ⟨"DocumentationTag", "name", "arguments=\x7b\x7d, description='', content=''", some "dict"⟩,
  ⟨"ParameterDescriptor", "name", "inferred_type=None", none⟩,
  ⟨"RoutineDocumentation", "short_description", "long_description='', parameters=()", none⟩,
  ⟨"_TagBuilder", "name", "lines=[]", some "_TagBuilder"⟩]

/-- Failures that are made from a text, with what their messages say before and after it. -/
def failures : List (String × String × Option String) := [
  ("ConfigurationError", "", some ""), ("DesignationTagError", "", some ""),
  ("InvalidDesignationError", "'", some "' is not a valid designation type"),
  ("InvalidReturnTypeError", "", some ""), ("ReturnTagError", "", some ""),
  ("RoutineLoaderError", "", some ""), ("SerializationError", "", some ""),
  ("UnreadableSourceError", "", some ""),
  ("UnresolvedPlaceholderError", "Unknown placeholder(s) found", none)]

/-- Functions that ask for more than a name, with what they miss. -/
def demanding : List (String × List String) := [
  ("compare_parameters", ["documented"]), ("describe_failure", ["error"]),
  ("extract_return_type", ["designation"]), ("find_payload_offset", ["docblock"]),
  ("line_number", ["offset"]), ("mark_unresolved", ["placeholders"]), ("parse_tag", ["content"]),
  ("resolve_placeholders", ["replace_pairs"]), ("substitute", ["replace"]),
  ("validate_parameters", ["documented", "sink"]), ("validate_return_type", ["return_type"]),
  ("write_atomically", ["text"])]

/-- Types whose values are made from more than a name, with what is missing. -/
def demandingTypes : List (String × List String) := [
  ("BatchLoader", ["scratch"]), ("DBAPIError", ["params", "orig"]),
  ("DocumentedParameter", ["type"]), ("DuplicateMethodNameError", ["paths"]),
  ("Engine", ["dialect", "url"]), ("LoaderConfig", ["source_root", "source_pattern"]),
  ("ParameterMismatchError", ["unused"]), ("ProjectConfig", ["logs_dir"]),
  ("ResultCountError", ["actual", "query"]), ("RoutineLoader", ["scratch"]),
  ("RoutineMetadata", ["designation", "return_type", "parameters", "documentation",
    "payload_offset", "source"]),
  ("RoutineSource", ["routine_name", "text", "lines"]),
  ("ScriptFragment", ["offset", "line", "terminated"]), ("ScriptStatement", ["line"]),
  ("SourceDescriptor", ["routine_name"]), ("StatementExecutionError", ["statement"])]

/-- The same of tuples with named parts. -/
def demandingTuples : List (String × List String) := [
  ("TagSchema", ["arguments"]),
  ("URL", ["username", "password", "host", "port", "database", "query"])]

/-- Functions that take nothing. -/
def undemanding : List String := ["_init_default_logging", "build_parser", "field"]

/-- Functions that look for something that a text does not have. -/
def searching : List (String × String) := [
  ("Connection", "dialect"), ("column_type_pairs", "list_tables"), ("dataclass", "__module__"),
  ("extract_designation", "get_tags"), ("metadata_to_dict", "items"),
  ("read_routine_source", "path")]

/-- Types that have no values of their own, and what they say when asked for one. -/
def abstractTypes : List (String × String) := [
  ("Any", "Any cannot be instantiated"), ("Callable", "Callable() takes no arguments"),
  ("Dict", "Type Dict cannot be instantiated; use dict() instead"),
  ("DiagnosticSink", "Protocols cannot be instantiated"),
  ("Enum", "<enum 'Enum'> has no members defined"),
  ("Iterable", "Iterable() takes no arguments"), ("Iterator", "Iterator() takes no arguments"),
  ("List", "Type List cannot be instantiated; use list() instead"),
  ("Mapping", "Mapping() takes no arguments"),
  ("Optional", "Cannot instantiate typing.Optional"),
  ("Protocol", "Protocol() takes no arguments"),
  ("ScratchDatabase", "Protocols cannot be instantiated"),
  ("Sequence", "Sequence() takes no arguments"),
  ("Tuple", "Type Tuple cannot be instantiated; use tuple() instead"),
  ("Union", "Cannot instantiate typing.Union"),
  ("defaultdict", "first argument must be callable or None")]

/-- What asks for the address of a database or for a thing that can be inspected. -/
def particular : List (String × FailureKind × String) := [
  ("create_engine", .foreign "ArgumentError", "Could not parse SQLAlchemy URL from given URL string"),
  ("inspect", .foreign "NoInspectionAvailable",
    "No inspection system is available for object of type <class 'str'>")]

def all : List Function :=
  functions ++
    forms.map (fun form => ⟨form.type, .made form⟩) ++
    failures.map (fun (word, before, after) => ⟨word, .fresh before after⟩) ++
    demanding.map (fun (word, missing) => ⟨word, .fails (argumentsMissing word missing)⟩) ++
    demandingTypes.map (fun (word, missing) =>
      ⟨word, .fails (argumentsMissing (word ++ ".__init__") missing)⟩) ++
    demandingTuples.map (fun (word, missing) =>
      ⟨word, .fails (argumentsMissing (word ++ ".__new__") missing)⟩) ++
    [⟨"Config", .fails (argumentsSurplus "Config.__init__" 1)⟩] ++
    undemanding.map (fun word => ⟨word, .fails (argumentsSurplus word 0)⟩) ++
    searching.map (fun (word, name) => ⟨word, .fails (noMember name)⟩) ++
    abstractTypes.map (fun (word, message) => ⟨word, .fails ⟨.type, message⟩⟩) ++
    particular.map fun (word, kind, message) => ⟨word, .fails ⟨kind, message⟩⟩

/-- The function that stands for a name. One name stands for a function that goes by another. -/
def named? (name : String) : Option Function :=
  let word := if name = "NameMangler" then "Callable" else name
  all.find? (·.word == word)

/-- The functions that any module has. -/
def ofModule (module : String) : List Function :=
  let takingNothing (word callee : String) : Function :=
    ⟨word, .fails ⟨.type, s!"{callee}() takes no arguments (1 given)"⟩⟩
  let expecting (word : String) (n given : String) : Function :=
    ⟨word, .fails ⟨.type, s!"{n} arguments, got {given}"⟩⟩
  ["__eq__", "__ge__", "__gt__", "__le__", "__lt__", "__ne__", "__subclasshook__"].map
      (fun word => ⟨word, .same "NotImplemented"⟩) ++
    ["__dir__", "__getstate__", "__reduce__", "__sizeof__"].map
      (fun word => takingNothing word word) ++
    ["__hash__", "__repr__", "__str__"].map (fun word => expecting word "expected 0" "1") ++
    [expecting "__setattr__" " expected 2" "1",
      takingNothing "__init_subclass__" "module.__init_subclass__",
      ⟨"__reduce_ex__",
        .fails ⟨.type, "'str' object cannot be interpreted as an integer"⟩⟩,
      ⟨"__new__",
        .fails ⟨.type, "module.__new__(X): X is not a type object (str)"⟩⟩,
      ⟨"module", .fresh "<module '" (some "'>")⟩, ⟨"__init__", .nothing⟩,
      ⟨"__format__", .layout⟩, ⟨"__getattribute__", .member module⟩,
      ⟨"__delattr__", .dropMember module⟩]

/-- The function that stands for a name in any module. -/
def common? (module name : String) : Option Function :=
  let word := if name = "__class__" then "module" else name
  if name = "module" then none else (ofModule module).find? (·.word == word)

end StoredRoutine.Catalogue
