import StoredRoutine.Catalogue.Function

/-!
The modules of the program with the names that they define or use. Modules form a tree by their
dotted names. Any function of a module may be asked for; asking for another name fails in a way of
its own.
-/
namespace StoredRoutine.Catalogue

/-- Every module with the names that it defines or uses. -/
def modules : List (String × List String) := [
  ("core", ["Config", "config", "get_logger", "setup_logging"]),
  ("core.config", [
    "Config", "ConfigurationError", "Dict", "LoaderConfig", "Optional", "Path",
    "ProjectConfig", "TRUE_VALUES", "Union", "_flag", "_optional", "config", "dataclass",
    "dotenv_values", "env_path", "load_dotenv", "os", "read_replace_pairs"]),
  ("core.logger", [
    "ColoredFormatter", "DATE_FORMAT", "LIBRARY_LOGGERS", "LOG_FORMAT", "Optional", "Path",
    "_init_default_logging", "get_logger", "logging", "setup_logging", "sys"]),
  ("loader", []),
  ("loader.batch_loader", [
    "BatchLoader", "BatchResult", "DiagnosticSink", "Dict", "DuplicateMethodNameError",
    "List", "Mapping", "NameMangler", "Optional", "Path", "RoutineLoader",
    "RoutineLoaderError", "RoutineMetadata", "ScratchDatabase", "Sequence",
    "SerializationError", "SourceDescriptor", "Tuple", "Union", "column_type_pairs",
    "dataclass", "describe_failure", "field", "get_logger", "json", "logger",
    "metadata_to_dict", "normalize_replace_pairs", "os", "serialize_metadata",
    "write_atomically"]),
  ("loader.docblock", [
    "DOCBLOCK_CLOSE", "DOCBLOCK_OPEN", "Dict", "DocBlock", "DocumentationTag", "List",
    "Mapping", "NamedTuple", "Optional", "PARAM_TAG", "RETURN_TAG", "Sequence", "TAG_LINE",
    "TAG_SCHEMAS", "TYPE_TAG", "TagSchema", "Tuple", "_TagBuilder", "_join_paragraph",
    "_strip_decoration", "dataclass", "extract_docblock", "field", "find_docblock",
    "parse_docblock", "parse_tag", "re"]),
  ("loader.name_mangler", [
    "Callable", "NameMangler", "Optional", "camel_case", "importlib", "load_mangler",
    "pass_through", "re"]),
  ("loader.parameters", [
    "BIND_MARKER", "DiagnosticSink", "Dict", "DocumentationTag", "DocumentedParameter",
    "List", "ParameterDescriptor", "ParameterMismatchError", "Sequence", "Tuple",
    "_bind_name", "compare_parameters", "discover_parameters", "documented_parameters", "re",
    "validate_parameters"]),
  ("loader.routine_loader", [
    "DesignationTagError", "DesignationType", "DiagnosticSink", "Dict", "DocBlock",
    "InvalidDesignationError", "InvalidReturnTypeError", "LINE_MACRO", "List", "Mapping",
    "OPAQUE_RETURN_TYPES", "Optional", "PARAM_TAG", "RETURN_TAG", "ReturnTagError",
    "RoutineDocumentation", "RoutineLoader", "RoutineMetadata", "RoutineSource",
    "SCALAR_RETURN_TYPES", "ScratchDatabase", "SourceDescriptor", "TYPE_TAG", "Tuple",
    "UnreadableSourceError", "UnresolvedPlaceholderError", "dataclass", "discover_parameters",
    "documented_parameters", "extract_designation", "extract_docblock", "extract_return_type",
    "find_payload_offset", "get_logger", "line_number", "logger", "mark_unresolved", "os",
    "read_routine_source", "read_text_file", "resolve_placeholders", "substitute",
    "validate_parameters", "validate_return_type"]),
  ("logs", []),
  ("logs.diagnostics", [
    "DiagnosticSink", "Iterable", "LoggingDiagnosticSink", "Optional", "Protocol", "Sequence",
    "get_logger", "logging"]),
  ("logs.error_handler", [
    "ConfigurationError", "DesignationTagError", "DuplicateMethodNameError",
    "InvalidDesignationError", "InvalidReturnTypeError", "List", "Optional",
    "ParameterMismatchError", "ResultCountError", "ReturnTagError", "RoutineLoaderError",
    "Sequence", "SerializationError", "StatementExecutionError", "UnreadableSourceError",
    "UnresolvedPlaceholderError", "describe_failure"]),
  ("main", [
    "BatchLoader", "BatchResult", "ConfigurationError", "DiagnosticSink", "Dict", "List",
    "LoaderOrchestrator", "LoggingDiagnosticSink", "NameMangler", "Optional", "Path",
    "Sequence", "SerializationError", "SqliteScratchDatabase", "StatementExecutionError",
    "Union", "argparse", "build_parser", "config", "get_logger", "load_mangler", "logger",
    "logging", "main", "read_replace_pairs", "resolve_mangler", "setup_logging", "sys"]),
  ("models", [
    "DesignationType", "DocumentationTag", "DocumentedParameter", "ParameterDescriptor",
    "RoutineDocumentation", "RoutineMetadata", "SourceDescriptor", "metadata_to_dict"]),
  ("models.routine_models", [
    "Any", "Callable", "DesignationType", "Dict", "DocumentationTag", "DocumentedParameter",
    "Enum", "Optional", "ParameterDescriptor", "Path", "RETURN_BEARING_DESIGNATIONS",
    "RoutineDocumentation", "RoutineMetadata", "SourceDescriptor", "Tuple", "dataclass",
    "field", "metadata_to_dict"]),
  ("sql", [
    "ScriptStatement", "column_type_pairs", "find_placeholders", "mark_unresolved",
    "normalize_replace_pairs", "resolve_placeholders", "split_script", "split_statements",
    "substitute"]),
  ("sql.placeholders", [
    "Dict", "ERROR_CLOSE", "ERROR_OPEN", "List", "Mapping", "Optional", "PLACEHOLDER_PATTERN",
    "Sequence", "Tuple", "column_type_pairs", "defaultdict", "find_placeholders",
    "mark_unresolved", "normalize_replace_pairs", "re", "resolve_placeholders", "substitute"]),
  ("sql.splitter", [
    "Iterator", "List", "STATEMENT_TERMINATOR", "ScriptFragment", "ScriptStatement",
    "_count_line_breaks", "dataclass", "iter_fragments", "re", "split_script",
    "split_statements"]),
  ("utils", [
    "ScratchDatabase", "SqliteScratchDatabase", "create_scratch_engine", "read_text_file",
    "write_atomically"]),
  ("utils.database_utils", [
    "Any", "Connection", "DBAPIError", "Dict", "Engine", "LITERAL_KINDS", "List", "Optional",
    "Path", "Protocol", "ResultCountError", "ScratchDatabase", "SqliteScratchDatabase",
    "StatementExecutionError", "StaticPool", "String", "URL", "Union", "create_engine",
    "create_scratch_engine", "get_logger", "inspect", "logger", "os", "read_script",
    "split_script"]),
  ("utils.file_utils", [
    "Path", "Union", "get_logger", "logger", "os", "read_text_file", "tempfile",
    "write_atomically"])]

/-- Folders of modules that define nothing themselves. -/
def folders : List String := [
  "tests", "tests.tests_core", "tests.tests_loader", "tests.tests_logs", "tests.tests_sql",
  "tests.tests_utils"]

/-- Modules that cannot be loaded, as they use one that is missing. -/
def unloadable : List String := [
  "tests.conftest", "tests.test_main", "tests.tests_core.test_config",
  "tests.tests_loader.conftest", "tests.tests_loader.test_batch_loader",
  "tests.tests_loader.test_docblock", "tests.tests_loader.test_name_mangler",
  "tests.tests_loader.test_parameters", "tests.tests_loader.test_routine_loader",
  "tests.tests_logs.test_diagnostics", "tests.tests_logs.test_error_handler",
  "tests.tests_sql.test_placeholders", "tests.tests_sql.test_splitter",
  "tests.tests_utils.test_database_utils", "tests.tests_utils.test_file_utils"]

/-- What the modules that cannot be loaded use. -/
def testFramework : String := "pytest"

def isLoadable (name : String) : Bool := (modules.lookup name).isSome

def isModule (name : String) : Bool := isLoadable name || folders.contains name

/-- Whether there may be modules below a module. -/
def isPackage (name : String) : Bool :=
  folders.contains name || modules.any fun m => m.1.startsWith (name ++ ".")

/-- The names of a module that tell about itself. -/
def describing (module : String) : List String :=
  ["__annotations__", "__dict__", "__doc__", "__file__", "__loader__", "__name__", "__package__",
      "__spec__"] ++
    (if isPackage module then ["__path__"] else []) ++
    (if folders.contains module then [] else ["__builtins__", "__cached__"]) ++
    (if isPackage module && isLoadable module then ["__all__", "__version__"] else [])

/-- Follows the components of a dotted name from a module on. -/
def follow (above : String) : List String → Except Raised Unit
  | [] => .ok ()
  | c :: cs =>
    let name := above ++ "." ++ c
    if isModule name then follow name cs
    else if unloadable.contains name then .error (missingModule testFramework none)
    else .error (missingModule name (if isPackage above then none else some above))

def findModule (name : String) : Except Raised Unit :=
  if name.startsWith "." then .error (relativeModule name)
  else match (name.toList.splitOn '.').map String.ofList with
    | [] => .ok ()
    | c :: cs => if isModule c then follow c cs else .error (missingModule c none)

/-- What a name in a module stands for: a function, or something else. -/
def member? (module name : String) : Option (Option Function) :=
  if ((modules.lookup module).getD []).contains name then some (named? name)
  else match common? module name with
    | some p => some (some p)
    | none =>
      if (describing module).contains name || isLoadable (module ++ "." ++ name) then some none
      else none

end StoredRoutine.Catalogue
