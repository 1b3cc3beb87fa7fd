import StoredRoutine.Json.Basic

/-!
What every failure tells: a message, its kind, by which callers tell failures apart, and what it is
about.
-/
namespace StoredRoutine

/-- Kinds of failures. -/
inductive FailureKind where
  | notFound
  | present
  | notDirectory
  | isDirectory
  /-- Another refusal of the file system. -/
  | system
  /-- A value that cannot be used, though its type could. -/
  | value
  | type
  /-- A value has nothing by some name. -/
  | member
  | range
  | lookUp
  | key
  | index
  | decoding
  | encoding
  | exhausted
  | memory
  | unsupported
  | state
  /-- A policy that cannot be had. -/
  | policy
  | module
  | recursion
  | configuration
  | serialization
  | statement
  | count
  /-- A failure that concerns a single routine, by the name under which it is logged. -/
  | routine (name : String)
  /-- The user does not want to wait any longer. -/
  | interrupt
  /-- Any other kind, which only code outside of the program knows by its name. -/
  | foreign (name : String)
  deriving DecidableEq, Repr

/-- Failures, which all tell the same things. -/
class Cause (ε : Type) where
  message : ε → String
  kind : ε → FailureKind
  /-- What the failure is about, by name. -/
  details : ε → List (String × Json) := fun _ => []

/-- A failure of code outside of the program, which may fail in any way. -/
structure Raised where
  kind : FailureKind
  message : String
  deriving DecidableEq, Repr

instance : Cause Raised where
  message := Raised.message
  kind := Raised.kind

/-- A failure as something outside of the program sees it. -/
def Raised.ofCause {ε : Type} [Cause ε] (e : ε) : Raised := ⟨Cause.kind e, Cause.message e⟩

/-!
The classes of failures that the program defines. Failures of most classes concern a single routine,
and a batch goes on after them; the others end a run.
-/

inductive ErrorClass where
  | routineLoader
  | unreadableSource
  | designationTag
  | invalidDesignation
  | returnTag
  | invalidReturnType
  | unresolvedPlaceholder
  | parameterMismatch
  | duplicateMethodName
  | statementExecution
  | resultCount
  | serialization
  | configuration
  deriving DecidableEq, Repr

namespace ErrorClass

def name : ErrorClass → String
  | routineLoader => "RoutineLoaderError"
  | unreadableSource => "UnreadableSourceError"
  | designationTag => "DesignationTagError"
  | invalidDesignation => "InvalidDesignationError"
  | returnTag => "ReturnTagError"
  | invalidReturnType => "InvalidReturnTypeError"
  | unresolvedPlaceholder => "UnresolvedPlaceholderError"
  | parameterMismatch => "ParameterMismatchError"
  | duplicateMethodName => "DuplicateMethodNameError"
  | statementExecution => "StatementExecutionError"
  | resultCount => "ResultCountError"
  | serialization => "SerializationError"
  | configuration => "ConfigurationError"

def all : List ErrorClass := [
  routineLoader, unreadableSource, designationTag, invalidDesignation, returnTag, invalidReturnType,
  unresolvedPlaceholder, parameterMismatch, duplicateMethodName, statementExecution, resultCount,
  serialization, configuration]

def ofName? (name : String) : Option ErrorClass := all.find? (·.name == name)

/-- Whether failures of a class concern a single routine. -/
def isLocal : ErrorClass → Bool
  | statementExecution | resultCount | serialization | configuration => false
  | _ => true

end ErrorClass

end StoredRoutine
