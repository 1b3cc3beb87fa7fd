import StoredRoutine.FileTree.Access
import StoredRoutine.Task

/-!
Reading a file of replacement values. What its text defines is told by a reader that is not part of
the program; names without value are left out.
-/
namespace StoredRoutine

abbrev Environment := OrderedMap Text Text

namespace EnvFile

/-- What tells the definitions of a text, whose values may refer to variables of the environment; a
name may be defined without value. Meanwhile it may report, and it may fail in any way. -/
structure Reader where
  read : Environment → Text → Except Raised (OrderedMap Text (Option Text)) × List Report

inductive ReadFailure where
  | missing (path : String)
  | access (failure : AccessFailure)
  | raised (fault : Raised)
  deriving DecidableEq, Repr

def ReadFailure.message : ReadFailure → String
  | .missing path => s!"Placeholders file not found: '{path}'"
  | .access failure => failure.message
  | .raised fault => fault.message

instance : Cause ReadFailure where
  message := ReadFailure.message
  kind
    | .missing _ => .configuration
    | .access failure => failure.kind
    | .raised fault => fault.kind

variable {σ : Type} [Host σ]

/-- What a file defines, with the names without value. -/
def readDefinitions (reader : Reader) (environment : Environment) (path : String) :
    Task σ ReadFailure (OrderedMap Text (Option Text)) := do
  let text ← Task.ofExcept
    (((← Task.files).readUtf8 (← Task.directory) path).mapError .access)
  let (answer, reports) := reader.read environment text
  Task.reportAll reports
  Task.ofExcept (answer.mapError .raised)

/-- The values among some definitions. -/
def values (definitions : OrderedMap Text (Option Text)) : OrderedMap Text Text :=
  .ofList (definitions.entries.filterMap fun (name, v) => v.map (name, ·))

/-- The values that a file defines. -/
def readValues (reader : Reader) (environment : Environment) (path : String) :
    Task σ ReadFailure (OrderedMap Text Text) := do
  let path := (Path.ofString path).toString
  let there ← Task.ofExcept
    (((← Task.files).hasFile (← Task.directory) path).mapError (.access ∘ .os))
  if there then return values (← readDefinitions reader environment path)
  else throw (.missing path)

end EnvFile

end StoredRoutine
