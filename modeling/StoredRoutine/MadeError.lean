import StoredRoutine.Batch.Run
import StoredRoutine.Catalogue.Function
import StoredRoutine.Routine.Load
import StoredRoutine.Scratch.Database

/-!
Failures made from values of any types, as their classes take them.
-/
namespace StoredRoutine

namespace Json

/-- The items of a value that has items: those of a text are its characters, and those of an object are
its names. -/
def items : Json → Except Raised (List Json)
  | array js => .ok js
  | object members => .ok (members.map (string ·.1))
  | scalar (.text t) => .ok (t.map (string [·]))
  | j => .error ⟨.type, s!"'{j.typeName}' object is not iterable"⟩

end Json

namespace ErrorClass

/-- What failures of a class are made from, by name. -/
def parts : ErrorClass → List String
  | invalidDesignation => ["designation"]
  | unresolvedPlaceholder => ["placeholders"]
  | parameterMismatch => ["undocumented", "unused"]
  | duplicateMethodName => ["method_name", "paths"]
  | statementExecution => ["message", "statement", "line"]
  | resultCount => ["expected", "actual", "query"]
  | _ => []

/-- How many parts at the end may be left out. -/
def spare : ErrorClass → Nat
  | statementExecution => 1
  | _ => 0

/-- Refuses less or more than failures of a class are made from. A class without parts takes whatever it
is given. -/
def checkCount (c : ErrorClass) (given : Nat) : Except Raised Unit := do
  let callee := c.name ++ ".__init__"
  let most := c.parts.length
  if most = 0 then return
  let missing := (c.parts.take (most - c.spare)).drop given
  if !missing.isEmpty then throw (Catalogue.argumentsMissing callee missing)
  if most < given then
    let least := if c.spare = 0 then "" else s!"from {most + 1 - c.spare} to "
    throw ⟨.type, s!"{callee}() takes {least}{most + 1} positional arguments " ++
      s!"but {given + 1} were given"⟩

/-- A failure by its message and by what it is about. -/
structure Made where
  message : String
  details : List (String × Json)

private def shownText (j : Json) : String := String.ofList j.shown

/-- A failure of a class that is made from some values. -/
def make (c : ErrorClass) (args : List Json) : Except Raised Made := do
  c.checkCount args.length
  let part (n : Nat) : Json := args[n]?.getD .null
  match c with
  | invalidDesignation =>
    return ⟨(Routine.LoadFailure.unknownDesignation (part 0).shown).message,
      [("designation", part 0)]⟩
  | unresolvedPlaceholder =>
    let f := Routine.LoadFailure.ofUnresolved ((← (part 0).items).map (·.shown))
    return ⟨f.message, f.details⟩
  | parameterMismatch =>
    return ⟨(Routine.LoadFailure.parameters ⟨[], []⟩).message,
      [("undocumented", .array (← (part 0).items)), ("unused", .array (← (part 1).items))]⟩
  | duplicateMethodName =>
    return ⟨Batch.clashMessage (shownText (part 0)),
      [("method_name", part 0), ("paths", .array (← (part 1).items))]⟩
  | statementExecution =>
    let line := match part 2 with
      | .scalar .null => none
      | line => some (shownText line)
    return ⟨Scratch.statementMessage (shownText (part 0)) line,
      [("statement", part 1), ("line", part 2)]⟩
  | resultCount =>
    let expected ← (part 0).items
    return ⟨Scratch.countMessage (expected.map shownText) (shownText (part 1)),
      [("expected", .array expected), ("actual", part 1), ("query", part 2)]⟩
  | _ => return ⟨if args.isEmpty then "" else shownText (part 0), []⟩

end ErrorClass

end StoredRoutine
