import StoredRoutine.Json.Basic
import StoredRoutine.Session
import StoredRoutine.Text.Basic
import StoredRoutine.Text.CaseMapping

/-!
Naming policies: what makes the name of a wrapper method from the name of a routine. A policy is
named by a path, which consists of a module and of a name in it, separated by a colon or else by
the last point. What finds modules is no part of the program, and neither are the policies: both
may do to a session whatever they like, and fail in any way.
-/
namespace StoredRoutine

namespace NamePolicy

/-- How a result compares with others. -/
inductive Identity where
  /-- It equals whatever is shown alike. -/
  | shown (text : String)
  /-- It equals nothing else. -/
  | unique
  /-- The attempt to look it up fails. -/
  | fails (fault : Raised)
  deriving DecidableEq, Repr

/-- What a policy makes of the name of a routine. It should be a text, which is the name of the wrapper
method; but it may be anything, by which sources may or may not be told apart. -/
structure Result where
  value : Json
  identity : Identity

end NamePolicy

/-- A policy, by the name that it has itself. -/
structure NamePolicy where
  word : String
  apply : String → Task Session Raised NamePolicy.Result

/-- What finds things by the names of modules. -/
structure Importer where
  /-- Loads a module by its dotted name. -/
  load : String → Task Session Raised Unit
  /-- What a module that was loaded has under a name: nothing, a thing that cannot be called, or one
  that can. -/
  member : String → String → Task Session Raised (Option (Option NamePolicy))

/-- A state whose session can be lent to something outside of the program. -/
class Lends (σ : Type) where
  lend : {α : Type} → (Session → α × Session) → σ → α × σ

instance : Lends Session where
  lend work := work

/-- Work outside of the program, on the session of a state. -/
def Task.lent {σ ε α : Type} [Lends σ] (work : Task Session ε α) : Task σ ε α := Lends.lend work

namespace NamePolicy

namespace Result

def identityOf : Json → Identity
  | .scalar .null => .unique
  | .scalar v => .shown (String.ofList v.shown)
  | j => .fails ⟨.type, s!"unhashable type: '{j.typeName}'"⟩

def ofJson (j : Json) : Result := ⟨j, identityOf j⟩

def ofText (t : Text) : Result := ofJson (.string t)

def nothing : Result := ofJson .null

/-- The method name that a result is, if it is one. -/
def methodName (r : Result) : Except Raised (Option String) :=
  match r.identity with
  | .shown text => .ok (some text)
  | .unique => .ok none
  | .fails fault => .error fault

end Result

/-- The policy that a function is. -/
def ofFunction (word : String) (f : String → String) : NamePolicy :=
  ⟨word, fun name => pure (.ofText (f name).toList)⟩

/-- Why a path leads to no policy, and why a policy has no method name for a routine. -/
inductive Fault where
  | invalidPath (path : String)
  | missingName (module name : String)
  | notCallable (path : String)
  /-- A configured path does not lead to a policy. -/
  | configured (path : String) (fault : Fault)
  /-- What is outside of the program failed. -/
  | raised (fault : Raised)
  deriving DecidableEq, Repr

namespace Fault

def message : Fault → String
  | invalidPath path => s!"Invalid name mangler path '{path}'"
  | missingName module name => s!"Module '{module}' has no name mangler '{name}'"
  | notCallable path => s!"Name mangler '{path}' is not callable"
  | configured path fault => s!"Invalid name mangler '{path}': {fault.message}"
  | raised fault => fault.message

instance : Cause Fault where
  message := message
  kind
    | invalidPath _ | missingName _ _ => .policy
    | notCallable _ => .type
    | configured _ _ => .configuration
    | raised fault => fault.kind

/-- Whether a fault means that a path leads to no policy, also if it comes from outside. -/
def isMissing (f : Fault) : Bool :=
  match Cause.kind f with
  | .policy | .module | .type => true
  | _ => false

end Fault

/-- A path cut into module and name. -/
def split (path : String) : String × String :=
  let cs := path.toList
  if cs.contains ':' then
    (String.ofList (cs.takeWhile (· != ':')), String.ofList ((cs.dropWhile (· != ':')).drop 1))
  else
    let r := cs.reverse
    (String.ofList ((r.dropWhile (· != '.')).drop 1).reverse,
      String.ofList (r.takeWhile (· != '.')).reverse)

variable {σ : Type} [Lends σ]

/-- The policy at a path; an empty path stands for no policy. -/
def find (importer : Importer) (path : String) : Task σ Fault (Option NamePolicy) := do
  if path.isEmpty then return none
  let (module, name) := split path
  if module.isEmpty || name.isEmpty then throw (.invalidPath path)
  Task.mapError .raised (Task.lent (importer.load module))
  match ← Task.mapError .raised (Task.lent (importer.member module name)) with
  | some (some policy) => return some policy
  | some none => throw (.notCallable path)
  | none => throw (.missingName module name)

/-- The policy at a path that was configured. -/
def findConfigured (importer : Importer) (path : String) : Task σ Fault (Option NamePolicy) :=
  Task.mapError (fun f => if f.isMissing then .configured path f else f) (find importer path)

end NamePolicy

/-!
Method names in camel case: underscores before an ASCII letter or digit are dropped and that
character is put in upper case; the first character of the result is put in lower case.
-/

namespace CamelCase

/-- Drops each run of underscores before a letter or digit and raises that character; other runs
stay. -/
def joined : Text → Text
  | [] => []
  | c :: t =>
    if c = '_' then
      match _h : t.dropWhile (· == '_') with
      | d :: rest =>
        if isAsciiLetter d || isAsciiDigit d then Text.upperChar d ++ joined rest
        else c :: t.takeWhile (· == '_') ++ d :: joined rest
      | [] => c :: t
    else c :: joined t
termination_by t => t.length
decreasing_by
  · have := (List.dropWhile_sublist (· == '_') (l := t)).length_le
    simp_all
    omega
  · have := (List.dropWhile_sublist (· == '_') (l := t)).length_le
    simp_all
    omega
  · simp

def ofName (t : Text) : Text :=
  match joined t with
  | [] => []
  | c :: t => Text.lowerChar c ++ t

def ofString (name : String) : String := String.ofList (ofName name.toList)

end CamelCase

end StoredRoutine
