import StoredRoutine.FileTree.Basic
import StoredRoutine.Json.Basic
import StoredRoutine.Parameter
import StoredRoutine.Text.Basic

/-!
Sources of routines, what their DocBlocks declare about the result, and the compiled record.
-/
namespace StoredRoutine

/-!
The result shape that a routine declares, and which shapes carry a return type.
-/

inductive Designation where
  | none
  | row0
  | row1
  | rows
  | singleton0
  | singleton1
  | lastInsertId
  deriving DecidableEq, Repr

namespace Designation

def all : List Designation := [none, row0, row1, rows, singleton0, singleton1, lastInsertId]

def word : Designation → String
  | none => "none"
  | row0 => "row0"
  | row1 => "row1"
  | rows => "rows"
  | singleton0 => "singleton0"
  | singleton1 => "singleton1"
  | lastInsertId => "lastInsertId"

/-- How messages call a designation. -/
def title : Designation → String
  | none => "NONE"
  | row0 => "ROW0"
  | row1 => "ROW1"
  | rows => "ROWS"
  | singleton0 => "SINGLETON0"
  | singleton1 => "SINGLETON1"
  | lastInsertId => "LAST_INSERT_ID"

/-- The designation with a given word; case matters. -/
def ofWord? (w : Text) : Option Designation := all.find? fun d => d.word.toList == w

/-- Routines of this shape declare a return type. -/
def returnsValue : Designation → Bool
  | singleton0 | singleton1 => true
  | _ => false

theorem mem_all (d : Designation) : d ∈ all := by cases d <;> decide

@[simp] theorem ofWord?_word (d : Designation) : ofWord? d.word.toList = some d := by
  cases d <;> decide

theorem ofWord?_eq_some_iff {w : Text} {d : Designation} :
    ofWord? w = some d ↔ w = d.word.toList := by
  constructor
  · intro h
    have h' := List.find?_some (p := fun d : Designation => d.word.toList == w) h
    exact (beq_iff_eq.1 h').symm
  · rintro rfl
    simp

end Designation

/-!
Return types: one of two opaque types, or a combination of scalar types separated by bars. A
routine that may select no row needs a type that admits null.
-/

namespace ReturnType

def scalarTypes : List Text :=
  ["string", "int", "float", "double", "bool", "null"].map String.toList

def opaqueTypes : List Text := ["mixed", "bool"].map String.toList

def parts (t : Text) : List Text := t.splitOn '|'

def isOpaque (t : Text) : Bool := opaqueTypes.contains t

/-- An opaque type, or nothing but scalar types. -/
def composed (t : Text) : Bool := isOpaque t || (parts t).all scalarTypes.contains

def admitsNull (t : Text) : Bool := isOpaque t || (parts t).contains "null".toList

inductive Fault where
  /-- There is no type to look at. -/
  | absent
  | notComposed
  | withoutNull
  deriving DecidableEq, Repr

/-- What is wrong with a return type for a designation that carries one. -/
def typeFault? (d : Designation) (t : Text) : Option Fault :=
  if !composed t then some .notComposed
  else if d = .singleton0 && !admitsNull t then some .withoutNull
  else none

/-- What is wrong with a return type, or with its absence, for a designation. -/
def fault? (d : Designation) (t : Option Text) : Option Fault :=
  if !d.returnsValue then none
  else match t with
    | none => some .absent
    | some t => typeFault? d t

def Fault.message : Fault → String
  | .absent => "'NoneType' object has no attribute 'split'"
  | .notComposed =>
    "Return type must be 'mixed', 'bool', or a combination of 'int', 'float', 'string', and 'null'"
  | .withoutNull =>
    "Return type must be 'mixed', 'bool', or contain 'null' " ++
      "(with a combination of 'int', 'float', and 'string')"

end ReturnType

/-!
Candidate sources: a path, the name of the routine, which is the stem of the path, and the name of
its wrapper method if a naming policy is configured.
-/

namespace Routine

structure Source where
  path : String
  routineName : String
  methodName : Option String
  deriving DecidableEq, Repr

/-- The source at a path under a naming policy. -/
def Source.ofPath (policy : Option (String → String)) (path : String) : Source :=
  let name := (Path.ofString path).stem
  ⟨path, name, policy.map (· name)⟩

/-!
The compiled record of a routine, and the JSON value that stands for it in the metadata document.
-/

/-- What a wrapper documents about its routine. -/
structure Documentation where
  shortDescription : Text
  longDescription : Text
  parameters : List Parameter.Documented
  deriving DecidableEq, Repr

structure Metadata where
  routineName : String
  designation : Designation
  returnType : Option Text
  /-- The bind markers in order of first occurrence. -/
  parameters : List Parameter.Descriptor
  documentation : Documentation
  /-- The index of the first payload line in the source. -/
  payloadOffset : Nat
  /-- The payload after substitution. -/
  source : Text
  deriving DecidableEq, Repr

def parameterJson (p : Parameter.Descriptor) : Json :=
  .record [("name", .string p.name), ("type", .optional p.type)]

def documentedJson (p : Parameter.Documented) : Json :=
  .record [("name", .string p.name), ("type", .string p.type),
    ("description", .string p.description)]

def Documentation.toJson (d : Documentation) : Json :=
  .record [("short_description", .string d.shortDescription),
    ("long_description", .string d.longDescription),
    ("parameters", .array (d.parameters.map documentedJson))]

def Metadata.toJson (m : Metadata) : Json :=
  .record [("routine_name", .string m.routineName.toList),
    ("designation", .string m.designation.word.toList), ("return", .optional m.returnType),
    ("parameters", .array (m.parameters.map parameterJson)),
    ("documentation", m.documentation.toJson), ("offset", .number m.payloadOffset),
    ("source", .string m.source)]

end Routine

end StoredRoutine
