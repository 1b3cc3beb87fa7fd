import StoredRoutine.Batch.Load
import StoredRoutine.Proofs.JsonReading

/-!
The metadata document as a code for the records of a batch. Records are read off a JSON value by the
names of its members, so what the document is read as gives the records back, and mappings with the
same entries share one document.
-/
namespace StoredRoutine

namespace Json

def text? : Json → Option Text
  | scalar (.text t) => some t
  | _ => none

/-- A text that may be missing, where null stands for a missing one. -/
def optional? : Json → Option (Option Text)
  | scalar .null => some none
  | j => j.text?.map some

def natural? : Json → Option Nat
  | scalar (.integer (.ofNat n)) => some n
  | _ => none

def items? : Json → Option (List Json)
  | array items => some items
  | _ => none

/-- What stands under a name, read in some way. -/
def field? {α : Type} (read : Json → Option α) (j : Json) (name : String) : Option α :=
  (j.member? name.toList).bind read

/-- The items of an array, each read in some way. -/
def list? {α : Type} (read : Json → Option α) (j : Json) : Option (List α) :=
  j.items?.bind (·.mapM read)

end Json

namespace Routine

open Json (text? optional? natural? field? list?)

def descriptor? (j : Json) : Option Parameter.Descriptor := do
  return ⟨← field? text? j "name", ← field? optional? j "type"⟩

def documented? (j : Json) : Option Parameter.Documented := do
  return ⟨← field? text? j "name", ← field? text? j "type", ← field? text? j "description"⟩

def Documentation.ofJson? (j : Json) : Option Documentation := do
  return ⟨← field? text? j "short_description", ← field? text? j "long_description",
    ← field? (list? documented?) j "parameters"⟩

def Metadata.ofJson? (j : Json) : Option Metadata := do
  return {
    routineName := String.ofList (← field? text? j "routine_name")
    designation := ← (← field? text? j "designation") |> Designation.ofWord?
    returnType := ← field? optional? j "return"
    parameters := ← field? (list? descriptor?) j "parameters"
    documentation := ← field? Documentation.ofJson? j "documentation"
    payloadOffset := ← field? natural? j "offset"
    source := ← field? text? j "source" }

end Routine

namespace Json

theorem record_eq_map (members : List (String × Json)) :
    record members = object (members.map fun m => (m.1.toList, m.2)) := rfl

/-- The fields of a record are found by their names, also once its members were put in order. -/
theorem field?_record {α : Type} {members : List (String × Json)} {name : String} {j : Json} {a : α}
    {read : Json → Option α} (hd : (members.map Prod.fst).Nodup)
    (hj : members.lookup name = some j) (ha : read j.ordered = some a) :
    field? read (record members).ordered name = some a := by
  have hmap : (members.map fun m => (m.1.toList, m.2)).map Prod.fst =
      (members.map Prod.fst).map String.toList := by
    rw [List.map_map, List.map_map]
    rfl
  have hd' : ((members.map fun m => (m.1.toList, m.2)).map Prod.fst).Nodup := by
    rw [hmap]
    exact hd.map fun _ _ => String.toList_injective
  have hmem := (OrderedMap.lookup_eq_some_iff hd).1 hj
  have hlookup : (members.map fun m => (m.1.toList, m.2)).lookup name.toList = some j :=
    (OrderedMap.lookup_eq_some_iff hd').2 (List.mem_map.2 ⟨(name, j), hmem, rfl⟩)
  rw [field?, record_eq_map, member?_ordered hd', member?_object, hlookup]
  exact ha

theorem list?_array {α : Type} {read : Json → Option α} {write : α → Json} {l : List α}
    (h : ∀ a ∈ l, read (write a).ordered = some a) :
    list? read (array (l.map write)).ordered = some l := by
  rw [ordered, orderedItems_eq_map, list?, items?, Option.bind_some]
  induction l with
  | nil => rfl
  | cons a l ih =>
    obtain ⟨ha, hl⟩ := List.forall_mem_cons.1 h
    rw [List.map_cons, List.map_cons, List.mapM_cons, ha, ih hl]
    rfl

theorem optional?_optional (t : Option Text) : optional? (optional t).ordered = some t := by
  cases t <;> rfl

theorem plain_record {members : List (String × Json)} (h : ∀ m ∈ members, Plain m.2) :
    Plain (record members) := by
  refine .object fun m hm => ?_
  obtain ⟨n, hn, rfl⟩ := List.mem_map.1 hm
  exact h n hn

theorem plain_array_map {α : Type} {write : α → Json} (l : List α) (h : ∀ a, Plain (write a)) :
    Plain (array (l.map write)) := by
  refine .array fun j hj => ?_
  obtain ⟨a, -, rfl⟩ := List.mem_map.1 hj
  exact h a

theorem plain_optional (t : Option Text) : Plain (optional t) := by
  cases t with
  | none => exact .null
  | some t => exact .text t

end Json

namespace Routine

open Json (text? optional? natural? field? list? field?_record list?_array optional?_optional)

theorem descriptor?_parameterJson (p : Parameter.Descriptor) :
    descriptor? (parameterJson p).ordered = some p := by
  have hd : ["name", "type"].Nodup := by decide
  have hname : field? text? (parameterJson p).ordered "name" = some p.name :=
    field?_record hd rfl rfl
  have htype : field? optional? (parameterJson p).ordered "type" = some p.type :=
    field?_record hd rfl (optional?_optional p.type)
  rw [descriptor?, hname, htype]
  rfl

theorem documented?_documentedJson (p : Parameter.Documented) :
    documented? (documentedJson p).ordered = some p := by
  have hd : ["name", "type", "description"].Nodup := by decide
  have hname : field? text? (documentedJson p).ordered "name" = some p.name :=
    field?_record hd rfl rfl
  have htype : field? text? (documentedJson p).ordered "type" = some p.type :=
    field?_record hd rfl rfl
  have hdescription : field? text? (documentedJson p).ordered "description" = some p.description :=
    field?_record hd rfl rfl
  rw [documented?, hname, htype, hdescription]
  rfl

theorem Documentation.ofJson?_toJson (d : Documentation) :
    Documentation.ofJson? d.toJson.ordered = some d := by
  have hd : ["short_description", "long_description", "parameters"].Nodup := by decide
  have hshort : field? text? d.toJson.ordered "short_description" = some d.shortDescription :=
    field?_record hd rfl rfl
  have hlong : field? text? d.toJson.ordered "long_description" = some d.longDescription :=
    field?_record hd rfl rfl
  have hparameters : field? (list? documented?) d.toJson.ordered "parameters" =
      some d.parameters :=
    field?_record hd rfl (list?_array fun p _ => documented?_documentedJson p)
  rw [Documentation.ofJson?, hshort, hlong, hparameters]
  rfl

theorem Metadata.ofJson?_toJson (m : Metadata) :
    Metadata.ofJson? m.toJson.ordered = some m := by
  have hd : ["routine_name", "designation", "return", "parameters", "documentation", "offset",
    "source"].Nodup := by decide
  have hname : field? text? m.toJson.ordered "routine_name" = some m.routineName.toList :=
    field?_record hd rfl rfl
  have hword : field? text? m.toJson.ordered "designation" = some m.designation.word.toList :=
    field?_record hd rfl rfl
  have hreturn : field? optional? m.toJson.ordered "return" = some m.returnType :=
    field?_record hd rfl (optional?_optional m.returnType)
  have hparameters : field? (list? descriptor?) m.toJson.ordered "parameters" =
      some m.parameters :=
    field?_record hd rfl (list?_array fun p _ => descriptor?_parameterJson p)
  have hdocumentation : field? Documentation.ofJson? m.toJson.ordered "documentation" =
      some m.documentation :=
    field?_record hd rfl (Documentation.ofJson?_toJson m.documentation)
  have hoffset : field? natural? m.toJson.ordered "offset" = some m.payloadOffset :=
    field?_record hd rfl rfl
  have hsource : field? text? m.toJson.ordered "source" = some m.source :=
    field?_record hd rfl rfl
  rw [Metadata.ofJson?, hname, hword, hreturn, hparameters, hdocumentation, hoffset, hsource]
  simp

end Routine

namespace Routine

open Json (Plain plain_record plain_array_map plain_optional)

theorem plain_parameterJson (p : Parameter.Descriptor) : Plain (parameterJson p) :=
  plain_record (by simpa using ⟨.text _, plain_optional _⟩)

theorem plain_documentedJson (p : Parameter.Documented) : Plain (documentedJson p) :=
  plain_record (by simpa using ⟨.text _, .text _, .text _⟩)

theorem Documentation.plain_toJson (d : Documentation) : Plain d.toJson :=
  plain_record (by simpa using ⟨.text _, .text _, plain_array_map _ plain_documentedJson⟩)

theorem Metadata.plain_toJson (m : Metadata) : Plain m.toJson :=
  plain_record (by
    simpa using ⟨.text _, .text _, plain_optional _, plain_array_map _ plain_parameterJson,
      m.documentation.plain_toJson, .integer _, .text _⟩)

end Routine

namespace Batch

open Json (Plain nameLe)
open Routine (Metadata)

theorem plain_json (metadata : OrderedMap String Metadata) : Plain (json metadata) := by
  refine .object fun m hm => ?_
  obtain ⟨e, -, rfl⟩ := List.mem_map.1 hm
  exact e.2.plain_toJson

def recordOf? (m : Text × Json) : Option (String × Metadata) :=
  (Metadata.ofJson? m.2).map (String.ofList m.1, ·)

/-- The records by routine name that a value holds. -/
def records? : Json → Option (List (String × Metadata))
  | .object members => members.mapM recordOf?
  | _ => none

theorem recordOf?_ordered (e : String × Metadata) :
    recordOf? (e.1.toList, e.2.toJson.ordered) = some e := by
  rw [recordOf?, e.2.ofJson?_toJson, Option.map_some, String.ofList_toList]

theorem ordered_json (metadata : OrderedMap String Metadata) :
    ∃ es : List (String × Metadata), es.Perm metadata.entries ∧
      (json metadata).ordered = .object (es.map fun e => (e.1.toList, e.2.toJson.ordered)) := by
  refine ⟨metadata.entries.mergeSort fun a b => Text.le a.1.toList b.1.toList,
    List.mergeSort_perm _ _, ?_⟩
  have hsort : (metadata.entries.mergeSort fun a b => Text.le a.1.toList b.1.toList).map
      (fun e => (e.1.toList, e.2.toJson)) =
      (metadata.entries.map fun e => (e.1.toList, e.2.toJson)).mergeSort nameLe :=
    List.map_mergeSort fun _ _ _ _ => rfl
  rw [json, Json.ordered_object, ← hsort, List.map_map]
  rfl

/-- Reading the records of the value of a batch gives the records of that batch. -/
theorem records?_json (metadata : OrderedMap String Metadata) :
    ∃ es, records? (json metadata).ordered = some es ∧ es.Perm metadata.entries := by
  obtain ⟨es, hperm, hes⟩ := ordered_json metadata
  refine ⟨es, ?_, hperm⟩
  have hread : ∀ l : List (String × Metadata),
      records? (.object (l.map fun e => (e.1.toList, e.2.toJson.ordered))) = some l := by
    intro l
    induction l with
    | nil => rfl
    | cons e l ih =>
      rw [records?] at ih
      rw [List.map_cons, records?, List.mapM_cons, recordOf?_ordered, ih]
      rfl
  rw [hes, hread]

theorem ordered_json_eq_iff {m n : OrderedMap String Metadata} :
    (json m).ordered = (json n).ordered ↔ m.entries.Perm n.entries := by
  constructor
  · intro h
    obtain ⟨es, hes, hm⟩ := records?_json m
    obtain ⟨fs, hfs, hn⟩ := records?_json n
    rw [h, hfs] at hes
    obtain rfl := Option.some.inj hes
    exact hm.symm.trans hn
  · intro h
    have hd : ((m.entries.map fun e => (e.1.toList, e.2.toJson)).map Prod.fst).Nodup := by
      have hmap : (m.entries.map fun e => (e.1.toList, e.2.toJson)).map Prod.fst =
          (m.entries.map Prod.fst).map String.toList := by
        rw [List.map_map, List.map_map]
        rfl
      rw [hmap]
      exact m.nodup.map fun _ _ => String.toList_injective
    rw [json, json, Json.ordered_object, Json.ordered_object,
      Json.mergeSort_nameLe_of_perm (h.map _) hd]

theorem documentOf_eq_iff {j k : Json} (hj : Plain j) (hk : Plain k) :
    documentOf j = documentOf k ↔ j.ordered = k.ordered := by
  rw [← Json.toText_eq_iff hj hk, documentOf, documentOf]
  refine ⟨fun h => ?_, fun h => by rw [h]⟩
  obtain ⟨t, ht, -⟩ := Json.read?_toText hj
  obtain ⟨u, hu, -⟩ := Json.read?_toText hk
  rw [ht, hu] at h ⊢
  exact congrArg _ (List.append_cancel_right (Except.ok.inj h))

theorem documentOf_reads_back {j : Json} (h : Plain j) :
    ∃ t, documentOf j = .ok t ∧ Json.read? t = some j.ordered := by
  obtain ⟨t, ht, hread⟩ := Json.read?_toText h
  refine ⟨t ++ ['\n'], by rw [documentOf, ht]; rfl, hread ['\n'] ?_⟩
  simp [Json.Token.isSpace]

/-- The document of a batch is the code of its records: it is read back as the value of the records,
the records are read off that value, and two batches share a document exactly if they have the same
entries, in whatever order these were written. -/
theorem document_reads_back :
    (∀ j, Plain j → ∃ t, documentOf j = .ok t ∧ Json.read? t = some j.ordered) ∧
    (∀ j k, Plain j → Plain k → (documentOf j = documentOf k ↔ j.ordered = k.ordered)) ∧
    (∀ metadata : OrderedMap String Metadata, ∃ t es, document metadata = .ok t ∧
      Json.read? t = some (json metadata).ordered ∧
      records? (json metadata).ordered = some es ∧ es.Perm metadata.entries) ∧
    ∀ m n : OrderedMap String Metadata,
      document m = document n ↔ ∀ name, m.get? name = n.get? name := by
  refine ⟨fun j => documentOf_reads_back, fun j k => documentOf_eq_iff, fun metadata => ?_,
    fun m n => ?_⟩
  · obtain ⟨t, ht, hread⟩ := documentOf_reads_back (plain_json metadata)
    obtain ⟨es, hes, hperm⟩ := records?_json metadata
    exact ⟨t, es, ht, hread, hes, hperm⟩
  · rw [document, document, documentOf_eq_iff (plain_json m) (plain_json n), ordered_json_eq_iff,
      OrderedMap.perm_entries_iff]

/-- Quotes, backslashes, control characters and text beyond ASCII, with the members in two orders. -/
def awkwardMembers : List (Text × Json) :=
  [("source".toList, .string "a\"\\\u0001é\n".toList), ("offset".toList, .number (-3))]

theorem document_reads_back_awkward :
    (∃ t, documentOf (.object awkwardMembers) = .ok t ∧
      Json.read? t = some (.object awkwardMembers.reverse)) ∧
    documentOf (.object awkwardMembers) = documentOf (.object awkwardMembers.reverse) := by
  have hplain : Plain (.object awkwardMembers) := .object (by simpa [awkwardMembers] using
    ⟨.text _, .integer _⟩)
  have hplain' : Plain (.object awkwardMembers.reverse) := .object (by
    simpa [awkwardMembers] using ⟨.integer _, .text _⟩)
  have hordered : (Json.object awkwardMembers).ordered = .object awkwardMembers.reverse := by
    rw [Json.ordered_object]
    cbv
  have hordered' : (Json.object awkwardMembers.reverse).ordered =
      .object awkwardMembers.reverse := by
    rw [Json.ordered_object]
    cbv
  refine ⟨?_, (document_reads_back.2.1 _ _ hplain hplain').2 (hordered.trans hordered'.symm)⟩
  simpa only [hordered] using document_reads_back.1 _ hplain

end Batch

end StoredRoutine
