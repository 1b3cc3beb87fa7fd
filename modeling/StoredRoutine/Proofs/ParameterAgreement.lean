import StoredRoutine.Proofs.Records

/-!
Bind markers held against documented parameters, name by name. A parameter takes type and description
from the first tag that names it, with its colon or without it. The validation succeeds exactly if the
markers and the documented names are the same set; otherwise it fails with the names that one side
lacks, each in the order of its own side, and the user gets one note for each of them.
-/
namespace StoredRoutine.Parameter

open DocBlock (Tag)

/-- A tag names a parameter, with its colon or without it. -/
def Names (tag : Tag) (name : Text) : Prop :=
  let written := (tag.argument DocBlock.nameArgument).trim
  name.head? = some ':' ∧
    (written = name ∨ written ≠ [] ∧ written.head? ≠ some ':' ∧ name = ':' :: written)

instance (tag : Tag) (name : Text) : Decidable (Names tag name) :=
  inferInstanceAs (Decidable (_ ∧ (_ ∨ _ ∧ _ ∧ _)))

/-- A parameter has the type and the description of the first tag that names it. -/
def Describes (tags : List Tag) (d : Documented) : Prop :=
  ∃ tag, tags.find? (Names · d.name) = some tag ∧
    d.type = tag.argument DocBlock.typeArgument ∧ d.description = tag.description

/-- What the user is told about a validation that decides what becomes of a text. -/
def told (text : Text) (record : List Documented → Routine.Metadata)
    (outcome : Except Mismatch (List Documented)) : List Diagnostic :=
  Report.diagnostics (Routine.outcomeReports text ((outcome.mapError .parameters).map record))

section Naming

variable {tags : List Tag} {tag : Tag} {name : Text} {d : Documented}

theorem names_iff :
    Names tag name ↔ name ≠ [] ∧ markerName (tag.argument DocBlock.nameArgument) = name := by
  rw [Names, markerName]
  cases (tag.argument DocBlock.nameArgument).trim with
  | nil => cases name <;> simp
  | cons c t =>
    by_cases hc : c = ':'
    · subst hc
      cases name with
      | nil => simp
      | cons d name =>
        simp only [List.head?_cons, Option.some.injEq, List.cons.injEq, ne_eq, not_true_eq_false,
          false_and, and_false, or_false, reduceCtorEq, not_false_eq_true, true_and]
        exact ⟨And.right, fun h => ⟨h.1.symm, h⟩⟩
    · cases name with
      | nil => simp
      | cons d name => grind

theorem ofTag?_eq_some_iff_names : Documented.ofTag? tag = some d ↔
    Names tag d.name ∧ d.type = tag.argument DocBlock.typeArgument ∧
      d.description = tag.description := by
  rw [ofTag?_eq_some_iff, names_iff]
  obtain ⟨name, type, description⟩ := d
  simp only [Documented.mk.injEq]
  constructor
  · rintro ⟨hn, rfl, rfl, rfl⟩
    exact ⟨⟨hn, rfl⟩, rfl, rfl⟩
  · rintro ⟨⟨hn, rfl⟩, rfl, rfl⟩
    exact ⟨hn, rfl, rfl, rfl⟩

/-- The names of documented parameters are those that some tag names. -/
theorem mem_names_documented_iff :
    name ∈ (documented tags).map (·.name) ↔ ∃ tag ∈ tags, Names tag name := by
  simp only [mem_names_documented, names_iff]
  constructor
  · rintro ⟨hn, tag, ht, hm⟩
    exact ⟨tag, ht, hn, hm⟩
  · rintro ⟨tag, ht, hn, hm⟩
    exact ⟨hn, tag, ht, hm⟩

theorem find?_names_eq_none_iff :
    tags.find? (Names · name) = none ↔ name ∉ (documented tags).map (·.name) := by
  rw [mem_names_documented_iff, List.find?_eq_none]
  simp

/-- A further tag describes a parameter only if it is the first to name it. -/
theorem describes_concat : Describes (tags ++ [tag]) d ↔
    Describes tags d ∨ d.name ∉ (documented tags).map (·.name) ∧ Documented.ofTag? tag = some d := by
  rw [← find?_names_eq_none_iff, ofTag?_eq_some_iff_names]
  simp only [Describes, List.find?_append]
  cases tags.find? (Names · d.name) with
  | some first => simp
  | none => by_cases hn : Names tag d.name <;> simp [hn]

/-- A further tag adds its parameter at the end, unless there is one of that name or it names none. -/
theorem documented_concat_cases (tags : List Tag) (tag : Tag) :
    (documented (tags ++ [tag]) = documented tags ∧
        ∀ e, Documented.ofTag? tag = some e → e.name ∈ (documented tags).map (·.name)) ∨
      ∃ e, Documented.ofTag? tag = some e ∧ e.name ∉ (documented tags).map (·.name) ∧
        documented (tags ++ [tag]) = documented tags ++ [e] := by
  rw [documented_concat]
  cases Documented.ofTag? tag with
  | none => exact .inl ⟨rfl, fun e h => by cases h⟩
  | some e =>
    by_cases hm : e.name ∈ (documented tags).map (·.name)
    · refine .inl ⟨if_pos hm, fun e' he => ?_⟩
      obtain rfl := Option.some.inj he
      exact hm
    · exact .inr ⟨e, rfl, hm, if_neg hm⟩

/-- The documented parameters are those that tags describe. -/
theorem mem_documented_iff : d ∈ documented tags ↔ Describes tags d := by
  induction tags using List.reverseRecOn with
  | nil => simp [documented, Describes]
  | append_singleton tags tag ih =>
    rw [describes_concat, ← ih]
    obtain ⟨hd, hold⟩ | ⟨e, he, hn, hd⟩ := documented_concat_cases tags tag
    · rw [hd]
      refine ⟨.inl, ?_⟩
      rintro (h | ⟨hn, he⟩)
      · exact h
      · exact absurd (hold d he) hn
    · rw [hd, List.mem_append, List.mem_singleton, he, Option.some.injEq]
      refine or_congr_right ⟨?_, fun h => h.2.symm⟩
      rintro rfl
      exact ⟨hn, rfl⟩

/-- Documented parameters are in the order of the first tags that name them. -/
theorem pairwise_findIdx_documented (tags : List Tag) :
    ((documented tags).map (·.name)).Pairwise fun a b =>
      tags.findIdx (Names · a) < tags.findIdx (Names · b) := by
  induction tags using List.reverseRecOn with
  | nil => exact .nil
  | append_singleton tags tag ih =>
    have hlt : ∀ name, name ∈ (documented tags).map (·.name) ↔
        tags.findIdx (Names · name) < tags.length := fun name => by
      rw [mem_names_documented_iff, List.findIdx_lt_length]
      simp
    have hidx : ∀ name ∈ (documented tags).map (·.name),
        (tags ++ [tag]).findIdx (Names · name) = tags.findIdx (Names · name) := fun name hn => by
      rw [List.findIdx_append, if_pos ((hlt name).1 hn)]
    have hold : ((documented tags).map (·.name)).Pairwise fun a b =>
        (tags ++ [tag]).findIdx (Names · a) < (tags ++ [tag]).findIdx (Names · b) :=
      ih.imp_of_mem fun {a b} ha hb hab => by rwa [hidx a ha, hidx b hb]
    obtain ⟨hd, -⟩ | ⟨e, -, hn, hd⟩ := documented_concat_cases tags tag
    · rwa [hd]
    · rw [hd, List.map_append, List.map_singleton]
      refine List.pairwise_append.2 ⟨hold, List.pairwise_singleton _ _, fun a ha b hb => ?_⟩
      rw [List.mem_singleton.1 hb, hidx a ha, List.findIdx_append, if_neg (mt (hlt e.name).2 hn)]
      exact Nat.lt_add_left _ ((hlt a).1 ha)

theorem nodup_names_documented (tags : List Tag) : ((documented tags).map (·.name)).Nodup := by
  rw [names_documented]
  exact nodup_eraseDups _

end Naming

section Validation

variable {discovered : List Text} {ds ordered : List Documented} {m : Mismatch}

theorem validate_eq_ok_iff : validate discovered ds = .ok ordered ↔
    (∀ name, name ∈ discovered ↔ name ∈ ds.map (·.name)) ∧ ordered = arranged discovered ds := by
  rw [validate, ← isEmpty_compare]
  split
  · next h => simp [h, eq_comm]
  · next h => simp [h]

theorem validate_eq_error_iff : validate discovered ds = .error m ↔
    (¬ ∀ name, name ∈ discovered ↔ name ∈ ds.map (·.name)) ∧ m = compare discovered ds := by
  rw [validate, ← isEmpty_compare]
  split
  · next h => simp [h]
  · next h => simp [h, eq_comm]

theorem undocumented_compare :
    (compare discovered ds).undocumented = discovered.filter (· ∉ ds.map (·.name)) := by
  simp only [compare, List.contains_eq_mem, decide_not]

theorem unused_compare :
    (compare discovered ds).unused = (ds.map (·.name)).filter (· ∉ discovered) := by
  simp only [compare, List.contains_eq_mem, decide_not]

theorem told_ok (text : Text) (record : List Documented → Routine.Metadata) :
    told text record (.ok ordered) = [] := rfl

theorem told_error (text : Text) (record : List Documented → Routine.Metadata) :
    told text record (.error m) = m.notes := by
  change Report.diagnostics (m.notes.map .diagnostic) = m.notes
  simp [Report.diagnostics, List.filterMap_map]

end Validation

/-- Tags document the parameters that they name, each once, in the order of the first tags that name
them and as these describe them. Held against the markers of a payload, these parameters pass exactly
if they are the same set of names: silently, and in the order of the markers. Otherwise the user gets
a note for each name that one side lacks, and the failure carries these names. -/
theorem validate_agrees_by_name (payload : Text) (tags : List Tag) :
    let markers := BindMarker.discover payload
    let ds := documented tags
    let names := ds.map (·.name)
    ((∀ d, d ∈ ds ↔ Describes tags d) ∧ (∀ name ∈ names, name.head? = some ':') ∧ names.Nodup ∧
        names.Pairwise fun a b => tags.findIdx (Names · a) < tags.findIdx (Names · b)) ∧
      ((∃ ordered, validate markers ds = .ok ordered) ↔ ∀ name, name ∈ markers ↔ name ∈ names) ∧
      (∀ ordered, validate markers ds = .ok ordered →
        List.Forall₂ (fun name d => d.name = name ∧ Describes tags d ∧
          d.descriptor = ⟨name, if d.type = [] then none else some d.type⟩) markers ordered ∧
        ∀ text record, told text record (validate markers ds) = []) ∧
      ∀ m, validate markers ds = .error m →
        (m.undocumented = markers.filter (· ∉ names) ∧ m.undocumented.Nodup) ∧
        (m.unused = names.filter (· ∉ markers) ∧ m.unused.Nodup) ∧
        (∀ text record, told text record (validate markers ds) =
          m.undocumented.map (fun name =>
            .note s!"Parameter '{String.ofList name}' is not documented in the DocBlock") ++
          m.unused.map fun name =>
            .note s!"Documented parameter '{String.ofList name}' does not occur in the routine") ∧
        Cause.kind (Routine.LoadFailure.parameters m) = .routine "ParameterMismatchError" ∧
        Cause.details (Routine.LoadFailure.parameters m) =
          [("undocumented", .array (m.undocumented.map .string)),
            ("unused", .array (m.unused.map .string))] := by
  intro markers ds names
  have hnodup : names.Nodup := nodup_names_documented tags
  refine ⟨⟨fun d => mem_documented_iff, ?_, hnodup, pairwise_findIdx_documented tags⟩, ?_, ?_, ?_⟩
  · intro name hn
    obtain ⟨tag, -, h⟩ := mem_names_documented_iff.1 hn
    exact h.1
  · simp only [validate_eq_ok_iff, exists_and_left, exists_eq, and_true]
    rfl
  · intro ordered h
    obtain ⟨hs, rfl⟩ := validate_eq_ok_iff.1 h
    refine ⟨(forall₂_arranged fun name => (hs name).1).imp ?_, fun text record => ?_⟩
    · rintro name d ⟨rfl, hd⟩
      exact ⟨rfl, mem_documented_iff.1 hd, by simp [Documented.descriptor]⟩
    · rw [h, told_ok]
  · intro m h
    obtain ⟨-, rfl⟩ := validate_eq_error_iff.1 h
    refine ⟨⟨undocumented_compare, ?_⟩, ⟨unused_compare, ?_⟩, fun text record => ?_, rfl, rfl⟩
    · rw [undocumented_compare]
      exact (BindMarker.nodup_discover payload).filter _
    · rw [unused_compare]
      exact hnodup.filter _
    · rw [h, told_error]
      rfl

/-- Of two tags for one name, with the colon and without, the first counts. -/
example :
    let tags := ["int b", "text :b again", "date c"].map fun content =>
      Tag.parse DocBlock.standardSchemas DocBlock.paramTag content.toList
    (validate (BindMarker.discover "select :b".toList) (documented tags) =
        .error ⟨[], [":c".toList]⟩) ∧
      validate (BindMarker.discover "select :c, :b, :c".toList) (documented tags) =
        .ok [⟨":c".toList, "date".toList, []⟩, ⟨":b".toList, "int".toList, []⟩] := by
  decide +kernel

end StoredRoutine.Parameter
