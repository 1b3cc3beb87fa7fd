import StoredRoutine.Proofs.BindMarkers
import StoredRoutine.Proofs.Stages

/-!
What the record of a routine that loads holds. Its parameters are the bind markers of the payload as
it is written, each with the type that documents it, and its return type fits its designation: each
stage of the load answers for one part of the record.
-/
namespace StoredRoutine

namespace Parameter

variable {discovered : List Text} {ds documented : List Documented}

theorem name_of_find? {name : Text} {d : Documented} (h : find? ds name = some d) :
    d.name = name := by
  have hd := List.find?_some h
  exact eq_of_beq hd

theorem exists_find?_of_mem {name : Text} (h : name ∈ ds.map (·.name)) :
    ∃ d, find? ds name = some d := by
  obtain ⟨d, hd, rfl⟩ := List.mem_map.1 h
  refine Option.isSome_iff_exists.1 (List.find?_isSome.2 ⟨d, List.mem_reverse.2 hd, ?_⟩)
  exact beq_self_eq_true d.name

theorem mem_of_find? {name : Text} {d : Documented} (h : find? ds name = some d) : d ∈ ds :=
  List.mem_reverse.1 (List.mem_of_find?_eq_some h)

/-- Where every marker is documented, each has a documented parameter of its name at its place. -/
theorem forall₂_arranged (h : ∀ name ∈ discovered, name ∈ ds.map (·.name)) :
    List.Forall₂ (fun name d => d.name = name ∧ d ∈ ds) discovered (arranged discovered ds) := by
  induction discovered with
  | nil => exact .nil
  | cons name discovered ih =>
    obtain ⟨d, hd⟩ := exists_find?_of_mem (h name List.mem_cons_self)
    rw [arranged, List.filterMap_cons_some hd]
    refine .cons ⟨name_of_find? hd, mem_of_find? hd⟩ (ih fun other ho => ?_)
    exact h other (List.mem_cons_of_mem _ ho)

theorem names_arranged (h : ∀ name ∈ discovered, name ∈ ds.map (·.name)) :
    (arranged discovered ds).map (·.name) = discovered := by
  refine Eq.symm ?_
  rw [← List.forall₂_eq_eq_eq, List.forall₂_map_right_iff]
  exact (forall₂_arranged h).imp fun _ _ hd => hd.1.symm

theorem names_of_validate (h : validate discovered ds = .ok documented) :
    documented.map (·.name) = discovered := by
  rw [validate] at h
  split at h
  · next hm =>
    obtain rfl := Except.ok.inj h
    exact names_arranged fun name => ((isEmpty_compare discovered ds).1 hm name).1
  · simp at h

end Parameter

namespace Routine

variable {pairs : Placeholder.Pairs} {source : Source} {text : Text} {m : Metadata}

/-- A routine that loads has the record that its stages made of the text of its file. -/
theorem exists_record_of_load {σ : Type} [Host σ] {s : σ} (h : (load pairs source s).1 = .ok m) :
    ∃ text replace d type documented,
      (Host.files (announced source s)).HasText (Host.directory (announced source s)) source.path
        text ∧
      replacements pairs text = .ok replace ∧ designation (docBlock text) = .ok d ∧
      declaredReturnType (docBlock text) d = .ok type ∧ checkReturnType d type = .ok () ∧
      agreedParameters text = .ok documented ∧
      m = record (Host.directory (announced source s)) source text replace d type documented := by
  rw [load_fst, outcomeIn, Outcome.bind_eq_ok_iff] at h
  obtain ⟨text, hr, hc⟩ := h
  have ht := ((readSource_eq_ok_iff (contains_nul_of_readSource hr)).1 hr).1
  obtain ⟨replace, d, type, documented, hreplace, hd, htype, hcheck, hagreed, hm⟩ :=
    compile_eq_ok_iff.1 hc
  exact ⟨text, replace, d, type, documented, ht, hreplace, hd, htype, hcheck, hagreed, hm.symm⟩

/-- A source whose file holds a text that is not blank loads as that text compiles. -/
theorem load_fst_of_hasText {σ : Type} [Host σ] [QuietHost σ] {s : σ}
    (ht : (Host.files s).HasText (Host.directory s) source.path text)
    (hb : text.allBlank = false) (hp : source.path.contains '\x00' = false) :
    (load pairs source s).1 = compile (Host.directory s) pairs source text := by
  rw [load_fst_of_quiet, outcomeIn_of_hasText ht hb hp]

theorem names_of_agreedParameters {documented : List Parameter.Documented}
    (h : agreedParameters text = .ok documented) :
    documented.map (·.name) = BindMarker.discover (.ofLines (payloadLines text)) := by
  rw [agreedParameters, Outcome.mapError_eq_ok_iff] at h
  exact Parameter.names_of_validate h

theorem map_name_descriptor (documented : List Parameter.Documented) :
    (documented.map (·.descriptor)).map (·.name) = documented.map (·.name) := by
  rw [List.map_map]
  rfl

section Sample

/-- A workspace with one file. -/
def loneWorkspace (text : Text) : Workspace :=
  ⟨(∅ : FileTree).put ["a.psql"] (.file (Utf8.encode text)), [], []⟩

theorem hasText_loneWorkspace (text : Text) :
    (loneWorkspace text).files.HasText [] "a.psql" text := by
  refine ⟨["a.psql"], by cbv, ?_⟩
  rw [loneWorkspace, FileTree.get?_put (by simp), if_pos rfl]

theorem readSource_loneWorkspace {text : Text} (hb : text.allBlank = false) :
    readSource (loneWorkspace text).files [] "a.psql" = .ok text :=
  (readSource_eq_ok_iff (by simp)).2 ⟨hasText_loneWorkspace text, hb⟩

theorem exists_load_of_isOk {pairs : Placeholder.Pairs} {text : Text}
    (ht : (loneWorkspace text).files.HasText [] "a.psql" text)
    (hb : text.allBlank = false)
    (hc : (compile [] pairs ⟨"a.psql", "a", none⟩ text).isOk = true) :
    ∃ m, (load pairs ⟨"a.psql", "a", none⟩ (loneWorkspace text)).1 = .ok m := by
  have hl : (load pairs ⟨"a.psql", "a", none⟩ (loneWorkspace text)).1 =
      compile [] pairs ⟨"a.psql", "a", none⟩ text := load_fst_of_hasText ht hb (by cbv)
  rw [hl]
  exact Outcome.exists_of_isOk hc

/-- A routine that compiles loads, with the parts of the record that it compiles to. -/
theorem exists_load_of_map {β : Type} {pairs : Placeholder.Pairs} {text : Text} {f : Metadata → β}
    {parts : β} (hb : text.allBlank = false)
    (hc : (compile [] pairs ⟨"a.psql", "a", none⟩ text).map f = .ok parts) :
    ∃ m, (load pairs ⟨"a.psql", "a", none⟩ (loneWorkspace text)).1 = .ok m ∧ f m = parts := by
  have hl : (load pairs ⟨"a.psql", "a", none⟩ (loneWorkspace text)).1 =
      compile [] pairs ⟨"a.psql", "a", none⟩ text :=
    load_fst_of_hasText (hasText_loneWorkspace text) hb (by cbv)
  rw [hl]
  exact Outcome.map_eq_ok_iff.1 hc

end Sample

end Routine

end StoredRoutine
