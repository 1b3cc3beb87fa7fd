import StoredRoutine.Proofs.AtomicWrites
import StoredRoutine.Proofs.MetadataDocument

/-!
Writing the metadata of a batch to its file. The file holds the document afterwards or is left as it
was, and the failure is one of serializing, with one exception: a file that holds no UTF-8 text is
read before it is written, and that failure is passed on as it is.
-/
namespace StoredRoutine.Batch

open Routine (Metadata)
open FileTree (Grows)

variable {σ : Type} [Host σ] [LawfulHost σ]

theorem exists_document (metadata : OrderedMap String Metadata) :
    ∃ text, document metadata = .ok text := by
  obtain ⟨text, ht, -⟩ := documentOf_reads_back (plain_json metadata)
  exact ⟨text, ht⟩

/-- A text is written to the files as they are, and what is reported leaves them alone. -/
theorem writeText_apply (path : Path) (text : Text) (s : σ) :
    ∃ s', writeText path text s = (((Host.files s).writeAtomically (Host.directory s) path.toString
        text "utf-8").2, s') ∧
      Host.files s' = ((Host.files s).writeAtomically (Host.directory s) path.toString text
        "utf-8").1 := by
  obtain ⟨s₁, hpass, hfiles, hdirectory⟩ : ∃ s₁, (Task.pass (fun files directory =>
      files.midway directory path.toString text "utf-8") : Task σ AccessFailure Unit) s =
        (.ok (), s₁) ∧ Host.files s₁ = Host.files s ∧ Host.directory s₁ = Host.directory s :=
    ⟨_, Task.pass_apply _ s, QuietHost.files_pass _ _, QuietHost.directory_pass _ _⟩
  obtain ⟨t', outcome, hw⟩ : ∃ t' outcome, (Host.files s).writeAtomically (Host.directory s)
      path.toString text "utf-8" = (t', outcome) := ⟨_, _, rfl⟩
  have hwrite : (Task.withFiles fun files directory =>
      files.writeAtomically directory path.toString text "utf-8") s₁ =
        (outcome, Host.setFiles t' s₁) := by
    rw [Task.withFiles_apply, hfiles, hdirectory, hw]
  rw [hw, writeText, Task.bind_apply_of_ok hpass]
  cases outcome with
  | error f =>
    rw [Task.bind_apply_of_error hwrite]
    exact ⟨_, rfl, LawfulHost.files_setFiles t' s₁⟩
  | ok written =>
    rw [Task.bind_apply_of_ok hwrite, Task.bind_apply_of_ok (Task.report_apply _ _)]
    exact ⟨_, rfl, by simp⟩

/-- The metadata is written as its document is, with the failures put in other terms. -/
theorem writeMetadata_apply (path : Path) {metadata : OrderedMap String Metadata} {text : Text}
    (ht : document metadata = .ok text) (s : σ) :
    ∃ s', writeMetadata (some path) metadata s =
        (((Host.files s).writeAtomically (Host.directory s) path.toString text "utf-8").2.mapError
          (WriteFailure.ofAccess path), s') ∧
      Host.files s' = ((Host.files s).writeAtomically (Host.directory s) path.toString text
        "utf-8").1 := by
  have hfirst : (Task.ofExcept ((document metadata).mapError .unwritable) :
      Task σ WriteFailure Text) s = (.ok text, s) := by
    rw [ht]
    rfl
  obtain ⟨s', hs', hfiles⟩ := writeText_apply path text s
  refine ⟨s', ?_, hfiles⟩
  rw [writeMetadata, Task.bind_apply_of_ok hfirst]
  simp only [Task.mapError_apply, hs']

theorem isSerialization_ofAccess {path : Path} {text : Text} {f : AccessFailure}
    (hnul : path.toString.contains '\x00' = false) (h : FileTree.WriteFault path .utf8 text f) :
    (WriteFailure.ofAccess path f).isSerialization = true := by
  cases h with
  | os failure => rfl
  | nulByte h => simp [hnul] at h
  | unencodable h => simp [Encoding.encode] at h

/-- Writing the metadata gives a file that holds the document, or a failure that leaves every file as
it was; and it is a failure of serializing unless the file that is there holds no text. Texts are lists
of characters here, so every text can be encoded. A text with a lone surrogate, which is no character,
could not be: encoding it would fail in the same way as decoding does, and not as serializing. -/
theorem writeMetadata_outcome (path : String) (hp : path.contains '\x00' = false)
    (metadata : OrderedMap String Metadata) (s : σ) :
    ∃ text outcome s', document metadata = .ok text ∧
      writeMetadata (some (Path.ofString path)) metadata s = (outcome, s') ∧
      (∀ written, outcome = .ok written → (Host.files s').Holds (Host.directory s)
        (Path.ofString path).toString .utf8 text) ∧
      (∀ f, outcome = .error f → (Host.files s').files = (Host.files s).files) ∧
      ((∃ f, outcome = .error f ∧ f.isSerialization = false) ↔
        ∃ fault, (Host.files s).Undecodable (Host.directory s) (Path.ofString path).toString .utf8
          fault) := by
  have hnul := Path.contains_nul_ofString hp
  have hpath := Path.ofString_toString (Path.wellFormed_ofString path)
  obtain ⟨text, ht⟩ := exists_document metadata
  have hfault := FileTree.writeAtomically_fault (Host.files s) (Host.directory s)
    (Path.ofString path).toString text .utf8
  rw [hpath] at hfault
  obtain ⟨s', hs', hfiles⟩ := writeMetadata_apply (Path.ofString path) ht s
  refine ⟨text, _, s', ht, hs', ?_, ?_, ?_⟩
  · intro written h
    rw [hfiles]
    have hholds := FileTree.holds_of_writeAtomically (e := .utf8)
      (Prod.ext rfl (Outcome.mapError_eq_ok_iff.1 h))
    rwa [hpath] at hholds
  · intro f h
    obtain ⟨f', hf', -⟩ := Outcome.mapError_eq_error_iff.1 h
    rw [hfiles]
    exact (FileTree.grows_of_writeAtomically (e := .utf8) (Prod.ext rfl hf')).files
  · rcases hfault with ⟨fault, hbad, hw⟩ | ⟨hgood, hfault⟩
    · refine iff_of_true ⟨.access (.undecodable fault), ?_, rfl⟩ ⟨fault, hbad⟩
      exact congrArg (fun w => w.2.mapError (WriteFailure.ofAccess (Path.ofString path))) hw
    · refine iff_of_false ?_ fun ⟨fault, hbad⟩ => hgood fault hbad
      rintro ⟨f, hf, hserial⟩
      obtain ⟨f', hf', rfl⟩ := Outcome.mapError_eq_error_iff.1 hf
      rw [isSerialization_ofAccess hnul (hfault f' hf')] at hserial
      simp at hserial

section Sample

def documentPath : String := "m.json"

/-- A metadata file that holds a byte with which no UTF-8 text starts. -/
def undecodableWorkspace : Workspace := ⟨(∅ : FileTree).put ["m.json"] (.file [0xFF]), [], []⟩

/-- Metadata over a file that holds no text: neither is it written, nor is that a failure of
serializing. -/
theorem writeMetadata_passes_on_undecodable :
    documentPath.contains '\x00' = false ∧
      (∀ written,
        (writeMetadata (some (Path.ofString documentPath)) ∅ undecodableWorkspace).1 ≠
          .ok written) ∧
      ∀ f, (writeMetadata (some (Path.ofString documentPath)) ∅ undecodableWorkspace).1 =
        .error f → f.isSerialization = false := by
  have hw : (writeMetadata (some (Path.ofString documentPath)) ∅ undecodableWorkspace).1 =
      .error (.access (.undecodable ⟨.utf8, 0, [0xFF], .utf8 .invalidStart⟩)) := by cbv
  rw [hw]
  refine ⟨by cbv, by simp, fun f hf => ?_⟩
  obtain rfl := Except.error.inj hf
  rfl

theorem writeMetadata_first :
    ∃ text s', document ∅ = .ok text ∧
      writeMetadata (some (Path.ofString documentPath)) ∅ (⟨∅, [], []⟩ : Workspace) =
        (.ok true, s') ∧
      s'.files.Holds [] (Path.ofString documentPath).toString .utf8 text := by
  have hw : (writeMetadata (some (Path.ofString documentPath)) ∅ (⟨∅, [], []⟩ : Workspace)).1 =
      .ok true := by cbv
  obtain ⟨text, outcome, s', ht, hwrite, hholds, -⟩ :=
    writeMetadata_outcome documentPath (by cbv) ∅ (⟨∅, [], []⟩ : Workspace)
  rw [hwrite] at hw
  obtain rfl : outcome = .ok true := hw
  exact ⟨text, s', ht, hwrite, hholds true rfl⟩

end Sample

end StoredRoutine.Batch
