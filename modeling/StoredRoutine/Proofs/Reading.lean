import StoredRoutine.Proofs.Encodings
import StoredRoutine.Routine.Load

/-!
What it takes to read a source: its path names a file, the bytes of the file write a text in UTF-8,
and that text is not blank. Every other outcome is a failure of reading, which concerns its routine
only, so long as some file can have the path.
-/
namespace StoredRoutine

theorem Encoding.named_utf8 : Encoding.named "utf-8" = .ok .utf8 := by cbv

namespace FileTree

/-- The file that a path names holds a text, written in UTF-8. -/
def HasText (t : FileTree) (directory : Place) (path : String) (text : Text) : Prop :=
  ∃ place, t.locate directory path = .ok place ∧ t.get? place = some (.file (Utf8.encode text))

variable {t : FileTree} {directory : Place} {path : String}

theorem HasText.unique {text text' : Text} (h₁ : t.HasText directory path text)
    (h₂ : t.HasText directory path text') : text = text' := by
  obtain ⟨place₁, hl₁, hg₁⟩ := h₁
  obtain ⟨place₂, hl₂, hg₂⟩ := h₂
  obtain rfl : place₁ = place₂ := by simpa [hl₁] using hl₂
  apply Utf8.encode_injective
  simpa [hg₁] using hg₂

theorem readBytes_eq_ok_iff {content : Bytes} (hp : path.contains '\x00' = false) :
    t.readBytes directory path = .ok content ↔
      ∃ place, t.locate directory path = .ok place ∧ t.get? place = some (.file content) := by
  simp only [readBytes, hp, Bool.false_eq_true, if_false]
  cases hl : t.locate directory path with
  | error e => simp
  | ok place =>
    cases hn : t.get? place with
    | none => simp [hn]
    | some node => cases node <;> simp [hn]

theorem readUtf8_eq_bind :
    t.readUtf8 directory path = t.readBytes directory path >>= fun content =>
      (Encoding.utf8.decode content).mapError .undecodable := by
  have hn : ("utf-8" : String).contains '\x00' = false := by cbv
  simp only [readUtf8, readText, hn, Encoding.named_utf8]
  rfl

theorem readUtf8_eq_ok_iff {text : Text} (hp : path.contains '\x00' = false) :
    t.readUtf8 directory path = .ok text ↔ t.HasText directory path text := by
  have hd (content : Bytes) :
      (Encoding.utf8.decode content).mapError AccessFailure.undecodable = .ok text ↔
        content = Utf8.encode text := by
    rw [Outcome.mapError_eq_ok_iff, Encoding.decode, Outcome.mapError_eq_ok_iff,
      Utf8.decode_eq_ok_iff]
  rw [readUtf8_eq_bind, Outcome.bind_eq_ok_iff]
  constructor
  · rintro ⟨content, hr, hc⟩
    obtain rfl := (hd content).1 hc
    exact (readBytes_eq_ok_iff hp).1 hr
  · intro h
    exact ⟨Utf8.encode text, (readBytes_eq_ok_iff hp).2 h, (hd _).2 rfl⟩

theorem readUtf8_ne_nulByte (hp : path.contains '\x00' = false) :
    t.readUtf8 directory path ≠ .error .nulByte := by
  intro h
  rw [readUtf8_eq_bind, Outcome.bind_eq_error_iff] at h
  rcases h with h | ⟨content, -, h⟩
  · simp only [readBytes, hp, Bool.false_eq_true, if_false] at h
    split at h
    · simp at h
    · split at h <;> simp at h
  · obtain ⟨fault, -, h⟩ := Outcome.mapError_eq_error_iff.1 h
    simp at h

end FileTree

namespace Routine

variable {t : FileTree} {directory : Place} {path : String}

theorem readSource_of_nul (hp : path.contains '\x00' = true) :
    readSource t directory path = .error .invalidPath := by
  have hr : t.readUtf8 directory path = .error .nulByte := by
    rw [FileTree.readUtf8_eq_bind, FileTree.readBytes, if_pos hp, Outcome.error_bind]
  rw [readSource, hr]

theorem contains_nul_of_readSource {text : Text}
    (h : readSource t directory path = .ok text) : path.contains '\x00' = false := by
  refine Bool.eq_false_iff.2 fun hp => ?_
  rw [readSource_of_nul hp] at h
  simp at h

theorem readSource_eq_ok_iff {text : Text} (hp : path.contains '\x00' = false) :
    readSource t directory path = .ok text ↔
      t.HasText directory path text ∧ text.allBlank = false := by
  rw [← FileTree.readUtf8_eq_ok_iff hp]
  simp only [readSource]
  split
  · simp_all
  · simp_all
  · next text' h =>
    rw [h]
    by_cases hb : text'.allBlank
    · rw [if_pos hb]
      constructor
      · simp
      · rintro ⟨he, hf⟩
        obtain rfl := Except.ok.inj he
        simp [hb] at hf
    · rw [if_neg hb]
      constructor
      · intro he
        obtain rfl := Except.ok.inj he
        exact ⟨rfl, by simpa using hb⟩
      · rintro ⟨he, -⟩
        rw [Except.ok.inj he]

theorem readSource_of_blank {text : Text} (hp : path.contains '\x00' = false)
    (ht : t.HasText directory path text) (hb : text.allBlank = true) :
    readSource t directory path = .error .emptySource := by
  rw [readSource, (FileTree.readUtf8_eq_ok_iff hp).2 ht]
  exact if_pos hb

/-- A source that cannot be read fails as one, and its failure is its own. -/
theorem readSource_eq_error {failure : LoadFailure} (hp : path.contains '\x00' = false)
    (h : readSource t directory path = .error failure) :
    failure.kind = "UnreadableSourceError" ∧ failure.isLocal = true := by
  simp only [readSource] at h
  split at h
  · next hn => exact absurd hn (FileTree.readUtf8_ne_nulByte hp)
  · obtain rfl := Except.error.inj h
    exact ⟨rfl, rfl⟩
  · split at h
    · obtain rfl := Except.error.inj h
      exact ⟨rfl, rfl⟩
    · simp at h

end Routine

end StoredRoutine
