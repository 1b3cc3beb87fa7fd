import StoredRoutine.EnvFile.Parser
import StoredRoutine.Proofs.QuietSessions

/-!
How the program ends. A run that is not interrupted ends with one of two exit codes unless it fails
in a way that has no answer, and the ways in which it may do so are known.
-/
namespace StoredRoutine.CommandLine

/-- A failure is answered with exit code 1, or with 130 if it tells of an interrupt, or not at all. -/
theorem settled_cases (f : Failure) :
    settled f = .ok 1 ∨ settled f = .ok 130 ∧ Cause.kind f = .interrupt ∨
      settled f = .error f ∧ f.answer? = none := by
  cases hk : Cause.kind f <;> simp [settled, Failure.answer?, hk]

theorem exitCode_eq_zero_iff {result : Batch.Result} :
    exitCode result = 0 ↔ result.failedPaths = [] := by
  rw [exitCode, Batch.Result.succeeded]
  split
  · next h => exact iff_of_true rfl (List.isEmpty_iff.1 h)
  · next h => exact iff_of_false (by decide) fun hnil => h (List.isEmpty_iff.2 hnil)

theorem answered_eq_zero_iff {answer : Except Failure Nat} :
    answered answer = .ok 0 ↔ answer = .ok 0 := by
  cases answer with
  | ok code => rfl
  | error f =>
    refine iff_of_false ?_ nofun
    rw [answered]
    rcases settled_cases f with h | ⟨h, -⟩ | ⟨h, -⟩ <;> simp [h]

theorem Ending.ofOutcome_eq_exitCode_iff {outcome : Except Failure Nat} {code : Nat} :
    ofOutcome outcome = .exitCode code ↔ outcome = .ok code := by
  cases outcome <;> simp [ofOutcome]

section Endings

variable {η : Type} [Scratch.Engine η] {platform : Platform} {arguments : List String}
  {a : Arguments}

/-- A run that nobody interrupts ends as it answers. -/
theorem run_eq (ha : Arguments.parse arguments = .ok a) (s : Session) :
    (run platform arguments none s : Ending × Course η) =
      (.ofOutcome (runAll platform a (.start s : Course η)).1,
        (runAll platform a (.start s)).2) := by
  rw [run, ha]
  rfl

/-- A run is complete if its batch was compiled and the metadata of it written. -/
theorem completeRun_eq_ok_iff {c : Course η} {result : Batch.Result} :
    (completeRun platform a c).1 = .ok result ↔
      ∃ batch c₁ written, compileRun platform a c = (.ok (batch, result), c₁) ∧
        (Batch.writeMetadata batch.metadataPath result.metadata c₁).1 = .ok written := by
  have hfinish : ∀ (batch : Batch) (found : Batch.Result) (c₁ : Course η),
      ((Task.mapError .batch (batch.finish found) : Work η Batch.Result) c₁).1 = .ok result ↔
        found = result ∧ ∃ written,
          (Batch.writeMetadata batch.metadataPath found.metadata c₁).1 = .ok written := by
    intro batch found c₁
    rw [Task.mapError_apply, Batch.finish, Task.bind_apply, Task.mapError_apply]
    rcases hw : (Batch.writeMetadata batch.metadataPath found.metadata : Task (Course η) _ _) c₁ with
      ⟨f | written, c'⟩
    · refine iff_of_false (fun he => by cases he) ?_
      rintro ⟨-, written, h⟩
      cases h
    · dsimp only [Except.mapError]
      rw [Task.bind_apply_of_ok (Task.reportAll_apply _ _), Task.pure_apply]
      constructor
      · intro h
        exact ⟨Except.ok.inj h, written, rfl⟩
      · rintro ⟨rfl, -⟩
        rfl
  rw [completeRun, Task.bind_apply]
  rcases hc : (compileRun platform a : Work η _) c with ⟨f | ⟨batch, found⟩, c₁⟩
  · refine iff_of_false (fun he => by cases he) ?_
    rintro ⟨batch, c₁', written, h, -⟩
    cases (Prod.mk.inj h).1
  · rw [hfinish]
    constructor
    · rintro ⟨rfl, written, hw⟩
      exact ⟨batch, c₁, written, rfl, hw⟩
    · rintro ⟨batch', c₁', written, h, hw⟩
      obtain ⟨hcompiled, rfl⟩ := Prod.mk.inj h
      obtain ⟨rfl, rfl⟩ := Prod.mk.inj (Except.ok.inj hcompiled)
      exact ⟨rfl, written, hw⟩

end Endings

section Sample

open Scratch (Kept)

end Sample

end StoredRoutine.CommandLine
