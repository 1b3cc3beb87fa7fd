import StoredRoutine.Proofs.MetadataWrites
import StoredRoutine.Proofs.RunPlanning

/-!
How a run ends. The metadata is written, the scratch database is closed whatever came of it, and a
failure that has an answer is an exit code.
-/
namespace StoredRoutine

namespace FileTree

/-- In the middle of a write there are more directories at most. -/
theorem grows_midway (t : FileTree) (directory : Place) (path : String) (text : Text)
    (encoding : String) : Grows t (t.midway directory path text encoding) := by
  rw [midway]
  split
  · exact grows_makeDirectories _ _ _
  · exact .refl t

end FileTree

namespace CommandLine

variable {η : Type}

section Writing

variable {p : Permit}

/-- A text is written in one step, before which there are more directories for a moment. -/
theorem writeText_cases (p : Permit) (path : Path) (text : Text) (c : Course η) :
    ∃ c₁ t, Runs p c c₁ ∧ c₁.now = c.now ∧
      ((∃ f, c.now.session.files.writeAtomically c.now.session.directory path.toString text
          Encoding.utf8.name = (t, .error f) ∧
        (Batch.writeText path text : Task (Course η) _ _) c =
          (.error f, c₁.leave (c₁.now.session.setFiles t))) ∨
      ∃ written r, c.now.session.files.writeAtomically c.now.session.directory path.toString text
          Encoding.utf8.name = (t, .ok written) ∧
        (Batch.writeText path text : Task (Course η) _ _) c =
          (.ok written, Host.report r (c₁.leave (c₁.now.session.setFiles t)))) := by
  obtain ⟨c₁, hpass, hruns, hnow⟩ : ∃ c₁, (Task.pass (fun files directory =>
      files.midway directory path.toString text "utf-8") : Task (Course η) AccessFailure Unit) c =
        (.ok (), c₁) ∧ Runs p c c₁ ∧ c₁.now = c.now :=
    ⟨_, rfl, .single (.pass (FileTree.grows_midway _ _ _ _ _)), rfl⟩
  obtain ⟨t, outcome, ht⟩ : ∃ t outcome, c.now.session.files.writeAtomically
      c.now.session.directory path.toString text Encoding.utf8.name = (t, outcome) := ⟨_, _, rfl⟩
  have hwrite : (Task.withFiles fun files directory =>
      files.writeAtomically directory path.toString text "utf-8") c₁ =
        (outcome, c₁.leave (c₁.now.session.setFiles t)) := by
    have ht₁ : c₁.now.session.files.writeAtomically c₁.now.session.directory path.toString text
        "utf-8" = (t, outcome) := by rw [hnow]; exact ht
    rw [Task.withFiles_apply]
    exact congrArg (fun w : FileTree × Except AccessFailure Bool =>
      (w.2, c₁.leave (c₁.now.session.setFiles w.1))) ht₁
  refine ⟨c₁, t, hruns, hnow, ?_⟩
  rw [Batch.writeText, Task.bind_apply_of_ok hpass, ht]
  cases outcome with
  | error f => exact .inl ⟨f, rfl, Task.bind_apply_of_error hwrite⟩
  | ok written =>
    exact .inr ⟨written, _, rfl, (Task.bind_apply_of_ok hwrite).trans
      (Task.bind_apply_of_ok (Task.report_apply _ _))⟩

/-- Writing is a step of its own, and one that does no more than make directories if it fails. -/
theorem runs_writeText {path : Path} {text : Text} {c : Course η}
    (h : p.writes path text ∨
      ∃ f, ((Batch.writeText path text : Task (Course η) _ _) c).1 = .error f) :
    Runs p c ((Batch.writeText path text : Task (Course η) _ _) c).2 := by
  obtain ⟨c₁, t, hruns, hnow, ⟨f, ht, hw⟩ | ⟨written, r, ht, hw⟩⟩ := writeText_cases p path text c
  · rw [hw]
    rw [← hnow] at ht
    exact hruns.tail (.leave (.directories (FileTree.grows_of_writeAtomically ht)))
  · have hwrites : p.writes path text := by
      refine h.resolve_right fun ⟨f, hf⟩ => ?_
      rw [hw] at hf
      cases hf
    rw [hw]
    refine (hruns.tail (.leave ?_)).tail (.leave (.report r))
    have hstep := Change.written (s := c₁.now.session) hwrites
    rwa [hnow, ht, ← hnow] at hstep

theorem unwritten_of_writeText {q : String} {text : Text} {c c' : Course η} {f : AccessFailure}
    (h : (Batch.writeText (.ofString q) text : Task (Course η) _ _) c = (.error f, c')) :
    Unwritten (some q) c' (.ofAccess (.ofString q) f) := by
  obtain ⟨c₁, t, -, hnow, ⟨f', ht, hw⟩ | ⟨written, r, ht, hw⟩⟩ :=
    writeText_cases .anything (.ofString q) text c
  · obtain ⟨he, rfl⟩ := Prod.mk.inj (h.symm.trans hw)
    obtain rfl : f = f' := Except.error.inj he
    have hpath := Path.ofString_toString (Path.wellFormed_ofString q)
    rcases FileTree.writeAtomically_fault c.now.session.files c.now.session.directory
      (Path.ofString q).toString text .utf8 with ⟨fault, hbad, hfault⟩ | ⟨-, hfault⟩
    · rw [ht] at hfault
      obtain rfl := Except.error.inj (Prod.mk.inj hfault).2
      rw [hpath, ← hnow] at hbad
      exact .undecodable rfl (Course.Saw.take (.inl hbad) _ _)
    · rw [ht, hpath] at hfault
      cases hfault f rfl with
      | os failure => exact .system _ failure
      | nulByte hnul =>
        refine .nulByte rfl ?_
        by_contra hq
        rw [Path.contains_nul_ofString (Bool.eq_false_iff.2 hq)] at hnul
        cases hnul
      | unencodable hencode => cases hencode
  · cases (Prod.mk.inj (h.symm.trans hw)).1

/-- However a text is written, the file holds it then. -/
theorem holds_writeText {q : String} {text : Text} {c c' : Course η} {written : Bool}
    {directory : Place} {content : Option Bytes} (hd : ".." ∉ directory)
    (hc : c.now.session.Holds directory ((Path.ofString q).resolve directory).parts content)
    (h : (Batch.writeText (.ofString q) text : Task (Course η) _ _) c = (.ok written, c')) :
    c'.now.session.Holds directory ((Path.ofString q).resolve directory).parts
      (some (Utf8.encode text)) := by
  obtain ⟨c₁, t, -, hnow, ⟨f, ht, hw⟩ | ⟨written', r, ht, hw⟩⟩ :=
    writeText_cases .anything (.ofString q) text c
  · cases (Prod.mk.inj (h.symm.trans hw)).1
  · obtain ⟨-, rfl⟩ := Prod.mk.inj (h.symm.trans hw)
    refine (Session.logged_report _ r).holds ?_
    rw [hnow]
    refine hc.setFiles ?_
    have hholds := FileTree.holds_of_writeAtomically (e := .utf8) ht
    rw [Path.ofString_toString (Path.wellFormed_ofString q), hc.directory] at hholds
    obtain ⟨bytes, hbytes, hn⟩ := hholds
    obtain ⟨-, place, hl, hg⟩ := FileTree.node?_eq_some_iff.1 hn
    obtain rfl := FileTree.locate_eq_resolve (Path.wellFormed_ofString q) hd hl
    obtain rfl : Utf8.encode text = bytes := Except.ok.inj hbytes
    exact FileTree.content?_eq_some_iff.2 hg

/-- The metadata of a batch is written as its document is. -/
theorem writeMetadata_eq_writeText (q : String) (metadata : OrderedMap String Routine.Metadata) :
    ∃ text, Batch.document metadata = .ok text ∧
      (Batch.writeMetadata (some (.ofString q)) metadata : Task (Course η) _ _) =
        Task.mapError (.ofAccess (.ofString q)) (Batch.writeText (.ofString q) text) := by
  obtain ⟨text, ht⟩ := Batch.exists_document metadata
  refine ⟨text, ht, ?_⟩
  rw [Batch.writeMetadata, ht]
  rfl

variable {path : Option String} {batch : Batch} {result : Batch.Result} {c c' : Course η}

/-- What finishing a batch comes to: a failure to write the metadata, or reports after it is written. -/
theorem finish_cases (result : Batch.Result) (hpath : batch.metadataPath = path.map .ofString)
    (c : Course η) :
    (∃ f c', (Batch.writeMetadata (path.map .ofString) result.metadata : Task (Course η) _ _) c =
        (.error f, c') ∧
      (Task.mapError .batch (batch.finish result) : Work η _) c =
        (.error (.batch (.metadata f)), c')) ∨
    ∃ written c' reports,
      (Batch.writeMetadata (path.map .ofString) result.metadata : Task (Course η) _ _) c =
        (.ok written, c') ∧
      (Task.mapError .batch (batch.finish result) : Work η _) c =
        (.ok result, List.foldl (fun c r => Host.report r c) c' reports) := by
  obtain ⟨outcome, c', hw⟩ : ∃ outcome c', (Batch.writeMetadata (path.map .ofString)
      result.metadata : Task (Course η) _ _) c = (outcome, c') := ⟨_, _, rfl⟩
  rw [Batch.finish, hpath, Task.mapError_bind, Task.bind_apply, Task.mapError_apply,
    Task.mapError_apply, hw]
  cases outcome with
  | error f => exact .inl ⟨f, c', rfl, rfl⟩
  | ok written =>
    refine .inr ⟨written, c', Batch.overview result, rfl, ?_⟩
    dsimp only [Except.mapError]
    rw [Task.mapError_apply, Task.bind_apply_of_ok (Task.reportAll_apply _ _)]
    rfl

/-- Finishing a batch writes its document, or nothing at all if it fails. -/
theorem runs_finish (hpath : batch.metadataPath = path.map .ofString)
    (h : (∀ q text, path = some q → Batch.document result.metadata = .ok text →
        p.writes (.ofString q) text) ∨
      ∃ f, ((Task.mapError .batch (batch.finish result) : Work η _) c).1 = .error f) :
    Runs p c ((Task.mapError .batch (batch.finish result) : Work η _) c).2 := by
  have hmetadata : Runs p c ((Batch.writeMetadata (path.map .ofString) result.metadata :
      Task (Course η) _ _) c).2 := by
    cases path with
    | none =>
      obtain ⟨text, ht⟩ := Batch.exists_document result.metadata
      rw [Batch.writeMetadata, ht]
      exact .refl
    | some q =>
      obtain ⟨text, ht, heq⟩ := writeMetadata_eq_writeText (η := η) q result.metadata
      rw [Option.map_some, heq, Task.mapError_apply]
      refine runs_writeText (h.imp (fun hw => hw q text rfl ht) ?_)
      rintro ⟨f, hf⟩
      rcases finish_cases result hpath c with ⟨f', c', hw, -⟩ | ⟨_, c', reports, -, hw⟩
      · rw [Option.map_some, heq] at hw
        obtain ⟨f'', hf'', -⟩ := Outcome.mapError_eq_error_iff.1 (congrArg Prod.fst hw)
        exact ⟨f'', hf''⟩
      · rw [hw] at hf
        cases hf
  rcases finish_cases result hpath c with
    ⟨f, c', hw, hfinish⟩ | ⟨written, c', reports, hw, hfinish⟩
  · rw [hw] at hmetadata
    rwa [hfinish]
  · rw [hw] at hmetadata
    rw [hfinish]
    exact hmetadata.trans (runs_reports reports c')

/-- A batch is not finished only if its metadata is not written. -/
theorem unwritten_of_finish (hpath : batch.metadataPath = path.map .ofString) {f : Failure}
    (h : (Task.mapError .batch (batch.finish result) : Work η _) c = (.error f, c')) :
    ∃ failure, f = .batch (.metadata failure) ∧ Unwritten path c' failure := by
  rcases finish_cases result hpath c with
    ⟨failure, c'', hw, hfinish⟩ | ⟨_, c'', reports, -, hfinish⟩
  · obtain ⟨he, rfl⟩ := Prod.mk.inj (h.symm.trans hfinish)
    refine ⟨failure, Except.error.inj he, ?_⟩
    cases path with
    | none =>
      obtain ⟨text, ht⟩ := Batch.exists_document result.metadata
      rw [Batch.writeMetadata, ht] at hw
      cases (Prod.mk.inj hw).1
    | some q =>
      obtain ⟨text, -, heq⟩ := writeMetadata_eq_writeText (η := η) q result.metadata
      rw [Option.map_some, heq] at hw
      obtain ⟨hanswer, hcourse⟩ := Prod.mk.inj hw
      obtain ⟨f', hf', rfl⟩ := Outcome.mapError_eq_error_iff.1 hanswer
      exact unwritten_of_writeText (Prod.ext hf' hcourse)
  · cases (Prod.mk.inj (h.symm.trans hfinish)).1

/-- The metadata file of a batch that is finished holds its document. -/
theorem holds_finish {q : String} {directory : Place} {content : Option Bytes}
    {result' : Batch.Result} (hpath : batch.metadataPath = some (.ofString q))
    (hd : ".." ∉ directory)
    (hc : c.now.session.Holds directory ((Path.ofString q).resolve directory).parts content)
    (h : (Task.mapError .batch (batch.finish result) : Work η _) c = (.ok result', c')) :
    result' = result ∧ ∃ text, Batch.document result.metadata = .ok text ∧
      c'.now.session.Holds directory ((Path.ofString q).resolve directory).parts
        (some (Utf8.encode text)) := by
  rcases finish_cases result (show _ = (some q).map Path.ofString from hpath) c with
    ⟨f, c'', -, hfinish⟩ | ⟨written, c'', reports, hw, hfinish⟩
  · cases (Prod.mk.inj (h.symm.trans hfinish)).1
  · obtain ⟨hr, rfl⟩ := Prod.mk.inj (h.symm.trans hfinish)
    obtain ⟨text, ht, heq⟩ := writeMetadata_eq_writeText (η := η) q result.metadata
    refine ⟨Except.ok.inj hr, text, ht, ?_⟩
    rw [Option.map_some, heq] at hw
    obtain ⟨hanswer, hcourse⟩ := Prod.mk.inj hw
    have hwritten := holds_writeText hd hc
      (Prod.ext (Outcome.mapError_eq_ok_iff.1 hanswer) hcourse)
    clear hfinish h hw hcourse
    induction reports generalizing c'' with
    | nil => exact hwritten
    | cons r reports ih => exact ih _ ((Session.logged_report _ r).holds hwritten)

end Writing

section Closing

variable {p : Permit} [Scratch.Engine η]

/-- Closing the scratch database at hand removes its file at most. -/
theorem confined_exit :
    Confined p (fun _ => True)
      (fun c f => ∃ failure, f = .closing failure ∧ Scratch.Unremovable c failure)
      (exit : Work η Unit) := by
  rw [exit]
  refine Confined.bind (.look (G := fun found => ∀ scratch, found = some scratch → scratch.MayGo p)
    fun c hc scratch hs => hc scratch hs) fun found hfound => ?_
  cases found with
  | none => exact Confined.pure trivial
  | some scratch =>
    refine Confined.bind (.change fun c => ?_) fun _ _ => ?_
    · exact .program (fun _ => id) (fun _ _ h => by cases h) .same
    · exact .mapError ((Scratch.confined_close (hfound scratch rfl)).mono (fun _ h => h)
        fun _ failure hf => ⟨failure, rfl, hf⟩)

end Closing

section Answers

/-- The exit code for the result of a batch. -/
def exitCode (result : Batch.Result) : Nat := if result.succeeded then 0 else 1

/-- The answer to a failure, if there is one. -/
def settled (f : Failure) : Except Failure Nat :=
  match f.answer? with
  | some (_, _, code) => .ok code
  | none => .error f

theorem settle_apply {f : Failure} {c : Course η}
    (h : c.now.isGuarded = true ∨ f.answer? = none) : (settle f c).1 = settled f := by
  rw [settle, Task.bind_apply_of_ok (Task.look_apply _ c), settled]
  cases hf : f.answer? with
  | none => cases c.now.isGuarded <;> rfl
  | some answer =>
    rw [h.resolve_right (by simp [hf])]
    rfl

theorem settle_of_unanswered {f : Failure} (h : f.answer? = none) (c : Course η) :
    settle f c = (.error f, c) := by
  rw [settle, Task.bind_apply_of_ok (Task.look_apply _ c), h]
  cases c.now.isGuarded <;> rfl

/-- An answer to a failure is logged. -/
theorem runs_settle {p : Permit} (hp : p.unguards) (f : Failure) (c : Course η) :
    Runs p c (settle f c).2 := by
  rw [settle, Task.bind_apply_of_ok (Task.look_apply _ c)]
  cases c.now.isGuarded with
  | false => exact .refl
  | true =>
    cases f.answer? with
    | none => exact .refl
    | some answer =>
      have hunguard : Runs p c (c.take .program { c.now with isGuarded := false }) :=
        .single (.program (fun h => absurd hp h) id .same)
      exact hunguard.tail (.leave (.report _))

end Answers

end CommandLine

end StoredRoutine
