import StoredRoutine.Proofs.AtomicWrites
import StoredRoutine.Proofs.BatchAccounting
import StoredRoutine.Proofs.MetadataWrites

/-!
A batch that is run and written a second time.
-/
namespace StoredRoutine

/-!
What a file that is put into a tree changes for those who read other files. Nothing lies below a
file, so a walk that arrives elsewhere has not come past it, and a path reads what it read before
unless it names the place of that file.
-/

namespace FileTree

variable {t : FileTree} {directory here place : Place} {content : Bytes} {p : Path}

/-- The place that a path names, or would name if anything were there. -/
def slot? (t : FileTree) (directory : Place) (p : Path) : Option Place :=
  match p.parts.getLast? with
  | none => some (origin directory p)
  | some name =>
    (t.walk (origin directory p) p.parts.dropLast).toOption.map (further · name)

/-- A path names the place where it leads in any tree in which it takes the way that it takes here. -/
theorem slot?_of_walk {t' : FileTree} (h : p.WellFormed)
    (hw : t'.walk (origin directory p) p.parts = .ok place)
    (hsame : ∀ above, t'.get? above = some .directory →
      t'.walk (origin directory p) p.parts.dropLast = .ok above →
      t.walk (origin directory p) p.parts.dropLast = .ok above) :
    t.slot? directory p = some place := by
  rw [slot?]
  cases hl : p.parts.getLast? with
  | none =>
    rw [List.getLast?_eq_none_iff.1 hl] at hw
    exact congrArg some (Except.ok.inj hw)
  | some name =>
    obtain ⟨above, ha, hd, rfl, -⟩ := of_walk_parts h hl hw
    rw [hsame above hd ha]
    rfl

theorem Replaceable.slot? {target : Path} (h : t.Replaceable directory target place) :
    t.slot? directory target = some (place ++ [target.name]) := by
  have hl : target.parts.getLast? = some target.name := by
    rw [Path.parts_eq_append_name h.ne_empty, List.getLast?_concat]
  rw [FileTree.slot?, hl]
  simp [h.above, Except.toOption, further, h.ne_up]

section Put

/-- No walk goes on from a file. -/
theorem walk_of_file {cs : List String} {r : Place} (hf : t.get? here = some (.file content))
    (hw : t.walk here cs = .ok r) : r = here := by
  cases cs with
  | nil => exact (Except.ok.inj hw).symm
  | cons c cs =>
    rw [walk, hf] at hw
    simp at hw

/-- A file that was put where no directory is: a walk that arrives elsewhere arrives without it. -/
theorem walk_put_iff (hne : place ≠ []) (hd : t.get? place ≠ some .directory) {cs : List String}
    {r : Place} (hr : r ≠ place) :
    (t.put place (.file content)).walk here cs = .ok r ↔ t.walk here cs = .ok r := by
  have hself : (t.put place (.file content)).get? place = some (.file content) := by
    rw [get?_put hne, if_pos rfl]
  have hstays : ∀ cs, (t.put place (.file content)).walk place cs ≠ .ok r := fun cs hw =>
    hr (walk_of_file hself hw)
  induction cs generalizing here with
  | nil => rfl
  | cons c cs ih =>
    by_cases hh : here = place
    · subst hh
      refine iff_of_false (hstays _) ?_
      rw [walk]
      rcases hn : t.get? here with _ | _ | _
      · simp
      · exact absurd hn hd
      · simp
    · rw [walk, walk, get?_put hne, if_neg hh]
      rcases t.get? here with _ | _ | _
      · simp
      · dsimp only
        split
        · exact ih
        · split
          · exact ih
          · by_cases hc : here ++ [c] = place
            · -- the walk comes to the file, from which it does not go on
              rw [hc, hself, Option.isSome_some, if_pos rfl]
              refine iff_of_false (hstays cs) ?_
              split
              · exact fun hw => hstays cs (ih.2 hw)
              · simp
            · rw [get?_put hne, if_neg hc]
              split
              · exact ih
              · rfl
      · simp

theorem slot?_of_walk_put (hne : place ≠ []) (hd : t.get? place ≠ some .directory)
    (h : p.WellFormed)
    (hw : (t.put place (.file content)).walk (origin directory p) p.parts = .ok place) :
    t.slot? directory p = some place := by
  refine slot?_of_walk h hw fun above habove ha => (walk_put_iff hne hd ?_).1 ha
  rintro rfl
  rw [get?_put hne, if_pos rfl] at habove
  simp at habove

/-- A path that does not name the place of the file reads what it read before. -/
theorem hasText_put_iff (hne : place ≠ []) (hd : t.get? place ≠ some .directory) {path : String}
    (he : t.slot? directory (.ofString path) ≠ some place) (text : Text) :
    (t.put place (.file content)).HasText directory path text ↔ t.HasText directory path text := by
  have hwell := Path.wellFormed_ofString path
  have hother : ∀ {r}, r ≠ place →
      ((t.put place (.file content)).locate directory path = .ok r ↔
        t.locate directory path = .ok r) := by
    intro r hr
    rw [locate, locate]
    split
    · rfl
    · split
      · rfl
      · exact walk_put_iff hne hd hr
  constructor
  · rintro ⟨r, hl, hn⟩
    have hr : r ≠ place := by
      rintro rfl
      exact he (slot?_of_walk_put hne hd hwell (walk_of_locate hl))
    rw [get?_put hne, if_neg hr] at hn
    exact ⟨r, (hother hr).1 hl, hn⟩
  · rintro ⟨r, hl, hn⟩
    have hr : r ≠ place := by
      rintro rfl
      exact he (slot?_of_walk hwell (walk_of_locate hl) fun _ _ ha => ha)
    exact ⟨r, (hother hr).2 hl, by rw [get?_put hne, if_neg hr, hn]⟩

end Put

end FileTree

/-!
A batch that is run and written a second time. All that the first time leaves behind is the file of
the metadata, which no source reads; so every source has the outcome it had, the document is the one
that the file holds, and nothing is written.
-/

namespace Routine

/-- A source has the outcome it had if its path reads the text that it read. -/
theorem toOption_outcomeIn_of_same {files files' : FileTree} {directory : Place} {source : Source}
    (h : ∀ text, files'.HasText directory source.path text ↔ files.HasText directory source.path text)
    (pairs : Placeholder.Pairs) :
    (outcomeIn files' directory pairs source).toOption =
      (outcomeIn files directory pairs source).toOption := by
  by_cases hnul : source.path.contains '\x00' = true
  · rw [outcomeIn, outcomeIn, readSource_of_nul hnul, readSource_of_nul hnul]
  · have hp : source.path.contains '\x00' = false := Bool.eq_false_iff.2 hnul
    have hread : ∀ text, readSource files' directory source.path = .ok text ↔
        readSource files directory source.path = .ok text := fun text => by
      rw [readSource_eq_ok_iff hp, readSource_eq_ok_iff hp, h]
    rw [outcomeIn, outcomeIn]
    cases hr : readSource files directory source.path with
    | ok text => rw [(hread text).2 hr]
    | error failure =>
      cases hr' : readSource files' directory source.path with
      | ok text => simp [(hread text).1 hr'] at hr
      | error failure' => rfl

end Routine

namespace Batch

open Routine (Source Metadata)

variable {σ : Type} [Host σ] [LawfulHost σ]

theorem directory_writeText (path : Path) (text : Text) (s : σ) :
    Host.directory (writeText path text s).2 = Host.directory s := by
  obtain ⟨s₁, hpass, hdirectory⟩ : ∃ s₁, (Task.pass (fun files directory =>
      files.midway directory path.toString text "utf-8") : Task σ AccessFailure Unit) s =
        (.ok (), s₁) ∧ Host.directory s₁ = Host.directory s :=
    ⟨_, Task.pass_apply _ s, QuietHost.directory_pass _ _⟩
  rw [writeText, Task.bind_apply_of_ok hpass, Task.bind_apply, Task.withFiles_apply, ← hdirectory]
  cases ((Host.files s₁).writeAtomically (Host.directory s₁) path.toString text "utf-8").2 with
  | error f => exact LawfulHost.directory_setFiles _ s₁
  | ok written =>
    dsimp only
    rw [Task.bind_apply_of_ok (Task.report_apply _ _), Task.pure_apply]
    simp

theorem directory_writeMetadata (path : Path) {metadata : OrderedMap String Metadata} {text : Text}
    (ht : document metadata = .ok text) (s : σ) :
    Host.directory (writeMetadata (some path) metadata s).2 = Host.directory s := by
  have hfirst : (Task.ofExcept ((document metadata).mapError .unwritable) :
      Task σ WriteFailure Text) s = (.ok text, s) := by
    rw [ht]
    rfl
  rw [writeMetadata, Task.bind_apply_of_ok hfirst]
  exact directory_writeText path text s

/-- Metadata that was written is what its file holds, and if the directory was there, no path to
another place reads anything new. -/
theorem writeMetadata_ok {path : String} {metadata : OrderedMap String Metadata} {s s' : σ}
    {written : Bool}
    (hd : (Host.files s).isDirectory (Host.directory s) (Path.ofString path).parent.toString = true)
    (h : writeMetadata (some (.ofString path)) metadata s = (.ok written, s')) :
    ∃ text, document metadata = .ok text ∧ Host.directory s' = Host.directory s ∧
      (Host.files s').Holds (Host.directory s') (Path.ofString path).toString .utf8 text ∧
      ∀ other, (Host.files s).slot? (Host.directory s) (.ofString other) ≠
          (Host.files s).slot? (Host.directory s) (.ofString path) →
        ∀ text, (Host.files s').HasText (Host.directory s) other text ↔
          (Host.files s).HasText (Host.directory s) other text := by
  have hpath := Path.ofString_toString (Path.wellFormed_ofString path)
  obtain ⟨text, ht⟩ := exists_document metadata
  obtain ⟨s'', hs'', hfiles⟩ := writeMetadata_apply (.ofString path) ht s
  have hdirectory := directory_writeMetadata (.ofString path) ht s
  rw [h] at hs'' hdirectory
  obtain ⟨hok, rfl⟩ := Prod.mk.inj hs''
  have hwrite : (Host.files s).writeAtomically (Host.directory s) (Path.ofString path).toString text
      Encoding.utf8.name = (Host.files s', .ok written) :=
    Prod.ext hfiles.symm (Outcome.mapError_eq_ok_iff.1 hok.symm)
  have hholds := FileTree.holds_of_writeAtomically hwrite
  rw [hpath, ← hdirectory] at hholds
  refine ⟨text, ht, hdirectory, hholds, fun other hne text => ?_⟩
  rcases FileTree.put_of_writeAtomically (by rwa [hpath]) hwrite with
    hsame | ⟨place, content, hready, hput⟩
  · rw [hsame]
  · rw [hpath] at hready hput
    rw [hready.slot?] at hne
    rw [hput]
    exact FileTree.hasText_put_iff (by simp) hready.notDirectory hne text

/-- Metadata that its file holds is not written again. -/
theorem writeMetadata_of_holds {path : String} {metadata : OrderedMap String Metadata} {text : Text}
    {s : σ} (ht : document metadata = .ok text)
    (h : (Host.files s).Holds (Host.directory s) (Path.ofString path).toString .utf8 text) :
    ∃ s', writeMetadata (some (.ofString path)) metadata s = (.ok false, s') ∧
      Host.files s' = Host.files s := by
  rw [← Path.ofString_toString (Path.wellFormed_ofString path)] at h
  have hwrite : (Host.files s).writeAtomically (Host.directory s) (Path.ofString path).toString text
      "utf-8" = (Host.files s, .ok false) := FileTree.writeAtomically_of_holds h
  obtain ⟨s', hs', hfiles⟩ := writeMetadata_apply (.ofString path) ht s
  rw [hwrite] at hs' hfiles
  exact ⟨s', hs', hfiles⟩

/-- A source has the record it had if its path reads the text that it read. -/
theorem record?_of_same {batch : Batch} {s s' : σ} {source : Source}
    (hd : Host.directory s' = Host.directory s)
    (h : ∀ text, (Host.files s').HasText (Host.directory s) source.path text ↔
      (Host.files s).HasText (Host.directory s) source.path text) :
    batch.record? s' source = batch.record? s source := by
  rw [record?, record?, toOption_load, toOption_load, hd]
  exact Routine.toOption_outcomeIn_of_same h _

/-- A batch that is run and written again, with its metadata in a directory that was there and at a
place that no source names: the result is the same, the metadata is up to date, and no file
changes. -/
theorem run_twice (batch : Batch) {path : String}
    (hpath : batch.metadataPath = some (.ofString path)) {sources : List Source} {s s₁ s₂ : σ}
    {result : Result} {written : Bool}
    (hd : (Host.files s).isDirectory (Host.directory s) (Path.ofString path).parent.toString = true)
    (hne : ∀ source ∈ sources, (Host.files s).slot? (Host.directory s) (.ofString source.path) ≠
      (Host.files s).slot? (Host.directory s) (.ofString path))
    (hrun : batch.run sources s = (.ok result, s₁))
    (hwrite : writeMetadata batch.metadataPath result.metadata s₁ = (.ok written, s₂)) :
    ∃ s₃ s₄, batch.run sources s₂ = (.ok result, s₃) ∧
      writeMetadata batch.metadataPath result.metadata s₃ = (.ok false, s₄) ∧
      Host.files s₃ = Host.files s₂ ∧ Host.files s₄ = Host.files s₂ := by
  have hnul := contains_nul_of_run (congrArg Prod.fst hrun)
  have hfirst := run_apply_of_remaining batch sources s hnul
  have hkept := files_run batch sources s
  rw [hrun] at hfirst hkept
  rw [hpath] at hwrite ⊢
  obtain ⟨text, ht, hdirectory, hholds, hsame⟩ :=
    writeMetadata_ok (by rwa [hkept.1, hkept.2]) hwrite
  simp only [hkept.1, hkept.2] at hdirectory hsame
  have hrecords : ∀ source ∈ inNameOrder (separate sources).1,
      batch.record? s₂ source = batch.record? s source := fun source hs =>
    record?_of_same hdirectory
      (hsame source.path (hne source (List.mem_filter.1 ((mem_inNameOrder _).1 hs)).1))
  have hsecond := run_apply_of_remaining batch sources s₂ hnul
  rw [Result.collect_congr _ hrecords, ← hfirst] at hsecond
  -- the state that the second run leaves is the one in which the file holds the document
  have hagain := files_run batch sources s₂
  obtain ⟨s₄, hs₄, hfiles⟩ := writeMetadata_of_holds (s := (batch.run sources s₂).2) ht
    (by rwa [hagain.1, hagain.2])
  exact ⟨(batch.run sources s₂).2, s₄, Prod.ext hsecond rfl, hs₄, hagain.1, hfiles.trans hagain.1⟩

section Sample

/-- A batch whose metadata goes to a directory of its own. -/
def writtenBatch : Batch := { plainBatch with metadataPath := some (.ofString "etc/m.json") }

/-- One source that compiles, and one that would lie below the file of the metadata. -/
def writtenSources : List Source :=
  [⟨"y.psql", "y", some "y"⟩, ⟨"etc/m.json/z.psql", "z", some "z"⟩]

def writtenWorkspace : Workspace :=
  ⟨((∅ : FileTree).put ["etc"] .directory).put ["y.psql"] (.file (Utf8.encode plainText)), [], []⟩

theorem slot?_written : ∀ source ∈ writtenSources,
    writtenWorkspace.files.slot? [] (.ofString source.path) ≠
      writtenWorkspace.files.slot? [] (.ofString "etc/m.json") := by
  have htarget : writtenWorkspace.files.slot? [] (.ofString "etc/m.json") =
      some ["etc", "m.json"] := by cbv
  have hy : writtenWorkspace.files.slot? [] (.ofString "y.psql") = some ["y.psql"] := by cbv
  have hz : writtenWorkspace.files.slot? [] (.ofString "etc/m.json/z.psql") = none := by cbv
  simp [writtenSources, htarget, hy, hz]

theorem record?_written : ∃ record,
    writtenBatch.record? writtenWorkspace ⟨"y.psql", "y", some "y"⟩ = some record := by
  have ht : writtenWorkspace.files.HasText [] "y.psql" plainText :=
    ⟨["y.psql"], by cbv, by decide +kernel⟩
  have hc : (Routine.compile [] writtenBatch.replacePairs ⟨"y.psql", "y", some "y"⟩
      plainText).toOption.isSome = true := by decide +kernel
  rw [record?_of_hasText ht (by decide) (by cbv)]
  exact Option.isSome_iff_exists.1 hc

theorem record?_unreadable :
    writtenBatch.record? writtenWorkspace ⟨"etc/m.json/z.psql", "z", some "z"⟩ = none := by
  have hlocate : (writtenWorkspace.files.locate [] "etc/m.json/z.psql").toOption = none := by
    decide +kernel
  rw [record?, toOption_load]
  cases ho : Routine.outcomeIn (Host.files writtenWorkspace) (Host.directory writtenWorkspace)
      writtenBatch.replacePairs ⟨"etc/m.json/z.psql", "z", some "z"⟩ with
  | error failure => rfl
  | ok record =>
    obtain ⟨text, hread, -⟩ := Outcome.bind_eq_ok_iff.1 ho
    obtain ⟨⟨place, hl, -⟩, -⟩ :=
      (Routine.readSource_eq_ok_iff (Routine.contains_nul_of_readSource hread)).1 hread
    exact absurd (hlocate.symm.trans (congrArg Except.toOption hl)) (Option.some_ne_none place).symm

/-- The record that was written is not written again, and the other source fails both times. -/
theorem run_written_twice :
    ∃ (result : Result) (s₁ s₂ s₃ s₄ : Workspace),
      writtenBatch.run writtenSources writtenWorkspace = (.ok result, s₁) ∧
      writeMetadata writtenBatch.metadataPath result.metadata s₁ = (.ok true, s₂) ∧
      writtenBatch.run writtenSources s₂ = (.ok result, s₃) ∧
      writeMetadata writtenBatch.metadataPath result.metadata s₃ = (.ok false, s₄) ∧
      s₄.files = s₂.files ∧
      result.metadata.keys = ["y"] ∧ result.failedPaths = ["etc/m.json/z.psql"] := by
  have hd : writtenWorkspace.files.isDirectory [] (Path.ofString "etc/m.json").parent.toString =
      true := by cbv
  have hseparate : separate writtenSources = (writtenSources, []) := by decide +kernel
  have horder : inNameOrder writtenSources = writtenSources :=
    List.mergeSort_of_pairwise (by decide +kernel)
  have hnul : ∀ source ∈ writtenSources, source.path.contains '\x00' = false := by
    simp only [writtenSources, List.forall_mem_cons]
    exact ⟨by cbv, by cbv, fun _ h => absurd h List.not_mem_nil⟩
  have hwrites : ∀ text, ((Host.files writtenWorkspace).writeAtomically
      (Host.directory writtenWorkspace) (Path.ofString "etc/m.json").toString text "utf-8").2 =
        .ok true := fun text => by cbv
  obtain ⟨record, hrecord⟩ := record?_written
  have hrun := run_apply writtenBatch writtenSources writtenWorkspace hnul
  have hkept := files_run writtenBatch writtenSources writtenWorkspace
  rw [hseparate, horder] at hrun
  have hresult : Result.collect (writtenBatch.record? writtenWorkspace) ⟨∅, []⟩ writtenSources =
      ⟨((∅ : OrderedMap String Metadata).insert "y" record).erase "z", ["etc/m.json/z.psql"]⟩ := by
    rw [writtenSources, Result.collect_cons, Result.collect_cons, hrecord, record?_unreadable]
    rfl
  rw [hresult] at hrun
  obtain ⟨text, ht⟩ := exists_document
    (((∅ : OrderedMap String Metadata).insert "y" record).erase "z")
  obtain ⟨s₂, hwrite, -⟩ := writeMetadata_apply (.ofString "etc/m.json") ht
    (writtenBatch.run writtenSources writtenWorkspace).2
  rw [hkept.1, hkept.2, hwrites] at hwrite
  obtain ⟨s₃, s₄, hagain, hkeeps, -, hfiles⟩ :=
    run_twice writtenBatch rfl hd slot?_written (Prod.ext hrun rfl) hwrite
  exact ⟨_, _, s₂, s₃, s₄, Prod.ext hrun rfl, hwrite, hagain, hkeeps, hfiles, rfl, rfl⟩

end Sample

end Batch

end StoredRoutine
