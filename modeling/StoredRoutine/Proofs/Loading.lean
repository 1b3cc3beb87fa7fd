import StoredRoutine.Proofs.Reading
import StoredRoutine.Proofs.Resolution

/-!
Loading a source comes down to the files it finds: the outcome is that of reading and compiling it
there, and all that a load does to its state is to report.
-/
namespace StoredRoutine.Routine

/-- What loading a source comes to, by the files and the place from which its path is looked up. -/
def outcomeIn (files : FileTree) (directory : Place) (pairs : Placeholder.Pairs)
    (source : Source) : Except LoadFailure Metadata :=
  readSource files directory source.path >>= compile directory pairs source

/-- A source whose file holds a text that is not blank loads as that text compiles. -/
theorem outcomeIn_of_hasText {files : FileTree} {directory : Place} {source : Source} {text : Text}
    (ht : files.HasText directory source.path text) (hb : text.allBlank = false)
    (hp : source.path.contains '\x00' = false) (pairs : Placeholder.Pairs) :
    outcomeIn files directory pairs source = compile directory pairs source text := by
  rw [outcomeIn, (readSource_eq_ok_iff hp).2 ⟨ht, hb⟩, Outcome.ok_bind]

section Load

variable {σ : Type} [Host σ] (pairs : Placeholder.Pairs) (source : Source) (s : σ)

/-- The state in which a source is read: its load has been announced. -/
def announced : σ := Host.report (announcement source) s

theorem load_of_unreadable {failure : LoadFailure}
    (h : readSource (Host.files (announced source s)) (Host.directory (announced source s))
      source.path = .error failure) :
    load pairs source s = (.error failure, announced source s) := by
  rw [load, Task.bind_apply_of_ok (Task.report_apply _ s), ← announced,
    Task.bind_apply_of_ok (Task.files_apply _), Task.bind_apply_of_ok (Task.directory_apply _),
    h, Task.bind_apply_of_error (Task.ofExcept_apply _ _)]

theorem load_of_readable {text : Text}
    (h : readSource (Host.files (announced source s)) (Host.directory (announced source s))
      source.path = .ok text) :
    load pairs source s =
      (compile (Host.directory (announced source s)) pairs source text,
        (outcomeReports text (compile (Host.directory (announced source s)) pairs source
          text)).foldl (fun s r => Host.report r s) (announced source s)) := by
  rw [load, Task.bind_apply_of_ok (Task.report_apply _ s), ← announced,
    Task.bind_apply_of_ok (Task.files_apply _), Task.bind_apply_of_ok (Task.directory_apply _),
    h, Task.bind_apply_of_ok (Task.ofExcept_apply _ _),
    Task.bind_apply_of_ok (Task.directory_apply _), Task.bind_apply_of_ok (Task.reportAll_apply _ _),
    Task.ofExcept_apply]

theorem load_fst :
    (load pairs source s).1 =
      outcomeIn (Host.files (announced source s)) (Host.directory (announced source s)) pairs
        source := by
  rw [outcomeIn]
  cases h : readSource (Host.files (announced source s)) (Host.directory (announced source s))
      source.path with
  | error failure => rw [load_of_unreadable pairs source s h, Outcome.error_bind]
  | ok text => rw [load_of_readable pairs source s h, Outcome.ok_bind]

theorem load_snd :
    ∃ reports : List Report,
      (load pairs source s).2 = reports.foldl (fun s r => Host.report r s) (announced source s) := by
  cases h : readSource (Host.files (announced source s)) (Host.directory (announced source s))
      source.path with
  | error failure =>
    rw [load_of_unreadable pairs source s h]
    exact ⟨[], rfl⟩
  | ok text =>
    rw [load_of_readable pairs source s h]
    exact ⟨_, rfl⟩

end Load

section Quiet

variable {σ : Type} [Host σ] [QuietHost σ] (pairs : Placeholder.Pairs) (source : Source) (s : σ)

theorem load_fst_of_quiet :
    (load pairs source s).1 = outcomeIn (Host.files s) (Host.directory s) pairs source := by
  rw [load_fst, announced, QuietHost.files_report, QuietHost.directory_report]

theorem files_load : Host.files (load pairs source s).2 = Host.files s := by
  obtain ⟨reports, h⟩ := load_snd pairs source s
  rw [h, files_foldl_report, announced, QuietHost.files_report]

theorem directory_load : Host.directory (load pairs source s).2 = Host.directory s := by
  obtain ⟨reports, h⟩ := load_snd pairs source s
  rw [h, directory_foldl_report, announced, QuietHost.directory_report]

end Quiet

theorem replacements_eq_ok_iff {pairs : Placeholder.Pairs} {text : Text}
    {replace : OrderedMap Text Text} :
    replacements pairs text = .ok replace ↔
      (∀ p ∈ Placeholder.find text, ∃ v, pairs.get? p.upper = some (some v)) ∧
        (Placeholder.resolve pairs text).replacements = replace := by
  rw [← Placeholder.unknown_eq_nil_iff]
  by_cases h : (Placeholder.resolve pairs text).unknown = []
  · simp [replacements, h]
  · simp [replacements, h]

/-- The DocBlock of a source, with the tags that routines know. -/
def docBlock (text : Text) : DocBlock := DocBlock.extract DocBlock.standardSchemas text.lines

/-- The index of the first payload line of a source. -/
def offsetOf (text : Text) : Nat := payloadOffset text.lines (docBlock text)

/-- The lines of the payload of a source, as they are written. -/
def payloadLines (text : Text) : List Text := text.lines.drop (offsetOf text)

/-- The parameters of a compiled routine, or the failure of its bind markers and tags to agree. -/
def agreedParameters (text : Text) : Except LoadFailure (List Parameter.Documented) :=
  (Parameter.validate (BindMarker.discover (.ofLines (payloadLines text)))
    (Parameter.documented ((docBlock text).tagsNamed DocBlock.paramTag))).mapError .parameters

/-- The record of a compiled routine, by what its stages gave. -/
def record (directory : Place) (source : Source) (text : Text) (replace : OrderedMap Text Text)
    (d : Designation) (type : Option Text) (documented : List Parameter.Documented) : Metadata where
  routineName := source.routineName
  designation := d
  returnType := type
  parameters := documented.map (·.descriptor)
  documentation := ⟨(docBlock text).shortDescription, (docBlock text).longDescription, documented⟩
  payloadOffset := offsetOf text
  source := substitutePayload (replace.insertMany (magicConstants directory source))
    (offsetOf text) (payloadLines text)

/-- Compiling is one stage after the other. -/
theorem compile_eq_bind (directory : Place) (pairs : Placeholder.Pairs) (source : Source)
    (text : Text) :
    compile directory pairs source text =
      replacements pairs text >>= fun replace =>
      designation (docBlock text) >>= fun d =>
      declaredReturnType (docBlock text) d >>= fun type =>
      checkReturnType d type >>= fun _ =>
      agreedParameters text >>= fun documented =>
      .ok (record directory source text replace d type documented) := rfl

/-- A routine compiles exactly if every stage gives a result, and its record is made of these. -/
theorem compile_eq_ok_iff {directory : Place} {pairs : Placeholder.Pairs} {source : Source}
    {text : Text} {m : Metadata} :
    compile directory pairs source text = .ok m ↔
      ∃ replace d type documented, replacements pairs text = .ok replace ∧
        designation (docBlock text) = .ok d ∧ declaredReturnType (docBlock text) d = .ok type ∧
        checkReturnType d type = .ok () ∧ agreedParameters text = .ok documented ∧
        record directory source text replace d type documented = m := by
  simp only [compile_eq_bind, Outcome.bind_eq_ok_iff]
  constructor
  · rintro ⟨replace, hr, d, hd, type, ht, ⟨⟩, hc, documented, hp, hm⟩
    exact ⟨replace, d, type, documented, hr, hd, ht, hc, hp, Except.ok.inj hm⟩
  · rintro ⟨replace, d, type, documented, hr, hd, ht, hc, hp, hm⟩
    exact ⟨replace, hr, d, hd, type, ht, (), hc, documented, hp, congrArg _ hm⟩

end StoredRoutine.Routine
