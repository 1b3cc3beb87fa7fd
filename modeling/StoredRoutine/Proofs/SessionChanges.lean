import StoredRoutine.Proofs.AtomicWrites
import StoredRoutine.Proofs.OrderedMap
import StoredRoutine.Session

/-!
What the program does to its session. It reports, which adds to the log files, or makes directories,
or touches a file at a place where it may; whatever it does, a file that it may not touch stays as it
is.
-/
namespace StoredRoutine

namespace FileTree

variable {t t' t'' : FileTree} {place q : Place}

/-- The bytes of the file at a place, if there is a file. -/
def content? (t : FileTree) (place : Place) : Option Bytes :=
  match t.get? place with
  | some (.file content) => some content
  | _ => none

theorem content?_eq_some_iff {content : Bytes} :
    t.content? place = some content ↔ t.get? place = some (.file content) := by
  rw [content?]
  cases t.get? place with
  | none => simp
  | some node => cases node <;> simp

theorem content?_congr (h : t'.get? place = t.get? place) : t'.content? place = t.content? place := by
  rw [content?, content?, h]

/-- Trees with the same files have the same contents. -/
theorem content?_of_files (h : t'.files = t.files) (place : Place) :
    t'.content? place = t.content? place := by
  by_cases hne : place = []
  · subst hne
    rfl
  · have hmem : ∀ (u : FileTree) content,
        u.content? place = some content ↔ (place, content) ∈ u.files := fun u content => by
      rw [content?_eq_some_iff, get?_of_ne_nil hne, mem_files]
    exact Option.ext fun content => by rw [hmem, hmem, h]

theorem content?_put (hne : place ≠ []) (content : Bytes) :
    (t.put place (.file content)).content? q =
      if q = place then some content else t.content? q := by
  rw [content?, get?_put hne, content?]
  by_cases h : q = place
  · rw [if_pos h, if_pos h]
  · rw [if_neg h, if_neg h]

theorem get?_put_of_ne {node : Node} (h : q ≠ place) : (t.put place node).get? q = t.get? q := by
  by_cases hq : q = []
  · rw [hq]
    rfl
  · rw [get?_of_ne_nil hq, get?_of_ne_nil hq, put, OrderedMap.get?_insert, if_neg h]

theorem get?_remove_of_ne (h : q ≠ place) : (t.remove place).get? q = t.get? q := by
  by_cases hq : q = []
  · rw [hq]
    rfl
  · rw [get?_of_ne_nil hq, get?_of_ne_nil hq, remove, OrderedMap.get?_erase, if_neg h]

end FileTree

namespace Session

/-- The places of files that take reports. -/
def LogsTo (s : Session) (place : Place) : Prop :=
  ∃ handler ∈ s.logging.handlers, handler.target = .file place

/-- A session in which texts were added to files that take reports. -/
structure Logged (s s' : Session) : Prop where
  directory : s'.directory = s.directory
  handlers : s'.logging.handlers = s.logging.handlers
  files : ∀ q, s'.files.get? q = s.files.get? q ∨ s.LogsTo q ∧ ∃ content text,
    s.files.get? q = some (.file content) ∧
      s'.files.get? q = some (.file (content ++ Utf8.encode text))

variable {s s' s'' : Session}

theorem Logged.refl (s : Session) : Logged s s := ⟨rfl, rfl, fun _ => .inl rfl⟩

theorem Logged.trans (h : Logged s s') (h' : Logged s' s'') : Logged s s'' where
  directory := h'.directory.trans h.directory
  handlers := h'.handlers.trans h.handlers
  files q := by
    rcases h'.files q with hq' | ⟨hlogs, content', text', hc', hq'⟩
    · rw [hq']
      exact h.files q
    · rw [LogsTo, h.handlers] at hlogs
      refine .inr ⟨hlogs, ?_⟩
      rcases h.files q with hq | ⟨-, content, text, hc, hq⟩
      · exact ⟨content', text', by rw [← hq, hc'], hq'⟩
      · obtain rfl : content ++ Utf8.encode text = content' := by simpa [hq] using hc'
        refine ⟨content, text ++ text', hc, ?_⟩
        rw [hq', List.append_assoc, Utf8.encode, Utf8.encode, Utf8.encode, List.flatMap_append]

theorem logged_write {line : Log.Target × String}
    (h : ∃ handler ∈ s.logging.handlers, handler.target = line.1) : Logged s (s.write line) := by
  obtain ⟨target, text⟩ := line
  cases target with
  | console => exact ⟨rfl, rfl, fun _ => .inl rfl⟩
  | detached => exact .refl s
  | file place =>
    refine ⟨rfl, rfl, fun q => ?_⟩
    change (append s.files place text).get? q = _ ∨ _ ∧ ∃ _ _, _ ∧
      (append s.files place text).get? q = _
    rw [append]
    split
    · next content hc =>
      by_cases hq : q = place
      · subst hq
        have hne : q ≠ [] := by
          rintro rfl
          cases hc
        rw [FileTree.get?_put hne, if_pos rfl]
        exact .inr ⟨h, content, text.toList, hc, rfl⟩
      · exact .inl (FileTree.get?_put_of_ne hq)
    · exact .inl rfl

theorem logged_foldl_write {lines : List (Log.Target × String)}
    (h : ∀ line ∈ lines, ∃ handler ∈ s.logging.handlers, handler.target = line.1) :
    Logged s (lines.foldl write s) := by
  induction lines generalizing s with
  | nil => exact .refl s
  | cons line lines ih =>
    have hfirst := logged_write (h line List.mem_cons_self)
    refine hfirst.trans (ih fun other hother => ?_)
    rw [hfirst.handlers]
    exact h other (List.mem_cons_of_mem _ hother)

theorem handlers_withLogger (l : Log.Logging) (name : String) :
    (l.withLogger name).handlers = l.handlers := by
  rw [Log.Logging.withLogger]
  split <;> rfl

theorem target_of_mem_lines {l : Log.Logging} {r : Log.Record} {line : Log.Target × String}
    (h : line ∈ l.lines r) : ∃ handler ∈ l.handlers, handler.target = line.1 := by
  rw [Log.Logging.lines] at h
  split at h
  · obtain ⟨handler, hmem, hl⟩ := List.mem_filterMap.1 h
    refine ⟨handler, (List.mem_filter.1 hmem).1, ?_⟩
    rw [Log.Logging.Handler.line?] at hl
    split at hl
    · rw [← Option.some.inj hl]
    · cases hl
  · cases h

theorem logged_log (s : Session) (r : Log.Record) : Logged s (s.log r) := by
  have hfirst : Logged s { s with logging := s.logging.withLogger r.logger } :=
    ⟨rfl, handlers_withLogger _ _, fun _ => .inl rfl⟩
  refine hfirst.trans (logged_foldl_write fun line hline => ?_)
  rw [hfirst.handlers]
  exact target_of_mem_lines hline

/-- A report adds to the log files. -/
theorem logged_report (s : Session) (r : Report) : Logged s (s.report r) := by
  rw [report]
  induction records r generalizing s with
  | nil => exact .refl s
  | cons r rs ih => exact (logged_log s r).trans (ih (s.log r))

end Session

/-- What the program may do, apart from adding to log files and making directories. -/
structure Permit where
  /-- The places of files that may be made where there is nothing, or take reports from now on. -/
  opens : Place → Prop
  /-- The places of files that may be removed. -/
  removes : Place → Prop
  /-- The texts that may be written, and where. -/
  writes : Path → Text → Prop
  /-- Whether a run may go off its guard, as it does to answer a failure. -/
  unguards : Prop

/-- A permit that does not touch the file at a place, unless it writes there. -/
structure Permit.Spares (p : Permit) (place : Place) : Prop where
  opens : ¬ p.opens place
  removes : ¬ p.removes place

/-- What the program does to its session in one step. -/
inductive Change (p : Permit) (s : Session) : Session → Prop where
  | same : Change p s s
  | report (r : Report) : Change p s (s.report r)
  | logging (l : Log.Logging)
    (h : ∀ handler ∈ l.handlers, ∀ place, handler.target = .file place →
      p.opens place ∨ s.LogsTo place) : Change p s { s with logging := l }
  | directories {t : FileTree} (h : s.files.Grows t) : Change p s (s.setFiles t)
  | opened {place : Place} (h : p.opens place) (hnew : s.files.get? place = none) :
    Change p s (s.setFiles (s.files.put place (.file [])))
  | removed {place : Place} (h : p.removes place) : Change p s (s.setFiles (s.files.remove place))
  | written {path : Path} {text : Text} (h : p.writes path text) : Change p s
    (s.setFiles (s.files.writeAtomically s.directory path.toString text Encoding.utf8.name).1)

namespace Session

variable {s s' : Session} {place directory : Place} {content : Option Bytes}

theorem logsTo_setFiles {t : FileTree} (h : (s.setFiles t).LogsTo place) : s.LogsTo place := by
  obtain ⟨handler, hm, ht⟩ := h
  obtain ⟨handler', hm', rfl⟩ := List.mem_map.1 hm
  refine ⟨handler', hm', ?_⟩
  rw [keepTarget] at ht
  split at ht
  · split at ht
    · exact ht
    · cases ht
  · exact ht

/-- A session in some directory in which the file at a place has some content and takes no reports. -/
structure Holds (directory place : Place) (content : Option Bytes) (s : Session) : Prop where
  directory : s.directory = directory
  unlogged : ¬ s.LogsTo place
  content : s.files.content? place = content

theorem Holds.setFiles (h : s.Holds directory place content) {t : FileTree} {content' : Option Bytes}
    (ht : t.content? place = content') : (s.setFiles t).Holds directory place content' :=
  ⟨h.directory, fun hl => h.unlogged (logsTo_setFiles hl), ht⟩

theorem Logged.holds (hl : s.Logged s') (h : s.Holds directory place content) :
    s'.Holds directory place content where
  directory := hl.directory.trans h.directory
  unlogged := by
    rw [LogsTo, hl.handlers]
    exact h.unlogged
  content := by
    rcases hl.files place with hq | ⟨hlogs, -⟩
    · exact (FileTree.content?_congr hq).trans h.content
    · exact absurd hlogs h.unlogged

/-- A session that leaves the file at a place alone, if it is not one that takes reports. -/
structure Spares (place : Place) (s s' : Session) : Prop where
  directory : s'.directory = s.directory
  unlogged : s'.LogsTo place → s.LogsTo place
  content : s'.files.content? place = s.files.content? place

theorem Spares.holds (hs : Spares place s s') (h : s.Holds directory place content) :
    s'.Holds directory place content :=
  ⟨hs.directory.trans h.directory, fun hl => h.unlogged (hs.unlogged hl),
    hs.content.trans h.content⟩

/-- A text that is written changes no file but the one that it is written to. -/
theorem Holds.written (h : s.Holds directory place content) (hd : ".." ∉ directory) (path : Path)
    (text : Text) :
    let s' := s.setFiles
      (s.files.writeAtomically s.directory path.toString text Encoding.utf8.name).1
    s'.Holds directory place content ∨ s'.Holds directory place (some (Utf8.encode text)) := by
  obtain ⟨t, outcome, ht⟩ : ∃ t outcome, s.files.writeAtomically s.directory path.toString text
      Encoding.utf8.name = (t, outcome) := ⟨_, _, rfl⟩
  dsimp only
  rw [ht]
  cases outcome with
  | error f =>
    refine .inl (h.setFiles (.trans ?_ h.content))
    exact FileTree.content?_of_files (FileTree.grows_of_writeAtomically ht).files place
  | ok written =>
    rcases FileTree.grows_put_of_writeAtomically (h.directory ▸ hd) ht with
      rfl | ⟨t', bytes, hgrows, hbytes, rfl⟩
    · exact .inl (h.setFiles h.content)
    · obtain rfl : Utf8.encode text = bytes := Except.ok.inj hbytes
      by_cases hplace : place = ((Path.ofString path.toString).resolve s.directory).parts
      · subst hplace
        by_cases hne : ((Path.ofString path.toString).resolve s.directory).parts = []
        · refine .inl (h.setFiles ?_)
          rw [← h.content, hne]
          rfl
        · refine .inr (h.setFiles ?_)
          rw [FileTree.content?_put hne, if_pos rfl]
      · refine .inl (h.setFiles (.trans ?_ h.content))
        exact (FileTree.content?_congr (FileTree.get?_put_of_ne hplace)).trans
          (FileTree.content?_of_files hgrows.files place)

end Session

/-- A step leaves a file alone that it may not touch, or writes a text to it. -/
theorem Change.holds {p : Permit} {s s' : Session} {place directory : Place}
    {content : Option Bytes} (hp : p.Spares place) (hd : ".." ∉ directory) (h : Change p s s')
    (hs : s.Holds directory place content) :
    s'.Holds directory place content ∨
      ∃ path text, p.writes path text ∧ s'.Holds directory place (some (Utf8.encode text)) := by
  cases h with
  | same => exact .inl hs
  | report r => exact .inl ((Session.logged_report s r).holds hs)
  | logging l h =>
    refine .inl ⟨hs.directory, fun ⟨handler, hm, ht⟩ => ?_, hs.content⟩
    exact (h handler hm place ht).elim hp.opens hs.unlogged
  | directories h =>
    exact .inl (hs.setFiles ((FileTree.content?_of_files h.files place).trans hs.content))
  | opened h =>
    refine .inl (hs.setFiles (.trans (FileTree.content?_congr ?_) hs.content))
    exact FileTree.get?_put_of_ne fun he => hp.opens (he ▸ h)
  | removed h =>
    refine .inl (hs.setFiles (.trans (FileTree.content?_congr ?_) hs.content))
    exact FileTree.get?_remove_of_ne fun he => hp.removes (he ▸ h)
  | @written path text h =>
    exact (hs.written hd path text).imp_right fun hafter => ⟨path, text, h, hafter⟩

end StoredRoutine
