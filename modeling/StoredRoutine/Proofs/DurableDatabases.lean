import StoredRoutine.Proofs.AtomicWrites
import StoredRoutine.Proofs.DatabaseImages
import StoredRoutine.Proofs.ScratchOpening

/-!
What it takes for a file to keep a database: a connection to the file sees what was committed last.
The engine that keeps its databases in images does so, for every path but the one that stands for a
database in memory.
-/
namespace StoredRoutine.Scratch

/-- A file at a path that keeps what is committed on connections to it, given what a connection sees
and what files hold at the path. -/
structure Durable {η D : Type} [Engine η] (path : Path) (directory : Place) (seen : Live η → D)
    (held : FileTree → Option D) : Prop where
  /-- A connection to a file that is there sees what it holds, and leaves that as it is. -/
  found : ∀ {files : FileTree} {fresh : Live η},
    files.hasFile directory path.toString = .ok true →
      Engine.connect (some path) directory files = (.ok fresh.handle, fresh.files) →
        held files = some (seen fresh) ∧ held fresh.files = held files
  /-- If a new file holds anything after a commit, then it is what the connection sees. -/
  committed : ∀ {files : FileTree} {statements : List Script.Statement} {fresh c live : Live η},
    files.hasFile directory path.toString = .ok false →
      Engine.connect (some path) directory files = (.ok fresh.handle, fresh.files) →
        Executed statements fresh c → Connection.commit c = (.ok (), live) →
          ∀ d, held live.files = some d → d = seen live
  /-- Giving up a connection changes nothing about what the file holds. -/
  closed : ∀ live : Live η, held (Connection.close live).files = held live.files

namespace Embedded

theorem current_ofImage (content : Bytes) :
    (ofImage content).current = (ofImage content).committed := by
  rw [ofImage]
  split <;> rfl

/-- What a file holds is what a connection to it finds, if it can read the file. -/
theorem ofImage?_eq (content : Bytes) : Store.ofImage? content =
    if (ofImage content).isReadable then some (ofImage content).committed else none := by
  cases h : Store.ofImage? content <;> simp only [ofImage, h] <;> rfl

/-- A file that holds no database cannot be changed by statements. -/
theorem outcome_of_unreadable {c : Embedded} (h : c.isReadable = false) {text : Text} {o : Outcome}
    (ho : c.outcome text = .ok o) {rows : List Row} {s : Store} (hs : o.result = .ok (rows, s)) :
    s = c.current := by
  have hread : c.checkReadable = .error .noDatabase := by
    rw [checkReadable, h]
    rfl
  have hrun : ∀ statement, c.run statement = .ok o → s = c.current := by
    intro statement hrun
    cases statement <;> simp only [run, hread, create, Outcome.error_bind] at hrun
    case nothing | lastInsertId =>
      rw [← Except.ok.inj hrun] at hs
      exact (Prod.mk.inj (Except.ok.inj hs)).2.symm
    case createTable target ifMissing clauses =>
      cases hname : Store.checkName target <;> rw [hname] at hrun <;> cases hrun
    all_goals cases hrun
  obtain ⟨tokens, rest, hcut⟩ : ∃ tokens rest, Sql.cut text = (tokens, rest) := ⟨_, _, rfl⟩
  rw [outcome, hcut] at ho
  dsimp only at ho
  split at ho
  · cases ho
  · obtain ⟨-, -, ho⟩ := Outcome.bind_eq_ok_iff.1 ho
    obtain ⟨-, -, ho⟩ := Outcome.bind_eq_ok_iff.1 ho
    obtain ⟨o', hrun', ho⟩ := Outcome.bind_eq_ok_iff.1 ho
    split at ho
    · cases ho
    · obtain rfl := Except.ok.inj ho
      exact hrun _ hrun'

/-- Executing a text does not change whether the file holds a database. -/
theorem isReadable_execute (c : Embedded) (text : Text) :
    (c.execute text).2.isReadable = c.isReadable := by
  rw [execute]
  split
  · rfl
  · split <;> rfl

theorem stores_execute_of_unreadable {c : Embedded} (h : c.isReadable = false)
    (hs : c.current = c.committed) (text : Text) :
    (c.execute text).2.current = c.committed ∧ (c.execute text).2.committed = c.committed := by
  rw [execute]
  split
  · exact ⟨hs, rfl⟩
  · next o ho =>
    dsimp only
    split
    · exact ⟨hs, rfl⟩
    · next rows s hresult =>
      obtain rfl := outcome_of_unreadable h ho hresult
      refine ⟨hs, ?_⟩
      rw [after]
      split
      · rfl
      · exact hs

end Embedded

namespace Kept

variable {place : Place} {live : Live Kept}

/-- What a connection sees: the tables as they are for it, if the file holds a database. -/
def seen (live : Live Kept) : Option Store :=
  if live.handle.connection.isReadable then some live.handle.connection.current else none

/-- What a file holds: the tables that can be read from it, if any. -/
def held (place : Place) (files : FileTree) : Option (Option Store) :=
  match files.get? place with
  | some (.file content) => some (Store.ofImage? content)
  | _ => none

/-- A connection to the file at a place that nobody else has changed. -/
structure Intact (place : Place) (live : Live Kept) : Prop where
  atPlace : live.handle.place = some place
  file : live.files.get? place = some (.file live.handle.left)
  holds : Store.ofImage? live.handle.left =
    if live.handle.connection.isReadable then some live.handle.connection.committed else none
  blank : live.handle.connection.isReadable = false →
    live.handle.connection.current = live.handle.connection.committed

theorem Intact.found_eq (h : Intact place live) :
    found live = { live.handle.connection with nameHolder := .itself } := by
  rw [found, nameHolder, h.atPlace]
  simp only [h.file, if_true]

/-- What is committed on an intact connection goes to its file. -/
theorem Intact.keep (h : Intact place live) {c : Embedded}
    (hread : c.isReadable = live.handle.connection.isReadable)
    (hblank : c.isReadable = false → c.current = c.committed ∧
      c.committed = live.handle.connection.committed) :
    Intact place (keep live c) ∧ (keep live c).handle.connection = c := by
  have hne : place ≠ [] := by
    rintro rfl
    have hroot := h.file
    rw [FileTree.get?_root] at hroot
    cases hroot
  have hholder : (found live).nameHolder = .itself := by rw [h.found_eq]
  rw [Kept.keep, h.atPlace]
  simp only [hholder]
  by_cases hsame : live.handle.connection.committed = c.committed
  · rw [if_neg (by simp [hsame])]
    exact ⟨⟨h.atPlace, h.file, by rw [h.holds, hread, hsame], fun hc => (hblank hc).1⟩, rfl⟩
  · rw [if_pos (by simp [hsame])]
    refine ⟨⟨rfl, by rw [FileTree.get?_put hne, if_pos rfl], ?_, fun hc => (hblank hc).1⟩, rfl⟩
    have hreadable : c.isReadable = true :=
      Bool.eq_true_of_not_eq_false fun hc => hsame (hblank hc).2.symm
    simp only [hreadable, if_pos]
    exact Store.ofImage?_image c.committed

theorem Intact.execute (h : Intact place live) (text : Text) :
    Intact place (Connection.execute text live).2 := by
  refine (h.keep ?_ fun hc => ?_).1
  · rw [Embedded.isReadable_execute, h.found_eq]
  · rw [Embedded.isReadable_execute] at hc
    have hc' := hc
    rw [h.found_eq] at hc'
    obtain ⟨hcurrent, hcommitted⟩ := Embedded.stores_execute_of_unreadable hc
      (by rw [h.found_eq]; exact h.blank hc') text
    exact ⟨hcurrent.trans hcommitted.symm, hcommitted.trans (by rw [h.found_eq])⟩

theorem Intact.executed {statements : List Script.Statement} {c : Live Kept} (h : Intact place live)
    (he : Executed statements live c) : Intact place c := by
  induction he with
  | nil => exact h
  | @cons s _ _ _ _ _ head _ ih =>
    have hs := h.execute s.text
    rw [head] at hs
    exact ih hs

theorem Intact.commit (h : Intact place live) :
    Intact place (Connection.commit live).2 ∧
      held place (Connection.commit live).2.files = some (seen (Connection.commit live).2) := by
  have hcommit := h.keep (c := (found live).commit) (by rw [h.found_eq]; rfl) fun hc => by
    rw [h.found_eq] at hc ⊢
    exact ⟨rfl, h.blank hc⟩
  obtain ⟨hintact, hconnection⟩ : Intact place (Connection.commit live).2 ∧
    (Connection.commit live).2.handle.connection = (found live).commit := hcommit
  refine ⟨hintact, ?_⟩
  rw [held, hintact.file]
  simp only [hintact.holds, seen, hconnection]
  rfl

theorem Intact.rollback (h : Intact place live) : Intact place (Connection.rollback live).2 := by
  refine (h.keep (c := (found live).rollback) (by rw [h.found_eq]; rfl) fun hc => ?_).1
  rw [h.found_eq]
  exact ⟨rfl, rfl⟩

/-- A connection stays intact through a script, whether it succeeds or not. -/
theorem Intact.executeScript (h : Intact place live) (script : Text) :
    Intact place (Database.executeScript script ⟨live, true⟩).2.connection := by
  have halike : Alike fun c d : Live Kept => c = d ∧ Intact place c := by
    refine ⟨fun statement c d hcd => ?_, fun {c d} hcd => ?_, fun {c d} hcd => ?_⟩
    all_goals obtain ⟨rfl, hc⟩ := hcd
    · exact ⟨rfl, rfl, hc.execute statement⟩
    · exact ⟨rfl, rfl, hc.commit.1⟩
    · exact ⟨rfl, rfl, hc.rollback⟩
  obtain ⟨answer, c, -, hrun, -, -, hc⟩ := halike.executeScript script live live ⟨rfl, h⟩
  rw [hrun]
  exact hc

/-- Giving up a connection leaves the files as they are. -/
theorem files_close (live : Live Kept) : (Connection.close live).files = live.files := by
  have hcommitted : (found live).rollback.committed = live.handle.connection.committed := rfl
  change (Kept.keep live (found live).rollback).files = _
  rw [Kept.keep, hcommitted]
  split
  · simp
  · rfl

/-- A connection to a file sees what is in the file, or makes it. -/
theorem connect_cases {path : Path} {directory : Place} {files : FileTree} {fresh : Live Kept}
    (hm : path.toString ≠ memoryPath)
    (h : Engine.connect (some path) directory files = (.ok fresh.handle, fresh.files)) :
    Intact (path.resolve directory).parts fresh ∧
      ((∃ content, files.get? (path.resolve directory).parts = some (.file content) ∧
          fresh = ⟨⟨.ofImage content, some (path.resolve directory).parts, content⟩, files⟩) ∨
        files.get? (path.resolve directory).parts = none) := by
  obtain ⟨handle, after⟩ := fresh
  replace h : connect (some path) directory files = (.ok handle, after) := h
  rw [connect] at h
  split at h
  · cases (Prod.mk.inj h).1
  split at h
  · cases (Prod.mk.inj h).1
  next hfits =>
  have hfits : fits files (path.resolve directory).parts = true := by simpa using hfits
  cases hn : files.get? (path.resolve directory).parts with
  | none =>
    rw [hn] at h
    obtain ⟨hhandle, rfl⟩ := Prod.mk.inj h
    obtain rfl := Except.ok.inj hhandle
    have hne : (path.resolve directory).parts ≠ [] := by
      intro hroot
      simp [hroot] at hn
    refine ⟨⟨rfl, by rw [FileTree.get?_put hne, if_pos rfl], ?_, fun _ => rfl⟩, .inr rfl⟩
    exact Store.ofImage?_image .empty
  | some node =>
    cases node with
    | directory => simp [fits, hn] at hfits
    | file content =>
      rw [hn] at h
      obtain ⟨hhandle, rfl⟩ := Prod.mk.inj h
      obtain rfl := Except.ok.inj hhandle
      exact ⟨⟨rfl, hn, Embedded.ofImage?_eq content, fun _ => Embedded.current_ofImage content⟩,
        .inl ⟨content, rfl, rfl⟩⟩

/-- The engine that keeps its databases in images keeps what is committed. -/
theorem durable (path : String) {directory : Place} (hup : ".." ∉ directory)
    (hm : (Path.ofString path).toString ≠ memoryPath) :
    Durable (Path.ofString path) directory seen
      (held ((Path.ofString path).resolve directory).parts) where
  found {files fresh} hfile hconnect := by
    obtain ⟨node, hfind, hnode⟩ := Outcome.map_eq_ok_iff.1 hfile
    have hn : files.node? directory (Path.ofString path).toString = node := by
      rw [FileTree.node?_eq_find?, hfind]
      rfl
    obtain ⟨content, rfl⟩ : ∃ content, node = some (.file content) := by
      match node, hnode with
      | some (.file content), _ => exact ⟨content, rfl⟩
    obtain ⟨-, place, hl, hg⟩ := FileTree.node?_eq_some_iff.1 hn
    obtain rfl := FileTree.locate_eq_resolve (Path.wellFormed_ofString path) hup hl
    obtain ⟨hintact, ⟨content', hg', rfl⟩ | hnone⟩ := connect_cases hm hconnect
    · obtain rfl : content = content' := by simpa using hg.symm.trans hg'
      refine ⟨?_, rfl⟩
      rw [held, hg, seen, Embedded.current_ofImage, ← Embedded.ofImage?_eq]
    · rw [hnone] at hg
      cases hg
  committed {files statements fresh c live} hfile hconnect hexecuted hcommit d hd := by
    have hkept := ((connect_cases hm hconnect).1.executed hexecuted).commit.2
    rw [hcommit] at hkept
    exact Option.some.inj (hd.symm.trans hkept)
  closed live := by rw [files_close]

end Kept

end StoredRoutine.Scratch
