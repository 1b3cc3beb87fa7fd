import StoredRoutine.Proofs.Outcome
import StoredRoutine.Proofs.OrderedMap
import StoredRoutine.Proofs.WrittenPaths

/-!
How a tree changes: by a node that is put at a place or removed from it, and by directories that are
made above a file. Making directories adds directories and touches nothing else, whether it succeeds
or not.
-/
namespace StoredRoutine.FileTree

variable {t t' t'' : FileTree} {directory here place : Place} {p : Path}

theorem mem_files {content : Bytes} :
    (place, content) ∈ t.files ↔ t.nodes.get? place = some (.file content) := by
  rw [OrderedMap.get?_eq_some_iff, files, List.mem_filterMap]
  constructor
  · rintro ⟨⟨q, node⟩, hmem, h⟩
    cases node with
    | directory => simp at h
    | file c =>
      obtain ⟨rfl, rfl⟩ : q = place ∧ c = content := by simpa using h
      exact hmem
  · intro h
    exact ⟨_, h, rfl⟩

theorem get?_of_ne_nil (h : place ≠ []) : t.get? place = t.nodes.get? place := by
  rw [get?, List.isEmpty_eq_false_iff.2 h]
  rfl

theorem remove_put_of_fresh (node : Node) (h : place ∉ t.nodes.keys) :
    (t.put place node).remove place = t := by
  rw [put, remove, OrderedMap.erase_insert_of_not_mem node h]

theorem put_put (node node' : Node) : (t.put place node).put place node' = t.put place node' := by
  rw [put, put, put, OrderedMap.insert_insert]

section Growth

/-- A tree with more directories at most. -/
structure Grows (t t' : FileTree) : Prop where
  files : t'.files = t.files
  kept : ∀ {place node}, t.get? place = some node → t'.get? place = some node

theorem Grows.refl (t : FileTree) : Grows t t := ⟨rfl, id⟩

theorem Grows.trans (h : Grows t t') (h' : Grows t' t'') : Grows t t'' :=
  ⟨h'.files.trans h.files, fun hn => h'.kept (h.kept hn)⟩

theorem grows_put_directory (h : t.get? place = none) : Grows t (t.put place .directory) := by
  have hne : place ≠ [] := by
    rintro rfl
    simp at h
  have hfresh : place ∉ t.nodes.keys := by
    rw [OrderedMap.not_mem_keys_iff, ← get?_of_ne_nil hne, h]
  constructor
  · rw [files, put, OrderedMap.entries_insert_of_not_mem _ hfresh, List.filterMap_append]
    simp [files]
  · intro q node hq
    have hqp : q ≠ place := by
      rintro rfl
      simp [h] at hq
    rw [get?_put hne, if_neg hqp, hq]

/-- Where a walk arrives it arrives in every tree that has the same directories and whatever else
there is. -/
theorem walk_of_kept (hd : ∀ q, t.get? q = some .directory → t'.get? q = some .directory)
    (hs : ∀ q, (t.get? q).isSome = true → (t'.get? q).isSome = true) {cs : List String}
    (hw : t.walk here cs = .ok place) : t'.walk here cs = .ok place := by
  induction cs generalizing here with
  | nil => exact hw
  | cons c cs ih =>
    rw [walk] at hw ⊢
    cases hn : t.get? here with
    | none => simp [hn] at hw
    | some node =>
      cases node with
      | file content => simp [hn] at hw
      | directory =>
        rw [hn] at hw
        rw [hd _ hn]
        dsimp only at hw ⊢
        split at hw
        · next hblank => rw [if_pos hblank]; exact ih hw
        · next hblank =>
          rw [if_neg hblank]
          split at hw
          · next hup => rw [if_pos hup]; exact ih hw
          · next hup =>
            rw [if_neg hup]
            split at hw
            · next hsome => rw [if_pos (hs _ hsome)]; exact ih hw
            · simp at hw

theorem Grows.walk (h : Grows t t') {cs : List String} (hw : t.walk here cs = .ok place) :
    t'.walk here cs = .ok place := by
  refine walk_of_kept (fun q hq => h.kept hq) (fun q hq => ?_) hw
  obtain ⟨node, hn⟩ := Option.isSome_iff_exists.1 hq
  rw [h.kept hn]
  rfl

theorem walk_append (here : Place) (cs ds : List String) :
    t.walk here (cs ++ ds) = t.walk here cs >>= fun place => t.walk place ds := by
  induction cs generalizing here with
  | nil => rfl
  | cons c cs ih =>
    rw [List.cons_append, FileTree.walk, FileTree.walk]
    repeat' split
    all_goals first | exact ih _ | rfl

/-- A walk along a path comes to the directory in which the last component names a place. -/
theorem of_walk_parts (h : p.WellFormed) {name : String} (hl : p.parts.getLast? = some name)
    (hw : t.walk here p.parts = .ok place) :
    ∃ above, t.walk here p.parts.dropLast = .ok above ∧ t.get? above = some .directory ∧
      place = further above name ∧ (name = ".." ∨ (t.get? (above ++ [name])).isSome = true) := by
  have hparts : p.parts = p.parts.dropLast ++ [name] :=
    (List.dropLast_append_getLast? name hl).symm
  rw [hparts, walk_append, Outcome.bind_eq_ok_iff] at hw
  obtain ⟨above, ha, hw⟩ := hw
  exact ⟨above, ha, of_walk_part (h.parts name (List.mem_of_getLast? hl)) hw⟩

theorem walk_name {c : String} (hd : t.get? place = some .directory) (hc : Path.IsPart c)
    (hup : c ≠ "..") (hs : (t.get? (place ++ [c])).isSome = true) :
    t.walk place [c] = .ok (place ++ [c]) := by
  simp [FileTree.walk, hd, hc.ne_empty, hc.ne_point, hup, hs]

end Growth

section Making

/-- A directory is made in a directory, under a name that nothing there has. -/
theorem exists_of_makeDirectory (h : t.makeDirectory directory p = .ok t') :
    ∃ name place, p.parts.getLast? = some name ∧ name ≠ ".." ∧
      t.walk (origin directory p) p.parts.dropLast = .ok place ∧
      t.get? place = some .directory ∧ t.get? (place ++ [name]) = none ∧
      t' = t.put (place ++ [name]) .directory := by
  rw [makeDirectory] at h
  cases hl : p.parts.getLast? with
  | none => simp [hl] at h
  | some name =>
    cases hw : t.walk (origin directory p) p.parts.dropLast with
    | error e => simp [hl, hw] at h
    | ok place =>
      simp only [hl, hw] at h
      split at h
      · next hd =>
        split at h
        · simp at h
        · next hfresh =>
          split at h
          · simp at h
          · obtain ⟨hup, hnone⟩ : name ≠ ".." ∧ t.get? (place ++ [name]) = none := by
              simpa using hfresh
            exact ⟨name, place, rfl, hup, rfl, hd, hnone, (Except.ok.inj h).symm⟩
      · simp at h
      · simp at h

/-- What making a directory, or finding it made, comes to. -/
structure Made (t : FileTree) (directory : Place) (p : Path)
    (outcome : FileTree × Except OsFailure Unit) : Prop where
  grows : Grows t outcome.1
  made : outcome.2 = .ok () → ∀ {place},
    outcome.1.walk (origin directory p) p.parts = .ok place →
      outcome.1.get? place = some .directory

theorem Made.of_grows {outcome : FileTree × Except OsFailure Unit} (h : Grows t t')
    (hm : Made t' directory p outcome) : Made t directory p outcome :=
  ⟨h.trans hm.grows, hm.made⟩

theorem isDirectory_iff {path : String} : t.isDirectory directory path = true ↔
    path.contains '\x00' = false ∧
      ∃ place, t.locate directory path = .ok place ∧ t.get? place = some .directory := by
  rw [isDirectory, decide_eq_true_eq, node?]
  cases path.contains '\x00' <;> cases t.locate directory path <;> simp

theorem get?_of_isDirectory (h : p.WellFormed) (hp : t.isDirectory directory p.toString = true)
    (hw : t.walk (origin directory p) p.parts = .ok place) : t.get? place = some .directory := by
  obtain ⟨-, place', hl, hd⟩ := isDirectory_iff.1 hp
  have hw' := walk_of_locate_toString h hl
  rw [hw] at hw'
  obtain rfl := Except.ok.inj hw'
  exact hd

theorem made_settle (h : p.WellFormed) :
    Made t directory p (settle t directory p (t.makeDirectory directory p)) := by
  cases hm : t.makeDirectory directory p with
  | error f =>
    rw [settle]
    split
    · next hthere =>
      obtain ⟨-, hthere⟩ := Bool.and_eq_true_iff.1 hthere
      exact ⟨.refl t, fun _ _ hw => get?_of_isDirectory h hthere hw⟩
    · exact ⟨.refl t, fun hok => by simp at hok⟩
  | ok t' =>
    obtain ⟨name, above, hl, hup, hw, hd, hnone, rfl⟩ := exists_of_makeDirectory hm
    have hgrows := grows_put_directory hnone
    refine ⟨hgrows, fun _ place hplace => ?_⟩
    have hself : (t.put (above ++ [name]) .directory).get? (above ++ [name]) = some .directory := by
      rw [get?_put (by simp), if_pos rfl]
    have hname : Path.IsPart name := h.parts name (List.mem_of_getLast? hl)
    have hparts : p.parts = p.parts.dropLast ++ [name] :=
      (List.dropLast_append_getLast? name hl).symm
    rw [settle, hparts, walk_append, hgrows.walk hw] at hplace
    have hlast := walk_name (hgrows.kept hd) hname hup (by rw [hself]; rfl)
    rw [show (Except.ok above >>= fun place => walk _ place [name]) = walk _ above [name] from rfl,
      hlast] at hplace
    obtain rfl := Except.ok.inj hplace
    exact hself

/-- Directories are made from the last component of a path upwards, and then downwards again. -/
theorem made_makeDirectoriesUp {root : String} {cs : List String}
    (h : Path.WellFormed ⟨root, cs.reverse⟩) :
    Made t directory ⟨root, cs.reverse⟩ (makeDirectoriesUp directory root cs t) := by
  induction cs generalizing t with
  | nil => exact made_settle h
  | cons c up ih =>
    have hup : Path.WellFormed ⟨root, up.reverse⟩ := by
      have := h.parent
      simpa [Path.parent] using this
    have habove : Grows t (makeDirectoriesUp directory root up t).1 := (ih hup).grows
    rw [makeDirectoriesUp]
    split
    · split
      · next t' f hu =>
        rw [hu] at habove
        exact ⟨habove, fun hok => by simp at hok⟩
      · next t' hu =>
        rw [hu] at habove
        exact .of_grows habove (made_settle h)
    · exact made_settle h

theorem makeDirectories_spec (h : p.WellFormed) (t : FileTree) (directory : Place) :
    Grows t (t.makeDirectories directory p).1 ∧
    ((t.makeDirectories directory p).2 = .ok () → p.toString.contains '\x00' = false ∧
      ∀ place, (t.makeDirectories directory p).1.walk (origin directory p) p.parts = .ok place →
        (t.makeDirectories directory p).1.get? place = some .directory) ∧
    ∀ f, (t.makeDirectories directory p).2 = .error f →
      (∃ failure, f = .os failure) ∨ f = .nulByte ∧ p.toString.contains '\x00' = true := by
  have hparts : (⟨p.root, p.parts.reverse.reverse⟩ : Path) = p := by rw [List.reverse_reverse]
  have hm : Made t directory ⟨p.root, p.parts.reverse.reverse⟩
      (makeDirectoriesUp directory p.root p.parts.reverse t) :=
    made_makeDirectoriesUp (hparts.symm ▸ h)
  rw [hparts] at hm
  rw [makeDirectories]
  split
  · next hnul =>
    exact ⟨.refl t, fun hok => by simp at hok, fun f hf => .inr ⟨by simpa using hf.symm, hnul⟩⟩
  · next hnul =>
    refine ⟨hm.grows, fun hok => ⟨by simpa using hnul, fun place => hm.made ?_⟩, fun f hf => ?_⟩
    · exact Outcome.mapError_eq_ok_iff.1 hok
    · obtain ⟨failure, -, rfl⟩ := Outcome.mapError_eq_error_iff.1 hf
      exact .inl ⟨failure, rfl⟩

theorem makeDirectory_of_walk (h : p.WellFormed)
    (hw : t.walk (origin directory p) p.parts = .ok place) :
    t.makeDirectory directory p = .error ⟨.exists, p.toString, none⟩ := by
  rw [makeDirectory]
  cases hl : p.parts.getLast? with
  | none => rfl
  | some name =>
    obtain ⟨above, ha, hd, -, hthere⟩ := of_walk_parts h hl hw
    simp [ha, hd, hthere]

/-- A directory that is there is found made. -/
theorem makeDirectories_of_isDirectory (h : p.WellFormed)
    (hd : t.isDirectory directory p.toString = true) :
    t.makeDirectories directory p = (t, .ok ()) := by
  obtain ⟨hnul, place, hl, -⟩ := isDirectory_iff.1 hd
  have hmade := makeDirectory_of_walk h (walk_of_locate_toString h hl)
  have hsettle : settle t directory p (t.makeDirectory directory p) = (t, .ok ()) := by
    rw [hmade, settle, hd]
    rfl
  have hup : ∀ cs, p = ⟨p.root, cs.reverse⟩ →
      makeDirectoriesUp directory p.root cs t = (t, .ok ()) := by
    intro cs hcs
    cases cs with
    | nil => rwa [makeDirectoriesUp, ← show p = ⟨p.root, []⟩ from hcs]
    | cons c up =>
      rw [makeDirectoriesUp, ← hcs, hmade]
      rw [hmade] at hsettle
      exact hsettle
  rw [makeDirectories, if_neg (by simp [hnul]), hup _ (by rw [List.reverse_reverse])]
  rfl

end Making

end StoredRoutine.FileTree
