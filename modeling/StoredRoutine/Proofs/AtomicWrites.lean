import StoredRoutine.FileTree.Access
import StoredRoutine.Proofs.Encodings
import StoredRoutine.Proofs.Reading
import StoredRoutine.Proofs.TreeChanges

/-!
Writing a text file is all or nothing. The temporary file has a name that nothing beside the target
has, so it is gone without a trace when it was removed or took the name of the target; and what was
read before a write compares texts, which is to compare bytes.
-/
namespace StoredRoutine.FileTree

variable {t : FileTree} {directory place : Place} {target : Path} {text : Text}

section Temporary

theorem le_foldl_max {l : List Nat} {n m : Nat} (h : n ≤ m ∨ n ∈ l) : n ≤ l.foldl max m := by
  induction l generalizing m with
  | nil => simpa using h
  | cons a l ih => exact ih (by grind)

theorem temporaryName_not_mem (taken : List String) (name : String) :
    temporaryName taken name ∉ taken := by
  intro h
  have hle : (temporaryName taken name).length ≤ (taken.map String.length).foldl max 0 :=
    le_foldl_max (.inr (List.mem_map_of_mem h))
  have hlt : (taken.map String.length).foldl max 0 < (temporaryName taken name).length := by
    simp [temporaryName]
    omega
  omega

theorem mem_names {name : String} (h : place ++ [name] ∈ t.nodes.keys) : name ∈ t.names place :=
  List.mem_filterMap.2 ⟨_, h, by simp⟩

theorem temporary_fresh (t : FileTree) (place : Place) (name : String) :
    place ++ [temporaryName (t.names place) name] ∉ t.nodes.keys :=
  fun h => temporaryName_not_mem _ _ (mem_names h)

end Temporary

/-- What can keep a text from being written to a target: the tree, the path or the text itself. -/
inductive WriteFault (target : Path) (e : Encoding) (text : Text) : AccessFailure → Prop where
  | os (failure : OsFailure) : WriteFault target e text (.os failure)
  | nulByte (h : target.toString.contains '\x00' = true) : WriteFault target e text .nulByte
  | unencodable {fault : Encoding.EncodeFault} (h : e.encode text = .error fault) :
    WriteFault target e text (.unencodable fault)

section Beside

variable {temporary : String} {content : Bytes}

/-- Before the rename the temporary file stands beside the target, and after it nowhere. -/
theorem rename_cases (hfresh : place ++ [temporary] ∉ t.nodes.keys) (target : Path) :
    (∃ failure, (t.put (place ++ [temporary]) (.file content)).rename directory place temporary
      content target = (t, .error (.os failure))) ∨
    target.name ≠ "" ∧ target.name ≠ ".." ∧ t.get? (place ++ [target.name]) ≠ some .directory ∧
      (t.put (place ++ [temporary]) (.file content)).rename directory place temporary content
        target = (t.put (place ++ [target.name]) (.file content), .ok ()) := by
  have hdirectory : (t.put (place ++ [temporary]) (.file content)).get? (place ++ [target.name]) =
      some .directory ↔ t.get? (place ++ [target.name]) = some .directory := by
    rw [get?_put (by simp)]
    split
    · next heq =>
      have hnone : t.get? (place ++ [temporary]) = none := by
        rw [get?_of_ne_nil (by simp)]
        exact OrderedMap.not_mem_keys_iff.1 hfresh
      simp [heq, hnone]
    · rfl
  simp only [rename, remove_put_of_fresh _ hfresh, hdirectory]
  split
  · exact .inl ⟨_, rfl⟩
  · next hname =>
    split
    · exact .inl ⟨_, rfl⟩
    · next hd =>
      obtain ⟨hempty, hup⟩ : target.name ≠ "" ∧ target.name ≠ ".." := by simpa using hname
      exact .inr ⟨hempty, hup, hd, rfl⟩

/-- A target in a directory takes the text, or nothing changes. -/
theorem writeBeside_cases (h : target.WellFormed) (t : FileTree) (directory place : Place)
    (text : Text) (e : Encoding) :
    (∃ f, t.writeBeside directory place target text e.name = (t, .error f) ∧
      WriteFault target e text f) ∨
    ∃ content, e.encode text = .ok content ∧
      target.name.contains '\x00' = false ∧ target.name ≠ "" ∧ target.name ≠ ".." ∧
      t.get? (place ++ [target.name]) ≠ some .directory ∧
      t.writeBeside directory place target text e.name =
        (t.put (place ++ [target.name]) (.file content), .ok ()) := by
  have hfresh := temporary_fresh t place target.name
  simp only [writeBeside, Encoding.named_name, remove_put_of_fresh _ hfresh, put_put]
  split
  · next hnul =>
    have hpath : target.toString.contains '\x00' = true := by
      rw [Path.contains_eq_parent_or_name h (by decide) (by decide), hnul, Bool.or_true]
    exact .inl ⟨_, rfl, .nulByte hpath⟩
  · next hnul =>
    split
    · exact .inl ⟨_, rfl, .os _⟩
    · split
      · next fault hc => exact .inl ⟨_, rfl, .unencodable hc⟩
      · next content hc =>
        rcases rename_cases hfresh target with ⟨failure, hf⟩ | ⟨hempty, hup, hd, hr⟩
        · exact .inl ⟨_, hf, .os failure⟩
        · exact .inr ⟨content, hc, by simpa using hnul, hempty, hup, hd, hr⟩

/-- A target whose directory is there, and which is no directory itself. -/
structure Replaceable (t : FileTree) (directory : Place) (target : Path) (place : Place) : Prop where
  above : t.walk (origin directory target) target.parts.dropLast = .ok place
  isDirectory : t.get? place = some .directory
  ne_empty : target.name ≠ ""
  ne_up : target.name ≠ ".."
  notDirectory : t.get? (place ++ [target.name]) ≠ some .directory

/-- A file that was put at a target is found by the path of the target. -/
theorem Replaceable.walk_put (h : t.Replaceable directory target place) (hw : target.WellFormed)
    (content : Bytes) :
    (t.put (place ++ [target.name]) (.file content)).walk (origin directory target) target.parts =
      .ok (place ++ [target.name]) := by
  have hget : ∀ q, (t.put (place ++ [target.name]) (.file content)).get? q =
      if q = place ++ [target.name] then some (.file content) else t.get? q := fun q =>
    get?_put (by simp)
  have hd : ∀ q, t.get? q = some .directory →
      (t.put (place ++ [target.name]) (.file content)).get? q = some .directory := by
    intro q hq
    have hne : q ≠ place ++ [target.name] := by
      rintro rfl
      exact h.notDirectory hq
    rw [hget, if_neg hne, hq]
  have hs : ∀ q, (t.get? q).isSome = true →
      ((t.put (place ++ [target.name]) (.file content)).get? q).isSome = true := by
    intro q hq
    rw [hget]
    split
    · rfl
    · exact hq
  have hname : Path.IsPart target.name :=
    hw.parts _ (by rw [Path.parts_eq_append_name h.ne_empty]; simp)
  have hlast := walk_name (hd _ h.isDirectory) hname h.ne_up (by rw [hget, if_pos rfl]; rfl)
  rw [Path.parts_eq_append_name h.ne_empty, walk_append, walk_of_kept hd hs h.above]
  exact hlast

theorem Replaceable.locate_put (h : t.Replaceable directory target place) (hw : target.WellFormed)
    (hl : target.toString.utf8ByteSize < pathLimit) (content : Bytes) :
    (t.put (place ++ [target.name]) (.file content)).locate directory target.toString =
      .ok (place ++ [target.name]) := by
  have hne : target.parts ≠ [] := by
    rw [Path.parts_eq_append_name h.ne_empty]
    simp
  rw [locate_toString hw hne hl, h.walk_put hw]

/-- Once the directories of a target are made, the target takes the text or nothing more changes. -/
theorem write_of_made {t' : FileTree} (h : target.WellFormed) (text : Text) (e : Encoding)
    (hm : t.makeDirectories directory target.parent = (t', .ok ())) :
    (∃ f, writeAtomically.write directory text e.name t target = (t', .error f) ∧
      WriteFault target e text f) ∨
    ∃ place content, e.encode text = .ok content ∧ target.toString.contains '\x00' = false ∧
      t'.Replaceable directory target place ∧
      writeAtomically.write directory text e.name t target =
        (t'.put (place ++ [target.name]) (.file content), .ok true) := by
  have hnul := Path.contains_eq_parent_or_name h (c := '\x00') (by decide) (by decide)
  obtain ⟨-, hmade, -⟩ := makeDirectories_spec h.parent t directory
  rw [hm] at hmade
  obtain ⟨hparent, hdirectory⟩ := hmade rfl
  simp only [writeAtomically.write, hm]
  split
  · exact .inl ⟨_, rfl, .os _⟩
  · next place hplace =>
    rcases writeBeside_cases h t' directory place text e with
      ⟨f, hf, hfault⟩ | ⟨content, hc, hname, hempty, hup, hd, hb⟩
    · exact .inl ⟨f, by rw [hf]; rfl, hfault⟩
    · exact .inr ⟨place, content, hc, by rw [hnul, hparent, hname]; rfl,
        ⟨hplace, hdirectory place hplace, hempty, hup, hd⟩, by rw [hb]; rfl⟩

/-- A write either makes directories at most, or makes those of the target, which then takes the
text. -/
theorem write_cases (h : target.WellFormed) (t : FileTree) (directory : Place) (text : Text)
    (e : Encoding) :
    (∃ t' f, writeAtomically.write directory text e.name t target = (t', .error f) ∧ Grows t t' ∧
      WriteFault target e text f) ∨
    ∃ t' place content, Grows t t' ∧ e.encode text = .ok content ∧
      target.toString.contains '\x00' = false ∧ t'.Replaceable directory target place ∧
      writeAtomically.write directory text e.name t target =
        (t'.put (place ++ [target.name]) (.file content), .ok true) := by
  obtain ⟨hgrows, -, hfault⟩ := makeDirectories_spec h.parent t directory
  obtain ⟨t', outcome, hm⟩ : ∃ t' outcome, t.makeDirectories directory target.parent =
      (t', outcome) := ⟨_, _, rfl⟩
  rw [hm] at hgrows hfault
  cases outcome with
  | error f =>
    refine .inl ⟨t', f, by rw [writeAtomically.write, hm], hgrows, ?_⟩
    rcases hfault f rfl with ⟨failure, rfl⟩ | ⟨rfl, hparent⟩
    · exact .os failure
    · have hnul := Path.contains_eq_parent_or_name h (c := '\x00') (by decide) (by decide)
      exact .nulByte (by rw [hnul, hparent, Bool.true_or])
  | ok _ =>
    rcases write_of_made h text e hm with ⟨f, hw, hfault⟩ | ⟨place, content, hc, hnul, hready, hw⟩
    · exact .inl ⟨t', f, hw, hgrows, hfault⟩
    · exact .inr ⟨t', place, content, hgrows, hc, hnul, hready, hw⟩

end Beside

section Atomic

variable {path : String} {content : Bytes} {e : Encoding}

/-- The file that a path names holds a text in an encoding. -/
def Holds (t : FileTree) (directory : Place) (path : String) (e : Encoding) (text : Text) : Prop :=
  ∃ content, e.encode text = .ok content ∧ t.node? directory path = some (.file content)

theorem node?_eq_some_iff {node : Node} : t.node? directory path = some node ↔
    path.contains '\x00' = false ∧
      ∃ place, t.locate directory path = .ok place ∧ t.get? place = some node := by
  rw [node?]
  cases path.contains '\x00' <;> cases t.locate directory path <;> simp

theorem node?_eq_find? (t : FileTree) (directory : Place) (path : String) :
    t.node? directory path = (t.find? directory path).toOption.join := by
  rw [node?, find?]
  split
  · rfl
  · cases hl : t.locate directory path with
    | ok place => simp [Except.toOption]
    | error e => cases e <;> rfl

/-- Whether a path names a file can be said only if it is not too long. -/
theorem length_lt_of_find? {node : Option Node} (h : target.WellFormed)
    (hnul : target.toString.contains '\x00' = false)
    (hf : t.find? directory target.toString = .ok node) :
    target.toString.utf8ByteSize < pathLimit := by
  by_contra hl
  have hlocate : t.locate directory target.toString = .error .nameTooLong := by
    rw [locate, if_neg (by simp [Path.isEmpty_toString h]), if_pos (by omega)]
  simp [find?, hnul, hlocate] at hf

theorem readText_of_node? (h : t.node? directory path = some (.file content)) :
    t.readText directory path e.name = (e.decode content).mapError .undecodable := by
  obtain ⟨hnul, place, hl, hg⟩ := node?_eq_some_iff.1 h
  have hr := (readBytes_eq_ok_iff hnul).2 ⟨place, hl, hg⟩
  rw [readText, hr, Encoding.named_name, e.name_contains_nul]
  rfl

theorem Holds.readText (h : t.Holds directory path e text) :
    t.readText directory path e.name = .ok text := by
  obtain ⟨content, hc, hn⟩ := h
  rw [readText_of_node? hn, Encoding.encode_eq_ok_iff.1 hc]
  rfl

/-- The file that a path names holds no text in an encoding, for a fault in its bytes. -/
def Undecodable (t : FileTree) (directory : Place) (path : String) (e : Encoding)
    (fault : Encoding.DecodeFault) : Prop :=
  ∃ content, t.node? directory path = some (.file content) ∧ e.decode content = .error fault

theorem Undecodable.not_holds {fault : Encoding.DecodeFault}
    (h : t.Undecodable directory path e fault) : ¬ t.Holds directory path e text := by
  rintro ⟨content', hc, hn'⟩
  obtain ⟨content, hn, hd⟩ := h
  obtain rfl : content = content' := by simpa [hn] using hn'
  simp [Encoding.encode_eq_ok_iff, hd] at hc

theorem holds_iff_of_node? {old : Text} (hn : t.node? directory path = some (.file content))
    (hd : e.decode content = .ok old) (text : Text) :
    t.Holds directory path e text ↔ old = text := by
  simp [Holds, hn, Encoding.encode_eq_ok_iff, hd]

theorem not_undecodable_of_node? {old : Text}
    (hn : t.node? directory path = some (.file content)) (hd : e.decode content = .ok old)
    (fault : Encoding.DecodeFault) : ¬ t.Undecodable directory path e fault := by
  rintro ⟨content', hn', hd'⟩
  obtain rfl : content = content' := by simpa [hn] using hn'
  simp [hd] at hd'

/-- What is no file holds neither a text nor bytes that are none. -/
theorem not_holds_of_node? (h : ∀ content, t.node? directory path ≠ some (.file content))
    (e : Encoding) (text : Text) :
    ¬ t.Holds directory path e text ∧ ∀ fault, ¬ t.Undecodable directory path e fault :=
  ⟨fun ⟨content, _, hn⟩ => h content hn, fun _ ⟨content, hn, _⟩ => h content hn⟩

/-- A target that holds the text is left alone, and so is one that holds no text at all. Any other
target is written, unless not even its kind can be told. -/
theorem writeAtomically_cases (t : FileTree) (directory : Place) (path : String) (text : Text)
    (e : Encoding) :
    t.Holds directory (Path.ofString path).toString e text ∧
      t.writeAtomically directory path text e.name = (t, .ok false) ∨
    (∃ fault, t.Undecodable directory (Path.ofString path).toString e fault ∧
      t.writeAtomically directory path text e.name = (t, .error (.undecodable fault))) ∨
    ¬ t.Holds directory (Path.ofString path).toString e text ∧
      (∀ fault, ¬ t.Undecodable directory (Path.ofString path).toString e fault) ∧
      ((∃ failure, t.writeAtomically directory path text e.name = (t, .error (.os failure))) ∨
        (∃ node, t.find? directory (Path.ofString path).toString = .ok node) ∧
          t.writeAtomically directory path text e.name =
            writeAtomically.write directory text e.name t (Path.ofString path)) := by
  rw [writeAtomically]
  generalize Path.ofString path = target
  have hnode := node?_eq_find? t directory target.toString
  cases hf : t.find? directory target.toString with
  | error f =>
    have hfile : t.hasFile directory target.toString = .error f := by rw [hasFile, hf]; rfl
    rw [hf] at hnode
    obtain ⟨hholds, hundecodable⟩ := not_holds_of_node?
      (fun _ hn => by cases hnode.symm.trans hn) e text
    exact .inr (.inr ⟨hholds, hundecodable, .inl ⟨f, by rw [hfile]; rfl⟩⟩)
  | ok node =>
    replace hnode : t.node? directory target.toString = node := by
      rw [hnode, hf]
      rfl
    by_cases hcontent : ∃ content, node = some (.file content)
    · obtain ⟨content, rfl⟩ := hcontent
      have hfile : t.hasFile directory target.toString = .ok true := by rw [hasFile, hf]; rfl
      have hread := readText_of_node? (e := e) hnode
      cases hd : e.decode content with
      | error fault =>
        rw [hd] at hread
        exact .inr (.inl ⟨fault, ⟨content, hnode, hd⟩, by rw [hfile, hread]; rfl⟩)
      | ok old =>
        rw [hd] at hread
        have hholds := holds_iff_of_node? hnode hd text
        by_cases hold : old = text
        · exact .inl ⟨hholds.2 hold, by simp [hfile, hread, hold, Except.mapError]⟩
        · exact .inr (.inr ⟨fun h => hold (hholds.1 h), not_undecodable_of_node? hnode hd,
            .inr ⟨⟨_, rfl⟩, by simp [hfile, hread, hold, Except.mapError]⟩⟩)
    · have hfile : t.hasFile directory target.toString = .ok false := by
        rw [hasFile, hf]
        match node with
        | none | some .directory => rfl
        | some (.file content) => exact absurd ⟨content, rfl⟩ hcontent
      obtain ⟨hholds, hundecodable⟩ := not_holds_of_node?
        (fun content hn => hcontent ⟨content, hnode.symm.trans hn⟩) e text
      exact .inr (.inr ⟨hholds, hundecodable, .inr ⟨⟨_, rfl⟩, by rw [hfile]; rfl⟩⟩)

section Outcomes

variable {t' : FileTree}

theorem writeAtomically_of_holds (h : t.Holds directory (Path.ofString path).toString e text) :
    t.writeAtomically directory path text e.name = (t, .ok false) := by
  rcases writeAtomically_cases t directory path text e with
    ⟨-, hw⟩ | ⟨fault, hbad, -⟩ | ⟨hholds, -⟩
  · exact hw
  · exact absurd h hbad.not_holds
  · exact absurd h hholds

theorem grows_of_writeAtomically {f : AccessFailure}
    (h : t.writeAtomically directory path text e.name = (t', .error f)) : Grows t t' := by
  rcases writeAtomically_cases t directory path text e with
    ⟨-, hw⟩ | ⟨fault, -, hw⟩ | ⟨-, -, ⟨failure, hw⟩ | ⟨-, hw⟩⟩ <;> rw [hw] at h
  · simp at h
  · obtain ⟨rfl, -⟩ := Prod.mk.inj h
    exact .refl t
  · obtain ⟨rfl, -⟩ := Prod.mk.inj h
    exact .refl t
  · rcases write_cases (Path.wellFormed_ofString path) t directory text e with
      ⟨t'', f', hw', hgrows, -⟩ | ⟨t'', place, content, -, -, -, -, hw'⟩ <;> rw [hw'] at h
    · obtain ⟨rfl, -⟩ := Prod.mk.inj h
      exact hgrows
    · simp at h

/-- A target that was written holds the text, and it is the only file that changed. -/
theorem holds_of_written
    (h : t.writeAtomically directory path text e.name = (t', .ok true)) :
    t'.Holds directory (Path.ofString path).toString e text ∧
      ∃ place, t'.locate directory (Path.ofString path).toString = .ok place ∧
        ∀ q ≠ place, ∀ content, (q, content) ∈ t'.files ↔ (q, content) ∈ t.files := by
  have hwell := Path.wellFormed_ofString path
  rcases writeAtomically_cases t directory path text e with
    ⟨-, hw⟩ | ⟨fault, -, hw⟩ | ⟨-, -, ⟨failure, hw⟩ | ⟨⟨node, hf⟩, hw⟩⟩ <;> rw [hw] at h
  · simp at h
  · simp at h
  · simp at h
  · rcases write_cases hwell t directory text e with
      ⟨t'', f', hw', -⟩ | ⟨t'', place, content, hgrows, hc, hnul, hready, hw'⟩ <;> rw [hw'] at h
    · simp at h
    · obtain ⟨rfl, -⟩ := Prod.mk.inj h
      have hlocate := hready.locate_put hwell (length_lt_of_find? hwell hnul hf) content
      refine ⟨⟨content, hc, node?_eq_some_iff.2 ⟨hnul, _, hlocate, ?_⟩⟩, _, hlocate, ?_⟩
      · rw [get?_put (by simp), if_pos rfl]
      · intro q hq content'
        rw [← hgrows.files, mem_files, mem_files, put, OrderedMap.get?_insert, if_neg hq]

/-- Where the directory of a target is there already, a write changes the target at most. -/
theorem put_of_writeAtomically {written : Bool}
    (hd : t.isDirectory directory (Path.ofString path).parent.toString = true)
    (h : t.writeAtomically directory path text e.name = (t', .ok written)) :
    t' = t ∨ ∃ place content, t.Replaceable directory (Path.ofString path) place ∧
      t' = t.put (place ++ [(Path.ofString path).name]) (.file content) := by
  have hwell := Path.wellFormed_ofString path
  rcases writeAtomically_cases t directory path text e with
    ⟨-, hw⟩ | ⟨fault, -, hw⟩ | ⟨-, -, ⟨failure, hw⟩ | ⟨-, hw⟩⟩ <;> rw [hw] at h
  · exact .inl (congrArg Prod.fst h).symm
  · simp at h
  · simp at h
  · have hm := makeDirectories_of_isDirectory hwell.parent hd
    rcases write_of_made hwell text e hm with ⟨f, hw', -⟩ | ⟨place, content, -, -, hready, hw'⟩ <;>
      rw [hw'] at h
    · simp at h
    · exact .inr ⟨place, content, hready, (congrArg Prod.fst h).symm⟩

/-- A write puts the text where the path says, in a tree with more directories at most. -/
theorem grows_put_of_writeAtomically (hup : ".." ∉ directory) {written : Bool}
    (h : t.writeAtomically directory path text e.name = (t', .ok written)) :
    t' = t ∨ ∃ t'' content, Grows t t'' ∧ e.encode text = .ok content ∧
      t' = t''.put ((Path.ofString path).resolve directory).parts (.file content) := by
  have hwell := Path.wellFormed_ofString path
  rcases writeAtomically_cases t directory path text e with
    ⟨-, hw⟩ | ⟨fault, -, hw⟩ | ⟨-, -, ⟨failure, hw⟩ | ⟨⟨node, hf⟩, hw⟩⟩ <;> rw [hw] at h
  · exact .inl (congrArg Prod.fst h).symm
  · simp at h
  · simp at h
  · rcases write_cases hwell t directory text e with
      ⟨t'', f', hw', -⟩ | ⟨t'', place, content, hgrows, hc, hnul, hready, hw'⟩ <;> rw [hw'] at h
    · simp at h
    · have hplace := locate_eq_resolve hwell hup
        (hready.locate_put hwell (length_lt_of_find? hwell hnul hf) content)
      refine .inr ⟨t'', content, hgrows, hc, ?_⟩
      rw [← hplace]
      exact (congrArg Prod.fst h).symm

theorem writeAtomically_eq_false_iff :
    (t.writeAtomically directory path text e.name).2 = .ok false ↔
      t.Holds directory (Path.ofString path).toString e text := by
  refine ⟨fun h => ?_, fun h => by rw [writeAtomically_of_holds h]⟩
  rcases writeAtomically_cases t directory path text e with
    ⟨hholds, -⟩ | ⟨fault, -, hw⟩ | ⟨-, -, ⟨failure, hw⟩ | ⟨-, hw⟩⟩
  · exact hholds
  · simp [hw] at h
  · simp [hw] at h
  · rcases write_cases (Path.wellFormed_ofString path) t directory text e with
      ⟨t'', f', hw', -⟩ | ⟨t'', place, content, -, -, -, -, hw'⟩ <;> simp [hw, hw'] at h

/-- However a write succeeds, the target then holds the text. -/
theorem holds_of_writeAtomically {written : Bool}
    (h : t.writeAtomically directory path text e.name = (t', .ok written)) :
    t'.Holds directory (Path.ofString path).toString e text := by
  cases written with
  | true => exact (holds_of_written h).1
  | false =>
    have hholds := writeAtomically_eq_false_iff.1 (congrArg Prod.snd h)
    rw [writeAtomically_of_holds hholds] at h
    obtain ⟨rfl, -⟩ := Prod.mk.inj h
    exact hholds

/-- Why a text was not written: the target holds no text, or for what the tree, the path and the text
themselves give. -/
theorem writeAtomically_fault (t : FileTree) (directory : Place) (path : String) (text : Text)
    (e : Encoding) :
    (∃ fault, t.Undecodable directory (Path.ofString path).toString e fault ∧
      t.writeAtomically directory path text e.name = (t, .error (.undecodable fault))) ∨
    (∀ fault, ¬ t.Undecodable directory (Path.ofString path).toString e fault) ∧
      ∀ f, (t.writeAtomically directory path text e.name).2 = .error f →
        WriteFault (Path.ofString path) e text f := by
  rcases writeAtomically_cases t directory path text e with
    ⟨hholds, hw⟩ | hbad | ⟨-, hgood, hw⟩
  · exact .inr ⟨fun fault hbad => hbad.not_holds hholds, by simp [hw]⟩
  · exact .inl hbad
  · refine .inr ⟨hgood, fun f hf => ?_⟩
    rcases hw with ⟨failure, hw⟩ | ⟨-, hw⟩
    · obtain rfl : AccessFailure.os failure = f := by simpa [hw] using hf
      exact .os failure
    · rcases write_cases (Path.wellFormed_ofString path) t directory text e with
        ⟨t', f', hw', -, hfault⟩ | ⟨t', place, content, -, -, -, -, hw'⟩
      · obtain rfl : f' = f := by simpa [hw, hw'] using hf
        exact hfault
      · simp [hw, hw'] at hf

end Outcomes

/-- Writing a text is all or nothing. When it fails, every file is as it was, and so no temporary file
is left. When it has written, the target holds the text, as it reads, and every other file is as it
was. It finds the target up to date exactly if it holds the text, and then changes nothing. -/
theorem writeAtomically_all_or_nothing (t : FileTree) (directory : Place) (path : String)
    (text : Text) (e : Encoding) :
    ∃ t' outcome, t.writeAtomically directory path text e.name = (t', outcome) ∧
      (∀ f, outcome = .error f → Grows t t') ∧
      (outcome = .ok true → t'.Holds directory (Path.ofString path).toString e text ∧
        t'.readText directory (Path.ofString path).toString e.name = .ok text ∧
        ∃ place, t'.locate directory (Path.ofString path).toString = .ok place ∧
          ∀ q ≠ place, ∀ content, (q, content) ∈ t'.files ↔ (q, content) ∈ t.files) ∧
      (outcome = .ok false ↔ t.Holds directory (Path.ofString path).toString e text) ∧
      (outcome = .ok false → t' = t) := by
  refine ⟨_, _, rfl, fun f hf => grows_of_writeAtomically (Prod.ext rfl hf), fun hw => ?_,
    writeAtomically_eq_false_iff, fun hw => ?_⟩
  · obtain ⟨hholds, place, hlocate, hothers⟩ := holds_of_written (Prod.ext rfl hw)
    exact ⟨hholds, hholds.readText, place, hlocate, hothers⟩
  · exact congrArg Prod.fst (writeAtomically_of_holds (writeAtomically_eq_false_iff.1 hw))

/-- One text in two encodings: the one that has its characters, and one that does not. -/
theorem writeAtomically_in_two_encodings :
    (∃ t', (∅ : FileTree).writeAtomically [] "d/m.json" ['é', '\r', '\n'] Encoding.latin1.name =
        (t', .ok true) ∧
      t'.readText [] (Path.ofString "d/m.json").toString Encoding.latin1.name =
        .ok ['é', '\r', '\n']) ∧
    ∃ t', (∅ : FileTree).writeAtomically [] "d/m.json" ['é', '\r', '\n'] Encoding.ascii.name =
        (t', .error (.unencodable ⟨.ascii, 0, ['é']⟩)) ∧
      t'.files = [] := by
  have hlatin : ((∅ : FileTree).writeAtomically [] "d/m.json" ['é', '\r', '\n']
      Encoding.latin1.name).2 = .ok true := by cbv
  have hascii : ((∅ : FileTree).writeAtomically [] "d/m.json" ['é', '\r', '\n']
      Encoding.ascii.name).2 = .error (.unencodable ⟨.ascii, 0, ['é']⟩) := by cbv
  constructor
  · obtain ⟨t', outcome, hw, -, hwritten, -⟩ :=
      writeAtomically_all_or_nothing ∅ [] "d/m.json" ['é', '\r', '\n'] .latin1
    rw [hw] at hlatin
    obtain rfl : outcome = .ok true := hlatin
    exact ⟨t', hw, (hwritten rfl).2.1⟩
  · obtain ⟨t', outcome, hw, hfailed, -⟩ :=
      writeAtomically_all_or_nothing ∅ [] "d/m.json" ['é', '\r', '\n'] .ascii
    rw [hw] at hascii
    obtain rfl : outcome = .error (.unencodable ⟨.ascii, 0, ['é']⟩) := hascii
    exact ⟨t', hw, (hfailed _ rfl).files⟩

end Atomic

end StoredRoutine.FileTree
