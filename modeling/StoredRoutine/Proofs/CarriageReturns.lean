import StoredRoutine.Proofs.Trimming

/-!
Texts in another spelling of their line breaks. A text with a carriage return before every line feed
has the lines of the text with a carriage return at the end of each but the last, and whatever does
not see that character sees the same lines.
-/
namespace StoredRoutine.Text

/-- A text with every line feed written as a given break. -/
def respell (t brk : Text) : Text := t.flatMap fun c => if c = '\n' then brk else [c]

/-- A line break that begins with a carriage return. -/
def IsReturn (brk : Text) : Prop := brk = ['\r', '\n'] ∨ brk = ['\r']

section Respell

variable {t brk : Text}

@[simp] theorem respell_nil (brk : Text) : respell [] brk = [] := rfl

theorem respell_append (t u brk : Text) : respell (t ++ u) brk = t.respell brk ++ u.respell brk :=
  List.flatMap_append

theorem respell_eq_self (h : '\n' ∉ t) (brk : Text) : t.respell brk = t := by
  have hc : ∀ c ∈ t, (if c = '\n' then brk else [c]) = [c] := fun c hc =>
    if_neg fun (he : c = '\n') => h (he ▸ hc)
  rw [respell, List.flatMap_congr hc, List.flatMap_singleton']

/-- Whatever sees no difference between the two characters of breaks sees none between spellings. -/
theorem IsReturn.keepsClass (hb : IsReturn brk) {p : Char → Bool} (hp : p '\r' = p '\n') :
    KeepsClass p fun c => if c = '\n' then brk else [c] := by
  intro c
  by_cases hc : c = '\n'
  · rcases hb with rfl | rfl <;> simp [hc, hp]
  · simp [hc]

theorem allBlank_respell (hb : IsReturn brk) (t : Text) :
    allBlank (t.respell brk) = t.allBlank :=
  allBlank_flatMap (hb.keepsClass rfl) t

end Respell

/-- A text with each line feed replaced by a carriage return and a line feed. -/
def crlf (t : Text) : Text := t.flatMap fun c => if c = '\n' then ['\r', '\n'] else [c]

/-- Lines with a carriage return at the end of each but the last. -/
def returned : List Text → List Text
  | [] => []
  | [line] => [line]
  | line :: line' :: lines => (line ++ ['\r']) :: returned (line' :: lines)

theorem allBlank_crlf (t : Text) : t.crlf.allBlank = t.allBlank := allBlank_respell (.inl rfl) t

section Returned

variable {α : Type} {lines : List Text}

theorem returned_ne_nil (h : lines ≠ []) : returned lines ≠ [] := by
  cases lines with
  | nil => exact absurd rfl h
  | cons line lines => cases lines <;> simp [returned]

theorem ofLines_returned (lines : List Text) :
    ofLines (returned lines) = ['\r', '\n'].intercalate lines := by
  fun_induction returned lines with
  | case1 => rfl
  | case2 line => simp [ofLines]
  | case3 line line' lines ih =>
    rw [ofLines_cons (returned_ne_nil (List.cons_ne_nil _ _)), ih]
    simp [List.intercalate]

theorem map_returned {f : Text → α} (h : ∀ line, f (line ++ ['\r']) = f line)
    (lines : List Text) : (returned lines).map f = lines.map f := by
  fun_induction returned lines with
  | case1 => rfl
  | case2 line => rfl
  | case3 line line' lines ih => rw [List.map_cons, h, ih]; rfl

theorem drop_returned (n : Nat) (lines : List Text) :
    (returned lines).drop n = returned (lines.drop n) := by
  fun_induction returned lines generalizing n with
  | case1 => simp [returned]
  | case2 line => cases n <;> simp [returned]
  | case3 line line' lines ih =>
    cases n with
    | zero => rfl
    | succ n => exact ih n

theorem mapIdx_returned {f : Nat → Text → Text}
    (h : ∀ i line, f i (line ++ ['\r']) = f i line ++ ['\r']) (lines : List Text) :
    (returned lines).mapIdx f = returned (lines.mapIdx f) := by
  fun_induction returned lines generalizing f with
  | case1 => rfl
  | case2 line => rfl
  | case3 line line' lines ih =>
    rw [List.mapIdx_cons, h, ih fun i => h (i + 1), List.mapIdx_cons, List.mapIdx_cons,
      List.mapIdx_cons]
    rfl

end Returned

theorem newline_not_mem_returned {lines : List Text} (h : ∀ line ∈ lines, '\n' ∉ line) :
    ∀ line ∈ returned lines, '\n' ∉ line := by
  fun_induction returned lines with
  | case1 => exact h
  | case2 line => exact h
  | case3 line line' lines ih =>
    obtain ⟨hline, h⟩ := List.forall_mem_cons.1 h
    exact List.forall_mem_cons.2 ⟨by simp [hline], ih h⟩

section Crlf

variable {lines : List Text}

theorem crlf_append (t u : Text) : (t ++ u).crlf = t.crlf ++ u.crlf := respell_append t u _

theorem crlf_eq_self {t : Text} (h : '\n' ∉ t) : t.crlf = t := respell_eq_self h _

theorem crlf_ofLines (h : ∀ line ∈ lines, '\n' ∉ line) :
    (ofLines lines).crlf = ofLines (returned lines) := by
  fun_induction returned lines with
  | case1 => rfl
  | case2 line => simpa [ofLines] using crlf_eq_self (h line List.mem_cons_self)
  | case3 line line' lines ih =>
    obtain ⟨hline, h⟩ := List.forall_mem_cons.1 h
    rw [ofLines_cons (List.cons_ne_nil _ _), ofLines_cons (returned_ne_nil (List.cons_ne_nil _ _)),
      crlf_append, crlf_eq_self hline, ← List.singleton_append, crlf_append, ih h]
    simp [crlf]

theorem lines_ofLines (hne : lines ≠ []) (h : ∀ line ∈ lines, '\n' ∉ line) :
    (ofLines lines).lines = lines :=
  List.splitOn_intercalate '\n' h hne

/-- A carriage return before every line feed is one at the end of every line but the last. -/
theorem lines_crlf (t : Text) : t.crlf.lines = returned t.lines := by
  have ht : ofLines t.lines = t := List.intercalate_splitOn '\n'
  have hne : t.lines ≠ [] := List.splitOn_ne_nil '\n' t
  have hfeed : ∀ line ∈ t.lines, '\n' ∉ line := fun _ => not_mem_of_mem_splitOn
  calc t.crlf.lines
      = (ofLines t.lines).crlf.lines := by rw [ht]
    _ = (ofLines (returned t.lines)).lines := by rw [crlf_ofLines hfeed]
    _ = returned t.lines := lines_ofLines (returned_ne_nil hne) (newline_not_mem_returned hfeed)

end Crlf

end StoredRoutine.Text
