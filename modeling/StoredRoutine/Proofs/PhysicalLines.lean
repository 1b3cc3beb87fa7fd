import StoredRoutine.Proofs.Trimming
import StoredRoutine.Text.Basic

/-!
The physical lines of a text, which are cut at line breaks in any of the three spellings. A carriage
return before a line feed is one break with it, so no line ends between the two, and the breaks of a
text are those that end its lines.
-/
namespace StoredRoutine.Text

structure Line where
  body : Text
  /-- The break that ends the line; none ends a last line that the text leaves open. -/
  brk : Text
  deriving DecidableEq, Repr

def Line.text (l : Line) : Text := l.body ++ l.brk

/-- The text up to each break, and what stands after the last break if there is anything. -/
def physicalLines (t : Text) : List Line :=
  let body := t.takeWhile (! isBreak ·)
  match _h : t.dropWhile (! isBreak ·) with
  | [] => if body.isEmpty then [] else [⟨body, []⟩]
  | '\r' :: '\n' :: r => ⟨body, ['\r', '\n']⟩ :: physicalLines r
  | c :: r => ⟨body, [c]⟩ :: physicalLines r
termination_by t.length
decreasing_by
  all_goals
    have hl := (List.dropWhile_sublist (l := t) (! isBreak ·)).length_le
    rw [_h] at hl
    simp only [List.length_cons] at hl
    omega

/-- The text that lines make up. -/
def ofPhysicalLines (ls : List Line) : Text := ls.flatMap (·.text)

/-- How a line may end before the rest of a text: at a break that the rest does not continue, or
where the text ends. -/
inductive EndsLine : (brk rest : Text) → Prop
  | both (r : Text) : EndsLine ['\r', '\n'] r
  | feed (r : Text) : EndsLine ['\n'] r
  | carriage {r : Text} (h : r.head? ≠ some '\n') : EndsLine ['\r'] r
  | last : EndsLine [] []

theorem isBreak_iff {c : Char} : isBreak c = true ↔ c = '\n' ∨ c = '\r' := by
  simp [isBreak]

theorem endsLine_singleton {c : Char} {r : Text} (hc : isBreak c = true)
    (hr : c = '\r' → r.head? ≠ some '\n') : EndsLine [c] r := by
  rcases isBreak_iff.1 hc with rfl | rfl
  · exact .feed r
  · exact .carriage (hr rfl)

@[simp] theorem physicalLines_nil : physicalLines [] = [] := by
  rw [physicalLines]
  rfl

/-- Induction along the lines of a text. -/
theorem physicalLines_induction {motive : Text → List Line → Prop} (nil : motive [] [])
    (line : ∀ (body brk rest : Text), (∀ c ∈ body, isBreak c = false) → EndsLine brk rest →
      motive rest (physicalLines rest) →
      motive (body ++ (brk ++ rest)) (⟨body, brk⟩ :: physicalLines rest))
    (t : Text) : motive t (physicalLines t) := by
  have hbody : ∀ t : Text, ∀ c ∈ t.takeWhile (! isBreak ·), isBreak c = false := by
    intro t c hc
    simpa using mem_takeWhile hc
  fun_induction physicalLines t with
  | case1 t body h he =>
    have ht := takeWhile_append_of_dropWhile h
    have hb : t.takeWhile (! isBreak ·) = [] := List.isEmpty_iff.1 he
    rw [hb] at ht
    obtain rfl : t = [] := ht.symm
    exact nil
  | case2 t body h he =>
    have hl := line _ [] [] (hbody t) .last (by rwa [physicalLines_nil])
    rw [physicalLines_nil, List.append_nil, takeWhile_append_of_dropWhile h] at hl
    exact hl
  | case3 t body r h ih =>
    have hl := line _ _ r (hbody t) (.both r) ih
    rwa [List.cons_append, List.cons_append, List.nil_append, takeWhile_append_of_dropWhile h] at hl
  | case4 t body c r hne h ih =>
    have hc : isBreak c = true := by
      have hd := List.dropWhile_get_zero_not (! isBreak ·) t (by rw [h]; exact Nat.succ_pos _)
      simpa [h] using hd
    have hr : c = '\r' → r.head? ≠ some '\n' := by
      intro hcr hhead
      obtain ⟨u, hu⟩ := List.head?_eq_some_iff.1 hhead
      exact hne u hcr hu
    have hl := line _ [c] r (hbody t) (endsLine_singleton hc hr) ih
    rwa [List.singleton_append, takeWhile_append_of_dropWhile h] at hl

/-- The lines of a text, put together, are the text. -/
theorem ofPhysicalLines_physicalLines (t : Text) : ofPhysicalLines (physicalLines t) = t := by
  induction t using physicalLines_induction with
  | nil => rfl
  | line body brk rest hbody hend ih =>
    rw [ofPhysicalLines, List.flatMap_cons, ← ofPhysicalLines, ih, Line.text, List.append_assoc]

theorem ofPhysicalLines_append (ls ls' : List Line) :
    ofPhysicalLines (ls ++ ls') = ofPhysicalLines ls ++ ofPhysicalLines ls' := List.flatMap_append

section Breaks

theorem breaks_cons {c : Char} {t : Text} (h : c = '\r' → t.head? ≠ some '\n') :
    breaks (c :: t) = (if isBreak c then 1 else 0) + breaks t := by
  rw [breaks]
  · split
    · exact Nat.add_comm _ _
    · exact (Nat.zero_add _).symm
  · rintro u rfl rfl
    exact h rfl rfl

/-- No break lies across the place where two texts meet. -/
def Apart (u v : Text) : Prop := u.getLast? = some '\r' → v.head? ≠ some '\n'

theorem Apart.of_prefix {u v w : Text} (h : Apart u v) (hw : w <+: v) : Apart u w := by
  intro hl hh
  obtain ⟨x, rfl⟩ := hw
  obtain ⟨t, rfl⟩ := List.head?_eq_some_iff.1 hh
  exact h hl rfl

theorem EndsLine.apart {brk rest : Text} (h : EndsLine brk rest) (u : Text) :
    Apart (u ++ brk) rest := by
  intro hl
  cases h with
  | both => simp at hl
  | feed => simp at hl
  | carriage hr => exact hr
  | last => exact (Option.some_ne_none _).symm

theorem breaks_append {u v : Text} (h : Apart u v) : breaks (u ++ v) = breaks u + breaks v := by
  have hcons : ∀ (c : Char) (u : Text), Apart (c :: u) v → Apart u v := by
    intro c u h hl
    exact h (by rw [List.getLast?_cons, hl, Option.getD_some])
  fun_induction breaks u with
  | case1 => exact (Nat.zero_add _).symm
  | case2 u ih =>
    rw [List.cons_append, List.cons_append, breaks, ih (hcons _ _ (hcons _ _ h))]
    omega
  | case3 c u hne hc ih =>
    have hhead : c = '\r' → (u ++ v).head? ≠ some '\n' := by
      rintro rfl
      cases u with
      | nil => exact h rfl
      | cons d u => exact fun hd => hne u rfl (by rw [Option.some.inj hd])
    rw [List.cons_append, breaks_cons hhead, if_pos hc, ih (hcons _ _ h)]
    omega
  | case4 c u hne hc ih =>
    have hhead : c = '\r' → (u ++ v).head? ≠ some '\n' := by
      rintro rfl
      exact absurd rfl hc
    rw [List.cons_append, breaks_cons hhead, if_neg hc, ih (hcons _ _ h), Nat.zero_add]

/-- A text has no fewer breaks than what it ends with. -/
theorem breaks_le_breaks_append (u v : Text) : breaks v ≤ breaks (u ++ v) := by
  induction u with
  | nil => exact Nat.le_refl _
  | cons c u ih =>
    refine Nat.le_trans ih ?_
    rw [List.cons_append]
    by_cases h : c = '\r' → (u ++ v).head? ≠ some '\n'
    · rw [breaks_cons h]
      exact Nat.le_add_left _ _
    · -- the line feed counts alone or with the carriage return before it
      simp only [not_forall, not_not] at h
      obtain ⟨rfl, hd⟩ := h
      obtain ⟨t, ht⟩ := List.head?_eq_some_iff.1 hd
      rw [ht, breaks, breaks_cons (fun he => absurd he (by decide)), if_pos (isBreak_iff.2 (.inl rfl)),
        Nat.add_comm]

theorem breaks_append_of_not_isBreak {body : Text} (h : ∀ c ∈ body, isBreak c = false) (t : Text) :
    breaks (body ++ t) = breaks t := by
  induction body with
  | nil => rfl
  | cons c body ih =>
    have hc := h c List.mem_cons_self
    have hne : c = '\r' → (body ++ t).head? ≠ some '\n' := by
      rintro rfl
      exact absurd hc (by decide)
    rw [List.cons_append, breaks_cons hne, hc, ih fun d hd => h d (List.mem_cons_of_mem _ hd)]
    exact Nat.zero_add _

theorem EndsLine.breaks_append {brk rest : Text} (h : EndsLine brk rest) :
    breaks (brk ++ rest) = (if brk = [] then 0 else 1) + breaks rest := by
  cases h with
  | both =>
    rw [List.cons_append, List.cons_append, breaks]
    simp [Nat.add_comm]
  | feed => simp [breaks_cons, isBreak]
  | carriage h => simp [breaks_cons, isBreak, h]
  | last => simp

theorem EndsLine.breaks_eq {brk rest : Text} (h : EndsLine brk rest) (hr : rest ≠ []) :
    breaks brk = 1 := by
  cases h with
  | last => exact absurd rfl hr
  | _ => rfl

/-- The breaks of a text are those of its lines. -/
theorem breaks_eq_countP (t : Text) :
    breaks t = (physicalLines t).countP fun l => l.brk ≠ [] := by
  induction t using physicalLines_induction with
  | nil => rfl
  | line body brk rest hbody hend ih =>
    rw [breaks_append_of_not_isBreak hbody, hend.breaks_append, ih, List.countP_cons]
    split <;> simp_all [Nat.add_comm]

end Breaks

end StoredRoutine.Text
