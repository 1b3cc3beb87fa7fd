import StoredRoutine.Proofs.StatementLines

/-!
Joining statements into a script and splitting it again. Each statement is put before a semicolon and
a line feed. Whether a semicolon ends a statement is settled on its own line, so what follows a joined
statement has no say in where it ends, and the script splits into the statements that it was made of.
-/
namespace StoredRoutine.Script

open Text (Trimmed breaks isBreak)

/-- A semicolon at the end of its line. -/
def plainTerminator : Text := [';', '\n']

/-- No semicolon in a text ends a statement when the text is scanned with a terminator after it. -/
def Unbroken (t : Text) : Prop :=
  ∀ i (h : i < t.length), t[i] = ';' → closing? (t.drop (i + 1) ++ plainTerminator) = none

instance (t : Text) : Decidable (Unbroken t) :=
  inferInstanceAs (Decidable (∀ i (_ : i < t.length), _ → _))

/-- The script that statements make up, each with its terminator. -/
def joined (ts : List Text) : Text := ts.flatMap (· ++ plainTerminator)

section Cut

variable {t : Text}

/-- The rest of its line tells whether a semicolon ends its statement. -/
theorem closing?_eq_none_iff (t : Text) :
    closing? t = none ↔ closesLine (t.takeWhile (! isBreak ·)) = false := by
  induction t using Text.physicalLines_induction with
  | nil => exact iff_of_false (by decide) (by decide)
  | line body brk rest hbody hend ih =>
    have htail : ∀ c, (brk ++ rest).head? = some c → (! isBreak c) = false := fun c h => by
      rw [isBreak_head hend h, Bool.not_true]
    have hall : ∀ c ∈ body, (! isBreak c) = true := fun c h => by rw [hbody c h, Bool.not_false]
    rw [(Text.takeWhile_append_of_head htail body).1, List.takeWhile_eq_self_iff.2 hall,
      closing?_line hbody hend]
    cases closesLine body <;> simp

/-- What follows a terminator does not matter before it. -/
theorem closing?_append_terminator (t rest : Text) :
    closing? (t ++ (plainTerminator ++ rest)) = none ↔ closing? (t ++ plainTerminator) = none := by
  have hline : ∀ rest : Text, (t ++ (plainTerminator ++ rest)).takeWhile (! isBreak ·) =
      (t ++ [';']).takeWhile (! isBreak ·) := fun rest => by
    have hfeed : ∀ c, ('\n' :: rest).head? = some c → (! isBreak c) = false := fun c h => by
      rw [← Option.some.inj h]
      rfl
    have happend : t ++ (plainTerminator ++ rest) = (t ++ [';']) ++ '\n' :: rest := by
      simp [plainTerminator]
    rw [happend, (Text.takeWhile_append_of_head hfeed _).1]
  have hnone := hline []
  rw [List.append_nil] at hnone
  rw [closing?_eq_none_iff, closing?_eq_none_iff, hline, hnone]

theorem unbroken_cons {c : Char} :
    Unbroken (c :: t) ↔ (c = ';' → closing? (t ++ plainTerminator) = none) ∧ Unbroken t := by
  constructor
  · intro h
    exact ⟨h 0 (Nat.succ_pos _), fun i hi => h (i + 1) (Nat.succ_lt_succ hi)⟩
  · rintro ⟨hc, ht⟩ i hi
    cases i with
    | zero => exact hc
    | succ i => exact ht i (Nat.lt_of_succ_lt_succ hi)

/-- A text that nothing in it ends is cut at the terminator put after it. -/
theorem cut?_terminated (h : Unbroken t) (rest : Text) :
    cut? (t ++ (plainTerminator ++ rest)) = some ⟨t, plainTerminator, rest⟩ := by
  induction t with
  | nil => rfl
  | cons c t ih =>
    obtain ⟨hc, ht⟩ := unbroken_cons.1 h
    have hopen : (if c = ';' then closing? (t ++ (plainTerminator ++ rest)) else none) = none := by
      split
      · next he => exact (closing?_append_terminator t rest).2 (hc he)
      · rfl
    rw [List.cons_append, cut?, hopen, ih ht]
    rfl

/-- A text is unbroken if the terminator after it is the first that ends a statement. -/
theorem unbroken_iff :
    Unbroken t ↔ cut? (t ++ plainTerminator) = some ⟨t, plainTerminator, []⟩ := by
  constructor
  · intro h
    have hcut := cut?_terminated h []
    rwa [List.append_nil] at hcut
  · intro h
    induction t with
    | nil => exact fun i hi => absurd hi (Nat.not_lt_zero i)
    | cons c t ih =>
      rw [List.cons_append, cut?] at h
      split at h
      · cases h
      · next hopen =>
        obtain ⟨⟨body, terminator, rest⟩, hcut, he⟩ := Option.map_eq_some_iff.1 h
        obtain ⟨hbody, rfl, rfl⟩ := Cut.mk.inj he
        obtain rfl := (List.cons.inj hbody).2
        exact unbroken_cons.2 ⟨fun hc => by rwa [if_pos hc] at hopen, ih hcut⟩

end Cut

section Trimmed

variable {t : Text}

theorem indentation_of_trimmed (h : Trimmed t) : t.indentation = [] := by
  obtain ⟨⟨c, hc, hb⟩, -⟩ := h
  obtain ⟨u, rfl⟩ := List.head?_eq_some_iff.1 hc
  exact List.takeWhile_cons_of_neg (Bool.eq_false_iff.1 hb)

theorem trim_of_trimmed (h : Trimmed t) : t.trim = t := by
  obtain ⟨⟨c, hc, hb⟩, d, hd, hb'⟩ := h
  have hfirst : ∀ e, t.head? = some e → isBlank e = false := fun e he => by
    rwa [← Option.some.inj (hc.symm.trans he)]
  have hlast : ∀ e, t.getLast? = some e → isBlank e = false := fun e he => by
    rwa [← Option.some.inj (hd.symm.trans he)]
  rw [Text.trim, Text.trimLeft_eq_self hfirst, Text.trimRight_eq_self hlast]

theorem allBlank_of_trimmed (h : Trimmed t) : t.allBlank = false := by
  obtain ⟨⟨c, hc, hb⟩, -⟩ := h
  exact List.all_eq_false.2 ⟨c, List.mem_of_mem_head? hc, Bool.eq_false_iff.1 hb⟩

end Trimmed

theorem breaks_terminated (t : Text) : breaks (t ++ plainTerminator) = breaks t + 1 := by
  have hapart : Text.Apart t plainTerminator := fun _ => by decide
  rw [Text.breaks_append hapart]
  rfl

theorem filterMap_fragmentsFrom_joined {ts : List Text} (h : ∀ t ∈ ts, Trimmed t ∧ Unbroken t)
    (offset line : Nat) : (fragmentsFrom offset line (joined ts)).filterMap (·.statement?) =
      ts.mapIdx fun i t => ⟨t, line + ((ts.take i).map fun u => breaks u + 1).sum⟩ := by
  induction ts generalizing offset line with
  | nil =>
    rw [joined, List.flatMap_nil, fragmentsFrom_of_uncut rfl]
    rfl
  | cons t ts ih =>
    obtain ⟨⟨htrim, hopen⟩, hrest⟩ := List.forall_mem_cons.1 h
    have hcut : cut? (joined (t :: ts)) = some ⟨t, plainTerminator, joined ts⟩ := by
      rw [joined, List.flatMap_cons, List.append_assoc]
      exact cut?_terminated hopen (joined ts)
    have hhead : Fragment.statement? ⟨t, offset, line + breaks t.indentation, true⟩ =
        some ⟨t, line⟩ := by
      rw [Fragment.statement?, Fragment.blank, allBlank_of_trimmed htrim,
        trim_of_trimmed htrim, indentation_of_trimmed htrim]
      rfl
    rw [fragmentsFrom_of_cut hcut, List.filterMap_cons_some hhead, ih hrest, List.mapIdx_cons]
    simp only [breaks_terminated, List.take_zero, List.take_succ_cons, List.map_nil, List.map_cons,
      List.sum_nil, List.sum_cons, Nat.add_zero, Nat.add_assoc]

/-- Statements that are free of blanks around them and hold nothing that would end them, put together
with a terminator after each, are the statements of the script that they make up. Each stands on the
line after the lines of those before it. -/
theorem statements_joined {ts : List Text} (h : ∀ t ∈ ts, Trimmed t ∧ Unbroken t) :
    statements (joined ts) =
      ts.mapIdx fun i t => ⟨t, 1 + ((ts.take i).map fun u => breaks u + 1).sum⟩ :=
  filterMap_fragmentsFrom_joined h 0 1

/-- A statement of two lines with semicolons in a literal and in a comment, and one of one line. -/
def twoStatements : List Text := ["select ';' -- a; b\r\nfrom t".toList, "commit".toList]

theorem statements_joined_two : (∀ t ∈ twoStatements, Trimmed t ∧ Unbroken t) ∧
    statements (joined twoStatements) =
      [⟨"select ';' -- a; b\r\nfrom t".toList, 1⟩, ⟨"commit".toList, 3⟩] := by
  have h : ∀ t ∈ twoStatements, Trimmed t ∧ Unbroken t := by
    simp only [twoStatements, List.forall_mem_cons]
    refine ⟨⟨⟨⟨'s', rfl, by decide⟩, 't', by decide, by decide⟩, by decide +kernel⟩,
      ⟨⟨⟨'c', rfl, by decide⟩, 't', by decide, by decide⟩, by decide +kernel⟩,
      fun _ h => absurd h List.not_mem_nil⟩
  exact ⟨h, (statements_joined h).trans (by decide +kernel)⟩

end StoredRoutine.Script
