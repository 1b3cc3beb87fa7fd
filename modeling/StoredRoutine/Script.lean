import StoredRoutine.Text.Basic

/-!
The statements of a script, from the terminators that end them to the lines on which they start.
-/
namespace StoredRoutine.Script

/-!
Where a statement of a script ends: at a semicolon after which its line holds nothing but
horizontal blanks and perhaps a `--` comment. The terminator is the semicolon with the rest of its
line, line break included, so that the text after it starts on a fresh line.
-/

/-- Blanks that may stand between a semicolon and its line break. -/
def isHorizontalBlank (c : Char) : Bool :=
  c == ' ' || c == '\t' || c == Char.ofNat 12 || c == Char.ofNat 11

/-- The line break at the start of a text, or the end of the text, and what follows. -/
def lineEnd? : Text → Option (Text × Text)
  | [] => some ([], [])
  | '\r' :: '\n' :: t => some (['\r', '\n'], t)
  | c :: t => if Text.isBreak c then some ([c], t) else none

/-- A `--` comment at the start of a text, up to its line end, and what follows. -/
def comment : Text → Text × Text
  | '-' :: '-' :: t =>
    ('-' :: '-' :: t.takeWhile (! Text.isBreak ·), t.dropWhile (! Text.isBreak ·))
  | t => ([], t)

/-- The rest of a line after a semicolon that ends a statement, and the text after that line. -/
def closing? (t : Text) : Option (Text × Text) :=
  let blanks := t.takeWhile isHorizontalBlank
  let (remark, t) := comment (t.dropWhile isHorizontalBlank)
  (lineEnd? t).map fun (brk, rest) => (blanks ++ remark ++ brk, rest)

/-- A script cut at its first terminator. -/
structure Cut where
  body : Text
  terminator : Text
  rest : Text
  deriving DecidableEq, Repr

/-- The cut at the first semicolon that ends a statement, if there is one. -/
def cut? : Text → Option Cut
  | [] => none
  | c :: t =>
    match if c = ';' then closing? t else none with
    | some (tail, rest) => some ⟨[], ';' :: tail, rest⟩
    | none => (cut? t).map fun cut => { cut with body := c :: cut.body }

theorem append_of_lineEnd? {t brk rest : Text} (h : lineEnd? t = some (brk, rest)) :
    brk ++ rest = t := by
  unfold lineEnd? at h
  split at h
  · obtain ⟨rfl, rfl⟩ := Prod.mk.inj (Option.some.inj h)
    rfl
  · obtain ⟨rfl, rfl⟩ := Prod.mk.inj (Option.some.inj h)
    rfl
  · split at h
    · obtain ⟨rfl, rfl⟩ := Prod.mk.inj (Option.some.inj h)
      rfl
    · simp at h

theorem comment_append (t : Text) : (comment t).1 ++ (comment t).2 = t := by
  unfold comment
  split <;> simp [List.takeWhile_append_dropWhile]

theorem append_of_closing? {t tail rest : Text} (h : closing? t = some (tail, rest)) :
    tail ++ rest = t := by
  simp only [closing?, Option.map_eq_some_iff, Prod.mk.injEq, Prod.exists] at h
  obtain ⟨brk, r, hr, rfl, rfl⟩ := h
  have := append_of_lineEnd? hr
  rw [List.append_assoc, List.append_assoc, this, comment_append,
    List.takeWhile_append_dropWhile]

theorem append_of_cut? {t : Text} {cut : Cut} (h : cut? t = some cut) :
    cut.body ++ cut.terminator ++ cut.rest = t := by
  induction t generalizing cut with
  | nil => simp [cut?] at h
  | cons c t ih =>
    unfold cut? at h
    split at h
    · next tail rest hc =>
      split at hc
      · next hs =>
        obtain rfl := Option.some.inj h
        simp [append_of_closing? hc, hs]
      · simp at hc
    · obtain ⟨cut', hc, rfl⟩ := Option.map_eq_some_iff.1 h
      simpa using ih hc

theorem terminator_ne_nil {t : Text} {cut : Cut} (h : cut? t = some cut) :
    cut.terminator ≠ [] := by
  induction t generalizing cut with
  | nil => simp [cut?] at h
  | cons c t ih =>
    unfold cut? at h
    split at h
    · obtain rfl := Option.some.inj h
      simp
    · obtain ⟨cut', hc, rfl⟩ := Option.map_eq_some_iff.1 h
      exact @ih cut' hc

theorem length_rest_lt {t : Text} {cut : Cut} (h : cut? t = some cut) :
    cut.rest.length < t.length := by
  have h₁ := append_of_cut? h
  have h₂ := List.length_pos_iff.2 (terminator_ne_nil h)
  have := congrArg List.length h₁
  simp at this
  omega

/-!
The fragments of a script: the texts between statement terminators, in order, each with its offset
and the line of its first character that is not blank. Text after the last terminator is a
fragment too, but not a terminated one.
-/

structure Fragment where
  /-- The text without the semicolon that ends it. -/
  text : Text
  offset : Nat
  line : Nat
  terminated : Bool
  deriving DecidableEq, Repr

/-- A fragment that holds no statement. -/
def Fragment.blank (f : Fragment) : Bool := f.text.allBlank

/-- The fragments of the part of a script that starts at an offset, on a line. -/
def fragmentsFrom (offset line : Nat) (script : Text) : List Fragment :=
  match _h : cut? script with
  | some cut =>
    ⟨cut.body, offset, line + cut.body.indentation.breaks, true⟩ ::
      fragmentsFrom (offset + (cut.body ++ cut.terminator).length)
        (line + (cut.body ++ cut.terminator).breaks) cut.rest
  | none =>
    if script.isEmpty then [] else [⟨script, offset, line + script.indentation.breaks, false⟩]
termination_by script.length
decreasing_by exact length_rest_lt ‹_›

/-- Offsets count from zero and lines from one. -/
def fragments (script : Text) : List Fragment := fragmentsFrom 0 1 script

/-!
The executable statements of a script: its terminated fragments that are not blank, without the
blanks around them.
-/

structure Statement where
  text : Text
  /-- The line of the script on which the text starts, counted from one. -/
  line : Nat
  deriving DecidableEq, Repr

def Fragment.statement? (f : Fragment) : Option Statement :=
  if f.terminated && !f.blank then some ⟨f.text.trim, f.line⟩ else none

def statements (script : Text) : List Statement := (fragments script).filterMap (·.statement?)

def statementTexts (script : Text) : List Text := (statements script).map (·.text)

end StoredRoutine.Script
