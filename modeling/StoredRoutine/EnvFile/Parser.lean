import StoredRoutine.EnvFile.Reading
import StoredRoutine.OrderedMap
import StoredRoutine.Text.Basic

/-!
The reader of definitions that the program runs with: it reads the statements of a file of settings
and puts values in place of the references in them. A line that is no statement is reported and
skipped.
-/
namespace StoredRoutine.EnvFile

/-!
References in values: a dollar sign and a name in braces stand for the value of that name, perhaps
with a default after a colon and a hyphen. Earlier definitions come first, then the environment,
then the default; a name without any of them stands for nothing.
-/

structure Reference where
  name : Text
  fallback : Option Text
  deriving DecidableEq, Repr

/-- The reference whose opening brace stands before a text, and what follows it. -/
def reference? (t : Text) : Option (Reference × Text) :=
  let isName (c : Char) : Bool := c != ':' && c != '\x7d'
  match t.dropWhile isName with
  | '\x7d' :: rest => some (⟨t.takeWhile isName, none⟩, rest)
  | ':' :: '-' :: r =>
    match r.dropWhile (· != '\x7d') with
    | _ :: rest => some (⟨t.takeWhile isName, some (r.takeWhile (· != '\x7d'))⟩, rest)
    | [] => none
  | _ => none

theorem length_of_reference? {t rest : Text} {r : Reference} (h : reference? t = some (r, rest)) :
    rest.length < t.length := by
  simp only [reference?] at h
  have h₁ := (List.dropWhile_sublist (fun c => c != ':' && c != '\x7d') (l := t)).length_le
  split at h
  · next hd =>
    obtain ⟨-, rfl⟩ := Prod.mk.inj (Option.some.inj h)
    rw [hd] at h₁
    exact h₁
  · next u hd =>
    rw [hd] at h₁
    have h₂ := (List.dropWhile_sublist (· != '\x7d') (l := u)).length_le
    split at h
    · next hu =>
      obtain ⟨-, rfl⟩ := Prod.mk.inj (Option.some.inj h)
      rw [hu] at h₂
      simp at h₁ h₂
      omega
    · simp at h
  · simp at h

/-- A value with its references replaced. -/
def expand (resolve : Reference → Text) : Text → Text
  | [] => []
  | c :: t =>
    match _h : if c = '$' && t.head? = some '\x7b' then reference? t.tail else none with
    | some (r, rest) => resolve r ++ expand resolve rest
    | none => c :: expand resolve t
termination_by t => t.length
decreasing_by
  · split at _h
    · have := length_of_reference? _h
      simp at this ⊢
      omega
    · simp at _h
  · simp

/-- What a reference stands for. A name that was defined without value stands for nothing. -/
def lookUp (environment : OrderedMap Text Text) (defined : OrderedMap Text (Option Text))
    (r : Reference) : Text :=
  match defined.get? r.name with
  | some v => v.getD []
  | none => (environment.get? r.name <|> r.fallback).getD []

/-- Definitions with their references replaced, one after the other. A name that is defined again
keeps its place and takes the later value. -/
def resolve (environment : OrderedMap Text Text) (definitions : List (Text × Option Text)) :
    OrderedMap Text (Option Text) :=
  definitions.foldl (fun defined (name, v) =>
    defined.insert name (v.map (expand (lookUp environment defined)))) ∅

/-!
The statements of a file of settings: a name, perhaps an equals sign and a value, perhaps a
comment. Values may stand in quotes and then span lines. A line that is no statement is skipped,
and the scan goes on after it.
-/

/-- A blank within a line. -/
def isSpacing (c : Char) : Bool := isBlank c && !Text.isBreak c

/-- What a scan finds and the text after it, or the text at which it stopped. -/
abbrev Scan (α : Type) := Except Text (α × Text)

def exportWord : Text := "export".toList

/-- The text after the word in front of a name that means nothing, if it stands there. -/
def afterExport (t : Text) : Text :=
  match Text.after? exportWord t with
  | some rest => if rest.head?.any isSpacing then rest.dropWhile isSpacing else t
  | none => t

def isKeyPart (c : Char) : Bool := c != '=' && c != '#' && !isBlank c

/-- The name that a statement defines; a comment defines none. -/
def key (t : Text) : Scan (Option Text) :=
  match t with
  | '#' :: _ => .ok (none, t)
  | '\'' :: r =>
    match r.takeWhile (· != '\''), r.dropWhile (· != '\'') with
    | c :: name, _ :: rest => .ok (some (c :: name), rest)
    | _, _ => .error t
  | t =>
    match t.takeWhile isKeyPart with
    | [] => .error t
    | name => .ok (some name, t.dropWhile isKeyPart)

/-- The text up to the next closing quote that has no backslash before it, and what follows that
quote. The opening quote is left out. -/
def quoted? (quote : Char) : Text → Option (Text × Text)
  | [] => none
  | [c] => if c = quote then some ([], []) else none
  | c :: d :: t =>
    if c = quote then some ([], d :: t)
    else if c = '\\' then (quoted? quote t).map fun (inner, rest) => (c :: d :: inner, rest)
    else (quoted? quote (d :: t)).map fun (inner, rest) => (c :: inner, rest)

/-- What characters stand for after a backslash in single quotes. -/
def singleEscapes : List (Char × Char) := [('\\', '\\'), ('\'', '\'')]

/-- What characters stand for after a backslash in double quotes. -/
def doubleEscapes : List (Char × Char) :=
  [('\\', '\\'), ('\'', '\''), ('"', '"'), ('n', '\n'), ('r', '\r'), ('t', '\t'),
    ('a', Char.ofNat 7), ('b', Char.ofNat 8), ('v', Char.ofNat 11), ('f', Char.ofNat 12)]

/-- Escapes replaced by what they stand for; other backslashes stay. -/
def unescaped (escapes : List (Char × Char)) : Text → Text
  | [] => []
  | [c] => [c]
  | c :: d :: t =>
    match if c = '\\' then escapes.lookup d else none with
    | some x => x :: unescaped escapes t
    | none => c :: unescaped escapes (d :: t)

/-- A value without its comment, which starts at a number sign after blanks. -/
def withoutComment : Text → Text
  | [] => []
  | c :: t =>
    if isBlank c && (t.dropWhile isBlank).head? = some '#' then [] else c :: withoutComment t

/-- The value in quotes whose opening quote stands before a text. -/
def quotedValue (quote : Char) (escapes : List (Char × Char)) (t : Text) : Scan Text :=
  match quoted? quote t with
  | some (inner, rest) => .ok (unescaped escapes inner, rest)
  | none => .error (quote :: t)

/-- The value that starts at a text. -/
def value (t : Text) : Scan Text :=
  match t with
  | '\'' :: r => quotedValue '\'' singleEscapes r
  | '"' :: r => quotedValue '"' doubleEscapes r
  | t => .ok ((withoutComment (t.takeWhile (! Text.isBreak ·))).trimRight,
      t.dropWhile (! Text.isBreak ·))

/-- The value that an equals sign assigns; without such a sign there is none. -/
def assigned (t : Text) : Scan (Option Text) :=
  match t with
  | '=' :: r =>
    let rest := r.dropWhile isSpacing
    if r.head?.any isSpacing && rest.head? = some '#' then .ok (some [], rest)
    else (value rest).map fun (v, rest) => (some v, rest)
  | t => .ok (none, t)

/-- The text after a comment, if one follows. -/
def afterComment (t : Text) : Text :=
  match t.dropWhile isSpacing with
  | '#' :: r => r.dropWhile (! Text.isBreak ·)
  | _ => t

/-- The end of a statement: perhaps a comment, then the end of the line. -/
def ending (t : Text) : Except Text Text :=
  match (afterComment t).dropWhile isSpacing with
  | [] => .ok []
  | c :: rest => if Text.isBreak c then .ok rest else .error (afterComment t)

/-- A definition: a name and its value, if it has one. -/
abbrev Definition := Text × Option Text

/-- The statement at the start of a text, which defines at most one name. -/
def statement (t : Text) : Except Text (Option Definition × Text) := do
  let (name, t) ← key (afterExport t)
  let (v, t) ← assigned (t.dropWhile isSpacing)
  return (name.map (·, v), ← ending t)

/-- The text after the first line. -/
def afterLine (t : Text) : Text := (t.dropWhile (! Text.isBreak ·)).drop 1

theorem length_afterExport_le (t : Text) : (afterExport t).length ≤ t.length := by
  unfold afterExport
  split
  · next r hr =>
    rw [Text.after?_eq_some_iff] at hr
    split
    · have := (List.dropWhile_sublist isSpacing (l := r)).length_le
      simp [hr]
      omega
    · exact Nat.le_refl _
  · exact Nat.le_refl _

/-- The length of what a scan leaves, or of where it stopped. -/
def left {α : Type} : Scan α → Nat
  | .ok (_, rest) => rest.length
  | .error t => t.length

theorem left_key_le (t : Text) : left (key t) ≤ t.length := by
  unfold key
  split
  · exact Nat.le_refl _
  · next r =>
    split
    · next rest h =>
      have := (List.dropWhile_sublist (· != '\'') (l := r)).length_le
      rw [h] at this
      simp [left] at this ⊢
      omega
    · exact Nat.le_refl _
  · split
    · exact Nat.le_refl _
    · exact (List.dropWhile_sublist _).length_le

theorem length_quoted?_le {quote : Char} {t inner rest : Text}
    (h : quoted? quote t = some (inner, rest)) : rest.length ≤ t.length := by
  fun_induction quoted? quote t generalizing inner with
  | case1 => simp at h
  | case2 => simp_all
  | case3 => simp_all
  | case4 =>
    obtain ⟨-, rfl⟩ := Prod.mk.inj (Option.some.inj h)
    simp
  | case5 _ _ _ ih =>
    obtain ⟨⟨i, r⟩, hq, he⟩ := Option.map_eq_some_iff.1 h
    obtain ⟨-, rfl⟩ := Prod.mk.inj he
    have := ih hq
    simp
    omega
  | case6 _ _ _ _ _ ih =>
    obtain ⟨⟨i, r⟩, hq, he⟩ := Option.map_eq_some_iff.1 h
    obtain ⟨-, rfl⟩ := Prod.mk.inj he
    have := ih hq
    simp at this ⊢
    omega

theorem left_quotedValue_le (quote : Char) (escapes : List (Char × Char)) (t : Text) :
    left (quotedValue quote escapes t) ≤ t.length + 1 := by
  unfold quotedValue
  split
  · next h =>
    have := length_quoted?_le h
    simp [left]
    omega
  · exact Nat.le_refl _

theorem left_value_le (t : Text) : left (value t) ≤ t.length := by
  unfold value
  split
  · exact left_quotedValue_le _ _ _
  · exact left_quotedValue_le _ _ _
  · exact (List.dropWhile_sublist _).length_le

theorem left_assigned_le (t : Text) : left (assigned t) ≤ t.length := by
  unfold assigned
  split
  · next r =>
    have h₁ := (List.dropWhile_sublist isSpacing (l := r)).length_le
    have h₂ := left_value_le (r.dropWhile isSpacing)
    dsimp only
    split
    · simp [left]
      omega
    · cases hv : value (r.dropWhile isSpacing) <;> simp [hv, left, Except.map] at h₂ ⊢ <;> omega
  · exact Nat.le_refl _

theorem length_afterComment_le (t : Text) : (afterComment t).length ≤ t.length := by
  unfold afterComment
  split
  · next r h =>
    have h₁ := (List.dropWhile_sublist isSpacing (l := t)).length_le
    have h₂ := (List.dropWhile_sublist (! Text.isBreak ·) (l := r)).length_le
    rw [h] at h₁
    simp at h₁
    omega
  · exact Nat.le_refl _

theorem length_afterLine_lt {t pos : Text} (ht : t ≠ []) (h : pos.length ≤ t.length) :
    (afterLine pos).length < t.length := by
  have h₁ := (List.dropWhile_sublist (! Text.isBreak ·) (l := pos)).length_le
  have h₂ := List.length_pos_iff.2 ht
  simp only [afterLine, List.length_drop]
  omega

theorem length_of_ending {n : Nat} {t rest : Text} (ht : t.length ≤ n) (hn : 0 < n)
    (h : ending t = .ok rest) : rest.length < n := by
  have h₁ := length_afterComment_le t
  have h₂ := (List.dropWhile_sublist isSpacing (l := afterComment t)).length_le
  unfold ending at h
  split at h
  · cases h
    exact hn
  · next hc =>
    rw [hc] at h₂
    simp at h₂
    split at h
    · cases h
      omega
    · cases h

theorem length_of_ending_error {t pos : Text} (h : ending t = .error pos) :
    pos.length ≤ t.length := by
  have h₁ := length_afterComment_le t
  unfold ending at h
  split at h
  · cases h
  · split at h
    · cases h
    · cases h
      exact h₁

/-- What comes after a statement, or after the line on which it failed. -/
def next (t : Text) : Text :=
  match statement t with
  | .ok (_, rest) => rest
  | .error pos => afterLine pos

theorem length_next_lt {t : Text} (ht : t ≠ []) : (next t).length < t.length := by
  have hp := List.length_pos_iff.2 ht
  have h₁ := length_afterExport_le t
  have h₂ := left_key_le (afterExport t)
  unfold next statement
  cases hk : key (afterExport t) with
  | error pos =>
    rw [hk] at h₂
    simp [left] at h₂
    exact length_afterLine_lt ht (by omega)
  | ok k =>
    obtain ⟨name, t₁⟩ := k
    rw [hk] at h₂
    simp [left] at h₂
    have h₃ := (List.dropWhile_sublist isSpacing (l := t₁)).length_le
    have h₄ := left_assigned_le (t₁.dropWhile isSpacing)
    cases ha : assigned (t₁.dropWhile isSpacing) with
    | error pos =>
      rw [ha] at h₄
      simp [left] at h₄
      simp only [bind, Except.bind, ha]
      exact length_afterLine_lt ht (by omega)
    | ok a =>
      obtain ⟨v, t₂⟩ := a
      rw [ha] at h₄
      simp [left] at h₄
      cases he : ending t₂ with
      | error pos =>
        have := length_of_ending_error he
        simp only [bind, Except.bind, ha, he]
        exact length_afterLine_lt ht (by omega)
      | ok rest =>
        simp only [bind, Except.bind, ha, he]
        exact length_of_ending (by omega) hp he

/-- A statement as found in a file: what it defines, or the text at which it started if it was not
understood. -/
inductive Found where
  | definition (d : Definition)
  | nothing
  | invalid (start : Text)
  deriving DecidableEq, Repr

def found (start t : Text) : Found :=
  match statement t with
  | .ok (some d, _) => .definition d
  | .ok (none, _) => .nothing
  | .error _ => .invalid start

/-- All statements of a text. Blanks and empty lines before a statement belong to it. -/
def statements (t : Text) : List Found :=
  if _h : t.trimLeft = [] then []
  else found t t.trimLeft :: statements (next t.trimLeft)
termination_by t.length
decreasing_by
  have h₁ := length_next_lt _h
  have h₂ : t.trimLeft.length ≤ t.length := (List.dropWhile_sublist _).length_le
  omega

def envFileLog : String := "dotenv.main"

/-- The line, counted from one, on which the last part of a text starts. -/
def lineOf (whole rest : Text) : Nat := whole.count '\n' - rest.count '\n' + 1

def invalidReport (whole start : Text) : Report :=
  .record ⟨envFileLog, .warning,
    s!"python-dotenv could not parse statement starting at line {lineOf whole start}"⟩

/-- The text of a file as it is scanned: line breaks as line feeds, and without a byte order
mark. -/
def scanned (content : Text) : Text :=
  match content.unifyBreaks with
  | '\uFEFF' :: t => t
  | t => t

def definitions (found : List Found) : List Definition :=
  found.filterMap fun
    | .definition d => some d
    | _ => none

def invalidReports (whole : Text) (found : List Found) : List Report :=
  found.filterMap fun
    | .invalid start => some (invalidReport whole start)
    | _ => none

def Reader.standard : Reader where
  read environment content :=
    let text := scanned content
    let found := statements text
    (.ok (resolve environment (definitions found)), invalidReports text found)

end StoredRoutine.EnvFile
