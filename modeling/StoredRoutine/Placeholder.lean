import StoredRoutine.Json.Basic
import StoredRoutine.OrderedMap
import StoredRoutine.Text.Basic
import StoredRoutine.Text.CaseMapping

/-!
Placeholders of a text and what stands for them: finding them, looking up their values, and
substituting those in one pass.
-/
namespace StoredRoutine

/-!
Placeholders in a text: an at sign, a name of letters, digits, underscores and points, perhaps
`%type`, and an at sign. A text is cut into pieces, each a placeholder or a single other character;
the scan goes on after the closing at sign, so that sign never opens the next placeholder.
-/

namespace Placeholder

def isNameChar (c : Char) : Bool := isNamePart c || c == '.'

def typeSuffix : Text := "%type".toList

/-- The placeholder whose opening at sign stands just before a text, and the text after it. -/
def opened? (t : Text) : Option (Text × Text) :=
  let name := t.takeWhile isNameChar
  let rest := t.dropWhile isNameChar
  if name.isEmpty then none
  else match Text.after? (typeSuffix ++ ['@']) rest, rest with
    | some rest, _ => some ('@' :: name ++ typeSuffix ++ ['@'], rest)
    | none, '@' :: rest => some ('@' :: name ++ ['@'], rest)
    | none, _ => none

inductive Piece where
  | plain (c : Char)
  | placeholder (p : Text)
  deriving DecidableEq, Repr

def Piece.text : Piece → Text
  | .plain c => [c]
  | .placeholder p => p

def Piece.placeholder? : Piece → Option Text
  | .plain _ => none
  | .placeholder p => some p

theorem append_of_opened? {t p rest : Text} (h : opened? t = some (p, rest)) :
    p ++ rest = '@' :: t := by
  have ht : t.takeWhile isNameChar ++ t.dropWhile isNameChar = t :=
    List.takeWhile_append_dropWhile
  simp only [opened?] at h
  split at h
  · simp at h
  · split at h
    · next r hr =>
      obtain ⟨rfl, rfl⟩ := Prod.mk.inj (Option.some.inj h)
      rw [Text.after?_eq_some_iff] at hr
      conv => rhs; rw [← ht, hr]
      simp
    · next r _ hr =>
      obtain ⟨rfl, rfl⟩ := Prod.mk.inj (Option.some.inj h)
      conv => rhs; rw [← ht, hr]
      simp
    · simp at h

theorem length_rest_le_of_opened? {t p rest : Text} (h : opened? t = some (p, rest)) :
    rest.length < t.length + 1 := by
  have h₁ := congrArg List.length (append_of_opened? h)
  have h₂ : p.length ≠ 0 := by
    intro h₀
    have := append_of_opened? h
    simp only [opened?] at h
    split at h
    · simp at h
    · split at h <;> simp at h <;> simp [← h.1] at h₀
  simp at h₁
  omega

/-- A text cut into placeholders and other characters, from left to right. -/
def pieces : Text → List Piece
  | [] => []
  | c :: t =>
    match _h : if c = '@' then opened? t else none with
    | some (p, rest) => .placeholder p :: pieces rest
    | none => .plain c :: pieces t
termination_by t => t.length
decreasing_by
  · split at _h
    · simpa using length_rest_le_of_opened? _h
    · simp at _h
  · simp

/-- All placeholders of a text in order of occurrence. -/
def find (t : Text) : List Text := (pieces t).filterMap (·.placeholder?)

/-- The pieces of a text, put together, are the text. -/
theorem flatMap_text_pieces (t : Text) : (pieces t).flatMap (·.text) = t := by
  fun_induction pieces t with
  | case1 => rfl
  | case2 c t p rest h ih =>
    split at h
    · next hc =>
      rw [List.flatMap_cons, ih, hc, ← append_of_opened? h]
      rfl
    · simp at h
  | case3 c t h ih => rw [List.flatMap_cons, ih]; rfl

/-!
Resolving placeholders: replacement pairs are kept under upper-cased placeholders, and a
placeholder is looked up by its upper-cased spelling, so case does not matter. A pair without a
value counts as missing.
-/

/-- Replacement values under upper-cased placeholders. -/
abbrev Pairs := OrderedMap Text (Option Text)

/-- A name without the at signs around it. -/
def bareName (key : Text) : Text :=
  ((key.trim.dropWhile (· == '@')).reverse.dropWhile (· == '@')).reverse

/-- The upper-cased placeholder that a configured name stands for; the name may carry blanks and
at signs around it. -/
def keyOf (name : Text) : Text := Text.upper ('@' :: bareName name ++ ['@'])

/-- Configured values under the placeholders that their names stand for. -/
def normalize (configured : OrderedMap Text Text) : OrderedMap Text Text :=
  .ofList (configured.entries.map fun (name, value) => (keyOf name, value))

def value? (pairs : Pairs) (placeholder : Text) : Option Text :=
  (pairs.get? placeholder.upper).join

structure Resolution where
  /-- The value of each placeholder that has one, as written in the text. -/
  replacements : OrderedMap Text Text
  /-- The placeholders without value, distinct and in ascending order. -/
  unknown : List Text
  deriving DecidableEq, Repr

def resolve (pairs : Pairs) (t : Text) : Resolution :=
  let found := find t
  { replacements :=
      .ofList (found.filterMap fun p => (value? pairs p).map (p, ·))
    unknown := Text.sortedSet (found.filter fun p => (value? pairs p).isNone) }

/-!
Substitution of tokens in one pass: at each place the longest token that starts there is replaced
and the scan goes on after it, so a value is never scanned again. Tokens are looked up by their
first character, and what stands between two replaced tokens is copied in one piece.
-/

/-- The value of the first of the given tokens that starts a text, and the text after that token;
an empty token starts no text. -/
def replaced? (tokens : List (Text × Text)) (t : Text) : Option (Text × Text) :=
  tokens.findSome? fun e =>
    if e.1.isEmpty then none else (Text.after? e.1 t).map (e.2, ·)

theorem length_of_replaced? {tokens : List (Text × Text)} {t v r : Text}
    (h : replaced? tokens t = some (v, r)) : r.length < t.length := by
  obtain ⟨⟨token, value⟩, -, h⟩ := List.exists_of_findSome?_eq_some h
  cases token with
  | nil => simp at h
  | cons a token =>
    simp only [List.isEmpty_cons, Bool.false_eq_true, if_false] at h
    obtain ⟨r', hr, he⟩ := Option.map_eq_some_iff.1 h
    obtain ⟨-, rfl⟩ := Prod.mk.inj he
    exact Text.length_lt_of_after? hr

/-- Tokens with the longer ones first. -/
def longestFirst (tokens : List (Text × Text)) : List (Text × Text) :=
  tokens.mergeSort fun a b => b.1.length ≤ a.1.length

/-- Tokens with their values, by the first character of the token. -/
abbrev Index := OrderedMap Char (List (Text × Text))

namespace Index

/-- The tokens that start with a character. -/
def startingWith (index : Index) (c : Char) : List (Text × Text) := (index.get? c).getD []

/-- An index with one more token, unless that token is empty. -/
def add (index : Index) (e : Text × Text) : Index :=
  match e.1 with
  | [] => index
  | c :: _ => index.insert c (index.startingWith c ++ [e])

/-- The index of some tokens, which has the longer ones first under each character. -/
def ofTokens (tokens : List (Text × Text)) : Index := (tokens.foldl add ∅).mapValues longestFirst

end Index

/-- One pass over a text. It is given the parts that were put out so far and the characters passed
since the last replaced token, the last one first, which are put out together. -/
def pass (index : Index) (parts : Array Text) (passed : Text) : Text → Array Text
  | [] => parts.push passed.reverse
  | c :: t =>
    match _h : replaced? (index.startingWith c) (c :: t) with
    | some (value, rest) => pass index ((parts.push passed.reverse).push value) [] rest
    | none => pass index parts (c :: passed) t
termination_by t => t.length
decreasing_by
  · exact length_of_replaced? _h
  · simp

def substitute (replacements : OrderedMap Text Text) (t : Text) : Text :=
  if replacements.isEmpty || t.isEmpty then t
  else (pass (.ofTokens replacements.entries) #[] [] t).toList.flatten

def errorOpen : Text := "<error>".toList
def errorClose : Text := "</error>".toList

/-- A text with error markup around every occurrence of the given placeholders. -/
def markUnresolved (placeholders : List Text) (t : Text) : Text :=
  substitute (.ofList (placeholders.map fun p => (p, errorOpen ++ p ++ errorClose))) t

end Placeholder

/-!
The tables of a scratch database with their columns, and the placeholders for column types that
they give.
-/

/-- Tables in ascending order of their names, each with its columns and their declared types. -/
abbrev Catalog (type : Type) := List (Text × List (Text × type))

/-- A declared type as text, unless it is missing. -/
def Value.asType : Value → Option Text
  | .null => none
  | v => some v.shown

namespace Catalog

variable {α β : Type}

/-- The placeholder for the type of a column. -/
def typeKey (table column : Text) : Text :=
  Text.upper ('@' :: table ++ '.' :: column ++ Placeholder.typeSuffix ++ ['@'])

/-- The declared types of all columns under their placeholders. -/
def typePairs (catalog : Catalog α) : OrderedMap Text α :=
  .ofList (catalog.flatMap fun (table, columns) =>
    columns.map fun (column, type) => (typeKey table column, type))

/-- The same tables and columns with their types in another form. -/
def mapTypes (f : α → β) (catalog : Catalog α) : Catalog β :=
  catalog.map fun (table, columns) => (table, columns.map fun (column, type) => (column, f type))

end Catalog

end StoredRoutine
