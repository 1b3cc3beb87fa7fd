import StoredRoutine.Encoding
import StoredRoutine.Scratch.Sql.Statement

/-!
How the definition of a table is read: its columns, each with its rules, then the rules of the whole
table, up to the closing parenthesis and the options after it. A clause counts once a token that
fits comes after it, so the clauses in front of a fault are known.
-/
namespace StoredRoutine.Scratch.Sql

/-!
The types of columns. A type is a run of words that may end with sizes in parentheses; a table keeps
it as it is written, but for the types that are known by their names.
-/

namespace Reader

/-- The sizes in parentheses that may end a type; their closing parenthesis. -/
def sizes? : Reader (Option Token) := do
  match ← tokenIf? (·.isSign '(') with
  | none => return none
  | some _ =>
    signedNumber
    if (← tokenIf? (·.isSign ',')).isSome then signedNumber
    return some (← sign ')')

/-- The words that a type starts with. -/
def typeWords : Reader (List Token) := fun ts =>
  .ok (ts.takeWhile Token.isTypeWord, ts.dropWhile Token.isTypeWord)

/-- A type as it is written, empty if there is none. -/
def type : Reader Text := do
  match ← typeWords with
  | [] => return []
  | first :: more =>
    let last := ((← sizes?) <|> more.getLast?).getD first
    return first.span last

/-- Types that are known by their names, which are in upper case. -/
def standardTypes : List String := ["ANY", "BLOB", "INT", "INTEGER", "REAL", "TEXT"]

/-- A type without the quotes around all of it. -/
def withoutQuotes (type : Text) : Text :=
  match type with
  | c :: t => if isQuote c && !t.dropLast.any isQuote then t.dropLast else type
  | [] => []

/-- A text without a word at its end and the blanks before it, if it ends with the word. -/
def dropWordAtEnd (word : String) (t : Text) : Text :=
  let rest := t.take (t.length - word.length)
  if isSame (t.drop rest.length) word.toList then dropBlanksAtEnd rest else t

/-- A type without the words at its end that announce generated values; a short type ends with no
such words. -/
def withoutGeneration (type : Text) : Text :=
  let rest := dropWordAtEnd "always" type
  if rest = type || (Utf8.encode type).length < 16 then type else dropWordAtEnd "generated" rest

/-- The type that a table keeps for a written one. -/
def declared (written : Text) : Text :=
  let type := withoutGeneration written
  let inner := if type.length < 3 then type else withoutQuotes type
  match standardTypes.find? fun s => isSame s.toList inner with
  | some s => s.toList
  | none => bare inner

/-- A name that may stand in for a text. -/
def plainName : Reader Token := token Token.isTypeWord

/-- What happens to a row that breaks a rule, which is that it is refused, in one way or another. -/
def conflict : Reader Unit := do
  if (← tokenIf? (·.isWord "on")).isSome then
    let _ ← word "conflict"
    let _ ← token (·.isAnyWord ["abort", "fail", "rollback"])

/-- When a rule is looked at. -/
def deferral : Reader Unit := do
  if (← tokenIf? (·.isWord "initially")).isSome then
    let _ ← token (·.isAnyWord ["deferred", "immediate"])

/-- What happens to a row when the row that it refers to changes. -/
def action : Reader Unit := do
  let first ← token (·.isAnyWord ["cascade", "no", "restrict", "set"])
  if first.isWord "no" then
    let _ ← word "action"
  if first.isWord "set" then
    let _ ← token (·.isAnyWord ["default", "null"])

/-- How a rule refers to a row. The argument bounds the number of parts. -/
def referenceParts : Nat → Reader Unit
  | 0 => refuse
  | n + 1 => do
    match ← tokenIf? (·.isAnyWord ["match", "on"]) with
    | none => return
    | some t =>
      if t.isWord "match" then
        let _ ← name
      else
        let _ ← token (·.isAnyWord ["delete", "insert", "update"])
        action
      referenceParts n

/-- The rows that a rule refers to; nothing is asked of them. -/
def reference : Reader Unit := do
  let _ ← name
  if (← get).head?.any (·.isSign '(') then
    let _ ← inParentheses name
  referenceParts ((← get).length + 1)

/-- A value that stands where none is given, as it is written. -/
def standard : Reader Text := do
  match ← tokenIf? fun t => t.isSign '+' || t.isSign '-' with
  | some sign => return sign.span (← token Token.isTerm)
  | none => return (← token fun t => t.isTerm || t.isTypeWord || t.isWord "indexed").text

/-- A name among those that tell rows apart. -/
def keyName : Reader Text := do
  let name ← name
  let _ ← tokenIf? (·.isAnyWord ["asc", "desc"])
  return name

/-- The words that the rules of a column start with. -/
def columnRules : List String := [
  "as", "check", "collate", "constraint", "default", "deferrable", "generated", "not", "null",
  "primary", "references", "unique"]

/-- A rule of a column, by its first word. A rule that the column keeps without it is no clause. -/
def columnRule (column : Text) (first : Token) : Reader (Option Clause) := do
  if first.isWord "constraint" then
    let _ ← name
    return none
  else if first.isWord "default" then return some (.standard (← standard))
  else if first.isWord "null" then
    conflict
    return none
  else if first.isWord "not" then
    if (← token (·.isAnyWord ["deferrable", "null"])).isWord "null" then
      conflict
      return some .required
    deferral
    return none
  else if first.isWord "unique" then
    conflict
    return some (.unique [column])
  else if first.isWord "primary" then
    let _ ← word "key"
    let order ← tokenIf? (·.isAnyWord ["asc", "desc"])
    conflict
    let counter ← tokenIf? (·.isWord "autoincrement")
    return some (.primary [column] (order.any (·.isWord "desc")) counter.isSome)
  else if first.isWord "collate" then return some (.collation (bare (← plainName).text))
  else if first.isWord "references" then
    reference
    return none
  else if first.isWord "deferrable" then
    deferral
    return none
  else
    if first.isWord "generated" then
      let _ ← word "always"
      let _ ← word "as"
    let _ ← sign '('
    refuse

/-- The words that the rules of a table start with. -/
def tableRules : List String := ["check", "constraint", "foreign", "primary", "unique"]

/-- A rule of a table, by its first word. -/
def tableRule (first : Token) : Reader (Option Clause) := do
  if first.isWord "constraint" then
    let _ ← name
    return none
  else if first.isWord "unique" then
    let columns ← inParentheses keyName
    conflict
    return some (.unique columns)
  else if first.isWord "primary" then
    let _ ← word "key"
    let columns ← inParentheses keyName
    conflict
    return some (.primary columns false false)
  else if first.isWord "foreign" then
    let _ ← word "key"
    let columns ← inParentheses name
    let _ ← word "references"
    reference
    return some (.reference columns)
  else
    let _ ← sign '('
    refuse

/-- What follows the closing parenthesis of a table. There are no options, so a word is told as
one. -/
def options : Reader (Option Clause) := do
  let announced ← tokenIf? (·.isWord "without")
  match ← tokenIf? fun t => t.isName && !t.isAnyWord ["rowid", "strict"] with
  | some t =>
    if (← tokenIf? (·.isSign ',')).isNone then finish
    return some (.option t.text)
  | none =>
    if announced.isSome then refuse
    finish
    return none

end Reader

/-- Where the reading of a definition stands. -/
inductive Spot where
  /-- In front of the first column. -/
  | start
  /-- After a comma that comes after a column. -/
  | between
  /-- In a column of some name. -/
  | column (name : Text)
  /-- In front of a rule of the table. -/
  | rule
  /-- After a rule of the table. -/
  | rules
  deriving DecidableEq, Repr

namespace Spot

/-- Whether a column or a rule of the table is complete. -/
def isComplete : Spot → Bool
  | column _ | rules => true
  | start | between | rule => false

/-- Whether a token starts a rule. -/
def startsRule (s : Spot) (t : Token) : Bool :=
  match s with
  | start => false
  | column _ => t.isAnyWord Reader.columnRules
  | between | rule | rules => t.isAnyWord Reader.tableRules

/-- Whether a token fits. -/
def fits (s : Spot) (t : Token) : Bool :=
  s.startsRule t || if s.isComplete then t.isSign ',' else s ≠ rule && t.isName

/-- The next clause, if there is one, and the spot after it. -/
def next (s : Spot) : Reader (Option Clause × Spot) := do
  match ← Reader.tokenIf? s.startsRule, s with
  | some first, column name => return (← Reader.columnRule name first, s)
  | some first, _ => return (← Reader.tableRule first, rules)
  | none, column _ =>
    let _ ← Reader.sign ','
    return (none, between)
  | none, rules =>
    let _ ← Reader.sign ','
    return (none, rule)
  | none, rule => Reader.refuse
  | none, _ =>
    let name ← Reader.name
    let type ← Reader.type
    return (some (.column name (Reader.declared type)), column name)

end Spot

/-- What was read of a definition, up to the fault if there is one. -/
structure Definition where
  clauses : List Clause
  fault : Option SyntaxFault
  deriving DecidableEq, Repr

namespace Definition

def stopped (ts : List Token) : Definition := ⟨[], some (Reader.faultAt ts)⟩

/-- A definition with one more clause in front, if there is one. -/
def after (clause : Option Clause) (d : Definition) : Definition :=
  { d with clauses := clause.toList ++ d.clauses }

/-- Reads on at a spot, after a clause that does not count yet. The number bounds the parts. -/
def read : Nat → Spot → Option Clause → List Token → Definition
  | 0, _, _, ts => stopped ts
  | _, _, _, [] => stopped []
  | n + 1, s, last, t :: ts =>
    if s.isComplete && t.isSign ')' then
      .after last <|
        match Reader.options ts with
        | .ok (option, _) => ⟨option.toList, none⟩
        | .error fault => ⟨[], some fault⟩
    else if s.fits t then
      .after last <|
        match s.next (t :: ts) with
        | .ok ((clause, s), ts) => read n s clause ts
        | .error fault => ⟨[], some fault⟩
    else stopped (t :: ts)

/-- Reads a definition from the tokens after its opening parenthesis. -/
def ofTokens (ts : List Token) : Definition := read (ts.length + 1) .start none ts

end Definition

end StoredRoutine.Scratch.Sql
