import StoredRoutine.Decimal
import StoredRoutine.Scratch.Sql.Definition

/-!
How statements are read from tokens. A statement ends with a semicolon or with its text. Reading
stops at the first token that does not fit; of a table under creation the clauses in front of it
are known all the same.
-/
namespace StoredRoutine.Scratch.Sql

/-- What was read, up to the fault if there is one. -/
structure Reading where
  statement : Statement
  fault : Option SyntaxFault
  deriving DecidableEq, Repr

namespace Reader

/-- A number as it is written, without its sign. A whole number that is too great for a word is no
whole number. -/
def numeral (negative : Bool) (t : Text) : Value :=
  let real := ((Decimal.float? (if negative then '-' :: t else t)).map Value.real).getD .null
  match Decimal.integer? t with
  | some n =>
    let n := if negative then -n else n
    if Sql.fitsWord n then .integer n else real
  | none => real

/-- The words that start an expression of more than one value. -/
def openingWords : List String := ["case", "cast", "exists", "not", "raise"]

/-- The words that go on with an expression. -/
def joiningWords : List String := [
  "and", "between", "collate", "glob", "in", "is", "like", "match", "not", "or", "regexp"]

/-- Whether a token goes on with an expression. -/
def isJoining (t : Token) : Bool :=
  t.isAnyWord joiningWords || longSigns.contains t.text || "*+-/%=<>|&".toList.any t.isSign

/-- An expression of one value. -/
def value : Reader Expression := do
  match ← tokenIf? fun t => t.isSign '+' || t.isSign '-' with
  | some sign =>
    let t ← token (·.kind = .number)
    return .literal (numeral (sign.isSign '-') t.text)
  | none =>
    let t ← token fun t => t.isName || t.isWord "null" || t.kind = .number || t.kind = .binary
    return match t.kind with
      | .number => .literal (numeral false t.text)
      | .binary => .literal (.binary ((Text.bytesOfHex? ((t.text.drop 2).dropLast)).getD []))
      | .string => .literal (.text (bare t.text))
      | _ =>
        if t.isWord "null" then .literal .null
        else if t.isWord "true" then .literal (.integer 1)
        else if t.isWord "false" then .literal (.integer 0)
        else if t.text.head? = some '"' then .literal (.text (bare t.text))
        else .column (bare t.text)

/-- An expression, which has one value; another one is not read to its end. -/
def expression : Reader Expression := do
  if (← tokenIf? (·.isAnyWord openingWords)).isSome then refuse
  let v ← value
  if (← tokenIf? isJoining).isSome then refuse
  return v

/-- The value of a text that stands where none is given. A name stands for itself. -/
def standardValue (written : Text) : Value :=
  match value (tokens written) with
  | .ok (.literal v, _) => v
  | .ok (.column name, _) => .text name
  | .error _ => .null

/-- What follows the word that an insertion starts with. -/
def insertion : Reader Statement := do
  let _ ← word "into"
  let table ← target
  let otherName ← if (← tokenIf? (·.isWord "as")).isSome then some <$> name else pure none
  let columns ← columns?
  let _ ← word "values"
  let rows ← rows (← get).length
  finish
  return .insert { table with otherName } columns rows
where
  columns? : Reader (Option (List Text)) := do
    if (← get).head?.any (·.isSign '(') then return some (← inParentheses name) else return none
  /-- The number bounds how many rows there are. -/
  rows : Nat → Reader (List (List Expression))
    | 0 => refuse
    | n + 1 => do
      let row ← inParentheses expression
      if (← tokenIf? (·.isSign ',')).isSome then return row :: (← rows n) else return [row]

/-- The table that a selection is from. -/
def source : Reader Target := do
  let _ ← word "from"
  let table ← target
  let _ ← alias?
  finish
  return table

/-- The name of an expression. Without one it is as it is written, from its first token up to the
next one that is not part of it, with the comments between. -/
def heading (first : Token) : Reader Text := do
  if (← tokenIf? isJoining).isSome then refuse
  let written := match (← get).head? with
    | some next => first.upTo (next.text ++ next.after)
    | none => first.text ++ first.after
  return (← alias?).getD (trim written)

/-- What follows the word that a selection starts with. -/
def selection : Reader Statement := do
  let first ← token fun t =>
    t.isSign '*' || t.isWord "count" || t.isWord "last_insert_rowid"
  if first.isSign '*' then return .selectAll (← source)
  let _ ← sign '('
  if first.isWord "count" then
    let _ ← sign '*'
    let _ ← sign ')'
    return .countAll (← heading first) (← source)
  let _ ← sign ')'
  let heading ← heading first
  finish
  return .lastInsertId heading

/-- What follows the word that a description starts with. -/
def description : Reader Statement := do
  let _ ← word "table_info"
  let _ ← sign '('
  let table ← token fun t =>
    t.isName || t.kind = .number || t.isAnyWord ["default", "delete", "on"]
  let _ ← sign ')'
  finish
  return .describe (bare table.text)

/-- The head of a table under creation, and whether it is made only if it is missing. -/
def creation : Reader (Target × Bool) := do
  let _ ← word "table"
  let ifMissing := (← tokenIf? (·.isWord "if")).isSome
  if ifMissing then
    let _ ← word "not"
    let _ ← word "exists"
  let table ← target
  if (← tokenIf? (·.isWord "as")).isSome then refuse
  let _ ← sign '('
  return (table, ifMissing)

/-- What follows the first word of a statement. -/
def rest (first : Token) : Reader Statement :=
  if first.isWord "insert" then insertion
  else if first.isWord "select" then selection
  else if first.isWord "pragma" then description
  else fun _ => .error (faultAt [first])

end Reader

/-- Reads a statement from its tokens. -/
def Reading.ofTokens : List Token → Reading
  | [] => ⟨.nothing, none⟩
  | first :: ts =>
    if first.isWord "create" then
      match Reader.creation ts with
      | .ok ((table, ifMissing), ts) =>
        let definition := Definition.ofTokens ts
        ⟨.createTable table ifMissing definition.clauses, definition.fault⟩
      | .error fault => ⟨.nothing, some fault⟩
    else
      match Reader.rest first ts with
      | .ok (statement, _) => ⟨statement, none⟩
      | .error fault => ⟨.nothing, some fault⟩

/-- The tokens of the statement that a text starts with, after semicolons that stand alone, and the
text after the semicolon that ends it. -/
def cut (t : Text) : List Token × Text :=
  let ts := (tokens t).dropWhile (·.isSign ';')
  let body := ts.takeWhile (! ·.isSign ';')
  match ts.drop body.length with
  | [] => (body, [])
  | last :: _ => (body ++ [last], last.after)

/-- Words that start a statement that changes rows. -/
def changes : List String := ["insert", "update", "delete", "replace"]

/-- Whether a text starts like a statement that changes rows. -/
def startsChange (t : Text) : Bool :=
  let t := skip false .open t
  changes.any fun word => isSame (t.take word.length) word.toList

end StoredRoutine.Scratch.Sql
