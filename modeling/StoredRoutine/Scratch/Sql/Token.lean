import StoredRoutine.Text.Basic

/-!
The tokens of SQL text, and the names among them.
-/
namespace StoredRoutine.Scratch.Sql

/-!
The tokens of SQL text. Blanks and comments may stand between tokens; a comment runs to the end of
its line, or from `/*` to `*/`. What opens with a quote that is never closed is no token.
-/

/-- Where a scan for the next token stands. -/
inductive Gap where
  | open
  | blank
  | lineComment
  | blockComment
  deriving DecidableEq, Repr

def isSpace (c : Char) : Bool :=
  c == ' ' || c == '\t' || c == '\n' || c == '\x0c' || c == '\r'

/-- The text after blanks and comments. If it is lenient, a vertical tab after another blank and a
byte order mark are skipped too. -/
def skip (lenient : Bool) : Gap → Text → Text
  | _, [] => []
  | .lineComment, c :: t => skip lenient (if c = '\n' then .blank else .lineComment) t
  | .blockComment, '*' :: '/' :: t => skip lenient .open t
  | .blockComment, _ :: t => skip lenient .blockComment t
  | _, '-' :: '-' :: t => skip lenient .lineComment t
  | _, '/' :: '*' :: c :: t => skip lenient .blockComment (c :: t)
  | gap, c :: t =>
    if isSpace c || (lenient && gap = .blank && c = '\x0b') then skip lenient .blank t
    else if lenient && c = '\ufeff' then skip lenient .open t
    else c :: t

theorem length_skip_le (lenient : Bool) (gap : Gap) (t : Text) :
    (skip lenient gap t).length ≤ t.length := by
  fun_induction skip lenient gap t <;> simp_all <;> omega

def isBlank (c : Char) : Bool := isSpace c || c == '\x0b'

def dropBlanksAtEnd (t : Text) : Text := (t.reverse.dropWhile isBlank).reverse

/-- A text without the blanks around it. -/
def trim (t : Text) : Text := dropBlanksAtEnd (t.dropWhile isBlank)

def isWordStart (c : Char) : Bool := isNameStart c || 128 ≤ c.toNat

def isWordPart (c : Char) : Bool := isNamePart c || c == '$' || 128 ≤ c.toNat

/-- How many characters there are up to a closing quote, which stands twice inside. -/
def closing? (quote : Char) : Text → Option Nat
  | [] => none
  | [c] => if c = quote then some 1 else none
  | c :: d :: t =>
    if c = quote then if d = quote then (closing? quote t).map (· + 2) else some 1
    else (closing? quote (d :: t)).map (· + 1)

inductive Kind where
  /-- A key word, or a name without quotes. -/
  | word
  /-- A name in double quotes, grave accents or brackets. -/
  | name
  /-- A text in single quotes. -/
  | string
  /-- Bytes, as hexadecimal digits in single quotes after an x. -/
  | binary
  | number
  | sign
  /-- Characters that make no token. -/
  | unknown
  deriving DecidableEq, Repr

/-- How many digits a text starts with. -/
def digits (t : Text) : Nat := (t.takeWhile isAsciiDigit).length

/-- How many characters the fraction of a number has, its point included. -/
def fraction : Text → Nat
  | '.' :: t => 1 + digits t
  | _ => 0

/-- How many characters the exponent of a number has, its letter included. -/
def exponent : Text → Nat
  | c :: t =>
    let sign := match t with
      | '+' :: _ | '-' :: _ => 1
      | _ => 0
    let n := digits (t.drop sign)
    if (c = 'e' || c = 'E') && n ≠ 0 then 1 + sign + n else 0
  | [] => 0

/-- A number and its length. If a word follows at once, both make no token. -/
def number (t : Text) : Kind × Nat :=
  let whole := digits t
  let whole := whole + fraction (t.drop whole)
  let whole := whole + exponent (t.drop whole)
  let word := ((t.drop whole).takeWhile isWordPart).length
  (if word = 0 then .number else .unknown, whole + word)

/-- What a quote opens, and its length. -/
def quoted (kind : Kind) (quote : Char) (t : Text) : Kind × Nat :=
  match closing? quote t with
  | some n => (kind, n + 1)
  | none => (.unknown, t.length + 1)

/-- Signs of two characters. -/
def longSigns : List Text := ["==", "<=", "<>", "<<", ">=", ">>", "!=", "||", "->"].map (·.toList)

def shortSigns : Text := "()*+-/%=<>|,&~.;".toList

/-- What stands for a value, and its length, by what comes after its first sign. It has a word, and
may end with something in parentheses. -/
def standIn (hasWord : Bool) : Text → Kind × Nat
  | ':' :: ':' :: t => more 2 (standIn hasWord t)
  | c :: t =>
    if isWordPart c then more 1 (standIn true t)
    else if c = '(' && hasWord then
      let inside := t.takeWhile fun c => !isBlank c && c ≠ ')'
      if (t.drop inside.length).head? = some ')' then (.sign, inside.length + 3)
      else (.unknown, inside.length + 2)
    else alone
  | [] => alone
where
  more (n : Nat) (s : Kind × Nat) : Kind × Nat := (s.1, s.2 + n)
  alone : Kind × Nat := (if hasWord then .sign else .unknown, 1)

/-- Bytes and their length, by what comes after the x. -/
def binaryShape (t : Text) : Kind × Nat :=
  let digits := (t.drop 1).takeWhile fun c => (Text.hexDigit? c).isSome
  let whole := (t.drop 1).takeWhile (· ≠ '\'')
  let isClosed := whole.length + 1 < t.length
  (if isClosed && whole = digits && digits.length % 2 = 0 then .binary else .unknown,
    whole.length + if isClosed then 3 else 2)

/-- The kind and the length of the token that a text starts with. -/
def shape : Text → Kind × Nat
  | [] => (.unknown, 0)
  | c :: t =>
    if c = '\'' then quoted .string c t
    else if c = '"' || c.toNat = 96 then quoted .name c t
    else if c = '[' then
      if t.contains ']' then (.name, (t.takeWhile (· ≠ ']')).length + 2)
      else (.unknown, t.length + 1)
    else if isAsciiDigit c || (c = '.' && t.head?.any isAsciiDigit) then number (c :: t)
    else if (c = 'x' || c = 'X') && t.head? = some '\'' then binaryShape t
    else if isWordStart c then (.word, (t.takeWhile isWordPart).length + 1)
    else if (c :: t.take 2) = "->>".toList then (.sign, 3)
    else if longSigns.contains (c :: t.take 1) then (.sign, 2)
    else if c = '?' then (.sign, digits t + 1)
    else if shortSigns.contains c then (.sign, 1)
    else if "$@#:".toList.contains c then standIn false t
    else (.unknown, 1)

structure Token where
  kind : Kind
  text : Text
  /-- The text after the token. -/
  after : Text
  deriving DecidableEq, Repr

/-- The first token of a text, unless nothing but blanks and comments is left. -/
def Token.first? (t : Text) : Option Token :=
  match skip true .open t with
  | [] => none
  | c :: t =>
    let (kind, n) := shape (c :: t)
    some ⟨kind, c :: t.take (n - 1), t.drop (n - 1)⟩

theorem Token.length_after_lt {t : Text} {token : Token} (h : Token.first? t = some token) :
    token.after.length < t.length := by
  have := length_skip_le true .open t
  grind [Token.first?]

/-- All tokens of a text. -/
def tokens (t : Text) : List Token :=
  match _h : Token.first? t with
  | none => []
  | some token => token :: tokens token.after
termination_by t.length
decreasing_by exact Token.length_after_lt _h

namespace Token

def isSign (c : Char) (t : Token) : Bool := t.kind = .sign && t.text = [c]

/-- The text from the start of a token up to a text that stands after it. -/
def upTo (first : Token) (stop : Text) : Text :=
  let t := first.text ++ first.after
  t.take (t.length - stop.length)

/-- The text from one token to the end of another. -/
def span (first last : Token) : Text := first.upTo last.after

end Token

/-!
Names in SQL text. A word is a name unless it is reserved; any text is a name in quotes, which are
not part of it. Names and key words match in either case of ASCII letters.
-/

/-- A text without the case of its ASCII letters. -/
def fold (t : Text) : Text := t.map Char.toLower

/-- Whether two names are the same. -/
def isSame (a b : Text) : Bool := fold a == fold b

/-- Words that are no names. -/
def reserved : List String := [
  "add", "all", "alter", "and", "as", "autoincrement", "between", "case", "check", "collate",
  "commit", "constraint", "create", "default", "deferrable", "delete", "distinct", "drop", "else",
  "escape", "except", "exists", "foreign", "from", "group", "having", "in", "index", "insert",
  "intersect", "into", "is", "isnull", "join", "limit", "not", "nothing", "notnull", "null", "on",
  "or", "order", "primary", "references", "returning", "select", "set", "table", "then", "to",
  "transaction", "union", "unique", "update", "using", "values", "when", "where"]

/-- Names that are no part of a type. -/
def untyped : List String := [
  "cross", "full", "indexed", "inner", "left", "natural", "outer", "right"]

/-- The text up to a closing quote, with the quotes that stand twice in it once. -/
def unquote (quote : Char) : Text → Text
  | [] => []
  | [c] => if c = quote then [] else [c]
  | c :: d :: t =>
    if c = quote then if d = quote then quote :: unquote quote t else []
    else c :: unquote quote (d :: t)

/-- The quote that closes what a quote opens. -/
def closingOf (opening : Char) : Char := if opening = '[' then ']' else opening

def isQuote (c : Char) : Bool := c == '"' || c == '\'' || c == '[' || c.toNat == 96

/-- A text without the quotes around it, if it is in quotes. -/
def bare : Text → Text
  | [] => []
  | c :: t => if isQuote c then unquote (closingOf c) t else c :: t

namespace Token

def isWord (word : String) (t : Token) : Bool := t.kind = .word && fold t.text == word.toList

def isAnyWord (words : List String) (t : Token) : Bool := words.any t.isWord

def isName (t : Token) : Bool :=
  match t.kind with
  | .word => !t.isAnyWord reserved
  | .name | .string => true
  | _ => false

def isTypeWord (t : Token) : Bool := t.isName && !t.isAnyWord untyped

/-- Whether a token is a value by itself. -/
def isTerm (t : Token) : Bool :=
  match t.kind with
  | .number | .string | .binary => true
  | _ => t.isAnyWord ["null", "current_date", "current_time", "current_timestamp"]

end Token

end StoredRoutine.Scratch.Sql
