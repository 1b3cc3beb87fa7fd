import StoredRoutine.FileTree.Access
import StoredRoutine.Text.Basic

/-!
Finding files by a pattern of path components: names are taken as they are, names with wildcards
stand for the entries of a directory, and two asterisks stand for a directory and all directories
below it.
-/
namespace StoredRoutine

/-!
Wildcard patterns for a single name: an asterisk stands for any characters, a question mark for one
of them, and brackets hold characters and ranges, or what they must not be. A bracket that is not
closed stands for itself.
-/

namespace Wildcard

inductive Item where
  | anyText
  | anyChar
  | char (c : Char)
  /-- A character within one of some ranges, or within none of them. -/
  | oneOf (negated : Bool) (ranges : List (Char × Char))
  deriving DecidableEq, Repr

/-- The text between brackets, cut at the hyphens that make ranges. So many characters at its start
are no such hyphens; neither are the two after one. -/
def pieces : (sure : Nat) → Text → List Text
  | _, [] => [[]]
  | 0, '-' :: t => [] :: pieces 2 t
  | n, c :: t =>
    match pieces (n - 1) t with
    | p :: ps => (c :: p) :: ps
    | [] => [[c]]

/-- A hyphen at the end makes no range. -/
def withLastHyphen : List Text → List Text
  | [p, []] => [p ++ ['-']]
  | p :: ps => p :: withLastHyphen ps
  | [] => []

/-- Drops the ranges whose ends are in the wrong order; the pieces on both sides become one. -/
def withoutEmptyRanges : List Text → List Text
  | [] => []
  | p :: ps =>
    match p.getLast?, withoutEmptyRanges ps with
    | some a, (b :: q) :: qs => if b < a then (p.dropLast ++ q) :: qs else p :: (b :: q) :: qs
    | _, qs => p :: qs

/-- What stands between brackets: characters, and hyphens between the ends of a range. -/
inductive Mark where
  | char (c : Char)
  | hyphen
  deriving DecidableEq, Repr

def marks (inner : Text) : List Mark :=
  let sure := if inner.head? = some '!' then 2 else 1
  [Mark.hyphen].intercalate
    ((withoutEmptyRanges (withLastHyphen (pieces sure inner))).map (·.map .char))

/-- The ranges that marks stand for; a hyphen in front is a character. -/
def ranges : List Mark → List (Char × Char)
  | .char a :: .hyphen :: .char b :: ms => (a, b) :: ranges ms
  | .char a :: ms => (a, a) :: ranges ms
  | .hyphen :: ms => ('-', '-') :: ranges ms
  | [] => []

/-- The item for the text between brackets. An exclamation mark in front negates, even if it came
there because an empty range before it was dropped. -/
def bracketItem (inner : Text) : Item :=
  match marks inner with
  | .char '!' :: ms => .oneOf true (ranges ms)
  | ms => .oneOf false (ranges ms)

/-- The text up to a closing bracket, which cannot be the first character, and what follows. -/
def bracketed? : Text → Option (Text × Text)
  | [] => none
  | c :: t =>
    match t.dropWhile (· != ']') with
    | [] => none
    | _ :: rest => some (c :: t.takeWhile (· != ']'), rest)

/-- The item that an opening bracket starts, if it is closed, and what follows. -/
def oneOf? : Text → Option (Item × Text)
  | '!' :: t => (bracketed? t).map fun (inner, rest) => (bracketItem ('!' :: inner), rest)
  | t => (bracketed? t).map fun (inner, rest) => (bracketItem inner, rest)

theorem length_of_bracketed? {t inner rest : Text} (h : bracketed? t = some (inner, rest)) :
    rest.length < t.length := by
  cases t with
  | nil => simp [bracketed?] at h
  | cons c t =>
    have hl := (List.dropWhile_sublist (· != ']') (l := t)).length_le
    simp only [bracketed?] at h
    split at h
    · simp at h
    · next hd =>
      obtain ⟨-, rfl⟩ := Prod.mk.inj (Option.some.inj h)
      rw [hd] at hl
      simp at hl ⊢
      omega

theorem length_of_oneOf? {t rest : Text} {i : Item} (h : oneOf? t = some (i, rest)) :
    rest.length < t.length := by
  unfold oneOf? at h
  split at h <;> obtain ⟨⟨inner, r⟩, hb, he⟩ := Option.map_eq_some_iff.1 h <;>
    obtain ⟨-, rfl⟩ := Prod.mk.inj he <;> have := length_of_bracketed? hb
  · simp
    omega
  · exact this

def parse : Text → List Item
  | [] => []
  | c :: t =>
    if c = '*' then .anyText :: parse t
    else if c = '?' then .anyChar :: parse t
    else
      match _h : if c = '[' then oneOf? t else none with
      | some (i, rest) => i :: parse rest
      | none => .char c :: parse t
termination_by t => t.length
decreasing_by
  · simp
  · simp
  · split at _h
    · have := length_of_oneOf? _h
      simp
      omega
    · simp at _h
  · simp

/-- Whether an item stands for a character. -/
def Item.accepts (c : Char) : Item → Bool
  | .anyText | .anyChar => true
  | .char d => c == d
  | .oneOf negated ranges => (ranges.any fun (first, last) => first ≤ c && c ≤ last) != negated

/-- For every ending of a text, the whole text first, whether nothing is left of it. -/
def ended : Text → List Bool
  | [] => [true]
  | _ :: t => false :: ended t

/-- For every place of a list, whether there is a hit from there on. -/
def hitAhead : List Bool → List Bool
  | [] => []
  | b :: bs =>
    let ahead := hitAhead bs
    (b || ahead.headD false) :: ahead

/-- For every ending of a text, whether its first character is accepted and the ending after it is
a hit. -/
def stepped (accepts : Char → Bool) : Text → List Bool → List Bool
  | c :: t, _ :: bs => (accepts c && bs.headD false) :: stepped accepts t bs
  | _, _ => [false]

/-- For every ending of a text, whether a pattern stands for all of it. -/
def coverage : List Item → Text → List Bool
  | [], t => ended t
  | .anyText :: is, t => hitAhead (coverage is t)
  | i :: is, t => stepped (i.accepts ·) t (coverage is t)

/-- Whether a pattern stands for all of a name. -/
def covers (is : List Item) (t : Text) : Bool := (coverage is t).headD false

theorem coverage_cons (is : List Item) (c : Char) (t : Text) :
    ∃ b, coverage is (c :: t) = b :: coverage is t := by
  induction is with
  | nil => exact ⟨false, rfl⟩
  | cons i is ih =>
    obtain ⟨b, hb⟩ := ih
    cases i <;> simp [coverage, hb, hitAhead, stepped]

theorem coverage_nil (is : List Item) : ∃ b, coverage is [] = [b] := by
  induction is with
  | nil => exact ⟨true, rfl⟩
  | cons i is ih =>
    obtain ⟨b, hb⟩ := ih
    cases i <;> simp [coverage, hb, hitAhead, stepped]

@[simp] theorem covers_nil (t : Text) : covers [] t = t.isEmpty := by cases t <;> rfl

@[simp] theorem covers_anyText_nil (is : List Item) :
    covers (.anyText :: is) [] = covers is [] := by
  obtain ⟨b, hb⟩ := coverage_nil is
  simp [covers, coverage, hb, hitAhead]

@[simp] theorem covers_anyText_cons (is : List Item) (c : Char) (t : Text) :
    covers (.anyText :: is) (c :: t) = (covers is (c :: t) || covers (.anyText :: is) t) := by
  obtain ⟨b, hb⟩ := coverage_cons is c t
  simp [covers, coverage, hb, hitAhead]

theorem covers_cons_nil {i : Item} (is : List Item) (h : i ≠ .anyText) :
    covers (i :: is) [] = false := by
  cases i <;> simp [covers, coverage, stepped] at h ⊢

theorem covers_cons_cons {i : Item} (is : List Item) (c : Char) (t : Text) (h : i ≠ .anyText) :
    covers (i :: is) (c :: t) = (i.accepts c && covers is t) := by
  obtain ⟨b, hb⟩ := coverage_cons is c t
  cases i <;> simp [covers, coverage, hb, stepped] at h ⊢

end Wildcard

namespace Glob

inductive Component where
  | recursive
  | wildcard (items : List Wildcard.Item)
  | named (name : String)
  deriving DecidableEq, Repr

structure Pattern where
  components : List Component
  /-- A trailing slash asks for directories. -/
  directoriesOnly : Bool
  deriving DecidableEq, Repr

/-- Why a text is no pattern, or there is no telling what it stands for. -/
inductive Fault where
  | empty
  | absolute
  | noComponent (trailingSlash : Bool)
  | recursiveInside
  | os (failure : OsFailure)
  deriving DecidableEq, Repr

def Fault.message : Fault → String
  | .empty => "Unacceptable pattern: ''"
  | .absolute => "Non-relative patterns are unsupported"
  | .noComponent false => "tuple index out of range"
  | .noComponent true => "'_TerminatingSelector' object has no attribute 'select_from'"
  | .recursiveInside => "Invalid pattern: '**' can only be an entire path component"
  | .os failure => failure.message

instance : Cause Fault where
  message := Fault.message
  kind
    | .empty | .recursiveInside => .value
    | .absolute => .unsupported
    | .noComponent trailingSlash => if trailingSlash then .member else .index
    | .os failure => failure.error.kind

def hasWildcard (name : String) : Bool := name.any fun c => c == '*' || c == '?' || c == '['

/-- Whether two asterisks stand side by side. -/
def hasRecursion (t : Text) : Bool := (t.zip (t.drop 1)).contains ('*', '*')

def Component.parse (name : String) : Except Fault Component :=
  if name = "**" then .ok .recursive
  else if hasRecursion name.toList then .error .recursiveInside
  else if hasWildcard name then .ok (.wildcard (Wildcard.parse name.toList))
  else .ok (.named name)

def Pattern.parse (s : String) : Except Fault Pattern :=
  let path := Path.ofString s
  let trailingSlash := s.endsWith "/"
  if s.isEmpty then .error .empty
  else if path.isAbsolute then .error .absolute
  else if path.parts.isEmpty then .error (.noComponent trailingSlash)
  else do return ⟨← path.parts.mapM Component.parse, trailingSlash⟩

/-- The paths of the directories below a path. -/
def directoriesBelow (t : FileTree) (directory : Place) (base : Path) : List Path :=
  match t.locate directory base.toString with
  | .error _ => []
  | .ok place =>
    t.nodes.entries.filterMap fun (p, node) =>
      if node = .directory && place.isPrefixOf p && place.length < p.length then
        some ⟨base.root, base.parts ++ p.drop place.length⟩
      else none

/-- The paths of the entries of a directory. -/
def entries (t : FileTree) (directory : Place) (base : Path) : List Path :=
  match t.locate directory base.toString with
  | .error _ => []
  | .ok place => (t.names place).map base.child

/-- The paths that components stand for, from a directory on. Whatever is followed by more
components is a directory. -/
def select (t : FileTree) (directory : Place) (directoriesOnly : Bool) :
    List Component → Path → Except OsFailure (List Path)
  | [], base => .ok [base]
  | c :: cs, base =>
    let fits (p : Path) : Except OsFailure Bool :=
      if cs.isEmpty && !directoriesOnly then t.hasAny directory p.toString
      else t.hasDirectory directory p.toString
    match c with
    | .named name => do
      if ← fits (base.child name) then select t directory directoriesOnly cs (base.child name)
      else return []
    | .wildcard items => do
      let matching := (entries t directory base).filter fun p =>
        Wildcard.covers items p.name.toList
      return (← (← matching.filterM fits).mapM (select t directory directoriesOnly cs)).flatten
    | .recursive => do
      return (← (base :: directoriesBelow t directory base).mapM
        (select t directory directoriesOnly cs)).flatten.eraseDups

/-- The files that a pattern stands for, seen from a root, in the order of their paths. -/
def find (t : FileTree) (directory : Place) (root : Path) (pattern : String) :
    Except Fault (List Path) := do
  let pattern ← Pattern.parse pattern
  let found ← Except.mapError .os do
    if ← t.hasDirectory directory root.toString then
      select t directory pattern.directoriesOnly pattern.components root
    else return []
  return (found.filter fun p => t.isFile directory p.toString).mergeSort Path.le

end Glob

end StoredRoutine
