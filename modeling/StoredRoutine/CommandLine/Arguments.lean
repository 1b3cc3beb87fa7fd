import StoredRoutine.Decimal
import StoredRoutine.Text.Basic
import StoredRoutine.Text.Quoted

/-!
The arguments of the command line. Options may be shortened as long as one option is meant, their
values follow as the next argument or after an equals sign, and the first run of other arguments
names the sources. After two hyphens no argument is an option.
-/
namespace StoredRoutine.CommandLine

/-- The value of an option, if the option is given; two hyphens are dropped as a value, too, and
leave the option without one. -/
abbrev Given := Option (Option String)

structure Arguments where
  paths : List String := []
  metadata : Given := none
  sources : Given := none
  initScript : Given := none
  placeholders : Given := none
  policy : Given := none
  verbose : Bool := false
  logFile : Given := none
  deriving DecidableEq, Repr

/-- The options that take a value. -/
inductive Setting where
  | metadata
  | sources
  | initScript
  | placeholders
  | policy
  | logFile
  deriving DecidableEq, Repr

inductive Switch where
  | help
  | verbose
  | setting (s : Setting)
  deriving DecidableEq, Repr

def separator : String := "--"

def Arguments.set (a : Arguments) (s : Setting) (v : String) : Arguments :=
  let v := some (if v = separator then none else some v)
  match s with
  | .metadata => { a with metadata := v }
  | .sources => { a with sources := v }
  | .initScript => { a with initScript := v }
  | .placeholders => { a with placeholders := v }
  | .policy => { a with policy := v }
  | .logFile => { a with logFile := v }

namespace Switch

/-- All spellings of options, in the order in which they are listed. -/
def spellings : List (String × Switch) :=
  [("-h", help), ("--help", help), ("--metadata", setting .metadata),
    ("--sources", setting .sources), ("--init-script", setting .initScript),
    ("--placeholders", setting .placeholders), ("--mangler", setting .policy),
    ("--verbose", verbose), ("--log-file", setting .logFile)]

/-- How messages call an option: by all its spellings. -/
def title (s : Switch) : String :=
  "/".intercalate ((spellings.filter (·.2 = s)).map Prod.fst)

end Switch

/-- How the command line is not to be used. -/
inductive Misuse where
  | ambiguous (argument : String) (spellings : List String)
  | valueMissing (s : Switch)
  | valueIgnored (s : Switch) (value : String)
  | unrecognized (arguments : List String)
  deriving DecidableEq, Repr

def Misuse.message : Misuse → String
  | .ambiguous argument spellings =>
    s!"ambiguous option: {argument} could match " ++ ", ".intercalate spellings
  | .valueMissing s => s!"argument {s.title}: expected one argument"
  | .valueIgnored s value =>
    s!"argument {s.title}: ignored explicit argument " ++ quotedString value
  | .unrecognized arguments => "unrecognized arguments: " ++ " ".intercalate arguments

/-- Why there are no arguments to go on with. -/
inductive Stop where
  | helpWanted
  | misuse (m : Misuse)
  deriving DecidableEq, Repr

/-- What an argument is, looked at on its own. -/
inductive Kind where
  | plain (text : String)
  | separator
  | unknown (text : String)
  | option (s : Switch) (value : Option String)
  /-- The short option with letters after it, also after an equals sign. -/
  | cluster (letters : Text)
  deriving DecidableEq, Repr

/-- A hyphen and a number without sign or exponent; a line feed at the end does not count. -/
def isNegativeNumber (t : Text) : Bool :=
  match t with
  | '-' :: t =>
    let body := if t.getLast? = some '\n' then t.dropLast else t
    let isDigit (c : Char) := (Decimal.digit? c).isSome
    match body.dropWhile isDigit with
    | [] => !body.isEmpty
    | '.' :: fraction => !fraction.isEmpty && fraction.all isDigit
    | _ => false
  | _ => false

/-- An argument cut at its first equals sign. -/
def cutValue (argument : Text) : Text × Option Text :=
  match argument.dropWhile (· != '=') with
  | [] => (argument, none)
  | _ :: v => (argument.takeWhile (· != '='), some v)

def shortHelp : String := "-h"

/-- The options that an argument may mean, none of which it spells in full, by their spellings. -/
def meant (argument : Text) : List (String × Kind) :=
  match argument with
  | '-' :: '-' :: _ =>
    let (start, v) := cutValue argument
    (Switch.spellings.filter fun (spelling, _) => start.isPrefixOf spelling.toList).map
      fun (spelling, s) => (spelling, .option s (v.map String.ofList))
  | '-' :: 'h' :: letters => [(shortHelp, .cluster letters)]
  | _ => []

/-- What an argument is that is not spelled like an option. -/
def unspelled (argument : String) : Kind :=
  if isNegativeNumber argument.toList || argument.contains ' ' then .plain argument
  else .unknown argument

def classifyOption (argument : String) : Except Misuse Kind :=
  match Switch.spellings.lookup argument with
  | some s => .ok (.option s none)
  | none =>
    let (start, v) := cutValue argument.toList
    let start := String.ofList start
    match v, Switch.spellings.lookup start with
    | some v, some s =>
      .ok (if start = shortHelp then .cluster v else .option s (some (String.ofList v)))
    | _, _ =>
      match meant argument.toList with
      | [] => .ok (unspelled argument)
      | [(_, kind)] => .ok kind
      | options => .error (.ambiguous argument (options.map Prod.fst))

def classifyOne (argument : String) : Except Misuse Kind :=
  match argument.toList with
  | '-' :: _ :: _ => classifyOption argument
  | _ => .ok (.plain argument)

def classify : List String → Except Misuse (List Kind)
  | [] => .ok []
  | a :: as =>
    if a = separator then .ok (.separator :: as.map .plain)
    else do return (← classifyOne a) :: (← classify as)

/-- The run of arguments that names the sources: still to come, going on, or over. -/
inductive Run where
  | ahead
  | going
  | over
  deriving DecidableEq, Repr

/-- The run after an argument that does not belong to it. -/
def Run.interrupted : Run → Run
  | .ahead => .ahead
  | _ => .over

/-- What letters after the short option lead to: it may be repeated, and there is no other such
option. -/
def clustered : Text → Stop
  | ['h'] => .helpWanted
  | 'h' :: letters => clustered letters
  | letters => .misuse (.valueIgnored .help (String.ofList letters))

/-- Collects arguments from left to right, together with those that nothing asks for. -/
def collect (run : Run) (a : Arguments) (extra : List String) :
    List Kind → Except Stop (Arguments × List String)
  | [] => .ok (a, extra)
  | .plain t :: ks =>
    if run = .over then collect run a (extra ++ [t]) ks
    else collect .going { a with paths := a.paths ++ [t] } extra ks
  | .separator :: ks =>
    if run = .over then collect run a (extra ++ [separator]) ks else collect .going a extra ks
  | .unknown t :: ks => collect run.interrupted a (extra ++ [t]) ks
  | .cluster letters :: _ => .error (clustered letters)
  | .option .help none :: _ => .error .helpWanted
  | .option .verbose none :: ks => collect run.interrupted { a with verbose := true } extra ks
  | .option .help (some v) :: _ => .error (.misuse (.valueIgnored .help v))
  | .option .verbose (some v) :: _ => .error (.misuse (.valueIgnored .verbose v))
  | .option (.setting s) (some v) :: ks => collect run.interrupted (a.set s v) extra ks
  | .option (.setting s) none :: .plain v :: ks => collect run.interrupted (a.set s v) extra ks
  | .option (.setting s) none :: _ => .error (.misuse (.valueMissing (.setting s)))

/-- The arguments of a command line. -/
def Arguments.parse (arguments : List String) : Except Stop Arguments := do
  let kinds ← (classify arguments).mapError .misuse
  match ← collect .ahead {} [] kinds with
  | (a, []) => return a
  | (_, extra) => throw (.misuse (.unrecognized extra))

/-- What the user reads about a misuse. -/
def usageError (m : Misuse) : String := s!"main.py: error: {m.message}"

def Stop.message : Stop → String
  | .helpWanted => ""
  | .misuse m => usageError m

/-- The exit code of a program that does not run. -/
def Stop.exitCode : Stop → Nat
  | .helpWanted => 0
  | .misuse _ => 2

/-- The last line of what the user reads. -/
def Stop.lastLine (s : Stop) : Text := Text.lastLine s.message.toList

end StoredRoutine.CommandLine
