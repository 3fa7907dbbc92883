import ContainerAudit.Decimal.Numeral
import ContainerAudit.Report.Text
import ContainerAudit.Severity

/-!
# The command line

What the words of a command line ask for. Words that start with a dash are options; a long option
may be cut short as long as it stays clear, its value may follow an equals sign, and options of one
letter may be run together. A word of two dashes ends the options.
-/

namespace ContainerAudit.CommandLine

inductive Opt where
  | help
  | config
  | format
  | out
  | failOn
  | suppress
  | listRules
  | verbose
  deriving DecidableEq, Repr

namespace Opt

def all : List Opt := [help, config, format, out, failOn, suppress, listRules, verbose]

/-- The spellings of an option. -/
def names : Opt → List String
  | help => ["-h", "--help"]
  | config => ["--config"]
  | format => ["--format"]
  | out => ["--out", "--output"]
  | failOn => ["--fail-on"]
  | suppress => ["--suppress"]
  | listRules => ["--list-rules"]
  | verbose => ["-v", "--verbose"]

/-- An option with all its spellings, as messages show it. -/
def title (o : Opt) : String :=
  "/".intercalate o.names

def takesValue : Opt → Bool
  | help => false
  | listRules => false
  | verbose => false
  | _ => true

/-- All spellings with their options. -/
def spellings : List (String × Opt) :=
  all.flatMap fun o => o.names.map fun name => (name, o)

def ofName? (name : String) : Option Opt :=
  (spellings.find? (·.1 == name)).map (·.2)

end Opt

/-- What is wrong with a command line. -/
inductive UsageError where
  /-- A shortened option stands for more than one. -/
  | ambiguous (word : String) (candidates : List String)
  | valueMissing (o : Opt)
  /-- An option that takes no value has one. -/
  | valueIgnored (o : Opt) (value : String)
  | notAChoice (o : Opt) (value : String) (choices : List String)
  | unrecognized (words : List String)
  deriving DecidableEq, Repr

def UsageError.text : UsageError → String
  | ambiguous word candidates =>
    "ambiguous option: " ++ word ++ " could match " ++ ", ".intercalate candidates
  | valueMissing o => "argument " ++ o.title ++ ": expected one argument"
  | valueIgnored o value =>
    "argument " ++ o.title ++ ": ignored explicit argument " ++ Text.quoted value
  | notAChoice o value choices =>
    "argument " ++ o.title ++ ": invalid choice: " ++ Text.quoted value ++ " (choose from " ++
      ", ".intercalate (choices.map Text.quoted) ++ ")"
  | unrecognized words => "unrecognized arguments: " ++ " ".intercalate words

/-! ## Words -/

/-- What a word of a command line is. -/
inductive Word where
  | plain (text : String)
  /-- The word that ends the options. -/
  | separator
  /-- An option, with the value in the same word if there is one. -/
  | long (o : Opt) (value : Option String)
  /-- An option of one letter, with what follows it in the same word. -/
  | short (o : Opt) (rest : Option (List Char))
  | unknown (text : String)
  deriving DecidableEq, Repr

/-- The text reads as a negative number; a line feed may follow. -/
def isNegativeNumber (s : List Char) : Bool :=
  match s with
  | '-' :: rest =>
    let digits := rest.takeWhile fun c => (Decimal.decimalDigit? c).isSome
    let isEnd (t : List Char) : Bool := t.isEmpty || t == ['\n']
    match rest.drop digits.length with
    | '.' :: more =>
      let places := more.takeWhile fun c => (Decimal.decimalDigit? c).isSome
      !places.isEmpty && isEnd (more.drop places.length)
    | more => !digits.isEmpty && isEnd more
  | _ => false

/-- A word that starts with a dash and is no option. It is taken for a path if it reads as a
negative number or has a space in it. -/
def otherWord (word : String) : Word :=
  if isNegativeNumber word.toList || word.toList.contains ' ' then .plain word else .unknown word

/-- The word up to its first equals sign, and what follows the sign. -/
def cutValue (word : String) : String × Option String :=
  match Text.cutFirst '=' word.toList with
  | some (name, value) => (String.ofList name, some (String.ofList value))
  | none => (word, none)

/-- An option with its spelling, and what the word says after it. -/
def optionWord (spelling : String) (o : Opt) (value : Option String) : Word :=
  match spelling.toList with
  | ['-', _] => .short o (value.map String.toList)
  | _ => .long o value

/-- A word with two dashes that is not spelled out: an option cut short, if there is only one. -/
def shortenedWord (word : String) : Except UsageError Word :=
  let (name, value) := cutValue word
  match Opt.spellings.filter fun (spelling, _) => name.toList.isPrefixOf spelling.toList with
  | [] => .ok (otherWord word)
  | [(_, o)] => .ok (.long o value)
  | candidates => .error (.ambiguous word (candidates.map (·.1)))

/-- A word with one dash that is not spelled out: an option of one letter with more after it. -/
def clusterWord (word : String) : Word :=
  match Opt.ofName? (String.ofList (word.toList.take 2)) with
  | some o => .short o (some (word.toList.drop 2))
  | none => otherWord word

/-- A word before the end of the options. -/
def word (text : String) : Except UsageError Word :=
  match text.toList with
  | '-' :: second :: _ =>
    match Opt.ofName? text with
    | some o => .ok (optionWord text o none)
    | none =>
      let (name, value) := cutValue text
      match if value.isSome then Opt.ofName? name else none with
      | some o => .ok (optionWord name o value)
      | none => if second = '-' then shortenedWord text else .ok (clusterWord text)
  | _ => .ok (.plain text)

def words : List String → Except UsageError (List Word)
  | [] => .ok []
  | text :: rest =>
    if text = "--" then .ok (.separator :: rest.map .plain)
    else do
      let first ← word text
      let others ← words rest
      return first :: others

/-! ## Requests -/

/-- What a command line asks for. -/
structure Request where
  paths : List String := []
  config : Option String := none
  format : Report.Format := .markdown
  out : Option String := none
  failOn : Option Severity := none
  /-- Rules to suppress, as they were written. -/
  suppress : List String := []
  listRules : Bool := false
  verbosity : Nat := 0
  deriving DecidableEq, Repr

/-- Why a command line gives no request. -/
inductive Interruption where
  /-- It asks for help. -/
  | help
  | misuse (e : UsageError)
  deriving DecidableEq, Repr

/-- Where the words are that name paths. They stand together. -/
inductive Phase where
  | before
  | within
  | after
  deriving DecidableEq, Repr

/-- A command line read so far: the request, whether paths may still come, and words that have no
place. -/
structure Progress where
  request : Request := {}
  phase : Phase := .before
  extra : List String := []
  deriving DecidableEq, Repr

namespace Progress

/-- An option comes; after it no more paths are taken if there were any. -/
def endPaths (p : Progress) : Progress :=
  { p with phase := match p.phase with
      | .within => .after
      | phase => phase }

/-- A word that is no option. -/
def takePath (p : Progress) (path : String) : Progress :=
  match p.phase with
  | .after => { p with extra := p.extra ++ [path] }
  | _ => { p with
      request := { p.request with paths := p.request.paths ++ [path] }
      phase := .within }

/-- The word that ends the options. -/
def takeSeparator (p : Progress) : Progress :=
  match p.phase with
  | .after => { p with extra := p.extra ++ ["--"] }
  | _ => { p with phase := .within }

/-- An option without a value. -/
def flag (p : Progress) (o : Opt) : Except Interruption Progress :=
  match o with
  | .help => .error .help
  | .listRules => .ok { p with request := { p.request with listRules := true } }
  | .verbose => .ok { p with request := { p.request with verbosity := p.request.verbosity + 1 } }
  | _ => .error (.misuse (.valueMissing o))

/-- An option with its value. -/
def value (p : Progress) (o : Opt) (v : String) : Except Interruption Progress :=
  match o with
  | .config => .ok { p with request := { p.request with config := some v } }
  | .out => .ok { p with request := { p.request with out := some v } }
  | .suppress => .ok { p with request := { p.request with suppress := p.request.suppress ++ [v] } }
  | .format =>
    match Report.Format.ofName? v with
    | some format => .ok { p with request := { p.request with format } }
    | none => .error (.misuse (.notAChoice o v (Report.Format.all.map Report.Format.name)))
  | .failOn =>
    let name := Text.mapChars Text.upper v
    match Severity.ofName? name with
    | some severity => .ok { p with request := { p.request with failOn := some severity } }
    | none => .error (.misuse (.notAChoice o name (Severity.all.map Severity.name)))
  | _ => .error (.misuse (.valueIgnored o v))

end Progress

/-- The options that are run together with a first one. -/
def cluster (o : Opt) : List Char → Except UsageError (List Opt)
  | [] => .ok [o]
  | c :: rest =>
    match Opt.ofName? (String.ofList ['-', c]) with
    | some next => (cluster next rest).map (o :: ·)
    | none => .error (.valueIgnored o (String.ofList (c :: rest)))

/-- Take the words of a command line one after another. -/
def take (p : Progress) : List Word → Except Interruption Progress
  | [] => .ok p
  | .plain text :: rest => take (p.takePath text) rest
  | .separator :: rest => take p.takeSeparator rest
  | .unknown text :: rest =>
    take { p.endPaths with extra := p.extra ++ [text] } rest
  | .long o (some v) :: rest => do take (← p.endPaths.value o v) rest
  | .short o (some []) :: _ => .error (.misuse (.valueIgnored o ""))
  | .short o (some (c :: more)) :: rest => do
    let os ← (cluster o (c :: more)).mapError .misuse
    take (← os.foldlM Progress.flag p.endPaths) rest
  | .short o none :: rest => do take (← p.endPaths.flag o) rest
  | .long o none :: .plain v :: rest => do
    if o.takesValue then take (← p.endPaths.value o v) rest
    else take ((← p.endPaths.flag o).takePath v) rest
  | .long o none :: rest => do take (← p.endPaths.flag o) rest

def Request.parse (line : List String) : Except Interruption Request := do
  let ws ← (words line).mapError .misuse
  let p ← take {} ws
  if p.extra.isEmpty then return p.request
  else .error (.misuse (.unrecognized p.extra))

/-- The ids of the rules to suppress: values are divided at commas, and blank ones are dropped. -/
def Request.suppressedIds (r : Request) : List String :=
  (r.suppress.flatMap fun v => Text.splitAt ',' v.toList).filterMap fun id =>
    if Text.isBlankText id then none else some (String.ofList id)

end ContainerAudit.CommandLine
