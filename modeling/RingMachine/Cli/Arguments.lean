import RingMachine.Text.Quoted
import RingMachine.Text.Integer

/-!
The command line's words. Options may be abbreviated to any prefix that names only one of
them; a one-dash option takes its value attached (`-k5`) or as the next word, a two-dash one
after `=` or as the next word. A one-dash flag with text attached after `=` goes on with the
one-character option the text starts with, as in `-verbose=k5`. A word of a dash and
decimal digits, perhaps with a point, is a value, never an option; so is a word with a
space. Words after `--` are values. The first value word is the program; options may come in
any order and the last one given wins, except `--ext`, which collects. A mistake is reported
with the usage.
-/

namespace RingMachine.Cli

inductive Flag where
  | help
  | source
  | verbose
  | statusJson
  deriving DecidableEq, Repr

inductive Setting where
  | idleLimit
  | maxSteps
  | base
  | digits
  | dtype
  | ext
  deriving DecidableEq, Repr

inductive OptionName where
  | flag (f : Flag)
  | setting (s : Setting)
  deriving DecidableEq, Repr

def spellings : List (String × OptionName) :=
  [("-h", .flag .help), ("--help", .flag .help),
   ("-source", .flag .source), ("--source", .flag .source),
   ("-verbose", .flag .verbose), ("--verbose", .flag .verbose),
   ("-k", .setting .idleLimit), ("--idle-limit", .setting .idleLimit),
   ("--max-steps", .setting .maxSteps), ("--base", .setting .base),
   ("--digits", .setting .digits), ("--dtype", .setting .dtype), ("--ext", .setting .ext),
   ("--status-json", .flag .statusJson)]

def OptionName.display (o : OptionName) : String :=
  "/".intercalate ((spellings.filter fun p => p.2 = o).map Prod.fst)

/-- What the command line asks for. -/
structure Invocation where
  program : String
  source : Bool := false
  verbose : Bool := false
  idleLimit : Option Int := none
  maxSteps : Option Int := none
  base : Option Int := none
  digits : Option Int := none
  dtype : Option String := none
  extensions : List String := []
  statusJson : Bool := false
  help : Bool := false

inductive UsageError where
  | ambiguous (word : String) (options : List String)
  | missingValue (o : OptionName)
  | notAnInteger (o : OptionName) (value : String)
  | unexpectedValue (o : OptionName) (value : String)
  | missingProgram
  | unrecognized (words : List String)

def UsageError.message : UsageError → String
  | .ambiguous w ms => "ambiguous option: " ++ w ++ " could match " ++ ", ".intercalate ms
  | .missingValue o => "argument " ++ o.display ++ ": expected one argument"
  | .notAnInteger o v => "argument " ++ o.display ++ ": invalid int value: " ++ Text.quote v
  | .unexpectedValue o v =>
    "argument " ++ o.display ++ ": ignored explicit argument " ++ Text.quote v
  | .missingProgram => "the following arguments are required: program"
  | .unrecognized ws => "unrecognized arguments: " ++ " ".intercalate ws

def usage : String :=
  "usage: dis-lang [-h] [-source] [-verbose] [-k STEPS] [--max-steps MAX_STEPS]\n" ++
  "                [--base BASE] [--digits DIGITS] [--dtype DTYPE]\n" ++
  "                [--ext EXTENSIONS] [--status-json]\n" ++
  "                program\n"

def helpText : String :=
  usage ++ "\nDis reference interpreter\n\n" ++
  "positional arguments:\n" ++
  "  program               Source file path or literal source with -source\n\n" ++
  "options:\n" ++
  "  -h, --help            show this help message and exit\n" ++
  "  -source, --source     Treat program argument as literal source text\n" ++
  "  -verbose, --verbose   Log machine activity and keep a step trace\n" ++
  "  -k STEPS, --idle-limit STEPS\n" ++
  "                        Stop with noIoInfiniteLoop after STEPS steps without\n" ++
  "                        I/O\n" ++
  "  --max-steps MAX_STEPS\n" ++
  "                        Stop after this many steps even if still running\n" ++
  "  --base BASE           Ring base (default 3)\n" ++
  "  --digits DIGITS       Digits per cell (default 10)\n" ++
  "  --dtype DTYPE         Unsigned numpy dtype for cells (default uint16)\n" ++
  "  --ext EXTENSIONS      Load an extension module (.py); repeatable\n" ++
  "  --status-json         Also emit a JSON status report\n"

def UsageError.report (e : UsageError) : String := usage ++ "dis-lang: error: " ++ e.message ++ "\n"

inductive Word where
  | value (s : String)
  | option (o : OptionName) (spelling : String) (attached : Option String)
  | unknown (s : String)
  | separator
  deriving DecidableEq, Repr

def isNegativeNumber (s : String) : Bool :=
  let cs := s.toList
  let body := if cs.getLast? = some '\n' then cs.dropLast else cs
  match body with
  | '-' :: rest =>
    let whole := rest.takeWhile Text.isDecimalDigit
    match rest.dropWhile Text.isDecimalDigit with
    | [] => !whole.isEmpty
    | '.' :: ds => !ds.isEmpty && ds.all Text.isDecimalDigit
    | _ => false
  | _ => false

def candidates (w : String) : List (String × OptionName × Option String) :=
  match w.toList with
  | '-' :: '-' :: _ =>
    let (pre, attached) := match w.splitOn "=" with
      | p :: rest@(_ :: _) => (p, some ("=".intercalate rest))
      | _ => (w, none)
    (spellings.filter fun p => p.1.startsWith pre).map fun p => (p.1, p.2, attached)
  | '-' :: c :: rest =>
    let short := String.ofList ['-', c]
    spellings.filterMap fun p =>
      if p.1 = short then some (p.1, p.2, some (String.ofList rest))
      else if p.1.startsWith w then some (p.1, p.2, none)
      else none
  | _ => []

/-- Reads one word that is not after `--`. -/
def classify (w : String) : Except UsageError Word :=
  match w.toList with
  | [] => .ok (.value w)
  | c :: _ =>
    if c ≠ '-' then .ok (.value w)
    else match spellings.lookup w with
    | some o => .ok (.option o w none)
    | none =>
      if w.length = 1 then .ok (.value w)
      else
        let exact := match w.splitOn "=" with
          | p :: rest@(_ :: _) => (spellings.lookup p).map fun o => (o, p, "=".intercalate rest)
          | _ => none
        match exact with
        | some (o, p, v) => .ok (.option o p (some v))
        | none =>
          match candidates w with
          | [(p, o, v)] => .ok (.option o p v)
          | [] =>
            if isNegativeNumber w || w.contains ' ' then .ok (.value w)
            else .ok (.unknown w)
          | ms => .error (.ambiguous w (ms.map Prod.fst))

def classifyAll : List String → Except UsageError (List Word)
  | [] => .ok []
  | w :: rest =>
    if w = "--" then .ok (.separator :: rest.map Word.value)
    else do
      let x ← classify w
      let xs ← classifyAll rest
      pure (x :: xs)

def Invocation.blank : Invocation := { program := "" }

def integerValue (o : OptionName) (v : String) : Except UsageError Int :=
  match Text.parseInteger? v with
  | some n => .ok n
  | none => .error (.notAnInteger o v)

def Invocation.set (inv : Invocation) (s : Setting) (v : String) : Except UsageError Invocation :=
  let o := OptionName.setting s
  match s with
  | .idleLimit => (integerValue o v).map fun n => { inv with idleLimit := some n }
  | .maxSteps => (integerValue o v).map fun n => { inv with maxSteps := some n }
  | .base => (integerValue o v).map fun n => { inv with base := some n }
  | .digits => (integerValue o v).map fun n => { inv with digits := some n }
  | .dtype => .ok { inv with dtype := some v }
  | .ext => .ok { inv with extensions := inv.extensions ++ [v] }

def Invocation.raise (inv : Invocation) : Flag → Invocation
  | .help => { inv with help := true }
  | .source => { inv with source := true }
  | .verbose => { inv with verbose := true }
  | .statusJson => { inv with statusJson := true }

def expand (next : Option String) : Nat → OptionName → String → Option String →
    Except UsageError (List (OptionName × Option String) × Bool)
  | 0, o, _, _ => .error (.missingValue o)
  | fuel + 1, o, spelling, attached =>
    match o, attached with
    | .flag f, some v =>
      match spelling.toList, v.toList with
      | _ :: c :: _, d :: more =>
        if c = '-' then .error (.unexpectedValue o v)
        else
          let short := String.ofList ['-', d]
          match spellings.lookup short with
          | some o' => do
            let (more', uses) ← expand next fuel o' short
              (if more.isEmpty then none else some (String.ofList more))
            pure ((.flag f, none) :: more', uses)
          | none => .error (.unexpectedValue o v)
      | _, _ => .error (.unexpectedValue o v)
    | .flag f, none => .ok ([(.flag f, none)], false)
    | .setting s, some v => .ok ([(.setting s, some v)], false)
    | .setting s, none =>
      match next with
      | some v => .ok ([(.setting s, some v)], true)
      | none => .error (.missingValue o)

def Invocation.apply (inv : Invocation) :
    List (OptionName × Option String) → Except UsageError Invocation
  | [] => .ok inv
  | (.flag f, _) :: more =>
    if f = .help then .ok (inv.raise f) else (inv.raise f).apply more
  | (.setting s, v) :: more => do
    let inv ← inv.set s (v.getD "")
    inv.apply more

def Word.text : Word → String
  | .value s | .unknown s => s
  | .option _ spelling _ => spelling
  | .separator => "--"

def consume (inv : Invocation) (program : Option String) (extra : List String) :
    List Word → Except UsageError (Invocation × Option String × List String)
  | [] => .ok (inv, program, extra)
  | .separator :: rest =>
    match program, rest.head? with
    | none, some (.value s) => consume inv (some s) extra (rest.drop 1)
    | _, _ => .ok (inv, program, extra ++ "--" :: rest.map Word.text)
  | .value s :: rest =>
    match program with
    | none =>
      consume inv (some s) extra (if rest.head? = some .separator then rest.drop 1 else rest)
    | some _ => consume inv program (extra ++ [s]) rest
  | .unknown s :: rest => consume inv program (extra ++ [s]) rest
  | .option o spelling attached :: rest =>
    let next := match rest with
      | .value v :: _ => some v
      | _ => none
    match expand next (spelling.length + 1) o spelling attached with
    | .error e => .error e
    | .ok (options, uses) =>
      match inv.apply options with
      | .error e => .error e
      | .ok inv' =>
        if inv'.help then .ok (inv', program, extra)
        else consume inv' program extra (if uses then rest.drop 1 else rest)
  termination_by ws => ws.length
  decreasing_by
    all_goals simp only [List.length_cons]
    all_goals (try split)
    all_goals (try simp only [List.length_drop])
    all_goals omega

/-- Reads a command line. -/
def Invocation.parse (args : List String) : Except UsageError Invocation := do
  let words ← classifyAll args
  let (inv, program, extra) ← consume Invocation.blank none [] words
  if inv.help then return inv
  let some p := program | throw .missingProgram
  if !extra.isEmpty then throw (.unrecognized extra)
  return { inv with program := p }

end RingMachine.Cli
