import RingMachine.Machine.Observer
import RingMachine.Text.Integer
import RingMachine.Text.Quoted

/-!
The bundled tracer, and what the command line sees of its surroundings.

## The tracer

The bundled tracer is a step rule that logs the registers every `n` steps, and an `on_halt`
hook that logs the final status. The period comes from the environment as integer text and
must be at least 1; without it the tracer logs every thousandth step.
-/

namespace RingMachine.Cli

def tracerName : String := "tracer"

def tracerPeriod (raw : Option String) : Except ExtensionError Int :=
  let text := raw.getD "1000"
  match Text.parseInteger? text with
  | none => .error (.periodNotInteger text)
  | some n => if n < 1 then .error (.periodTooSmall n) else .ok n

def registerLine (ctx : StepContext) : String :=
  "step " ++ toString ctx.index ++ ": " ++
    (match ctx.op with
      | some i => i.name
      | none => "NOP") ++
    " (" ++ toString ctx.command ++ ") -> A=" ++ toString ctx.a ++ " C=" ++ toString ctx.c ++
    " D=" ++ toString ctx.d

def haltLine (m : Machine) : String :=
  "halted after " ++ toString m.steps ++ " steps: " ++ m.status.render

/-- Registers the tracer's step rule and hook. -/
def addTracer (reg : Registry) (raw : Option String) : Except ExtensionError Registry := do
  let every ← tracerPeriod raw
  let reg ← reg.addStepRule "register_dump" (.int every) fun _ ctx =>
    { notes := [registerLine ctx] }
  reg.onEvent "on_halt" (.whole 0) fun m => { notes := [haltLine m] }

end RingMachine.Cli

/-!
## Surroundings

What the command line sees of its surroundings: the files of the working directory, where
the bundled tracer lies, the bytes of standard input and the tracer's period. A path is
walked part by part as the system does: a missing part, a part below a file, and a name
longer than 255 bytes each end the walk with their own failure. Extensions are loaded from
paths in the order given, each name once; what a module other than the bundled tracer does
when it is imported is given with the surroundings.
-/

namespace RingMachine.Cli

inductive PathEntry where
  | file (parts : List String) (bytes : List UInt8)
  | directory
  | missing
  | underFile
  | tooLong
  | invalid

structure Directory where
  files : List (List String × List UInt8)

namespace Directory

def nameLimit : Nat := 255

def pathLimit : Nat := 4096

def isDirectory (dir : Directory) (parts : List String) : Bool :=
  parts.isEmpty || dir.files.any fun f => parts.length < f.1.length && f.1.take parts.length = parts

/-- Walks the parts of a path from a directory: `some parts` inside the working directory, or
`none` above it or at the root, where nothing but directories is known. Empty parts and `.`
stay, `..` goes up. -/
def walk (dir : Directory) : Option (List String) → List String → PathEntry
  | _, [] => .directory
  | cur, name :: more =>
    if name = "" || name = "." then dir.walk cur more
    else if name = ".." then
      match cur with
      | some (_ :: _) => dir.walk (cur.map List.dropLast) more
      | _ => dir.walk none more
    else if nameLimit < name.utf8ByteSize then .tooLong
    else match cur with
      | none => .missing
      | some parts =>
        let next := parts ++ [name]
        match dir.files.lookup next with
        | some bytes => if more.isEmpty then .file next bytes else .underFile
        | none => if dir.isDirectory next then dir.walk (some next) more else .missing

/-- What a path names: relative paths start in the working directory, absolute ones at the
root. -/
def entry (dir : Directory) (path : String) : PathEntry :=
  if path.contains (Char.ofNat 0) then .invalid
  else if path.isEmpty then .missing
  else if pathLimit ≤ path.utf8ByteSize then .tooLong
  else match path.splitOn "/" with
    | "" :: rest => dir.walk none rest
    | parts => dir.walk (some []) parts

def partsOf (path : String) : List String :=
  (path.splitOn "/").foldl (fun acc name =>
    if name = "" || name = "." then acc
    else if name = ".." then acc.dropLast
    else acc ++ [name]) []

end Directory

/-- What importing an extension module does, as far as loading looks at it: the failure that
importing raises, the interface version it asks for when that is not the host's, the name it
gives itself, and its `dis_register`, if it has a callable one. -/
structure Module where
  importFailure : Option String := none
  otherApi : Option String := none
  name : Option String := none
  register : Option (Registry → Except ExtensionError Registry) := none

/-- The working directory and the process's surroundings. Extension modules other than the
bundled tracer are code that the program does not hold, so what importing each does is given
with the surroundings. -/
structure Environment where
  directory : Directory
  tracer : Option (List String)
  modules : List String → Module
  stdin : List UInt8
  traceEvery : Option String
  allocates : Nat → Bool

def readFailure (path : String) : PathEntry → Option String
  | .file _ _ => none
  | .directory => some ("[Errno 21] Is a directory: " ++ Text.quote path)
  | .missing => some ("[Errno 2] No such file or directory: " ++ Text.quote path)
  | .underFile => some ("[Errno 20] Not a directory: " ++ Text.quote path)
  | .tooLong => some ("[Errno 36] File name too long: " ++ Text.quote path)
  | .invalid => none

def isModulePath (path : String) : Bool :=
  [".py", ".pyc", ".so"].any fun s => path.endsWith s

def stem (path : String) : String :=
  let base := ((path.splitOn "/").getLast?).getD ""
  let cs := base.toList
  -- A suffix starts at the last dot, unless only dots stand before that dot.
  let dot := cs.length - 1 - (cs.reverse.takeWhile (· ≠ '.')).length
  if cs.contains '.' && (cs.take dot).any (· ≠ '.') then String.ofList (cs.take dot) else base

def tracerModule (traceEvery : Option String) : Module :=
  { name := some tracerName, register := some fun reg => addTracer reg traceEvery }

def Environment.moduleAt (env : Environment) (parts : List String) : Module :=
  if env.tracer = some parts then tracerModule env.traceEvery else env.modules parts

/-- Loads the extensions in order: each path must name a module file that imports, asks for
the host's interface and has a `dis_register`, under a name not loaded before; its
registrations then go into the registry. -/
def loadExtensions (env : Environment) : List String → List String → Registry →
    Except ExtensionError Registry
  | [], _, reg => .ok reg
  | path :: rest, loaded, reg =>
    match env.directory.entry path with
    | .file parts _ =>
      if !isModulePath path then .error (.notAModule path)
      else
        let mod := env.moduleAt parts
        match mod.importFailure, mod.otherApi, mod.register with
        | some msg, _, _ => .error (.importFailed path msg)
        | none, some shown, _ => .error (.otherApi path shown)
        | none, none, none => .error (.noRegistration path)
        | none, none, some register =>
          let name := mod.name.getD (stem path)
          if loaded.contains name then .error (.alreadyLoaded name)
          else do
            let reg ← register reg
            loadExtensions env rest (loaded ++ [name]) reg
    | _ => .error (.notFound path)

end RingMachine.Cli
