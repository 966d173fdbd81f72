import RingMachine.Machine.Step
import RingMachine.Cli.Arguments
import RingMachine.Cli.Environment
import RingMachine.Ring.Operation
import RingMachine.Program.Token
import RingMachine.Machine.Report

/-!
Log lines, and running the command line against a working directory.

## Log lines

Log lines have a level, the part of the program that wrote the line, and its text. The
machine's notes become debug lines for status changes and spent budgets, warnings for failed
transfers, and info lines for what observers report. A quiet run shows warnings only.
-/

namespace RingMachine.Cli

inductive Level where
  | debug
  | info
  | warning

def Level.name : Level → String
  | .debug => "DEBUG"
  | .info => "INFO"
  | .warning => "WARNING"

structure LogLine where
  level : Level
  source : String
  text : String

def LogLine.render (l : LogLine) : String := l.level.name ++ " " ++ l.source ++ ": " ++ l.text

def logLineOf : Note → LogLine
  | .statusChanged s steps c d a => ⟨.debug, "vm", "status -> " ++ s.render ++ " after " ++
      toString steps ++ " steps (C=" ++ toString c ++ " D=" ++ toString d ++ " A=" ++
      toString a ++ ")"⟩
  | .budgetExhausted b c => ⟨.debug, "vm", "step budget of " ++ toString b ++
      " exhausted at C=" ++ toString c⟩
  | .writeFailed c f => ⟨.warning, "vm", "write failed at C=" ++ toString c ++ ": " ++ f.message⟩
  | .readFailed c f => ⟨.warning, "vm", "read failed at C=" ++ toString c ++ ": " ++ f.message⟩
  | .observer t => ⟨.info, "dis.ext.tracer", t⟩

def shown (verbose : Bool) (ls : List LogLine) : List String :=
  (ls.filter fun l => verbose || match l.level with
    | .warning => true
    | _ => false).map LogLine.render

end RingMachine.Cli

/-!
## Running

The program comes from a file, read
as one character per byte, or from the command line itself. Then the ring is built, the
extensions are loaded, the program is assembled and loaded into a fresh machine, and the
machine runs on the bytes of standard input. Errors end the run with exit code 1; otherwise
the exit code tells how the machine stopped. Standard error gets the log lines, then the
text report unless the machine halted normally, then the JSON report if asked for.

A memory is allocated when the system grants its bytes. A path with a zero
character, a type description the type reader rejects and a memory larger than any array
end the run outright. A machine that runs forever without a step budget leaves the command
line with no result at all.
-/

namespace RingMachine.Cli

structure Result where
  exitCode : Nat
  stdout : List UInt8
  stderr : String

/-- A failure that ends the run before the machine stops. -/
inductive Failure where
  | parse (file : String) (e : ParseError)
  | config (e : ConfigError)
  | extension (e : ExtensionError)
  | machine (e : MachineError)
  | observer (f : Fault)
  | failed (c : Crash)

def Failure.message : Failure → String
  | .parse file e => "ParseError: " ++ e.message file
  | .config e => "ConfigError: " ++ e.message
  | .extension e => "ExtensionError: " ++ e.message
  | .machine e => "RuntimeError: " ++ e.message
  | .observer f => "RuntimeError: " ++ f.message
  | .failed c => c.kind ++ ": " ++ c.message

def Failure.crash? : Failure → Option Crash
  | .config e => e.crash?
  | .extension e => e.crash?
  | .machine e => e.crash?
  | .observer f => f.crash?
  | .failed c => some c
  | .parse _ _ => none

/-- Allocates a ring's memory, if the system grants that many bytes. -/
def allocate (env : Environment) (ring : WordRing) : Except Failure Unit :=
  if env.allocates (ring.size * ring.cell.bytes) then .ok ()
  else .error (.config (.cannotAllocate ring))

def Invocation.ring (inv : Invocation) : Except ConfigError WordRing :=
  if inv.base.isNone && inv.digits.isNone && inv.dtype.isNone then .ok WordRing.standard
  else
    let cellType := match inv.dtype with
      | some s => if s.isEmpty then "uint16" else s
      | none => "uint16"
    WordRing.build (.text cellType) (.int (inv.base.getD 3)) (.int (inv.digits.getD 10))

/-- Exit codes by how the machine stopped. -/
def exitCode : Status → Nat
  | .haltCommand | .endOfOutput => 0
  | .readError _ | .writeError _ => 1
  | .idleLoop => 2
  | .running => 3

structure Prepared where
  registry : Registry
  machine : Machine
  loaded : LogLine

/-- Builds the ring, loads the extensions, assembles the program and loads it into a fresh
machine, in that order. -/
def Invocation.prepare (inv : Invocation) (env : Environment) (file text : String) :
    Except Failure Prepared := do
  let ring ← inv.ring.mapError .config
  let reg ← (loadExtensions env inv.extensions [] Registry.empty).mapError .extension
  let image ← (assemble ring text).mapError (.parse file)
  let depth : Int := if inv.verbose || inv.statusJson then 16 else 0
  let input : Input := { pending := env.stdin.map fun b => .value (.int b.toNat) }
  let idleLimit : Literal := match inv.idleLimit with
    | some n => .int n
    | none => .none
  let m ← (Machine.create ring idleLimit depth input {}).mapError .machine
  allocate env ring
  let m ← (m.load (image.map Int.ofNat)).mapError .machine
  pure ⟨reg, m, ⟨.debug, "dislang", "loaded " ++ toString image.length ++ " cells from " ++
    file ++ " into " ++ ring.describe⟩⟩

/-- Builds, loads and runs the machine: the lines logged with the machine it stopped at, or
with the failure that ended it; nothing when the run never ends. -/
def Invocation.execute (inv : Invocation) (env : Environment) (file text : String) :
    Option (Except (List LogLine × Failure) (List LogLine × Machine)) :=
  match inv.prepare env file text with
  | .error f => some (.error ([], f))
  | .ok p =>
    (p.machine.run? p.registry inv.maxSteps).map fun r =>
      let lines := p.loaded :: r.notes.toList.map logLineOf
      match r.fault with
      | some f => .error (lines, .observer f)
      | none => .ok (lines, r.machine)

inductive Source where
  | text (file text : String)
  | unreadable (message : String)
  | failed (c : Crash)

def latin1 (bytes : List UInt8) : String := String.ofList (bytes.map fun b => Char.ofNat b.toNat)

/-- The program's source: the command line itself, or a file read one character per byte. -/
def Invocation.programSource (inv : Invocation) (env : Environment) : Source :=
  if inv.source then .text "<string>" inv.program
  else match Text.encodeFailure? inv.program true with
  | some c => .failed c
  | none =>
  match env.directory.entry inv.program with
    | .file _ bytes => .text inv.program (latin1 bytes)
    | .invalid => .failed (.valueError "embedded null byte")
    | entry => .unreadable ("Failed to read " ++ inv.program ++ ": " ++
        (readFailure inv.program entry).getD "")

/-- What a run of the machine makes of the command line's result, given how it ended. -/
def Invocation.finish (inv : Invocation) :
    Except (List LogLine × Failure) (List LogLine × Machine) → Except Crash Result
  | .error (log, f) =>
    match f.crash? with
    | some c => .error c
    | none => .ok ⟨1, [], lines (shown inv.verbose log ++ [f.message])⟩
  | .ok (log, m) =>
    let report := if exitCode m.status = 0 then [] else [m.textReport inv.verbose]
    let json := if inv.statusJson then [(m.jsonReport).render 0] else []
    .ok ⟨exitCode m.status, m.output.written.toList,
      lines (shown inv.verbose log ++ report ++ json)⟩
where
  lines (ls : List String) : String := String.join (ls.map (· ++ "\n"))

/-- Runs a command line: what it produced, or the failure that ended it outright; nothing
when the machine runs forever. -/
def run (args : List String) (env : Environment) : Option (Except Crash Result) :=
  match Invocation.parse args with
  | .error e => some (.ok ⟨2, [], e.report⟩)
  | .ok inv =>
    if inv.help then some (.ok ⟨0, helpText.toUTF8.toList, ""⟩) else
    match inv.programSource env with
    | .failed c => some (.error c)
    | .unreadable msg => some (.ok ⟨1, [], msg ++ "\n"⟩)
    | .text file text => (inv.execute env file text).map inv.finish

end RingMachine.Cli
