import RingMachine.Machine.Basic
import RingMachine.Text.Quoted

/-!
Observers of a running machine. Hooks watch three events: the start of a run, a change of
status that stops the machine, and the end of a run; within an event they are called by
priority, highest first, and in registration order among equal priorities. Step rules are
called, in registration order, after every step at whose index their period is due.
An observer only reads what it is shown (a step rule sees the machine and the step) and
answers with log lines and perhaps a failure, so it cannot change the machine; a failure stops
the step or the run.
-/

namespace RingMachine

inductive Event where
  | programStart
  | onHalt
  | programEnd
  deriving DecidableEq, Repr

namespace Event

def all : List Event := [.programStart, .onHalt, .programEnd]

def name : Event → String
  | .programStart => "program_start"
  | .onHalt => "on_halt"
  | .programEnd => "program_end"

def ofName? (s : String) : Option Event := all.find? fun e => e.name = s

end Event

/-- What an observer answers: lines for the log, and a failure message if it failed. -/
structure Reaction where
  notes : List String := []
  failure : Option String := none

structure Hook where
  event : Event
  priority : Amount
  react : Machine → Reaction

/-- What a step rule is shown: the step's index, its command byte and instruction, and the
registers after the step. -/
structure StepContext where
  index : Nat
  command : Nat
  op : Option Instruction
  a : Int
  c : Int
  d : Int
  deriving DecidableEq, Repr

structure StepRule where
  name : String
  period : Period
  react : Machine → StepContext → Reaction

inductive ExtensionError where
  | unknownEvent (name : String)
  | badPeriod (rule : String) (shown : String)
  | notFound (path : String)
  | notAModule (path : String)
  | alreadyLoaded (name : String)
  | noRegistration (path : String)
  | importFailed (path : String) (message : String)
  | otherApi (path : String) (shown : String)
  | periodNotInteger (raw : String)
  | periodTooSmall (every : Int)
  | failed (c : Crash)

def ExtensionError.message : ExtensionError → String
  | .unknownEvent name => "Unknown event " ++ Text.quote name ++ "; expected one of " ++
      ", ".intercalate (Event.all.map Event.name)
  | .badPeriod rule shown => "Step rule " ++ Text.quote rule ++ " needs every_n >= 1, got " ++ shown
  | .notFound path => "Extension not found: " ++ path
  | .notAModule path => "Not a Python module: " ++ path
  | .alreadyLoaded name => "Extension " ++ Text.quote name ++ " is already loaded"
  | .noRegistration path => "Extension " ++ path ++ " must define callable dis_register(ext)"
  | .importFailed path msg => "Extension " ++ path ++ " failed to import: " ++ msg
  | .otherApi path shown => "Extension " ++ path ++ " requires API " ++ shown ++ ", host supports 1"
  | .periodNotInteger raw => "DIS_TRACE_EVERY must be an integer, got " ++ Text.quote raw
  | .periodTooSmall n => "DIS_TRACE_EVERY must be >= 1, got " ++ toString n
  | .failed c => c.message

def ExtensionError.crash? : ExtensionError → Option Crash
  | .failed c => some c
  | _ => none

def Period.ofLiteral (rule : String) (v : Literal) : Except ExtensionError Period :=
  match Amount.ofLiteral? v with
  | none => .error (.failed (incomparable "<=" v))
  | some x => if x.le 0 then .error (.badPeriod rule v.render) else .ok x.period

inductive Fault where
  | hook (e : Event) (message : String)
  | rule (message : String)
  | failed (c : Crash)

def Fault.message : Fault → String
  | .hook e msg => "Extension hook '" ++ e.name ++ "' failed: " ++ msg
  | .rule msg => "Extension step rule failed: " ++ msg
  | .failed c => c.message

def Fault.crash? : Fault → Option Crash
  | .failed c => some c
  | _ => none

/-- Inserts a hook after every hook of at least its priority. -/
def insertByPriority (h : Hook) : List Hook → List Hook
  | [] => [h]
  | g :: rest =>
    if h.priority.atMost g.priority then g :: insertByPriority h rest else h :: g :: rest

/-- The observers: hooks kept by priority, highest first and in registration order among
equals, and step rules in registration order. -/
structure Registry where
  hooks : List Hook := []
  rules : List StepRule := []

namespace Registry

def empty : Registry := {}

def addHook (reg : Registry) (h : Hook) : Registry :=
  { reg with hooks := insertByPriority h reg.hooks }

/-- Registers a hook on the event of the given name. -/
def onEvent (reg : Registry) (event : String) (priority : Amount) (react : Machine → Reaction) :
    Except ExtensionError Registry :=
  match Event.ofName? event with
  | some e => .ok (reg.addHook ⟨e, priority, react⟩)
  | none => .error (.unknownEvent event)

def addRule (reg : Registry) (name : String) (period : Period)
    (react : Machine → StepContext → Reaction) : Registry :=
  { reg with rules := reg.rules ++ [⟨name, period, react⟩] }

/-- Registers a step rule with its period as supplied, which must be a number above 0. -/
def addStepRule (reg : Registry) (name : String) (every : Literal)
    (react : Machine → StepContext → Reaction) : Except ExtensionError Registry := do
  let period ← Period.ofLiteral name every
  pure (reg.addRule name period react)

def hooksFor (reg : Registry) (e : Event) : List Hook := reg.hooks.filter fun h => h.event = e

def gather : List Reaction → List String × Option String
  | [] => ([], none)
  | x :: rest =>
    match x.failure with
    | some msg => (x.notes, some msg)
    | none =>
      let (notes, failure) := gather rest
      (x.notes ++ notes, failure)

/-- Calls the hooks of an event on a machine. -/
def emit (reg : Registry) (e : Event) (m : Machine) : List String × Option Fault :=
  let (notes, failure) := gather ((reg.hooksFor e).map fun h => h.react m)
  (notes, failure.map (Fault.hook e))

def emitNamed (reg : Registry) (name : String) (m : Machine) : List String × Option Fault :=
  match Event.ofName? name with
  | some e => reg.emit e m
  | none => ([], none)

/-- Calls the step rules whose period is due at the step's index, on the machine after the step. -/
def afterStep (reg : Registry) (m : Machine) (ctx : StepContext) : List String × Option Fault :=
  let due := reg.rules.filter fun r => r.period.isDue ctx.index
  let (notes, failure) := gather (due.map fun r => r.react m ctx)
  (notes, failure.map Fault.rule)

end Registry

end RingMachine
