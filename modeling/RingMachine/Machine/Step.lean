import RingMachine.Machine.Observer

/-!
Steps and runs of the machine.

## One step

One step of the machine. A stopped machine does not move. A running one fetches the cell
under `c`, counts the step and runs the instruction the cell selects. If that stopped the
machine, the stop is logged and the `on_halt` hooks are called. Then the step is traced and
the idle count is reset by a transfer or else grows; a machine still running either reaches
its idle limit and stops, or advances `c` and `d` by one. Last, the due step rules see the
step. A failing observer ends the step where it stands. An address outside memory, or input
that is not an integer, fails the step as a whole: the machine is left as it was before it.
-/

namespace RingMachine

/-- A line of the machine's log. -/
inductive Note where
  | statusChanged (status : Status) (steps : Nat) (c d a : Int)
  | budgetExhausted (budget : Int) (c : Int)
  | writeFailed (c : Int) (f : IoFailure)
  | readFailed (c : Int) (f : IoFailure)
  | observer (text : String)

structure Outcome where
  machine : Machine
  notes : Array Note := #[]
  fault : Option Fault := none

namespace Machine

def store (m : Machine) (z : Nat) : Except Crash Machine :=
  match m.ring.cellAt? m.d with
  | some i => .ok { m with a := z, memory := m.memory.set i z }
  | none => .error (m.ring.outOfBounds m.d)

/-- Runs one instruction: the machine after it, whether a byte crossed a channel, and what
was logged. -/
def execute (m : Machine) : Option Instruction → Except Crash (Machine × Bool × List Note)
  | none => .ok (m, false, [])
  | some .halt => .ok ({ m with status := .haltCommand }, false, [])
  | some .load => do
    let v ← m.fetch m.d
    pure ({ m with d := v }, false, [])
  | some .rot => do
    let v ← m.fetch m.d
    pure (← m.store (m.ring.rotateRight v), false, [])
  | some .jmp => do
    let v ← m.fetch m.d
    pure ({ m with c := v }, false, [])
  | some .opr => do
    let v ← m.fetch m.d
    pure (← m.store (m.ring.digitSubtract m.a v), false, [])
  | some .write =>
    if m.a = m.ring.maxValue then .ok ({ m with status := .endOfOutput }, false, [])
    else match m.output.write (m.a % 256).toNat with
      | .ok out => .ok ({ m with output := out }, true, [])
      | .error f => .ok ({ m with status := .writeError f }, false, [.writeFailed m.c f])
  | some .read =>
    let (reply, input) := m.input.read
    let m := { m with input }
    match reply with
    | .value x =>
      match x.toInteger with
      | .ok n => .ok ({ m with a := m.ring.reduce n }, true, [])
      | .error e => .error e.toCrash
    | .endOfInput => .ok ({ m with a := m.ring.maxValue }, false, [])
    | .failure f =>
      .ok ({ m with a := m.ring.maxValue, status := .readError f }, false, [.readFailed m.c f])

structure Executed where
  command : Nat
  machine : Machine
  transferred : Bool
  notes : List Note

def instruct (m : Machine) : Except Crash Executed := do
  let command ← m.fetch m.c
  let (m1, transferred, notes) ←
    execute { m with steps := m.steps + 1 } (Instruction.decode command)
  pure ⟨command, m1, transferred, notes⟩

def account (m : Machine) (x : Executed) : Machine :=
  { x.machine with
    trace := x.machine.trace.record ⟨m.steps, m.c, m.d, x.machine.a, x.command,
      Instruction.decode x.command⟩
    idleSteps := if x.transferred then 0 else x.machine.idleSteps + 1 }

def idleExhausted (m : Machine) : Bool :=
  match m.idleLimit with
  | some k => k ≤ m.idleSteps
  | none => false

/-- The end of a step: a machine still running stops at its idle limit, or else advances
both pointers. -/
def settle (m : Machine) : Machine :=
  if m.status ≠ .running then m
  else if m.idleExhausted then { m with status := .idleLoop }
  else { m with c := (m.ring.successor m.c : Int), d := (m.ring.successor m.d : Int) }

def announceStop (reg : Registry) (m : Machine) : List Note × Option Fault :=
  let (lines, fault) := reg.emit .onHalt m
  (.statusChanged m.status m.steps m.c m.d m.a :: lines.map .observer, fault)

def announceChange (reg : Registry) (before : Status) (m : Machine) : List Note × Option Fault :=
  if m.status = before then ([], none) else announceStop reg m

/-- One step. -/
def step (reg : Registry) (m : Machine) : Outcome :=
  if m.status ≠ .running then { machine := m } else
  match m.instruct with
  | .error e => { machine := m, fault := some (.failed e) }
  | .ok x =>
  let (notes2, fault2) := announceChange reg m.status x.machine
  let notes := x.notes ++ notes2
  match fault2 with
  | some f => { machine := x.machine, notes := notes.toArray, fault := some f }
  | none =>
  let m2 := m.account x
  let m3 := m2.settle
  let (notes3, fault3) := announceChange reg m2.status m3
  let notes := notes ++ notes3
  match fault3 with
  | some f => { machine := m3, notes := notes.toArray, fault := some f }
  | none =>
  if reg.rules.isEmpty then { machine := m3, notes := notes.toArray } else
  let (lines, fault4) := reg.afterStep m3 ⟨m.steps, x.command, Instruction.decode x.command, m3.a,
    m3.c, m3.d⟩
  { machine := m3, notes := (notes ++ lines.map Note.observer).toArray, fault := fault4 }

theorem step_of_ne_running (reg : Registry) (m : Machine) (h : m.status ≠ .running) :
    m.step reg = { machine := m } := by
  simp [step, h]

end Machine

end RingMachine

/-!
## Runs

Runs. A run calls the `program_start` hooks, steps while the machine is running and the
step budget, if any, is not spent, and then calls the `program_end` hooks. A spent budget is
logged. A failing observer ends the run where it stands. A run without a budget steps for as
long as the machine runs, which may be forever.
-/

namespace RingMachine

namespace Machine

def budgetSpent (budget : Option Int) (taken : Nat) : Bool :=
  match budget with
  | some b => decide (b ≤ (taken : Int))
  | none => false

/-- Steps while running and within budget; `taken` counts the steps of this run, and `fuel`
bounds the steps still to take. -/
def stepWhile (reg : Registry) (budget : Option Int) : Nat → Nat → Machine → Array Note → Outcome
  | fuel, taken, m, notes =>
    if m.status ≠ .running then { machine := m, notes }
    else if budgetSpent budget taken then
      { machine := m, notes := notes.push (.budgetExhausted (budget.getD 0) m.c) }
    else match fuel with
      | 0 => { machine := m, notes }
      | fuel + 1 =>
        let r := m.step reg
        match r.fault with
        | some f => { machine := r.machine, notes := notes ++ r.notes, fault := some f }
        | none => stepWhile reg budget fuel (taken + 1) r.machine (notes ++ r.notes)

def stepUntilStop (reg : Registry) (m : Machine) (notes : Array Note) : Option Outcome :=
  if m.status ≠ .running then some { machine := m, notes }
  else
    let r := m.step reg
    match r.fault with
    | some f => some { machine := r.machine, notes := notes ++ r.notes, fault := some f }
    -- Written as a pipeline, so the term records no source position of the call.
    | none => r.machine |>.stepUntilStop reg (notes ++ r.notes)
partial_fixpoint

def runSteps (reg : Registry) (budget : Option Int) (m : Machine) (notes : Array Note) :
    Option Outcome :=
  match budget with
  | some b => some (stepWhile reg (some b) b.toNat 0 m notes)
  | none => stepUntilStop reg m notes

/-- A run with an optional step budget, or nothing when it never returns to its caller. -/
def run? (reg : Registry) (budget : Option Int) (m : Machine) : Option Outcome :=
  let (startLines, startFault) := reg.emit .programStart m
  let startNotes := (startLines.map Note.observer).toArray
  match startFault with
  | some f => some { machine := m, notes := startNotes, fault := some f }
  | none =>
  (runSteps reg budget m startNotes).map fun r =>
  match r.fault with
  | some _ => r
  | none =>
  let (endLines, endFault) := reg.emit .programEnd r.machine
  { r with notes := r.notes ++ (endLines.map Note.observer).toArray, fault := endFault }

/-- A run with an optional step budget. A run that never ends stands here as the machine it
started from, after the `program_start` hooks, and calls no `program_end` hook. -/
def run (reg : Registry) (budget : Option Int) (m : Machine) : Outcome :=
  (m.run? reg budget).getD
    { machine := m, notes := ((reg.emit .programStart m).1.map Note.observer).toArray }

end Machine

end RingMachine
