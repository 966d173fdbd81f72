import RingMachine.Machine.Step
import RingMachine.Proofs.Digits
import Mathlib

/-!
How a step is put together. An instruction changes only the registers, the memory, the status
and the channels, and it never reads the trace. A step that no observer interrupts leaves the
machine `next` describes: the instruction's machine, traced, counted and settled. An observer
that fails cuts a step short, and the only parts it can cut are the trace entry and the idle
count of a step whose own instruction stopped the machine.
-/

namespace RingMachine

theorem except_bind_ok {ε α β : Type} {x : Except ε α} {f : α → Except ε β} {r : β}
    (done : x >>= f = .ok r) : ∃ a, x = .ok a ∧ f a = .ok r := by
  cases x with
  | error e => cases done
  | ok a => exact ⟨a, rfl, done⟩

/-- Observers that never fail: every hook and every step rule answers without a failure. -/
def Registry.Quiet (reg : Registry) : Prop :=
  (∀ h ∈ reg.hooks, ∀ m, (h.react m).failure = none) ∧
    ∀ r ∈ reg.rules, ∀ m ctx, (r.react m ctx).failure = none

namespace Registry

theorem gather_failure_none {xs : List Reaction} (quiet : ∀ x ∈ xs, x.failure = none) :
    (gather xs).2 = none := by
  induction xs with
  | nil => rfl
  | cons x rest ih =>
    have head : x.failure = none := quiet x List.mem_cons_self
    have tail := ih (fun y member => quiet y (List.mem_cons_of_mem x member))
    simp only [gather, head]
    exact tail

theorem emit_fault_none {reg : Registry} (quiet : reg.Quiet) (e : Event) (m : Machine) :
    (reg.emit e m).2 = none := by
  have calm : ∀ x ∈ (reg.hooksFor e).map (fun h => h.react m), x.failure = none := by
    intro x member
    obtain ⟨h, found, rfl⟩ := List.mem_map.mp member
    exact quiet.1 h (List.mem_filter.mp found).1 m
  simp [emit, gather_failure_none calm]

theorem afterStep_fault_none {reg : Registry} (quiet : reg.Quiet) (m : Machine)
    (ctx : StepContext) : (reg.afterStep m ctx).2 = none := by
  have calm : ∀ x ∈ (reg.rules.filter fun r => r.period.isDue ctx.index).map
      (fun r => r.react m ctx), x.failure = none := by
    intro x member
    obtain ⟨r, found, rfl⟩ := List.mem_map.mp member
    exact quiet.2 r (List.mem_filter.mp found).1 m ctx
  simp [afterStep, gather_failure_none calm]

theorem emit_fault {reg : Registry} {e : Event} {m : Machine} {f : Fault}
    (failed : (reg.emit e m).2 = some f) : ∃ msg, f = .hook e msg := by
  simp only [emit, Option.map_eq_some_iff] at failed
  obtain ⟨msg, -, rfl⟩ := failed
  exact ⟨msg, rfl⟩

theorem afterStep_fault {reg : Registry} {m : Machine} {ctx : StepContext} {f : Fault}
    (failed : (reg.afterStep m ctx).2 = some f) : ∃ msg, f = .rule msg := by
  simp only [afterStep, Option.map_eq_some_iff] at failed
  obtain ⟨msg, -, rfl⟩ := failed
  exact ⟨msg, rfl⟩

@[simp] theorem empty_rules : Registry.empty.rules = [] := rfl

@[simp] theorem emit_empty (e : Event) (m : Machine) : Registry.empty.emit e m = ([], none) := rfl

theorem empty_quiet : Registry.empty.Quiet :=
  ⟨fun _ absent => absurd absent List.not_mem_nil,
    fun _ absent => absurd absent List.not_mem_nil⟩

end Registry

namespace Machine

section Instruction

/-- What an instruction does, rule by rule: the machine it leaves, whether a byte crossed a
channel, and what it logged. The instructions that read the cell under `d` need `d` to name a
cell. -/
inductive Executes (m : Machine) : Option Instruction → Machine → Bool → List Note → Prop
  | skip : Executes m none m false []
  | halt : Executes m (some .halt) { m with status := .haltCommand } false []
  | load {i : Nat} : m.ring.cellAt? m.d = some i →
      Executes m (some .load) { m with d := m.memory.get i } false []
  | rot {i : Nat} : m.ring.cellAt? m.d = some i →
      Executes m (some .rot)
        { m with a := m.ring.rotateRight (m.memory.get i),
                 memory := m.memory.set i (m.ring.rotateRight (m.memory.get i)) } false []
  | jmp {i : Nat} : m.ring.cellAt? m.d = some i →
      Executes m (some .jmp) { m with c := m.memory.get i } false []
  | opr {i : Nat} : m.ring.cellAt? m.d = some i →
      Executes m (some .opr)
        { m with a := m.ring.digitSubtract m.a (m.memory.get i),
                 memory := m.memory.set i (m.ring.digitSubtract m.a (m.memory.get i)) } false []
  | endOfOutput : m.a = m.ring.maxValue →
      Executes m (some .write) { m with status := .endOfOutput } false []
  | written {out : Output} : m.a ≠ m.ring.maxValue →
      m.output.write (m.a % 256).toNat = .ok out →
      Executes m (some .write) { m with output := out } true []
  | writeFailed {f : IoFailure} : m.a ≠ m.ring.maxValue →
      m.output.write (m.a % 256).toNat = .error f →
      Executes m (some .write) { m with status := .writeError f } false [.writeFailed m.c f]
  | readValue {x : Literal} {n : Int} : m.input.read.1 = .value x → x.toInteger = .ok n →
      Executes m (some .read) { m with input := m.input.read.2, a := m.ring.reduce n } true []
  | readEnd : m.input.read.1 = .endOfInput →
      Executes m (some .read) { m with input := m.input.read.2, a := m.ring.maxValue } false []
  | readFailed {f : IoFailure} : m.input.read.1 = .failure f →
      Executes m (some .read)
        { m with input := m.input.read.2, a := m.ring.maxValue, status := .readError f } false
        [.readFailed m.c f]

variable {m m1 : Machine} {op : Option Instruction} {transferred : Bool} {notes : List Note}

theorem execute_executes (done : execute m op = .ok (m1, transferred, notes)) :
    Executes m op m1 transferred notes := by
  -- One case per instruction. Those that read under `d` fail when `d` names no cell, so only
  -- a cell found by `cellAt?` reaches their rule.
  rcases op with _ | ⟨_ | _ | _ | _ | _ | _ | _⟩
  · simp only [execute, Except.ok.injEq, Prod.mk.injEq] at done
    obtain ⟨rfl, rfl, rfl⟩ := done
    exact .skip
  · simp only [execute, Except.ok.injEq, Prod.mk.injEq] at done
    obtain ⟨rfl, rfl, rfl⟩ := done
    exact .halt
  · simp only [execute, fetch] at done
    cases cell : m.ring.cellAt? m.d <;> simp [cell] at done
    obtain ⟨rfl, rfl, rfl⟩ := done
    exact .load cell
  · simp only [execute, fetch, store] at done
    cases cell : m.ring.cellAt? m.d <;> simp [cell, bind, Except.bind] at done
    obtain ⟨rfl, rfl, rfl⟩ := done
    exact .rot cell
  · simp only [execute, fetch] at done
    cases cell : m.ring.cellAt? m.d <;> simp [cell] at done
    obtain ⟨rfl, rfl, rfl⟩ := done
    exact .jmp cell
  · simp only [execute] at done
    split at done
    · simp only [Except.ok.injEq, Prod.mk.injEq] at done
      obtain ⟨rfl, rfl, rfl⟩ := done
      exact .endOfOutput ‹_›
    · rename_i notMax
      split at done
      all_goals simp only [Except.ok.injEq, Prod.mk.injEq] at done
      all_goals obtain ⟨rfl, rfl, rfl⟩ := done
      · exact .written notMax ‹_›
      · exact .writeFailed notMax ‹_›
  · simp only [execute, fetch, store] at done
    cases cell : m.ring.cellAt? m.d <;> simp [cell, bind, Except.bind] at done
    obtain ⟨rfl, rfl, rfl⟩ := done
    exact .opr cell
  · simp only [execute] at done
    split at done
    · rename_i reply
      split at done <;> simp at done
      obtain ⟨rfl, rfl, rfl⟩ := done
      exact .readValue reply ‹_›
    · simp only [Except.ok.injEq, Prod.mk.injEq] at done
      obtain ⟨rfl, rfl, rfl⟩ := done
      exact .readEnd ‹_›
    · simp only [Except.ok.injEq, Prod.mk.injEq] at done
      obtain ⟨rfl, rfl, rfl⟩ := done
      exact .readFailed ‹_›

theorem Executes.frame (run : Executes m op m1 transferred notes) :
    m1 = { m with
      a := m1.a, c := m1.c, d := m1.d, memory := m1.memory, status := m1.status
      input := m1.input, output := m1.output } := by
  cases run <;> rfl

theorem execute_withTrace (m : Machine) (tr : Trace) (op : Option Instruction) :
    execute { m with trace := tr } op =
      (fun r => ({ r.1 with trace := tr }, r.2)) <$> execute m op := by
  rcases op with _ | ⟨_ | _ | _ | _ | _ | _ | _⟩
  · rfl
  · rfl
  · simp only [execute, fetch]
    cases m.ring.cellAt? m.d <;> rfl
  · simp only [execute, fetch, store]
    cases m.ring.cellAt? m.d <;> rfl
  · simp only [execute, fetch]
    cases m.ring.cellAt? m.d <;> rfl
  · simp only [execute]
    split
    · rfl
    · split <;> rfl
  · simp only [execute, fetch, store]
    cases m.ring.cellAt? m.d <;> rfl
  · simp only [execute]
    split
    · split <;> rfl
    · rfl
    · rfl

end Instruction

section Phases

variable {m : Machine} {x : Executed}

theorem instruct_ok (started : m.instruct = .ok x) :
    m.fetch m.c = .ok x.command ∧
      execute { m with steps := m.steps + 1 } (Instruction.decode x.command) =
        .ok (x.machine, x.transferred, x.notes) := by
  unfold instruct at started
  cases fetched : m.fetch m.c with
  | error e => simp [fetched, bind, Except.bind] at started
  | ok command =>
    cases done : execute { m with steps := m.steps + 1 } (Instruction.decode command) with
    | error e => simp [fetched, done, bind, Except.bind] at started
    | ok r =>
      obtain ⟨m1, transferred, notes⟩ := r
      simp only [fetched, done, bind, Except.bind, pure, Except.pure, Except.ok.injEq] at started
      subst started
      exact ⟨rfl, done⟩

theorem instruct_executes (started : m.instruct = .ok x) :
    Executes { m with steps := m.steps + 1 } (Instruction.decode x.command) x.machine
      x.transferred x.notes :=
  execute_executes (instruct_ok started).2

theorem instruct_frame (started : m.instruct = .ok x) :
    x.machine = { m with
      steps := m.steps + 1, a := x.machine.a, c := x.machine.c, d := x.machine.d
      memory := x.machine.memory, status := x.machine.status, input := x.machine.input
      output := x.machine.output } :=
  (instruct_executes started).frame

theorem instruct_withTrace (m : Machine) (tr : Trace) :
    { m with trace := tr }.instruct =
      (fun x => { x with machine := { x.machine with trace := tr } }) <$> m.instruct := by
  have shifted : ∀ op, execute { m with steps := m.steps + 1, trace := tr } op =
      (fun r => ({ r.1 with trace := tr }, r.2)) <$> execute { m with steps := m.steps + 1 } op :=
    execute_withTrace { m with steps := m.steps + 1 } tr
  simp only [instruct, fetch]
  -- The command is fetched from memory, which the trace does not touch.
  cases m.ring.cellAt? m.c with
  | none => rfl
  | some i =>
    simp only [bind, Except.bind]
    rw [shifted]
    cases execute { m with steps := m.steps + 1 } (Instruction.decode (m.memory.get i)) <;> rfl

theorem instruct_trace (started : m.instruct = .ok x) : x.machine.trace = m.trace := by
  rw [instruct_frame started]

theorem instruct_idleSteps (started : m.instruct = .ok x) :
    x.machine.idleSteps = m.idleSteps := by
  rw [instruct_frame started]

@[simp] theorem account_status : (m.account x).status = x.machine.status := rfl

theorem settle_withTrace (m : Machine) (tr : Trace) :
    { m with trace := tr }.settle = { m.settle with trace := tr } := by
  -- The watchdog reads the idle count and the limit, never the trace.
  have sameIdle : ({ m with trace := tr } : Machine).idleExhausted = m.idleExhausted := rfl
  unfold settle
  rw [sameIdle]
  by_cases running : m.status = .running
  · by_cases exhausted : m.idleExhausted <;> simp [running, exhausted]
  · simp [running]

theorem settle_of_ne_running (stopped : m.status ≠ .running) : m.settle = m := by
  simp [settle, stopped]

theorem announceChange_of_eq {reg : Registry} {before : Status} (same : m.status = before) :
    announceChange reg before m = ([], none) := by
  simp [announceChange, same]

theorem announceChange_quiet {reg : Registry} (quiet : reg.Quiet) (before : Status) (m : Machine) :
    (announceChange reg before m).2 = none := by
  unfold announceChange announceStop
  split
  · rfl
  · exact Registry.emit_fault_none quiet .onHalt m

theorem announceChange_fault {reg : Registry} {before : Status} {f : Fault}
    (failed : (announceChange reg before m).2 = some f) :
    m.status ≠ before ∧ ∃ msg, f = .hook .onHalt msg := by
  unfold announceChange at failed
  by_cases same : m.status = before
  · simp [same] at failed
  · simp only [same, if_false, announceStop] at failed
    exact ⟨same, Registry.emit_fault failed⟩

end Phases

/-- The machine one step leaves when no observer interrupts it: the instruction's machine,
traced, counted and settled. A stopped machine, and one whose step fails, stay as they are. -/
def next (m : Machine) : Machine :=
  if m.status ≠ .running then m else
  match m.instruct with
  | .ok x => (m.account x).settle
  | .error _ => m

theorem next_of_instruct {m : Machine} {x : Executed} (running : m.status = .running)
    (started : m.instruct = .ok x) : m.next = (m.account x).settle := by
  simp [next, running, started]

theorem next_of_ne_running {m : Machine} (stopped : m.status ≠ .running) : m.next = m := by
  simp [next, stopped]

theorem next_of_error {m : Machine} {e : Crash} (failed : m.instruct = .error e) : m.next = m := by
  by_cases running : m.status = .running <;> simp [next, running, failed]

theorem next_withTrace (m : Machine) {tr : Trace} (flat : tr.depth = 0) :
    { m with trace := tr }.next = { m.next with trace := tr } := by
  -- A trace of depth zero keeps no entry, so recording the step leaves it as it was.
  have kept : ∀ e, tr.record e = tr := fun e => by simp [Trace.record, flat]
  have shifted := instruct_withTrace m tr
  have sameStatus : ({ m with trace := tr } : Machine).status = m.status := rfl
  by_cases running : m.status = .running
  · cases started : m.instruct with
    | error e =>
      have failed : ({ m with trace := tr } : Machine).instruct = .error e := by
        rw [shifted, started]
        rfl
      rw [next_of_error failed, next_of_error started]
    | ok x =>
      have started' : ({ m with trace := tr } : Machine).instruct =
          .ok { x with machine := { x.machine with trace := tr } } := by
        rw [shifted, started]
        rfl
      rw [next_of_instruct (sameStatus ▸ running) started', next_of_instruct running started,
        ← settle_withTrace]
      simp only [account, kept]
  · rw [next_of_ne_running (sameStatus ▸ running), next_of_ne_running running]

theorem step_quiet {reg : Registry} (quiet : reg.Quiet) (m : Machine) :
    (m.step reg).machine = m.next ∧ (m.step reg).fault = (m.step Registry.empty).fault := by
  by_cases running : m.status = .running
  · cases started : m.instruct with
    | error e => simp [step, next, running, started]
    | ok x =>
      -- No hook and no rule fails, so both steps run to their end and settle the same machine.
      have calm := announceChange_quiet quiet
      have still := announceChange_quiet Registry.empty_quiet
      have advanced := next_of_instruct running started
      by_cases noRules : reg.rules.isEmpty
      · simp [step, running, started, calm, still, noRules, advanced]
      · simp [step, running, started, calm, still, noRules, advanced,
          Registry.afterStep_fault_none quiet]
  · simp [step, next, running]

theorem step_of_instruct (reg : Registry) {m : Machine} {x : Executed}
    (running : m.status = .running) (started : m.instruct = .ok x) :
    ((announceChange reg .running x.machine).2.isSome ∧
      m.step reg = { machine := x.machine,
                     notes := (x.notes ++ (announceChange reg .running x.machine).1).toArray,
                     fault := (announceChange reg .running x.machine).2 }) ∨
    ((announceChange reg .running x.machine).2 = none ∧
      (m.step reg).machine = (m.account x).settle ∧
      ∃ lines : List String, (m.step reg).notes.toList =
        x.notes ++ (announceChange reg .running x.machine).1 ++
          (announceChange reg x.machine.status (m.account x).settle).1 ++
          lines.map Note.observer) := by
  rcases halted : announceChange reg .running x.machine with ⟨notes2, _ | f2⟩
  · right
    refine ⟨rfl, ?_⟩
    rcases watched : announceChange reg x.machine.status (m.account x).settle with
      ⟨notes3, _ | f3⟩
    · by_cases noRules : reg.rules.isEmpty
      · exact ⟨by simp [step, running, started, halted, watched, noRules],
          [], by simp [step, running, started, halted, watched, noRules]⟩
      · exact ⟨by simp [step, running, started, halted, watched, noRules],
          (reg.afterStep (m.account x).settle ⟨m.steps, x.command, Instruction.decode x.command,
            (m.account x).settle.a, (m.account x).settle.c, (m.account x).settle.d⟩).1,
          by simp [step, running, started, halted, watched, noRules]⟩
    · exact ⟨by simp [step, running, started, halted, watched],
        [], by simp [step, running, started, halted, watched]⟩
  · left
    exact ⟨rfl, by simp [step, running, started, halted]⟩

/-- A step ends in one of three ways. It completes, and leaves `next`. Its instruction fails,
and the machine stays. Or a step rule or an `on_halt` hook fails, and the machine is `next`,
less the trace entry and the idle count when the hook failed after an instruction that
stopped the machine. -/
theorem step_cases (reg : Registry) (m : Machine) :
    ((m.step reg).fault = none ∧ (m.step reg).machine = m.next) ∨
    (∃ c, (m.step reg).fault = some (.failed c) ∧ (m.step reg).machine = m ∧
      m.status = .running ∧ m.instruct = .error c) ∨
    (∃ f, (m.step reg).fault = some f ∧ (∃ msg, f = .rule msg ∨ f = .hook .onHalt msg) ∧
      ((m.step reg).machine = m.next ∨
        (∃ msg, f = .hook .onHalt msg ∧ m.status = .running ∧
          (∃ x, m.instruct = .ok x ∧ x.machine.status ≠ .running) ∧
          (m.step reg).machine = { m.next with trace := m.trace, idleSteps := m.idleSteps }))) := by
  by_cases running : m.status = .running
  · cases started : m.instruct with
    | error e =>
      -- The instruction failed: the step stops with the machine as it was.
      right; left
      exact ⟨e, by simp [step, running, started], by simp [step, running, started],
        running, rfl⟩
    | ok x =>
      have advanced := next_of_instruct running started
      -- The observers are called at three points: after the instruction if it stopped the
      -- machine, after the watchdog if it did, and at the end for the step rules.
      rcases halted : announceChange reg .running x.machine with ⟨notes2, _ | f2⟩
      · rcases watched : announceChange reg x.machine.status (m.account x).settle with
          ⟨notes3, _ | f3⟩
        · by_cases noRules : reg.rules.isEmpty
          · left
            simp [step, running, started, halted, watched, noRules, advanced]
          · rcases ruled : (reg.afterStep (m.account x).settle ⟨m.steps, x.command,
                Instruction.decode x.command, (m.account x).settle.a, (m.account x).settle.c,
                (m.account x).settle.d⟩).2
              with _ | f4
            · left
              simp [step, running, started, halted, watched, noRules, advanced, ruled]
            · right; right
              obtain ⟨msg, rfl⟩ := Registry.afterStep_fault ruled
              refine ⟨.rule msg, ?_, ⟨msg, .inl rfl⟩, .inl ?_⟩
              · simp [step, running, started, halted, watched, noRules, ruled]
              · simp [step, running, started, halted, watched, noRules, advanced]
        · right; right
          have shape := (announceChange_fault (by rw [watched])).2
          obtain ⟨msg, rfl⟩ := shape
          refine ⟨.hook .onHalt msg, ?_, ⟨msg, .inr rfl⟩, .inl ?_⟩
          · simp [step, running, started, halted, watched]
          · simp [step, running, started, halted, watched, advanced]
      · -- The instruction stopped the machine and an `on_halt` hook failed before the step
        -- was traced and counted.
        right; right
        obtain ⟨moved, msg, rfl⟩ := announceChange_fault (by rw [halted])
        have stopped : x.machine.status ≠ .running := running ▸ moved
        refine ⟨.hook .onHalt msg, ?_, ⟨msg, .inr rfl⟩,
          .inr ⟨msg, rfl, running, ⟨x, rfl, stopped⟩, ?_⟩⟩
        · simp [step, running, started, halted]
        · rw [advanced, settle_of_ne_running (by simpa using stopped)]
          simp only [step, running, started, halted, ne_eq, not_true_eq_false, if_false, account]
          rw [← instruct_trace started, ← instruct_idleSteps started]
  · left
    exact ⟨by simp [step, running], by simp [step, next, running]⟩

end Machine

end RingMachine
