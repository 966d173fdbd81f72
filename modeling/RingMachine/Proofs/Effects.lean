import RingMachine.Proofs.Budget
import RingMachine.Proofs.Instruction
import RingMachine.Proofs.Bounds

/-!
What one step does, read off the instruction table. On a running machine whose words are in
bounds, a step with observers that never fail fails only when a read returns something that
is not an integer. Otherwise it changes memory at most under `d`, and only for ROT and OPR,
which store there the accumulator's new value; it changes the accumulator only for ROT, OPR
and READ; it calls the provider exactly for a READ, and the sink exactly for a WRITE of a word
other than the largest, with the accumulator modulo 256; it sets each stopping status exactly
under that status's condition, and the idle stop exactly when the instruction did not stop
the machine and the idle count reached its limit; and it advances `c` and `d`, after a JMP or
a LOAD has set them, exactly when the machine still runs.
-/

namespace RingMachine

namespace Machine

def command (m : Machine) : Nat := m.memory.get m.c.toNat

def instruction (m : Machine) : Option Instruction := Instruction.decode m.command

def operand (m : Machine) : Nat := m.memory.get m.d.toNat

def StopsItself (m : Machine) : Prop :=
  m.instruction = some .halt ∨
    (m.instruction = some .write ∧
      (m.a = m.ring.maxValue ∨ ∃ f, m.output.write (m.a % 256).toNat = .error f)) ∨
    (m.instruction = some .read ∧ ∃ f, m.input.read.1 = .failure f)

/-- What a step that does not fail does to the running machine `m`, leaving `m'`. JMP sets `c`
and LOAD sets `d` to the cell under `d`; a machine still running then advances both. -/
structure Stepped (m m' : Machine) : Prop where
  memory_frame : ∀ j, j ≠ m.d.toNat → m'.memory.get j = m.memory.get j
  operand_kept : m.instruction ≠ some .rot → m.instruction ≠ some .opr →
    m'.memory.get m.d.toNat = m.operand
  rot_stores : m.instruction = some .rot →
    m'.a = m.ring.rotateRight m.operand ∧ m'.memory.get m.d.toNat = m'.a
  opr_stores : m.instruction = some .opr →
    m'.a = m.ring.digitSubtract m.a m.operand ∧ m'.memory.get m.d.toNat = m'.a
  a_kept : m.instruction ≠ some .rot → m.instruction ≠ some .opr →
    m.instruction ≠ some .read → m'.a = m.a
  read_value : m.instruction = some .read → ∀ x n, m.input.read.1 = .value x →
    x.toInteger = .ok n → m'.a = m.ring.reduce n
  read_nothing : m.instruction = some .read → (∀ x, m.input.read.1 ≠ .value x) →
    m'.a = m.ring.maxValue
  input_eq : m'.input = if m.instruction = some .read then m.input.read.2 else m.input
  output_eq : m'.output =
    if m.instruction = some .write ∧ m.a ≠ m.ring.maxValue then
      (m.output.write (m.a % 256).toNat).toOption.getD m.output
    else m.output
  halt_iff : m'.status = .haltCommand ↔ m.instruction = some .halt
  endOfOutput_iff : m'.status = .endOfOutput ↔
    m.instruction = some .write ∧ m.a = m.ring.maxValue
  writeError_iff : ∀ f, m'.status = .writeError f ↔
    m.instruction = some .write ∧ m.a ≠ m.ring.maxValue ∧
      m.output.write (m.a % 256).toNat = .error f
  readError_iff : ∀ f, m'.status = .readError f ↔
    m.instruction = some .read ∧ m.input.read.1 = .failure f
  idleLoop_iff : m'.status = .idleLoop ↔
    ¬ m.StopsItself ∧ ∃ k, m.idleLimit = some k ∧ k ≤ m'.idleSteps
  steps_eq : m'.steps = m.steps + 1
  idleSteps_eq : m'.idleSteps = if m.transfers then 0 else m.idleSteps + 1
  pointers :
    (m'.status = .running →
      m'.c = m.ring.successor (if m.instruction = some .jmp then (m.operand : Int) else m.c) ∧
      m'.d = m.ring.successor (if m.instruction = some .load then (m.operand : Int) else m.d)) ∧
    (m'.status ≠ .running →
      m'.c = (if m.instruction = some .jmp then (m.operand : Int) else m.c) ∧
      m'.d = (if m.instruction = some .load then (m.operand : Int) else m.d))

section Rules

/- What each rule of `Executes` does to the registers, the memory, the channels and the
status, on a machine whose `d` names the cell `i`. -/
variable {s m1 : Machine} {op : Option Instruction} {t : Bool} {notes : List Note} {i : Nat}

theorem Executes.memory_get (run : Executes s op m1 t notes) (cell : s.ring.cellAt? s.d = some i)
    (j : Nat) :
    m1.memory.get j =
      if j = i ∧ (op = some .rot ∨ op = some .opr) then m1.a else s.memory.get j := by
  cases run with
  | rot found | opr found =>
    obtain rfl := Option.some.inj (found.symm.trans cell)
    simp [eq_comm]
  | _ => simp

theorem Executes.accumulator (run : Executes s op m1 t notes)
    (cell : s.ring.cellAt? s.d = some i) :
    (op = some .rot → m1.a = s.ring.rotateRight (s.memory.get i)) ∧
      (op = some .opr → m1.a = s.ring.digitSubtract s.a (s.memory.get i)) ∧
      (op = some .read → ∀ x n, s.input.read.1 = .value x → x.toInteger = .ok n →
        m1.a = s.ring.reduce n) ∧
      (op = some .read → (∀ x, s.input.read.1 ≠ .value x) → m1.a = s.ring.maxValue) ∧
      (op ≠ some .rot → op ≠ some .opr → op ≠ some .read → m1.a = s.a) := by
  cases run with
  | rot found | opr found =>
    obtain rfl := Option.some.inj (found.symm.trans cell)
    simp
  | readValue reply read =>
    -- The reply is the value read, so any other reading of it is this one.
    refine ⟨by simp, by simp, fun _ x n same converted => ?_, fun _ none => ?_, by simp⟩
    · rw [reply, Reply.value.injEq] at same
      subst same
      rw [read, Except.ok.injEq] at converted
      rw [converted]
    · exact absurd reply (none _)
  | readEnd reply | readFailed reply =>
    simp [reply]
  | _ => simp

theorem Executes.input_eq (run : Executes s op m1 t notes) :
    m1.input = if op = some .read then s.input.read.2 else s.input := by
  cases run <;> simp

theorem Executes.output_eq (run : Executes s op m1 t notes) :
    m1.output =
      if op = some .write ∧ s.a ≠ s.ring.maxValue then
        (s.output.write (s.a % 256).toNat).toOption.getD s.output
      else s.output := by
  cases run with
  | written notMax sink => simp [notMax, sink, Except.toOption]
  | writeFailed notMax sink => simp [notMax, sink, Except.toOption]
  | endOfOutput atMax => simp [atMax]
  | _ => simp

theorem Executes.status_iff (run : Executes s op m1 t notes) (running : s.status = .running) :
    (m1.status = .haltCommand ↔ op = some .halt) ∧
      (m1.status = .endOfOutput ↔ op = some .write ∧ s.a = s.ring.maxValue) ∧
      (∀ f, m1.status = .writeError f ↔
        op = some .write ∧ s.a ≠ s.ring.maxValue ∧ s.output.write (s.a % 256).toNat = .error f) ∧
      (∀ f, m1.status = .readError f ↔ op = some .read ∧ s.input.read.1 = .failure f) ∧
      (m1.status = .running ↔
        ¬ (op = some .halt ∨
          (op = some .write ∧
            (s.a = s.ring.maxValue ∨ ∃ f, s.output.write (s.a % 256).toNat = .error f)) ∨
          (op = some .read ∧ ∃ f, s.input.read.1 = .failure f))) := by
  cases run with
  | written notMax sink => simp [running, notMax, sink]
  | writeFailed notMax sink => simp [notMax, sink]
  | endOfOutput atMax => simp [atMax]
  | readValue reply _ => simp [running, reply]
  | readEnd reply => simp [running, reply]
  | readFailed reply => simp [reply]
  | _ => simp [running]

theorem Executes.pointers (run : Executes s op m1 t notes) (cell : s.ring.cellAt? s.d = some i) :
    m1.c = (if op = some .jmp then (s.memory.get i : Int) else s.c) ∧
      m1.d = (if op = some .load then (s.memory.get i : Int) else s.d) := by
  cases run with
  | load found | jmp found =>
    obtain rfl := Option.some.inj (found.symm.trans cell)
    simp
  | _ => simp

theorem execute_error_iff (cell : s.ring.cellAt? s.d = some i) (op : Option Instruction) :
    (∃ e, execute s op = .error e) ↔
      op = some .read ∧ ∃ x e, s.input.read.1 = .value x ∧ x.toInteger = .error e := by
  -- Under `d` there is a cell, so only a read can fail: on a value that is no integer.
  rcases op with _ | ⟨_ | _ | _ | _ | _ | _ | _⟩
  · simp [execute]
  · simp [execute]
  · simp [execute, fetch, cell, bind, Except.bind, pure, Except.pure]
  · simp [execute, fetch, store, cell, bind, Except.bind, pure, Except.pure]
  · simp [execute, fetch, cell, bind, Except.bind, pure, Except.pure]
  · simp only [execute]
    split
    · simp
    · split <;> simp
  · simp [execute, fetch, store, cell, bind, Except.bind, pure, Except.pure]
  · simp only [execute]
    rcases s.input.read with ⟨reply, rest⟩
    cases reply with
    | value x => cases converted : x.toInteger <;> simp [converted]
    | endOfInput => simp
    | failure f => simp

end Rules

section Step

variable {m : Machine} {x : Executed}

theorem command_of_instruct (bounded : m.Bounded) (started : m.instruct = .ok x) :
    x.command = m.command := by
  have fetched := (instruct_ok started).1
  rw [fetch_of_cellAt (WordRing.cellAt_of_isValid bounded.c_valid)] at fetched
  exact (Except.ok.inj fetched).symm

theorem instruct_error_iff (bounded : m.Bounded) :
    (∃ e, m.instruct = .error e) ↔
      m.instruction = some .read ∧ ∃ x e, m.input.read.1 = .value x ∧ x.toInteger = .error e := by
  have failing := @execute_error_iff { m with steps := m.steps + 1 } m.d.toNat
    (WordRing.cellAt_of_isValid bounded.d_valid) m.instruction
  rw [← failing]
  -- The command is fetched without fail, so the step fails exactly when its instruction does.
  unfold instruct
  rw [fetch_of_cellAt (WordRing.cellAt_of_isValid bounded.c_valid)]
  simp only [bind, Except.bind, instruction, command]
  cases execute { m with steps := m.steps + 1 } (Instruction.decode (m.memory.get m.c.toNat)) with
  | error e => simp
  | ok r => simp [pure, Except.pure]

theorem next_fields (running : m.status = .running) (started : m.instruct = .ok x) :
    m.next.memory = x.machine.memory ∧ m.next.a = x.machine.a ∧
      m.next.input = x.machine.input ∧ m.next.output = x.machine.output := by
  rw [next_of_instruct running started, settle_frame]
  exact ⟨rfl, rfl, rfl, rfl⟩

theorem next_status_iff (running : m.status = .running) (started : m.instruct = .ok x)
    {σ : Status} (notRunning : σ ≠ .running) (notIdle : σ ≠ .idleLoop) :
    m.next.status = σ ↔ x.machine.status = σ := by
  rw [next_status running started]
  by_cases moved : x.machine.status = .running
  · rw [if_neg (not_not.mpr moved), moved]
    split <;> simp [Ne.symm notRunning, Ne.symm notIdle]
  · rw [if_pos moved]

theorem next_idleLoop_iff (running : m.status = .running) (started : m.instruct = .ok x) :
    m.next.status = .idleLoop ↔
      x.machine.status = .running ∧ ∃ k, m.idleLimit = some k ∧ k ≤ m.next.idleSteps := by
  cases limit : m.idleLimit with
  | some k =>
    rw [(next_watchdog running started limit).1]
    simp
  | none =>
    -- Without a limit the watchdog never fires, and no instruction sets the idle stop.
    have calm : m.next.idleExhausted = false :=
      idleExhausted_of_none ((next_counts running started).2.2.trans limit)
    have notIdle : x.machine.status ≠ .idleLoop :=
      (instruct_executes started).status_ne_idleLoop (by simp [running])
    rw [next_status running started, calm]
    split <;> simp_all

theorem next_pointers (running : m.status = .running) (started : m.instruct = .ok x) :
    (m.next.status = .running →
      m.next.c = m.ring.successor x.machine.c ∧ m.next.d = m.ring.successor x.machine.d) ∧
    (m.next.status ≠ .running → m.next.c = x.machine.c ∧ m.next.d = x.machine.d) := by
  have sameRing : x.machine.ring = m.ring := by rw [instruct_frame started]
  rw [next_of_instruct running started]
  unfold settle
  rw [account_status]
  by_cases moved : x.machine.status = .running
  · rw [if_neg (not_not.mpr moved)]
    -- Still running after the instruction: the watchdog either stops it or lets it advance.
    by_cases exhausted : (m.account x).idleExhausted
    · rw [if_pos exhausted]
      simp [account]
    · rw [if_neg exhausted]
      simp [account, sameRing, moved]
  · rw [if_pos moved]
    simp [moved, account]

theorem next_stepped (bounded : m.Bounded) (running : m.status = .running)
    (started : m.instruct = .ok x) : Stepped m m.next := by
  have cellD := WordRing.cellAt_of_isValid bounded.d_valid
  have run : Executes { m with steps := m.steps + 1 } m.instruction x.machine x.transferred
      x.notes := by
    have ran := instruct_executes started
    rwa [command_of_instruct bounded started] at ran
  obtain ⟨memory, acc, input, output⟩ := next_fields running started
  obtain ⟨halts, ends, writeFails, readFails, keeps⟩ := run.status_iff running
  obtain ⟨rotAcc, oprAcc, readAcc, noneAcc, keptAcc⟩ := run.accumulator cellD
  have cells := run.memory_get cellD
  obtain ⟨counted, idle, -⟩ := next_counts running started
  obtain ⟨cSet, dSet⟩ := run.pointers cellD
  obtain ⟨advanced, stayed⟩ := next_pointers running started
  refine
    { memory_frame := fun j other => ?_
      operand_kept := fun notRot notOpr => ?_
      rot_stores := fun isRot => ⟨by rw [acc, rotAcc isRot]; rfl, ?_⟩
      opr_stores := fun isOpr => ⟨by rw [acc, oprAcc isOpr]; rfl, ?_⟩
      a_kept := fun notRot notOpr notRead => by rw [acc, keptAcc notRot notOpr notRead]
      read_value := fun isRead v n reply read => by rw [acc, readAcc isRead v n reply read]
      read_nothing := fun isRead none => by rw [acc, noneAcc isRead none]
      input_eq := by rw [input, run.input_eq]
      output_eq := by rw [output, run.output_eq]
      halt_iff := (next_status_iff running started (by simp) (by simp)).trans halts
      endOfOutput_iff := (next_status_iff running started (by simp) (by simp)).trans ends
      writeError_iff := fun f =>
        (next_status_iff running started (by simp) (by simp)).trans (writeFails f)
      readError_iff := fun f =>
        (next_status_iff running started (by simp) (by simp)).trans (readFails f)
      idleLoop_iff := by rw [next_idleLoop_iff running started, keeps]; rfl
      steps_eq := counted
      idleSteps_eq := idle
      pointers := ⟨fun still => ?_, fun stopped => ?_⟩ }
  · have same := cells j
    rw [if_neg (fun both => other both.1)] at same
    rw [memory]
    exact_mod_cast same
  · have same := cells m.d.toNat
    rw [if_neg (by simp [notRot, notOpr])] at same
    rw [memory]
    exact_mod_cast same
  · rw [memory, cells, if_pos ⟨rfl, .inl isRot⟩, acc]
  · rw [memory, cells, if_pos ⟨rfl, .inr isOpr⟩, acc]
  · rw [(advanced still).1, (advanced still).2, cSet, dSet]
    exact ⟨rfl, rfl⟩
  · rw [(stayed stopped).1, (stayed stopped).2, cSet, dSet]
    exact ⟨rfl, rfl⟩

/-- One step of a running machine whose words are in bounds, with observers that never fail.
It fails exactly when the instruction is a READ and the provider returns something that is no
integer; otherwise it does what the instruction table says. -/
theorem step_follows_instruction_table {reg : Registry} (quiet : reg.Quiet)
    (bounded : m.Bounded) (running : m.status = .running) :
    ((m.step reg).fault ≠ none ↔
        m.instruction = some .read ∧ ∃ x e, m.input.read.1 = .value x ∧ x.toInteger = .error e) ∧
      ((m.step reg).fault = none → Stepped m (m.step reg).machine) := by
  have crashes : m.Crashes ↔ ∃ e, m.instruct = .error e :=
    ⟨fun crashed => crashed.2, fun failed => ⟨running, failed⟩⟩
  refine ⟨?_, fun calm => ?_⟩
  · rw [ne_eq, step_quiet_fault_none quiet, not_not, crashes, instruct_error_iff bounded]
  · have fine := (step_quiet_fault_none quiet).mp calm
    rw [(step_quiet quiet m).1]
    cases started : m.instruct with
    | error e => exact absurd ⟨running, e, started⟩ fine
    | ok x => exact next_stepped bounded running started

theorem self_subtracting_cell_steps :
    let m : Machine :=
      { ring := .standard, memory := Memory.ofImage [124], trace := { depth := 0 },
        input := { pending := [] }, output := {} }
    Registry.empty.Quiet ∧ m.Bounded ∧ m.status = .running ∧
      (((m.step Registry.empty).fault ≠ none ↔
        m.instruction = some .read ∧ ∃ x e, m.input.read.1 = .value x ∧ x.toInteger = .error e) ∧
      ((m.step Registry.empty).fault = none → Stepped m (m.step Registry.empty).machine)) := by
  intro m
  have bounded : m.Bounded := by
    have largest : WordRing.standard.maxValue = 59048 := by decide
    refine ⟨by decide, by decide, by decide, fun i => ?_⟩
    show (Memory.ofImage [124]).get i ≤ WordRing.standard.maxValue
    rw [Memory.get_ofImage, largest]
    rcases i with _ | i <;> simp
  exact ⟨Registry.empty_quiet, bounded, rfl,
    step_follows_instruction_table Registry.empty_quiet bounded rfl⟩

end Step

end Machine

end RingMachine
