import RingMachine.Proofs.Step

/-!
What one observer-free step does, instruction by instruction. The rules of `Executes` are
exactly what `execute` computes, so a step is fixed by the command it fetches and the rule of
that command's instruction. A step whose instruction leaves the machine running and its idle
count under the limit advances both pointers to the next cell, wrapping at the end of memory;
one whose instruction stops the machine is traced and counted, and moves nothing else.
-/

namespace RingMachine

namespace WordRing

theorem successor_natCast (r : WordRing) (i : Nat) (word : i < r.size) :
    r.successor i = (i + 1) % r.size := by
  rw [successor, r.reduce_natCast i word]

theorem successor_of_lt (r : WordRing) (i : Nat) (inside : i + 1 < r.size) :
    r.successor i = i + 1 := by
  rw [r.successor_natCast i (by omega), Nat.mod_eq_of_lt inside]

theorem cellAt_natCast (r : WordRing) (i : Nat) (word : i < r.size) : r.cellAt? i = some i := by
  simp [cellAt?, word]

end WordRing

namespace Machine

section Rules

variable {m m1 : Machine} {op : Option Instruction} {transferred : Bool} {notes : List Note}

theorem Executes.execute_eq (run : Executes m op m1 transferred notes) :
    execute m op = .ok (m1, transferred, notes) := by
  cases run with
  | skip | halt => rfl
  | load cell | rot cell | jmp cell | opr cell =>
    simp [execute, fetch, store, cell, bind, Except.bind, pure, Except.pure]
  | endOfOutput atMax => simp [execute, atMax]
  | written notMax sink | writeFailed notMax sink => simp [execute, notMax, sink]
  | readValue reply read => simp only [execute, reply, read]
  | readEnd reply | readFailed reply => simp only [execute, reply]

theorem instruct_of_executes {command : Nat} (fetched : m.fetch m.c = .ok command)
    (run : Executes { m with steps := m.steps + 1 } (Instruction.decode command) m1 transferred
      notes) :
    m.instruct = .ok ⟨command, m1, transferred, notes⟩ := by
  simp [instruct, fetched, run.execute_eq, bind, Except.bind, pure, Except.pure]

end Rules

section Settle

variable {m : Machine} {x : Executed}

theorem idleExhausted_eq_false (below : ∀ k, m.idleLimit = some k → m.idleSteps < k) :
    m.idleExhausted = false := by
  unfold idleExhausted
  split
  · rename_i k limit
    simpa using below k limit
  · rfl

theorem next_advance (running : m.status = .running) (started : m.instruct = .ok x)
    (still : x.machine.status = .running) (fresh : (m.account x).idleExhausted = false) :
    m.next = { m.account x with
      c := (m.ring.successor x.machine.c : Int), d := (m.ring.successor x.machine.d : Int) } := by
  have sameRing : x.machine.ring = m.ring := by rw [instruct_frame started]
  rw [next_of_instruct running started]
  simp only [settle, account_status, still, fresh]
  simp [account, sameRing]

theorem next_stop (running : m.status = .running) (started : m.instruct = .ok x)
    (stopped : x.machine.status ≠ .running) : m.next = m.account x := by
  rw [next_of_instruct running started, settle_of_ne_running (by simpa using stopped)]

theorem next_status_of_stop (running : m.status = .running) (started : m.instruct = .ok x)
    (stopped : x.machine.status ≠ .running) : m.next.status = x.machine.status := by
  rw [next_stop running started stopped, account_status]

end Settle

section Steps

/- The steps over the cells of a program that reads and writes: each is fixed by the cell under
`c`, what the channel answers, and whether the idle count stays under the limit. -/
variable {m : Machine} {i : Nat}

theorem fetch_of_cellAt (cell : m.ring.cellAt? m.c = some i) :
    m.fetch m.c = .ok (m.memory.get i) := by
  simp [fetch, cell]

theorem next_blank (running : m.status = .running) (cell : m.ring.cellAt? m.c = some i)
    (blank : Instruction.decode (m.memory.get i) = none)
    (fresh : ∀ k, m.idleLimit = some k → m.idleSteps + 1 < k) :
    m.next = { m with
      steps := m.steps + 1, idleSteps := m.idleSteps + 1,
      trace := m.trace.record ⟨m.steps, m.c, m.d, m.a, m.memory.get i, none⟩,
      c := (m.ring.successor m.c : Int), d := (m.ring.successor m.d : Int) } := by
  have started : m.instruct = .ok ⟨m.memory.get i, { m with steps := m.steps + 1 }, false, []⟩ :=
    instruct_of_executes (fetch_of_cellAt cell) (by rw [blank]; exact .skip)
  rw [next_advance running started running (idleExhausted_eq_false fresh)]
  simp [account, blank]

theorem next_read_value {v : Int} (running : m.status = .running)
    (cell : m.ring.cellAt? m.c = some i)
    (reads : Instruction.decode (m.memory.get i) = some .read)
    (fed : m.input.read.1 = .value (.int v)) (fresh : ∀ k, m.idleLimit = some k → 0 < k) :
    m.next = { m with
      steps := m.steps + 1, a := m.ring.reduce v, input := m.input.read.2, idleSteps := 0,
      trace := m.trace.record ⟨m.steps, m.c, m.d, m.ring.reduce v, m.memory.get i, some .read⟩,
      c := (m.ring.successor m.c : Int), d := (m.ring.successor m.d : Int) } := by
  have started : m.instruct = .ok ⟨m.memory.get i,
      { m with steps := m.steps + 1, input := m.input.read.2, a := m.ring.reduce v }, true, []⟩ :=
    instruct_of_executes (fetch_of_cellAt cell) (by rw [reads]; exact .readValue fed rfl)
  rw [next_advance running started running (idleExhausted_eq_false fresh)]
  simp [account, reads]

theorem next_read_end (running : m.status = .running) (cell : m.ring.cellAt? m.c = some i)
    (reads : Instruction.decode (m.memory.get i) = some .read)
    (ended : m.input.read.1 = .endOfInput)
    (fresh : ∀ k, m.idleLimit = some k → m.idleSteps + 1 < k) :
    m.next = { m with
      steps := m.steps + 1, a := m.ring.maxValue, input := m.input.read.2,
      idleSteps := m.idleSteps + 1,
      trace := m.trace.record ⟨m.steps, m.c, m.d, m.ring.maxValue, m.memory.get i, some .read⟩,
      c := (m.ring.successor m.c : Int), d := (m.ring.successor m.d : Int) } := by
  have started : m.instruct = .ok ⟨m.memory.get i,
      { m with steps := m.steps + 1, input := m.input.read.2, a := m.ring.maxValue }, false, []⟩ :=
    instruct_of_executes (fetch_of_cellAt cell) (by rw [reads]; exact .readEnd ended)
  rw [next_advance running started running (idleExhausted_eq_false fresh)]
  simp [account, reads]

theorem next_write_byte {out : Output} (running : m.status = .running)
    (cell : m.ring.cellAt? m.c = some i)
    (writes : Instruction.decode (m.memory.get i) = some .write)
    (notMax : m.a ≠ m.ring.maxValue) (sink : m.output.write (m.a % 256).toNat = .ok out)
    (fresh : ∀ k, m.idleLimit = some k → 0 < k) :
    m.next = { m with
      steps := m.steps + 1, output := out, idleSteps := 0,
      trace := m.trace.record ⟨m.steps, m.c, m.d, m.a, m.memory.get i, some .write⟩,
      c := (m.ring.successor m.c : Int), d := (m.ring.successor m.d : Int) } := by
  have started : m.instruct = .ok ⟨m.memory.get i,
      { m with steps := m.steps + 1, output := out }, true, []⟩ :=
    instruct_of_executes (fetch_of_cellAt cell) (by rw [writes]; exact .written notMax sink)
  rw [next_advance running started running (idleExhausted_eq_false fresh)]
  simp [account, writes]

theorem next_write_end (running : m.status = .running) (cell : m.ring.cellAt? m.c = some i)
    (writes : Instruction.decode (m.memory.get i) = some .write) (atMax : m.a = m.ring.maxValue) :
    m.next = { m with
      steps := m.steps + 1, status := .endOfOutput, idleSteps := m.idleSteps + 1,
      trace := m.trace.record ⟨m.steps, m.c, m.d, m.a, m.memory.get i, some .write⟩ } := by
  have started : m.instruct = .ok ⟨m.memory.get i,
      { m with steps := m.steps + 1, status := .endOfOutput }, false, []⟩ :=
    instruct_of_executes (fetch_of_cellAt cell) (by rw [writes]; exact .endOfOutput atMax)
  rw [next_stop running started (by simp)]
  simp [account, writes]

end Steps

end Machine

end RingMachine
