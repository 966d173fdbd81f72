import RingMachine.Proofs.Observers

/-!
The idle watchdog. A step transfers when the sink takes the byte it writes or the provider
returns a value for it to read. After a load the idle count is the number of steps since the
last transfer, or since the load. While the machine runs the count stays below the limit; the
step that brings it to the limit stops the machine there, pointers unadvanced, unless its
instruction stopped it first. So a machine with a limit never takes more steps than the limit
times one more than its transfers, and one without a limit is never stopped by the watchdog.
-/

namespace RingMachine

namespace Machine

def transfersBy (m : Machine) : Option Instruction → Bool
  | some .write =>
    m.a != (m.ring.maxValue : Int) &&
      match m.output.write (m.a % 256).toNat with
      | .ok _ => true
      | .error _ => false
  | some .read =>
    match m.input.read.1 with
    | .value _ => true
    | _ => false
  | _ => false

def transfers (m : Machine) : Bool :=
  match m.fetch m.c with
  | .ok command => m.transfersBy (Instruction.decode command)
  | .error _ => false

def sinceTransfer (flags : List Bool) : Nat :=
  (flags.reverse.takeWhile fun b => !b).length

@[simp] theorem sinceTransfer_nil : sinceTransfer [] = 0 := rfl

@[simp] theorem sinceTransfer_append (flags : List Bool) (b : Bool) :
    sinceTransfer (flags ++ [b]) = if b then 0 else sinceTransfer flags + 1 := by
  cases b <;> simp [sinceTransfer]

/-- The steps taken from `start` by a running machine whose instruction did not fail, with
whether each transferred, oldest first. -/
inductive Trail (start : Machine) : List Bool → Machine → Prop
  | here : Trail start [] start
  | step {flags : List Bool} {m : Machine} {x : Executed} : Trail start flags m →
      m.status = .running → m.instruct = .ok x → Trail start (flags ++ [m.transfers]) m.next

section Phases

variable {m : Machine} {x : Executed}

theorem Executes.status_ne_idleLoop {m1 : Machine} {op : Option Instruction} {transferred : Bool}
    {notes : List Note} (run : Executes m op m1 transferred notes)
    (notIdle : m.status ≠ .idleLoop) : m1.status ≠ .idleLoop := by
  cases run <;> simp_all

theorem Executes.transferred_eq {m1 : Machine} {op : Option Instruction} {transferred : Bool}
    {notes : List Note} (run : Executes m op m1 transferred notes) :
    transferred = m.transfersBy op := by
  cases run <;> simp_all [transfersBy]

theorem instruct_transferred (started : m.instruct = .ok x) : x.transferred = m.transfers := by
  obtain ⟨fetched, done⟩ := instruct_ok started
  unfold transfers
  rw [fetched, (execute_executes done).transferred_eq]
  rfl

theorem settle_frame (m : Machine) :
    m.settle = { m with status := m.settle.status, c := m.settle.c, d := m.settle.d } := by
  unfold settle
  split_ifs <;> rfl

theorem settle_pointers_of_exhausted (exhausted : m.idleExhausted = true) :
    m.settle.c = m.c ∧ m.settle.d = m.d := by
  unfold settle
  -- The branch that advances the pointers needs the limit unreached.
  split_ifs <;> exact ⟨rfl, rfl⟩

theorem idleExhausted_of_limit {k : Nat} (limit : m.idleLimit = some k) :
    m.idleExhausted = decide (k ≤ m.idleSteps) := by
  simp [idleExhausted, limit]

theorem idleExhausted_of_none (limit : m.idleLimit = none) : m.idleExhausted = false := by
  simp [idleExhausted, limit]

theorem next_counts (running : m.status = .running) (started : m.instruct = .ok x) :
    m.next.steps = m.steps + 1 ∧
      m.next.idleSteps = (if m.transfers then 0 else m.idleSteps + 1) ∧
      m.next.idleLimit = m.idleLimit := by
  have frame := instruct_frame started
  rw [next_of_instruct running started, settle_frame, ← instruct_transferred started]
  refine ⟨?_, ?_, ?_⟩
  · simp only [account]
    rw [frame]
  · simp only [account]
    rw [instruct_idleSteps started]
  · simp only [account]
    rw [frame]

theorem next_idleExhausted (running : m.status = .running) (started : m.instruct = .ok x) :
    m.next.idleExhausted = (m.account x).idleExhausted := by
  rw [next_of_instruct running started, settle_frame]
  rfl

theorem next_status (running : m.status = .running) (started : m.instruct = .ok x) :
    m.next.status =
      if x.machine.status ≠ .running then x.machine.status
      else if m.next.idleExhausted then .idleLoop else .running := by
  rw [next_idleExhausted running started, next_of_instruct running started]
  unfold settle
  by_cases stillRunning : x.machine.status = .running <;> simp [stillRunning]
  split_ifs <;> rfl

theorem next_watchdog {k : Nat} (running : m.status = .running) (started : m.instruct = .ok x)
    (limit : m.idleLimit = some k) :
    (m.next.status = .idleLoop ↔ x.machine.status = .running ∧ k ≤ m.next.idleSteps) ∧
      (m.next.status = .idleLoop → m.next.c = x.machine.c ∧ m.next.d = x.machine.d) := by
  have notIdle : x.machine.status ≠ .idleLoop :=
    (instruct_executes started).status_ne_idleLoop (by simp [running])
  have exhausted := idleExhausted_of_limit ((next_counts running started).2.2.trans limit)
  have status := next_status running started
  refine ⟨?_, fun stopped => ?_⟩
  · rw [status, exhausted]
    by_cases stillRunning : x.machine.status = .running
    · by_cases reached : k ≤ m.next.idleSteps <;> simp [stillRunning, reached]
    · simp [stillRunning, notIdle]
  · -- Only the watchdog sets this status, and it does not move the pointers.
    have stillRunning : x.machine.status = .running := by
      by_contra moved
      rw [status, if_pos moved] at stopped
      exact notIdle stopped
    have reached : m.next.idleExhausted = true := by
      rw [status, if_neg (not_not.mpr stillRunning)] at stopped
      by_contra fresh
      simp [fresh] at stopped
    rw [next_idleExhausted running started] at reached
    rw [next_of_instruct running started]
    exact settle_pointers_of_exhausted reached

end Phases

/-- What the counts satisfy after the steps `flags` from a freshly loaded machine. -/
structure IdleAccount (flags : List Bool) (m : Machine) : Prop where
  steps_eq : m.steps = flags.length
  idle_eq : m.idleSteps = sinceTransfer flags
  below : ∀ k, m.idleLimit = some k → 1 ≤ k → m.status = .running → m.idleSteps < k
  within : ∀ k, m.idleLimit = some k → 1 ≤ k →
    m.idleSteps ≤ k ∧ m.steps ≤ k * flags.count true + m.idleSteps
  unwatched : m.idleLimit = none → m.status ≠ .idleLoop

section Account

variable {flags : List Bool} {m : Machine} {x : Executed}

theorem IdleAccount.fresh (running : m.status = .running) (counted : m.steps = 0)
    (idle : m.idleSteps = 0) : IdleAccount [] m := by
  refine ⟨by simp [counted], by simp [idle], ?_, ?_, ?_⟩
  · intro k _ positive _
    omega
  · intro k _ _
    simp [counted, idle]
  · intro _
    simp [running]

theorem IdleAccount.next (acc : IdleAccount flags m) (running : m.status = .running)
    (started : m.instruct = .ok x) : IdleAccount (flags ++ [m.transfers]) m.next := by
  obtain ⟨counted, idle, limited⟩ := next_counts running started
  have status := next_status running started
  refine ⟨?_, ?_, ?_, ?_, ?_⟩
  · simp [counted, acc.steps_eq]
  · rw [idle, sinceTransfer_append, acc.idle_eq]
  · -- Still running after the step: the watchdog found the count under the limit.
    intro k limit positive stillRunning
    rw [limited] at limit
    rw [status, idleExhausted_of_limit ((next_counts running started).2.2.trans limit)]
      at stillRunning
    split_ifs at stillRunning with moved reached
    · exact absurd stillRunning moved
    · simpa using reached
  · intro k limit positive
    rw [limited] at limit
    have before := acc.below k limit positive running
    have bound := acc.within k limit positive
    rw [idle, counted]
    -- A transfer resets the count and adds one to the transfers, which pays for `k` steps.
    cases transferred : m.transfers
    · simp only [Bool.false_eq_true, if_false, List.count_append, List.count_singleton]
      simp
      omega
    · simp only [if_true, List.count_append, List.count_singleton]
      simp only [beq_self_eq_true, if_true, Nat.mul_add, Nat.mul_one]
      omega
  · intro unlimited
    rw [limited] at unlimited
    have notIdle : x.machine.status ≠ .idleLoop :=
      (instruct_executes started).status_ne_idleLoop (by simp [running])
    rw [status, idleExhausted_of_none ((next_counts running started).2.2.trans unlimited)]
    by_cases moved : x.machine.status = .running <;> simp [moved, notIdle]

theorem IdleAccount.steps_le {k : Nat} (acc : IdleAccount flags m) (limit : m.idleLimit = some k)
    (positive : 1 ≤ k) : m.steps ≤ k * (flags.count true + 1) := by
  obtain ⟨capped, paid⟩ := acc.within k limit positive
  rw [Nat.mul_add, Nat.mul_one]
  omega

theorem IdleAccount.watchdog {k : Nat} (acc : IdleAccount flags m) (running : m.status = .running)
    (started : m.instruct = .ok x) (limit : m.idleLimit = some k) (positive : 1 ≤ k) :
    (m.next.status = .idleLoop ↔ x.machine.status = .running ∧ m.next.idleSteps = k) ∧
      (m.next.status = .idleLoop → m.next.c = x.machine.c ∧ m.next.d = x.machine.d) := by
  -- The next machine keeps the account too, so its count is at most `k`.
  have capped := ((acc.next running started).within k
    ((next_counts running started).2.2.trans limit) positive).1
  obtain ⟨stops, pointers⟩ := next_watchdog running started limit
  refine ⟨?_, pointers⟩
  rw [stops]
  constructor
  · rintro ⟨moving, reached⟩
    exact ⟨moving, by omega⟩
  · rintro ⟨moving, rfl⟩
    exact ⟨moving, Nat.le_refl _⟩

theorem Trail.idleLimit {start : Machine} (trail : Trail start flags m) :
    m.idleLimit = start.idleLimit := by
  induction trail with
  | here => rfl
  | step _ running started ih => rw [(next_counts running started).2.2, ih]

theorem Trail.idleAccount {start : Machine} (trail : Trail start flags m)
    (running : start.status = .running) (counted : start.steps = 0) (idle : start.idleSteps = 0) :
    IdleAccount flags m := by
  induction trail with
  | here => exact .fresh running counted idle
  | step _ running started ih => exact ih.next running started

theorem Trail.next {start : Machine} (trail : Trail start flags m) :
    ∃ flags', Trail start flags' m.next := by
  by_cases running : m.status = .running
  · cases started : m.instruct with
    | error e => exact ⟨flags, by rw [next_of_error started]; exact trail⟩
    | ok x => exact ⟨_, trail.step running started⟩
  · exact ⟨flags, by rw [next_of_ne_running running]; exact trail⟩

end Account

theorem load_fresh {m m0 : Machine} {image : List Int} (loaded : m.load image = .ok m0) :
    m0.status = .running ∧ m0.steps = 0 ∧ m0.idleSteps = 0 ∧ m0.idleLimit = m.idleLimit := by
  unfold load at loaded
  split at loaded
  · cases loaded
  · split at loaded
    · cases loaded
    · cases loaded
      exact ⟨rfl, rfl, rfl, rfl⟩

theorem drive_trail (reg : Registry) (m : Machine) (calls : List Drive)
    (pass : m.ObserversPass reg calls) : ∃ flags, Trail m flags (m.drive reg calls).machine := by
  rw [drive_unobserved reg m calls pass]
  apply @drive_preserves Registry.empty (fun m' => ∃ flags, Trail m flags m') _ calls m
    ⟨[], .here⟩
  rintro m' ⟨flags, trail⟩
  rw [(step_quiet Registry.empty_quiet m').1]
  exact trail.next

/-- Since a load, along calls in which no observer fails, the idle count is the number of steps
since the last transfer, or since the load. Under a limit `k ≥ 1` it is below `k` while the
machine runs, the machine has taken at most `k` times one more than its transfers, and the next
step stops the machine for idling exactly when its instruction left it running and the count
reaches `k`, with `c` and `d` then where the instruction put them. With no limit the watchdog
never stops the machine. -/
theorem idle_count_since_transfer {reg : Registry} {m m0 : Machine} {image : List Int}
    (loaded : m.load image = .ok m0) (calls : List Drive) (pass : m0.ObserversPass reg calls) :
    let session := (m0.drive reg calls).machine
    ∃ flags, Trail m0 flags session ∧ session.steps = flags.length ∧
      session.idleSteps = sinceTransfer flags ∧
      (∀ k, m0.idleLimit = some k → 1 ≤ k →
        (session.status = .running → session.idleSteps < k) ∧
        session.steps ≤ k * (flags.count true + 1) ∧
        (∀ x, session.status = .running → session.instruct = .ok x →
          (session.next.status = .idleLoop ↔
            x.machine.status = .running ∧ session.next.idleSteps = k) ∧
          (session.next.status = .idleLoop →
            session.next.c = x.machine.c ∧ session.next.d = x.machine.d))) ∧
      (m0.idleLimit = none → session.status ≠ .idleLoop) := by
  dsimp only
  obtain ⟨running, counted, idle, -⟩ := load_fresh loaded
  obtain ⟨flags, trail⟩ := drive_trail reg m0 calls pass
  have acc := trail.idleAccount running counted idle
  have limited := trail.idleLimit
  refine ⟨flags, trail, acc.steps_eq, acc.idle_eq, fun k limit positive => ?_,
    fun unlimited => acc.unwatched (limited.trans unlimited)⟩
  have sessionLimit := limited.trans limit
  exact ⟨acc.below k sessionLimit positive, acc.steps_le sessionLimit positive,
    fun x stillRunning started => acc.watchdog stillRunning started sessionLimit positive⟩

theorem loaded_machine_idle_count :
    let fresh : Machine :=
      { ring := .standard, idleLimit := some 2, trace := { depth := 0 },
        input := { pending := [] }, output := {} }
    let loaded : Machine :=
      { fresh with memory := Memory.ofImage [], trace := fresh.trace.clear }
    fresh.load [] = .ok loaded ∧ loaded.ObserversPass Registry.empty [.step] ∧
    ∃ flags, Trail loaded flags (loaded.drive Registry.empty [.step]).machine ∧
      (loaded.drive Registry.empty [.step]).machine.steps = flags.length ∧
      (loaded.drive Registry.empty [.step]).machine.idleSteps = sinceTransfer flags ∧
      (∀ k, loaded.idleLimit = some k → 1 ≤ k →
        ((loaded.drive Registry.empty [.step]).machine.status = .running →
          (loaded.drive Registry.empty [.step]).machine.idleSteps < k) ∧
        (loaded.drive Registry.empty [.step]).machine.steps ≤ k * (flags.count true + 1) ∧
        (∀ x, (loaded.drive Registry.empty [.step]).machine.status = .running →
          (loaded.drive Registry.empty [.step]).machine.instruct = .ok x →
          ((loaded.drive Registry.empty [.step]).machine.next.status = .idleLoop ↔
            x.machine.status = .running ∧
              (loaded.drive Registry.empty [.step]).machine.next.idleSteps = k) ∧
          ((loaded.drive Registry.empty [.step]).machine.next.status = .idleLoop →
            (loaded.drive Registry.empty [.step]).machine.next.c = x.machine.c ∧
              (loaded.drive Registry.empty [.step]).machine.next.d = x.machine.d))) ∧
      (loaded.idleLimit = none →
        (loaded.drive Registry.empty [.step]).machine.status ≠ .idleLoop) := by
  intro fresh loaded
  have built : fresh.load [] = .ok loaded := rfl
  have pass : loaded.ObserversPass Registry.empty [.step] :=
    ⟨step_empty_passed loaded, fun _ => trivial⟩
  exact ⟨built, pass, idle_count_since_transfer built [.step] pass⟩

end Machine

end RingMachine
