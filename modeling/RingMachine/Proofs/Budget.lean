import RingMachine.Proofs.Idle

/-!
Step budgets. With observers that never fail, a run follows the observer-free execution. A run
with a budget of `n` steps leaves the machine `n` steps along it, however soon the machine
stops, since a stopped machine and one whose instruction fails both stay where they are; the
run fails exactly when one of those steps starts from a machine whose instruction fails. A run
without a budget leaves the machine where the execution first stops.
-/

namespace RingMachine

namespace Machine

/-- A running machine whose instruction fails: the step it would take fails instead. -/
def Crashes (m : Machine) : Prop := m.status = .running ∧ ∃ c, m.instruct = .error c

section Quiet

variable {reg : Registry} {m : Machine}

theorem next_of_crashes (crashed : m.Crashes) : m.next = m := by
  obtain ⟨-, c, failed⟩ := crashed
  exact next_of_error failed

theorem not_crashes_of_ne_running (stopped : m.status ≠ .running) : ¬ m.Crashes :=
  fun crashed => stopped crashed.1

theorem step_quiet_fault_none (quiet : reg.Quiet) : (m.step reg).fault = none ↔ ¬ m.Crashes := by
  rw [(step_quiet quiet m).2]
  constructor
  · rintro calm ⟨running, c, failed⟩
    rw [step_failed _ running failed] at calm
    cases calm
  · intro fine
    cases faulted : (m.step Registry.empty).fault with
    | none => rfl
    | some f =>
      obtain ⟨c, -, running, failed⟩ := step_empty_fault faulted
      exact absurd ⟨running, c, failed⟩ fine

theorem iterate_next_of_crashes {k : Nat} (crashed : (next^[k] m).Crashes) {j : Nat}
    (later : k ≤ j) :
    next^[j] m = next^[k] m := by
  obtain ⟨extra, rfl⟩ := Nat.exists_eq_add_of_le later
  rw [Nat.add_comm, Function.iterate_add_apply, Function.iterate_fixed (next_of_crashes crashed)]

theorem iterate_next_of_stopped {k : Nat} (stopped : (next^[k] m).status ≠ .running) {j : Nat}
    (later : k ≤ j) : next^[j] m = next^[k] m := by
  obtain ⟨extra, rfl⟩ := Nat.exists_eq_add_of_le later
  rw [Nat.add_comm, Function.iterate_add_apply, Function.iterate_fixed (next_of_ne_running stopped)]

theorem no_crash_of_stopped {n : Nat} (stopped : (next^[n] m).status ≠ .running) :
    ∀ k < n, ¬ (next^[k] m).Crashes := by
  intro k below crashed
  rw [iterate_next_of_crashes crashed below.le] at stopped
  exact stopped crashed.1

theorem budgetSpent_eq_false {budget : Option Int} {taken : Nat}
    (room : ∀ b, budget = some b → (taken : Int) < b) : budgetSpent budget taken = false := by
  cases budget with
  | none => rfl
  | some b =>
    have := room b rfl
    simp only [budgetSpent, decide_eq_false_iff_not]
    omega

theorem stepWhile_quiet (quiet : reg.Quiet) (budget : Option Int) (fuel : Nat) :
    ∀ taken m notes, (∀ b, budget = some b → ((taken + fuel : Nat) : Int) ≤ b) →
      (stepWhile reg budget fuel taken m notes).machine = next^[fuel] m ∧
        ((stepWhile reg budget fuel taken m notes).fault = none ↔
          ∀ k < fuel, ¬ (next^[k] m).Crashes) := by
  induction fuel with
  | zero =>
    intro taken m notes _
    have halted : ¬(m.status = .running ∧ budgetSpent budget taken = false ∧ 0 < 0) :=
      fun ⟨_, _, pos⟩ => absurd pos (Nat.lt_irrefl 0)
    exact ⟨(stepWhile_halted halted).1, iff_of_true (stepWhile_halted halted).2 (by omega)⟩
  | succ fuel ih =>
    intro taken m notes within
    by_cases running : m.status = .running
    · -- The budget leaves room for this step.
      have unspent : budgetSpent budget taken = false :=
        budgetSpent_eq_false fun b budgeted => by have := within b budgeted; omega
      rw [stepWhile_succ running unspent]
      by_cases crashed : m.Crashes
      · -- The step fails where it starts, and the execution stays there.
        obtain ⟨-, c, failed⟩ := crashed
        rw [step_failed reg running failed]
        refine ⟨(Function.iterate_fixed (next_of_error failed) _).symm, iff_of_false ?_ ?_⟩
        · simp
        · exact fun fine => fine 0 (Nat.succ_pos fuel) ⟨running, c, failed⟩
      · rw [(step_quiet_fault_none quiet).mpr crashed]
        have later := ih (taken + 1) (m.step reg).machine (notes ++ (m.step reg).notes)
          (fun b budgeted => by have := within b budgeted; omega)
        dsimp only
        rw [(step_quiet quiet m).1] at later ⊢
        rw [Function.iterate_succ_apply, Nat.forall_lt_succ_left]
        exact ⟨later.1, later.2.trans (and_iff_right crashed).symm⟩
    · rw [stepWhile_of_ne_running running, Function.iterate_fixed (next_of_ne_running running)]
      refine ⟨rfl, iff_of_true rfl fun k _ => ?_⟩
      rw [Function.iterate_fixed (next_of_ne_running running)]
      exact not_crashes_of_ne_running running

end Quiet

section Notes

def stepNotes (reg : Registry) (m : Machine) : Nat → Array Note
  | 0 => #[]
  | n + 1 => (m.step reg).notes ++ stepNotes reg m.next n

def budgetNote (budget : Option Int) (m : Machine) : Array Note :=
  match budget with
  | some b => if m.status = .running then #[.budgetExhausted b m.c] else #[]
  | none => #[]

def hookNotes (reg : Registry) (e : Event) (m : Machine) : Array Note :=
  ((reg.emit e m).1.map Note.observer).toArray

variable {reg : Registry} {m : Machine}

@[simp] theorem stepNotes_zero : stepNotes reg m 0 = #[] := rfl

theorem stepNotes_add (a b : Nat) :
    stepNotes reg m (a + b) = stepNotes reg m a ++ stepNotes reg (next^[a] m) b := by
  induction a generalizing m with
  | zero => simp
  | succ a ih =>
    rw [Nat.add_right_comm, stepNotes, ih, stepNotes, Array.append_assoc,
      Function.iterate_succ_apply]

theorem stepNotes_of_stuck (silent : (m.step reg).notes = #[]) (stuck : m.next = m) (n : Nat) :
    stepNotes reg m n = #[] := by
  induction n with
  | zero => rfl
  | succ n ih => rw [stepNotes, silent, stuck, ih, Array.append_empty]

theorem stepNotes_of_ne_running (stopped : m.status ≠ .running) (n : Nat) :
    stepNotes reg m n = #[] :=
  stepNotes_of_stuck (by rw [step_of_ne_running reg m stopped]) (next_of_ne_running stopped) n

theorem stepNotes_of_crashes (crashed : m.Crashes) (n : Nat) : stepNotes reg m n = #[] := by
  obtain ⟨running, c, failed⟩ := crashed
  exact stepNotes_of_stuck (by rw [step_failed reg running failed]) (next_of_error failed) n

/-- With observers that never fail, the `program_start` hooks log their lines and pass: a run
is its steps, and then the `program_end` hooks, unless a step failed. -/
theorem run_quiet_eq (quiet : reg.Quiet) (budget : Option Int) (m : Machine) :
    m.run reg budget =
      match runSteps reg budget m (hookNotes reg .programStart m) with
      | none => { machine := m, notes := hookNotes reg .programStart m }
      | some r =>
        match r.fault with
        | some _ => r
        | none =>
          { r with notes := r.notes ++ hookNotes reg .programEnd r.machine, fault := none } := by
  rw [run_eq]
  rcases started : reg.emit .programStart m with ⟨lines, _ | f⟩
  · have start : hookNotes reg .programStart m = (lines.map Note.observer).toArray := by
      simp [hookNotes, started]
    simp only [start]
    rcases runSteps reg budget m (lines.map Note.observer).toArray with _ | r
    · rfl
    · rcases failed : r.fault with _ | f
      · simp [failed, hookNotes, Registry.emit_fault_none quiet]
      · simp [failed]
  · exact absurd (started ▸ Registry.emit_fault_none quiet .programStart m) (by simp)

theorem run_quiet_budget (quiet : reg.Quiet) (n : Nat) (m : Machine) :
    (m.run reg (some n)).machine = next^[n] m ∧
      ((m.run reg (some n)).fault = none ↔ ∀ k < n, ¬ (next^[k] m).Crashes) := by
  have loop := stepWhile_quiet quiet (some (n : Int)) n 0 m (hookNotes reg .programStart m)
    (fun b budgeted => by cases budgeted; omega)
  rw [run_quiet_eq quiet]
  simp only [runSteps, Int.toNat_natCast]
  -- A crash ends the run with the loop's outcome; otherwise the `program_end` hooks pass.
  split
  · exact loop
  · rename_i calm
    exact ⟨loop.1, iff_of_true rfl (loop.2.mp calm)⟩

theorem run_quiet_unbounded (quiet : reg.Quiet) {t : Nat}
    (stops : (next^[t] m).status ≠ .running) :
    (m.run reg none).machine = next^[t] m ∧ (m.run reg none).fault = none := by
  have loop := stepWhile_quiet quiet none t 0 m (hookNotes reg .programStart m)
    (fun _ absent => by cases absent)
  have calm := loop.2.mpr (no_crash_of_stopped stops)
  have ended : (stepWhile reg none t 0 m (hookNotes reg .programStart m)).Ended := by
    left
    rw [loop.1]
    exact stops
  rw [run_quiet_eq quiet]
  simp only [runSteps, stepUntilStop_of_ended t 0 m _ ended, calm]
  exact ⟨loop.1, trivial⟩

theorem stepWhile_quiet_notes (quiet : reg.Quiet) (budget : Option Int) (fuel : Nat) :
    ∀ taken m notes, (∀ b, budget = some b → b = ((taken + fuel : Nat) : Int)) →
      (∀ k < fuel, ¬ (next^[k] m).Crashes) →
      (stepWhile reg budget fuel taken m notes).notes =
        notes ++ stepNotes reg m fuel ++ budgetNote budget (next^[fuel] m) := by
  induction fuel with
  | zero =>
    intro taken m notes exact _
    by_cases running : m.status = .running
    · cases budget with
      | none => simp [stepWhile_zero running (budgetSpent_none taken), budgetNote]
      | some b =>
        -- The budget is spent right away: the loop logs it and stops.
        have spent : budgetSpent (some b) taken = true := by
          simp [budgetSpent, exact b rfl]
        simp [stepWhile_of_spent running spent, budgetNote, running]
    · cases budget <;> simp [stepWhile_of_ne_running running, budgetNote, running]
  | succ fuel ih =>
    intro taken m notes exact fine
    by_cases running : m.status = .running
    · have unspent : budgetSpent budget taken = false :=
        budgetSpent_eq_false fun b budgeted => by rw [exact b budgeted]; omega
      have calm : (m.step reg).fault = none :=
        (step_quiet_fault_none quiet).mpr (fine 0 (Nat.succ_pos fuel))
      rw [stepWhile_succ running unspent, calm]
      dsimp only
      rw [ih (taken + 1) (m.step reg).machine (notes ++ (m.step reg).notes)
        (fun b budgeted => by rw [exact b budgeted]; omega)
        (fun k below => by
          rw [(step_quiet quiet m).1, ← Function.iterate_succ_apply]
          exact fine (k + 1) (by omega)),
        (step_quiet quiet m).1, stepNotes, Function.iterate_succ_apply]
      simp only [Array.append_assoc]
    · rw [stepWhile_of_ne_running running, stepNotes_of_ne_running running,
        Function.iterate_fixed (next_of_ne_running running)]
      cases budget <;> simp [budgetNote, running]

theorem stepWhile_quiet_notes_of_crash (quiet : reg.Quiet) (budget : Option Int) (fuel : Nat) :
    ∀ taken m notes, (∀ b, budget = some b → ((taken + fuel : Nat) : Int) ≤ b) →
      (∃ k < fuel, (next^[k] m).Crashes) →
      (stepWhile reg budget fuel taken m notes).notes = notes ++ stepNotes reg m fuel := by
  induction fuel with
  | zero =>
    intro taken m notes _ crash
    obtain ⟨k, below, -⟩ := crash
    omega
  | succ fuel ih =>
    intro taken m notes within crash
    obtain ⟨k, below, crashed⟩ := crash
    by_cases running : m.status = .running
    · have unspent : budgetSpent budget taken = false :=
        budgetSpent_eq_false fun b budgeted => by have := within b budgeted; omega
      rw [stepWhile_succ running unspent]
      by_cases here : m.Crashes
      · -- The crash is this step: it fails and logs nothing.
        obtain ⟨-, c, failed⟩ := here
        rw [step_failed reg running failed, stepNotes_of_crashes ⟨running, c, failed⟩]
      · -- The crash is further on, one step later along the execution from the next machine.
        obtain ⟨k, rfl⟩ : ∃ j, k = j + 1 := Nat.exists_eq_succ_of_ne_zero
          fun atStart => here (by rw [atStart] at crashed; exact crashed)
        rw [(step_quiet_fault_none quiet).mpr here]
        dsimp only
        rw [ih (taken + 1) (m.step reg).machine (notes ++ (m.step reg).notes)
          (fun b budgeted => by have := within b budgeted; omega)
          ⟨k, by omega, by
            rw [(step_quiet quiet m).1, ← Function.iterate_succ_apply]; exact crashed⟩,
          (step_quiet quiet m).1, stepNotes, Array.append_assoc]
    · rw [Function.iterate_fixed (next_of_ne_running running)] at crashed
      exact absurd crashed.1 running

theorem run_quiet_budget_notes (quiet : reg.Quiet) (n : Nat) (m : Machine)
    (fine : ∀ k < n, ¬ (next^[k] m).Crashes) :
    (m.run reg (some n)).notes = hookNotes reg .programStart m ++ stepNotes reg m n ++
      budgetNote (some n) (next^[n] m) ++ hookNotes reg .programEnd (next^[n] m) := by
  have loop := stepWhile_quiet quiet (some (n : Int)) n 0 m (hookNotes reg .programStart m)
    (fun b budgeted => by cases budgeted; omega)
  have logged := stepWhile_quiet_notes quiet (some (n : Int)) n 0 m
    (hookNotes reg .programStart m) (fun b budgeted => by cases budgeted; simp) fine
  have calm := loop.2.mpr fine
  rw [run_quiet_eq quiet]
  simp only [runSteps, Int.toNat_natCast, calm]
  rw [logged, loop.1]

theorem run_quiet_budget_notes_of_crash (quiet : reg.Quiet) (n : Nat) (m : Machine)
    (crash : ∃ k < n, (next^[k] m).Crashes) :
    (m.run reg (some n)).notes = hookNotes reg .programStart m ++ stepNotes reg m n := by
  have loop := stepWhile_quiet quiet (some (n : Int)) n 0 m (hookNotes reg .programStart m)
    (fun b budgeted => by cases budgeted; omega)
  have logged := stepWhile_quiet_notes_of_crash quiet (some (n : Int)) n 0 m
    (hookNotes reg .programStart m) (fun b budgeted => by cases budgeted; omega) crash
  have failed : (stepWhile reg (some (n : Int)) n 0 m (hookNotes reg .programStart m)).fault ≠
      none := fun calm => by
    obtain ⟨k, below, crashed⟩ := crash
    exact loop.2.mp calm k below crashed
  rw [run_quiet_eq quiet]
  simp only [runSteps, Int.toNat_natCast]
  split
  · exact logged
  · contradiction

theorem run_quiet_spent (quiet : reg.Quiet) {b : Int} (negative : b < 0) (m : Machine) :
    (m.run reg (some b)).machine = m ∧ (m.run reg (some b)).fault = none ∧
      (m.run reg (some b)).notes =
        hookNotes reg .programStart m ++ budgetNote (some b) m ++ hookNotes reg .programEnd m := by
  have loop : ∀ notes, stepWhile reg (some b) 0 0 m notes =
      { machine := m, notes := notes ++ budgetNote (some b) m } := fun notes => by
    by_cases running : m.status = .running
    · rw [stepWhile_of_spent running (by simp [budgetSpent]; omega)]
      simp [budgetNote, running]
    · rw [stepWhile_of_ne_running running]
      simp [budgetNote, running]
  rw [run_quiet_eq quiet]
  simp only [runSteps, Int.toNat_of_nonpos negative.le, loop, and_self]

theorem run_quiet_unbounded_notes (quiet : reg.Quiet) {t : Nat}
    (stops : (next^[t] m).status ≠ .running) :
    (m.run reg none).notes = hookNotes reg .programStart m ++ stepNotes reg m t ++
      hookNotes reg .programEnd (next^[t] m) := by
  have loop := stepWhile_quiet quiet none t 0 m (hookNotes reg .programStart m)
    (fun _ absent => by cases absent)
  have logged := stepWhile_quiet_notes quiet none t 0 m (hookNotes reg .programStart m)
    (fun _ absent => by cases absent) (no_crash_of_stopped stops)
  have calm := loop.2.mpr (no_crash_of_stopped stops)
  have ended : (stepWhile reg none t 0 m (hookNotes reg .programStart m)).Ended := by
    left
    rw [loop.1]
    exact stops
  rw [run_quiet_eq quiet]
  simp only [runSteps, stepUntilStop_of_ended t 0 m _ ended, calm]
  rw [logged, loop.1]
  simp [budgetNote]

theorem drive_steps_quiet (quiet : reg.Quiet) (t : Nat) (m : Machine) :
    (m.drive reg (List.replicate t .step)).machine = next^[t] m ∧
      (m.drive reg (List.replicate t .step)).notes = stepNotes reg m t := by
  induction t generalizing m with
  | zero => exact ⟨rfl, rfl⟩
  | succ t ih =>
    obtain ⟨moved, logged⟩ := ih (m.step reg).machine
    rw [(step_quiet quiet m).1] at moved logged
    refine ⟨?_, ?_⟩
    · rw [List.replicate_succ, drive_cons_machine, returns_step, if_pos rfl, perform,
        (step_quiet quiet m).1, moved, Function.iterate_succ_apply]
    · simp only [List.replicate_succ, drive, returns_step, if_true, perform]
      rw [(step_quiet quiet m).1, logged, stepNotes]

theorem iterate_steps (j : Nat) :
    ∀ m : Machine, (∀ i < j, (next^[i] m).status = .running ∧ ¬ (next^[i] m).Crashes) →
      (next^[j] m).steps = m.steps + j := by
  induction j with
  | zero => intro m _; rfl
  | succ j ih =>
    intro m moving
    obtain ⟨running, fine⟩ : m.status = .running ∧ ¬ m.Crashes := moving 0 (Nat.succ_pos j)
    -- A running machine that does not crash runs its instruction.
    cases started : m.instruct with
    | error c => exact absurd ⟨running, c, started⟩ fine
    | ok x =>
      rw [Function.iterate_succ_apply, ih m.next (fun i below => by
          rw [← Function.iterate_succ_apply]; exact moving (i + 1) (by omega)),
        (next_counts running started).1]
      omega

theorem run_quiet_steps (quiet : reg.Quiet) (n : Nat) {t : Nat} {stopped : Machine}
    (ran : RanTo m t stopped) (halted : stopped.status ≠ .running) :
    (m.run reg (some n)).machine = next^[min n t] m ∧
      (m.run reg (some n)).machine.steps = m.steps + min n t := by
  obtain ⟨rfl, before⟩ := ran
  have taken : (m.run reg (some n)).machine = next^[min n t] m := by
    rw [(run_quiet_budget quiet n m).1]
    by_cases within : n ≤ t
    · rw [Nat.min_eq_left within]
    · -- Past its stop the execution stays where it stopped.
      rw [Nat.min_eq_right (by omega)]
      exact iterate_next_of_stopped halted (by omega)
  refine ⟨taken, ?_⟩
  rw [taken]
  exact iterate_steps _ m fun i below =>
    ⟨before i (by omega), no_crash_of_stopped halted i (by omega)⟩

theorem stepUntilStop_quiet_diverges (quiet : reg.Quiet)
    (forever : ∀ j, (next^[j] m).status = .running ∧ ¬ (next^[j] m).Crashes)
    (notes : Array Note) : stepUntilStop reg m notes = none := by
  cases returned : stepUntilStop reg m notes with
  | none => rfl
  | some r =>
    obtain ⟨fuel, ran, ended⟩ := stepWhile_of_stepUntilStop returned 0
    have loop := stepWhile_quiet quiet none fuel 0 m notes (fun _ absent => by cases absent)
    rw [ran] at loop
    rcases ended with stopped | failed
    · exact absurd (loop.1 ▸ (forever fuel).1) stopped
    · rw [loop.2.mpr fun k _ => (forever k).2] at failed
      cases failed

end Notes

/-- Step budgets add up. With observers that never fail, two runs with budgets `n` and `k`
leave the machine as one run with budget `n + k` does: its registers, memory, status, counts,
trace and channels alike. When that run does not fail, the steps log the same notes in the
same order, the step rules' lines among them; the two runs only add, after the first `n` steps,
the first run's budget line if it ran out, its `program_end` lines and the second run's
`program_start` lines, and the last budget line names the second budget. A run with budget `n`
on an execution that stops after `t` steps takes `min n t` of them. A run without a budget is
the steps taken one call at a time until the machine stops, between the `program_start` and
`program_end` lines; on an execution that runs forever, it never returns. -/
theorem run_budgets_add (reg : Registry) (quiet : reg.Quiet) (m : Machine) :
    (∀ n k : Nat, (m.drive reg [.run (some n), .run (some k)]).machine =
      (m.run reg (some (n + k : Nat))).machine) ∧
    (∀ n k : Nat, (m.run reg (some (n + k : Nat))).fault = none →
      (m.drive reg [.run (some n), .run (some k)]).notes =
        hookNotes reg .programStart m ++ stepNotes reg m n ++ budgetNote (some n) (next^[n] m) ++
          hookNotes reg .programEnd (next^[n] m) ++ hookNotes reg .programStart (next^[n] m) ++
          stepNotes reg (next^[n] m) k ++ budgetNote (some k) (next^[n + k] m) ++
          hookNotes reg .programEnd (next^[n + k] m) ∧
      (m.run reg (some (n + k : Nat))).notes =
        hookNotes reg .programStart m ++ stepNotes reg m n ++ stepNotes reg (next^[n] m) k ++
          budgetNote (some (n + k : Nat)) (next^[n + k] m) ++
          hookNotes reg .programEnd (next^[n + k] m)) ∧
    (∀ (t : Nat) (stopped : Machine), RanTo m t stopped → stopped.status ≠ .running →
      (∀ n : Nat, (m.run reg (some n)).machine = next^[min n t] m ∧
        (m.run reg (some n)).machine.steps = m.steps + min n t) ∧
      (m.run reg none).machine = (m.drive reg (List.replicate t .step)).machine ∧
      (m.run reg none).fault = none ∧
      (m.run reg none).notes = hookNotes reg .programStart m ++
        (m.drive reg (List.replicate t .step)).notes ++ hookNotes reg .programEnd stopped) ∧
    ((∀ j, (next^[j] m).status = .running ∧ ¬ (next^[j] m).Crashes) →
      runSteps reg none m (hookNotes reg .programStart m) = none) := by
  -- Each run is the execution taken as far as its budget, so the second picks up where the
  -- first left off.
  have second : ∀ n k : Nat, next^[k] (next^[n] m) = next^[n + k] m := fun n k => by
    rw [← Function.iterate_add_apply, Nat.add_comm]
  refine ⟨fun n k => ?_, fun n k calm => ?_, fun t stopped ran halted => ?_,
    fun forever => stepUntilStop_quiet_diverges quiet forever _⟩
  · simp only [drive_cons_machine, returns_budget, if_true, perform, drive_nil]
    rw [(run_quiet_budget quiet n m).1, (run_quiet_budget quiet k _).1,
      (run_quiet_budget quiet (n + k) m).1, second]
  · have fine := (run_quiet_budget quiet (n + k) m).2.mp calm
    have first := run_quiet_budget_notes quiet n m fun j below => fine j (by omega)
    have later := run_quiet_budget_notes quiet k (next^[n] m) fun j below => by
      rw [second]
      exact fine (n + j) (by omega)
    refine ⟨?_, ?_⟩
    · simp only [drive, returns_budget, if_true, perform, Array.append_empty]
      rw [(run_quiet_budget quiet n m).1, first, later, second]
      simp only [Array.append_assoc]
    · rw [run_quiet_budget_notes quiet (n + k) m fine, stepNotes_add]
      simp only [Array.append_assoc]
  · have stops : (next^[t] m).status ≠ .running := by rw [← ran.1]; exact halted
    have steps := drive_steps_quiet quiet t m
    refine ⟨fun n => run_quiet_steps quiet n ran halted, ?_,
      (run_quiet_unbounded quiet stops).2, ?_⟩
    · rw [(run_quiet_unbounded quiet stops).1, steps.1]
    · rw [run_quiet_unbounded_notes quiet stops, steps.2, ran.1]

theorem blank_machine_runs_split :
    Registry.empty.Quiet ∧
      (Machine.drive Registry.empty
          { ring := .standard, trace := { depth := 0 }, input := { pending := [] }, output := {} }
          [.run (some (1 : Nat)), .run (some (2 : Nat))]).machine =
        (Machine.run Registry.empty (some ((1 + 2 : Nat) : Int))
          { ring := .standard, trace := { depth := 0 }, input := { pending := [] },
            output := {} }).machine :=
  ⟨Registry.empty_quiet, (run_budgets_add Registry.empty Registry.empty_quiet
    { ring := .standard, trace := { depth := 0 }, input := { pending := [] }, output := {} }).1 1 2⟩

end Machine

end RingMachine
