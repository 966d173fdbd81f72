import RingMachine.Proofs.Run

/-!
Observers watch a machine and never steer it. A call whose observers do not fail leaves the
machine the same call with no observers leaves, and the trace, which only records, changes
nothing else. When an observer fails, the call stops at the end of the step during which it
was called, or before the first step for a `program_start` hook, with the machine of the
observer-free execution there. Only an `on_halt` hook failing after an instruction that stopped
the machine leaves that step untraced and its idle count as it was.
-/

namespace RingMachine

def Outcome.ObserversPassed (r : Outcome) : Prop :=
  ∀ f, r.fault = some f → f.crash? ≠ none

namespace Machine

/-- No observer failed in any of the calls made; a call that never returns is the last. -/
def ObserversPass (reg : Registry) : Machine → List Drive → Prop
  | _, [] => True
  | m, call :: rest =>
    (m.perform reg call).ObserversPassed ∧
      (m.returns reg call = true → ObserversPass reg (m.perform reg call).machine rest)

section Free

variable {m : Machine}

theorem step_failed (reg : Registry) {c : Crash} (running : m.status = .running)
    (failed : m.instruct = .error c) :
    m.step reg = { machine := m, fault := some (.failed c) } := by
  simp [step, running, failed]

theorem step_empty_fault {f : Fault} (faulted : (m.step Registry.empty).fault = some f) :
    ∃ c, f = .failed c ∧ m.status = .running ∧ m.instruct = .error c := by
  by_cases running : m.status = .running
  · cases started : m.instruct with
    | error c =>
      rw [step_failed _ running started] at faulted
      exact ⟨c, (Option.some.inj faulted).symm, running, rfl⟩
    | ok x =>
      simp [step, running, started, announceChange_quiet Registry.empty_quiet] at faulted
  · simp [step, running] at faulted

theorem step_empty_passed (m : Machine) : (m.step Registry.empty).ObserversPassed := by
  intro f faulted
  obtain ⟨c, rfl, -⟩ := step_empty_fault faulted
  simp [Fault.crash?]

theorem step_empty_calm (reg : Registry) (m : Machine)
    (noCrash : ∀ c, (m.step reg).fault ≠ some (.failed c)) :
    (m.step Registry.empty).fault = none := by
  cases freeFault : (m.step Registry.empty).fault with
  | none => rfl
  | some f =>
    obtain ⟨c, -, running, started⟩ := step_empty_fault freeFault
    exact absurd (by rw [step_failed reg running started]) (noCrash c)

theorem step_unobserved (reg : Registry) (m : Machine) (passed : (m.step reg).ObserversPassed) :
    (m.step reg).machine = (m.step Registry.empty).machine ∧
      (m.step Registry.empty).fault = (m.step reg).fault := by
  have free := (step_quiet Registry.empty_quiet m).1
  rcases step_cases reg m with
    ⟨calm, same⟩ | ⟨c, -, -, running, started⟩ | ⟨f, faulted, ⟨msg, kind⟩, -⟩
  · -- The step completed, so its instruction did not fail, and the free step completes too.
    refine ⟨same.trans free.symm, ?_⟩
    rw [calm, step_empty_calm reg m (by simp [calm])]
  · rw [step_failed reg running started, step_failed Registry.empty running started]
    exact ⟨rfl, rfl⟩
  · exact absurd (by rcases kind with rfl | rfl <;> rfl) (passed f faulted)

theorem step_empty_withTrace (m : Machine) {tr : Trace} (flat : tr.depth = 0) :
    ({ m with trace := tr }.step Registry.empty).machine =
        { (m.step Registry.empty).machine with trace := tr } ∧
      ({ m with trace := tr }.step Registry.empty).fault = (m.step Registry.empty).fault := by
  have sameError : ∀ c, ({ m with trace := tr } : Machine).instruct = .error c ↔
      m.instruct = .error c := by
    intro c
    rw [instruct_withTrace]
    cases m.instruct <;> simp [Functor.map, Except.map]
  refine ⟨?_, ?_⟩
  · rw [(step_quiet Registry.empty_quiet _).1, (step_quiet Registry.empty_quiet m).1,
      next_withTrace m flat]
  · cases freeFault : (m.step Registry.empty).fault with
    | none =>
      cases traced : ({ m with trace := tr }.step Registry.empty).fault with
      | none => rfl
      | some f =>
        obtain ⟨c, -, running, started⟩ := step_empty_fault traced
        have failed : m.step Registry.empty = { machine := m, fault := some (.failed c) } :=
          step_failed Registry.empty running ((sameError c).mp started)
        simp [failed] at freeFault
    | some f =>
      obtain ⟨c, rfl, running, started⟩ := step_empty_fault freeFault
      have failed : ({ m with trace := tr } : Machine).step Registry.empty =
          { machine := { m with trace := tr }, fault := some (.failed c) } :=
        step_failed Registry.empty running ((sameError c).mpr started)
      rw [failed]

end Free

section Simulation

/- A relation between machines that each step with the observers `reg` keeps against the step
with no observers, as long as the observers of that step do not fail, is kept by whole runs
and call sequences. -/
variable {reg : Registry} {R : Machine → Machine → Prop}
  (sameStatus : ∀ {m m'}, R m m' → m'.status = m.status)
  (stepped : ∀ {m m'}, R m m' → (m.step reg).ObserversPassed →
    R (m.step reg).machine (m'.step Registry.empty).machine ∧
      (m'.step Registry.empty).fault = (m.step reg).fault)
include sameStatus stepped

theorem stepWhile_simulate (budget : Option Int) (fuel : Nat) :
    ∀ taken m m' notes notes', R m m' →
      (stepWhile reg budget fuel taken m notes).ObserversPassed →
      R (stepWhile reg budget fuel taken m notes).machine
          (stepWhile Registry.empty budget fuel taken m' notes').machine ∧
        (stepWhile Registry.empty budget fuel taken m' notes').fault =
          (stepWhile reg budget fuel taken m notes).fault := by
  -- Related machines have the same status, so both runs stop together where no step is taken.
  have bothHalted : ∀ {fuel taken m m' notes notes'}, R m m' →
      ¬(m.status = .running ∧ budgetSpent budget taken = false ∧ 0 < fuel) →
      R (stepWhile reg budget fuel taken m notes).machine
          (stepWhile Registry.empty budget fuel taken m' notes').machine ∧
        (stepWhile Registry.empty budget fuel taken m' notes').fault =
          (stepWhile reg budget fuel taken m notes).fault := by
    intro fuel taken m m' notes notes' related halted
    have stopped : (stepWhile reg budget fuel taken m notes).machine = m ∧
        (stepWhile reg budget fuel taken m notes).fault = none := stepWhile_halted halted
    have stopped' : (stepWhile Registry.empty budget fuel taken m' notes').machine = m' ∧
        (stepWhile Registry.empty budget fuel taken m' notes').fault = none :=
      stepWhile_halted (by rwa [sameStatus related])
    rw [stopped.1, stopped.2, stopped'.1, stopped'.2]
    exact ⟨related, rfl⟩
  induction fuel with
  | zero =>
    intro taken m m' notes notes' related _
    exact bothHalted related fun ⟨_, _, pos⟩ => absurd pos (Nat.lt_irrefl 0)
  | succ fuel ih =>
    intro taken m m' notes notes' related passed
    by_cases goes : m.status = .running ∧ budgetSpent budget taken = false
    · obtain ⟨running, unspent⟩ := goes
      rw [stepWhile_succ running unspent] at passed ⊢
      rw [stepWhile_succ ((sameStatus related).trans running) unspent]
      -- A failing step ends the run with its own fault, so the step's observers passed.
      have stepPassed : (m.step reg).ObserversPassed := by
        intro g faulted
        exact passed g (by simp only [faulted])
      obtain ⟨advanced, sameFault⟩ := stepped related stepPassed
      rw [sameFault]
      cases faulted : (m.step reg).fault with
      | none =>
        simp only [faulted] at passed
        exact ih _ _ _ _ _ advanced passed
      | some f => exact ⟨advanced, rfl⟩
    · exact bothHalted related fun ⟨running, unspent, _⟩ => goes ⟨running, unspent⟩

theorem runSteps_simulate (budget : Option Int) {m m' : Machine} (related : R m m')
    (notes notes' : Array Note) {r : Outcome} (returned : runSteps reg budget m notes = some r)
    (passed : r.ObserversPassed) :
    ∃ r', runSteps Registry.empty budget m' notes' = some r' ∧ R r.machine r'.machine ∧
      r'.fault = r.fault := by
  cases budget with
  | some b =>
    -- With a budget both loops run on the same fuel.
    obtain rfl := Option.some.inj returned
    exact ⟨_, rfl, stepWhile_simulate sameStatus stepped (some b) b.toNat 0 m m' notes notes'
      related passed⟩
  | none =>
    obtain ⟨fuel, rfl, ended⟩ := stepWhile_of_stepUntilStop returned 0
    obtain ⟨same, sameFault⟩ :=
      stepWhile_simulate sameStatus stepped none fuel 0 m m' notes notes' related passed
    -- The free loop stands where the observed one ended, with the same status and fault.
    have freeEnded : (stepWhile Registry.empty none fuel 0 m' notes').Ended := by
      rcases ended with stopped | failed
      · exact .inl (by rwa [sameStatus same])
      · exact .inr (by rwa [sameFault])
    exact ⟨_, stepUntilStop_of_ended fuel 0 m' notes' freeEnded, same, sameFault⟩

theorem runSteps_diverge_simulate {m m' : Machine} (related : R m m') (notes notes' : Array Note)
    (diverges : runSteps reg none m notes = none) :
    runSteps Registry.empty none m' notes' = none := by
  rcases freeReturned : runSteps Registry.empty none m' notes' with _ | r'
  · rfl
  · exfalso
    obtain ⟨fuel, rfl, freeEnded⟩ := stepWhile_of_stepUntilStop freeReturned 0
    -- The observed loop with the same fuel ends too, by a failure or where the free one does.
    have ended : (stepWhile reg none fuel 0 m notes).Ended := by
      rcases observedFault : (stepWhile reg none fuel 0 m notes).fault with _ | f
      · have passed : (stepWhile reg none fuel 0 m notes).ObserversPassed := by
          intro f faulted
          rw [observedFault] at faulted
          cases faulted
        obtain ⟨same, sameFault⟩ :=
          stepWhile_simulate sameStatus stepped none fuel 0 m m' notes notes' related passed
        rcases freeEnded with stopped | failed
        · exact .inl (by rwa [← sameStatus same])
        · exact .inr (by rwa [← sameFault])
      · exact .inr (by simp [observedFault])
    have returned := stepUntilStop_of_ended fuel 0 m notes ended
    change runSteps reg none m notes = _ at returned
    rw [diverges] at returned
    cases returned

/-- A run whose observers passed is matched by the free run, which returns exactly when it
does. -/
theorem run_simulate (budget : Option Int) {m m' : Machine} (related : R m m')
    (passed : (m.run reg budget).ObserversPassed) :
    R (m.run reg budget).machine (m'.run Registry.empty budget).machine ∧
      (m'.run Registry.empty budget).fault = (m.run reg budget).fault ∧
      m'.returns Registry.empty (.run budget) = m.returns reg (.run budget) := by
  rw [returns_run, returns_run]
  rw [run_eq] at passed ⊢
  rw [run_eq]
  rcases started : reg.emit .programStart m with ⟨lines, _ | f⟩
  · simp only [started] at passed
    simp only [Registry.emit_empty, List.map_nil, Option.isSome_none, Bool.false_or]
    rcases returned : runSteps reg budget m (lines.map Note.observer).toArray with _ | r
    · -- The observed steps never end, so the run has no budget and the free steps never end.
      cases budget with
      | some b => cases returned
      | none =>
        rw [runSteps_diverge_simulate sameStatus stepped related _ #[] returned]
        exact ⟨related, rfl, rfl⟩
    · simp only [returned] at passed
      -- The steps' observers passed: a failing step ends the run with its fault.
      have loopPassed : r.ObserversPassed := by
        intro g faulted
        exact passed g (by simp only [faulted])
      obtain ⟨r', freeReturned, same, sameFault⟩ :=
        runSteps_simulate sameStatus stepped budget related _ #[] returned loopPassed
      rw [freeReturned]
      dsimp only
      rw [sameFault]
      cases loopFault : r.fault with
      | some g => exact ⟨same, sameFault, rfl⟩
      | none =>
        -- The steps ended without a fault, so the `program_end` hooks ran, and they passed.
        simp only [loopFault] at passed ⊢
        cases ended : (reg.emit .programEnd r.machine).2 with
        | none => exact ⟨same, rfl, rfl⟩
        | some g =>
          obtain ⟨msg, rfl⟩ := Registry.emit_fault ended
          exact absurd rfl (passed _ ended)
  · -- A failing `program_start` hook is an observer failing.
    obtain ⟨msg, rfl⟩ := Registry.emit_fault (by rw [started])
    simp only [started] at passed
    exact absurd rfl (passed _ rfl)

theorem drive_simulate (calls : List Drive) :
    ∀ {m m'}, R m m' → m.ObserversPass reg calls →
      R (m.drive reg calls).machine (m'.drive Registry.empty calls).machine := by
  induction calls with
  | nil => exact fun related _ => related
  | cons call rest ih =>
    intro m m' related pass
    obtain ⟨passed, restPass⟩ := pass
    -- The call is matched by the free call, which returns exactly when it does.
    have performed : R (m.perform reg call).machine (m'.perform Registry.empty call).machine ∧
        m'.returns Registry.empty call = m.returns reg call := by
      cases call with
      | step => exact ⟨(stepped related passed).1, rfl⟩
      | run budget =>
        obtain ⟨same, -, returnsSame⟩ := run_simulate sameStatus stepped budget related passed
        exact ⟨same, returnsSame⟩
    rw [drive_cons_machine, drive_cons_machine, performed.2]
    split
    · rename_i returned
      exact ih performed.1 (restPass returned)
    · exact performed.1

end Simulation

theorem drive_unobserved (reg : Registry) (m : Machine) (calls : List Drive)
    (pass : m.ObserversPass reg calls) :
    (m.drive reg calls).machine = (m.drive Registry.empty calls).machine :=
  @drive_simulate reg Eq (by rintro m _ rfl; rfl)
    (by rintro m _ rfl passed; exact step_unobserved reg m passed) calls m m rfl pass

theorem stepWhile_unobserved (reg : Registry) (budget : Option Int) (fuel taken : Nat)
    (m : Machine) (notes notes' : Array Note)
    (passed : (stepWhile reg budget fuel taken m notes).ObserversPassed) :
    (stepWhile reg budget fuel taken m notes).machine =
      (stepWhile Registry.empty budget fuel taken m notes').machine :=
  (@stepWhile_simulate reg Eq (by rintro m _ rfl; rfl)
    (by rintro m _ rfl passed; exact step_unobserved reg m passed)
    budget fuel taken m m notes notes' rfl passed).1

theorem drive_withTrace (reg : Registry) (m : Machine) (calls : List Drive) {tr : Trace}
    (flat : tr.depth = 0) (pass : m.ObserversPass reg calls) :
    ({ m with trace := tr }.drive Registry.empty calls).machine =
      { (m.drive reg calls).machine with trace := tr } := by
  apply @drive_simulate reg (fun m m' => m' = { m with trace := tr }) _ _ calls m _ rfl pass
  · rintro m _ rfl
    rfl
  · rintro m _ rfl passed
    obtain ⟨same, calm⟩ := step_unobserved reg m passed
    obtain ⟨traced, tracedFault⟩ := step_empty_withTrace m flat
    exact ⟨by rw [traced, same], by rw [tracedFault, calm]⟩

section Iterate

/-- `m'` is where the observer-free execution from `m` stands after `n` steps, each taken from a
running machine. -/
def RanTo (m : Machine) (n : Nat) (m' : Machine) : Prop :=
  m' = next^[n] m ∧ ∀ k < n, (next^[k] m).status = .running

theorem RanTo.start (m : Machine) : RanTo m 0 m := ⟨rfl, fun _ absent => absurd absent (by omega)⟩

theorem RanTo.advance {m m' : Machine} {n : Nat} (ran : RanTo m n m') :
    ∃ n', RanTo m n' m'.next := by
  obtain ⟨rfl, before⟩ := ran
  by_cases running : (next^[n] m).status = .running
  · refine ⟨n + 1, by rw [Function.iterate_succ_apply'], fun k below => ?_⟩
    rcases Nat.lt_succ_iff_lt_or_eq.mp below with earlier | rfl
    · exact before k earlier
    · exact running
  · exact ⟨n, by rw [next_of_ne_running running], before⟩

theorem RanTo.single {m : Machine} (running : m.status = .running) : RanTo m 1 m.next :=
  ⟨rfl, fun k below => by rw [Nat.lt_one_iff.mp below]; exact running⟩

theorem RanTo.trans {m m1 m2 : Machine} {n1 n2 : Nat} (first : RanTo m n1 m1)
    (second : RanTo m1 n2 m2) : RanTo m (n1 + n2) m2 := by
  obtain ⟨rfl, before⟩ := first
  obtain ⟨rfl, after⟩ := second
  refine ⟨by rw [Nat.add_comm, Function.iterate_add_apply], fun k below => ?_⟩
  by_cases early : k < n1
  · exact before k early
  · -- Past the first part, the machine is on the second.
    obtain ⟨j, rfl⟩ := Nat.exists_eq_add_of_le (Nat.le_of_not_lt early)
    rw [Nat.add_comm, Function.iterate_add_apply]
    exact after j (by omega)

theorem stepWhile_empty_ranTo (budget : Option Int) (fuel taken : Nat) (m : Machine)
    (notes : Array Note) :
    ∃ n, RanTo m n (stepWhile Registry.empty budget fuel taken m notes).machine :=
  @stepWhile_preserves Registry.empty (fun m' => ∃ n, RanTo m n m') budget
    (fun m' ⟨_, ran⟩ => by rw [(step_quiet Registry.empty_quiet m').1]; exact ran.advance)
    fuel taken m notes ⟨0, RanTo.start m⟩

end Iterate

section Interrupted

/-- Where a call that the failing observer `f` stopped leaves the machine, against the execution
from `m` with no observers: at its state after `n` steps, or, when an `on_halt` hook failed right
after the instruction of step `n` stopped the machine, at that state less the step's trace entry
and idle count. -/
def Interrupted (f : Fault) (m : Machine) (n : Nat) (stopped : Machine) : Prop :=
  stopped = next^[n] m ∨
  ∃ msg p x, f = .hook .onHalt msg ∧ n = p + 1 ∧ (next^[p] m).status = .running ∧
    (next^[p] m).instruct = .ok x ∧ x.machine.status ≠ .running ∧
    stopped = { next^[n] m with trace := (next^[p] m).trace, idleSteps := (next^[p] m).idleSteps }

variable {f : Fault} {m : Machine}

theorem Interrupted.succ {n : Nat} {stopped : Machine} (later : Interrupted f m.next n stopped) :
    Interrupted f m (n + 1) stopped := by
  rcases later with rfl | ⟨msg, p, x, kind, rfl, running, started, halted, rfl⟩
  · exact .inl (Function.iterate_succ_apply next n m).symm
  · refine .inr ⟨msg, p + 1, x, kind, rfl, ?_, ?_, halted, ?_⟩
    · rwa [Function.iterate_succ_apply]
    · rwa [Function.iterate_succ_apply]
    · simp only [Function.iterate_succ_apply]

theorem step_interrupted (reg : Registry) (m : Machine) (faulted : (m.step reg).fault = some f)
    (observer : f.crash? = none) :
    (∃ msg, f = .rule msg ∨ f = .hook .onHalt msg) ∧
      Interrupted f m 1 (m.step reg).machine ∧
      (m.step Registry.empty).fault = none := by
  rcases step_cases reg m with ⟨calm, -⟩ | ⟨c, failed, -⟩ | ⟨g, failed, kind, ended⟩
  · simp [calm] at faulted
  · obtain rfl := Option.some.inj (failed.symm.trans faulted)
    simp [Fault.crash?] at observer
  · obtain rfl := Option.some.inj (failed.symm.trans faulted)
    refine ⟨kind, ?_, ?_⟩
    · rcases ended with same | ⟨msg, onHalt, running, ⟨x, started, halted⟩, same⟩
      · exact .inl same
      · exact .inr ⟨msg, 0, x, onHalt, rfl, running, started, halted, same⟩
    · -- The instruction did not fail, so with no observers the step completes.
      apply step_empty_calm reg m
      rintro c failed
      rw [faulted] at failed
      obtain rfl := Option.some.inj failed
      simp [Fault.crash?] at observer

theorem stepWhile_interrupted (reg : Registry) (budget : Option Int) (fuel : Nat) :
    ∀ taken m notes, (stepWhile reg budget fuel taken m notes).fault = some f →
      f.crash? = none →
      (∃ msg, f = .rule msg ∨ f = .hook .onHalt msg) ∧
      ∃ n, (∀ k < n, (next^[k] m).status = .running) ∧
        Interrupted f m n (stepWhile reg budget fuel taken m notes).machine := by
  induction fuel with
  | zero =>
    intro taken m notes faulted _
    rw [(stepWhile_halted fun ⟨_, _, pos⟩ => absurd pos (Nat.lt_irrefl 0)).2] at faulted
    cases faulted
  | succ fuel ih =>
    intro taken m notes faulted observer
    by_cases goes : m.status = .running ∧ budgetSpent budget taken = false
    · obtain ⟨running, unspent⟩ := goes
      rw [stepWhile_succ running unspent] at faulted ⊢
      cases stepFault : (m.step reg).fault with
      | some g =>
        -- This step's observer failed, during the first step of the execution.
        simp only [stepFault] at faulted ⊢
        obtain rfl := Option.some.inj faulted
        obtain ⟨kind, cut, -⟩ := step_interrupted reg m stepFault observer
        refine ⟨kind, 1, fun k below => ?_, cut⟩
        obtain rfl : k = 0 := by omega
        exact running
      | none =>
        -- The step completed as it does with no observers; the failure came later.
        simp only [stepFault] at faulted ⊢
        obtain ⟨same, -⟩ :=
          step_unobserved reg m (by simp [Outcome.ObserversPassed, stepFault])
        obtain ⟨kind, n, before, cut⟩ := ih (taken + 1) (m.step reg).machine
          (notes ++ (m.step reg).notes) faulted observer
        have start : (m.step reg).machine = m.next :=
          same.trans (step_quiet Registry.empty_quiet m).1
        rw [start] at before cut ⊢
        refine ⟨kind, n + 1, fun k below => ?_, cut.succ⟩
        cases k with
        | zero => exact running
        | succ k => rw [Function.iterate_succ_apply]; exact before k (by omega)
    · rw [(stepWhile_halted fun ⟨running, unspent, _⟩ => goes ⟨running, unspent⟩).2]
        at faulted
      cases faulted

theorem run_interrupted (reg : Registry) (budget : Option Int) (m : Machine)
    (faulted : (m.run reg budget).fault = some f) (observer : f.crash? = none) :
    ∃ n, (∀ k < n, (next^[k] m).status = .running) ∧
      Interrupted f m n (m.run reg budget).machine ∧
      (∀ msg, f = .hook .programStart msg → n = 0) := by
  rw [run_eq reg] at faulted ⊢
  rcases started : reg.emit .programStart m with ⟨lines, _ | g⟩
  · simp only [started] at faulted
    simp only
    rcases returned : runSteps reg budget m (lines.map Note.observer).toArray with _ | r
    · -- Steps that never end return no fault.
      simp only [returned] at faulted
      cases faulted
    · simp only [returned] at faulted ⊢
      obtain ⟨fuel, rfl⟩ := runSteps_some returned
      cases loopFault : (stepWhile reg budget fuel 0 m (lines.map Note.observer).toArray).fault with
      | some g =>
        -- A step's observer failed, and the run ends with that step.
        simp only [loopFault] at faulted ⊢
        obtain rfl := Option.some.inj faulted
        obtain ⟨kind, n, before, cut⟩ :=
          stepWhile_interrupted reg budget fuel 0 m _ loopFault observer
        refine ⟨n, before, cut, ?_⟩
        rintro msg rfl
        rcases kind with ⟨_, unequal | unequal⟩ <;> cases unequal
      | none =>
        -- The steps completed with no observer failing; a `program_end` hook failed after them.
        simp only [loopFault] at faulted ⊢
        obtain ⟨msg, rfl⟩ := Registry.emit_fault faulted
        have same := stepWhile_unobserved reg budget fuel 0 m
          (lines.map Note.observer).toArray #[] (by simp [Outcome.ObserversPassed, loopFault])
        obtain ⟨n, reached, before⟩ := stepWhile_empty_ranTo budget fuel 0 m #[]
        refine ⟨n, before, .inl (same.trans reached), ?_⟩
        intro msg' unequal
        cases unequal
  · -- A `program_start` hook failed before the first step.
    simp only [started] at faulted
    obtain rfl := Option.some.inj faulted
    exact ⟨0, fun _ absent => absurd absent (by omega), .inl rfl, fun _ _ => rfl⟩

end Interrupted

/-- Observers cannot change the execution. When none fails, the calls leave the machine, up to
its trace, that the same calls leave with no observers from a trace that records nothing. When
one fails, the call stops where the observer-free execution from the same machine stands after
the step during which the observer was called, or before the first step for a `program_start`
hook; the execution was running before each of those steps, so it takes them too. The stopped
step is whole, except for its trace entry and idle count when an `on_halt` hook failed
after an instruction that stopped the machine. -/
theorem observers_change_nothing (reg : Registry) (m : Machine) :
    (∀ (calls : List Drive) (tr : Trace), tr.depth = 0 → m.ObserversPass reg calls →
      { (m.drive reg calls).machine with trace := tr } =
        ({ m with trace := tr }.drive Registry.empty calls).machine) ∧
    (∀ (call : Drive) (f : Fault), (m.perform reg call).fault = some f → f.crash? = none →
      ∃ n, (∀ k < n, (next^[k] m).status = .running) ∧
        Interrupted f m n (m.perform reg call).machine ∧
        (∀ msg, f = .hook .programStart msg → n = 0)) := by
  refine ⟨fun calls tr flat pass => (drive_withTrace reg m calls flat pass).symm, ?_⟩
  intro call f faulted observer
  cases call with
  | step =>
    obtain ⟨kind, cut, -⟩ := step_interrupted reg m faulted observer
    -- A step that an observer interrupted was taken from a running machine.
    have running : m.status = .running := by
      by_contra stopped
      have quiet : (m.step reg).fault = none := by rw [step_of_ne_running reg m stopped]
      cases quiet.symm.trans faulted
    refine ⟨1, fun k below => ?_, cut, ?_⟩
    · obtain rfl : k = 0 := by omega
      exact running
    · rintro msg rfl
      rcases kind with ⟨_, unequal | unequal⟩ <;> cases unequal
  | run budget => exact run_interrupted reg budget m faulted observer

theorem failing_start_hook_stops_run :
    let m : Machine :=
      { ring := .standard, trace := { depth := 0 }, input := { pending := [] }, output := {} }
    let failing : Registry :=
      { hooks := [{ event := .programStart, priority := .whole 0,
                    react := fun _ => { failure := some "stopped" } }] }
    ((({ depth := 0 } : Trace).depth = 0 ∧ m.ObserversPass failing [] ∧
      { (m.drive failing []).machine with trace := { depth := 0 } } =
        ({ m with trace := { depth := 0 } }.drive Registry.empty []).machine) ∧
    ((m.perform failing (.run none)).fault = some (.hook .programStart "stopped") ∧
      (Fault.hook .programStart "stopped").crash? = none ∧
      ∃ n, (∀ k < n, (next^[k] m).status = .running) ∧
        Interrupted (.hook .programStart "stopped") m n (m.perform failing (.run none)).machine ∧
        (∀ msg, Fault.hook .programStart "stopped" = .hook .programStart msg → n = 0))) := by
  intro m failing
  have faulted : (m.perform failing (.run none)).fault = some (.hook .programStart "stopped") :=
    rfl
  have nothing := observers_change_nothing failing m
  exact ⟨⟨rfl, trivial, nothing.1 [] _ rfl trivial⟩,
    faulted, rfl, nothing.2 (.run none) _ faulted rfl⟩

end Machine

end RingMachine
