import RingMachine.Proofs.Step

/-!
Runs as repeated steps. A run takes steps one after another until the machine stops, the
budget is spent or an observer fails, so what holds after every step holds after a run, and a
run with no observers leaves `next` applied some number of times. A caller drives a loaded
machine by steps and runs, one call after another.
-/

namespace RingMachine

inductive Drive where
  | step
  | run (budget : Option Int)

def Outcome.Ended (r : Outcome) : Prop := r.machine.status ≠ .running ∨ r.fault.isSome

namespace Machine

def perform (reg : Registry) (m : Machine) : Drive → Outcome
  | .step => m.step reg
  | .run budget => m.run reg budget

/-- Whether a call returns to its caller: a step always does, and a run unless its steps never
end. -/
def returns (reg : Registry) (m : Machine) : Drive → Bool
  | .step => true
  | .run budget => (m.run? reg budget).isSome

/-- Makes calls one after another, each on the machine the one before left, and goes on after
a call that failed, as a caller that catches the failure would. A call that never returns ends
the calls: its outcome is the last, and no later call is made. The notes of all calls are kept
in order; the fault is that of the last call. -/
def drive (reg : Registry) (m : Machine) : List Drive → Outcome
  | [] => { machine := m }
  | call :: rest =>
    let r := m.perform reg call
    if m.returns reg call then
      let s := r.machine.drive reg rest
      { s with notes := r.notes ++ s.notes }
    else r

@[simp] theorem drive_nil (reg : Registry) (m : Machine) : m.drive reg [] = { machine := m } := rfl

theorem drive_cons_machine (reg : Registry) (m : Machine) (call : Drive) (rest : List Drive) :
    (m.drive reg (call :: rest)).machine =
      if m.returns reg call then ((m.perform reg call).machine.drive reg rest).machine
      else (m.perform reg call).machine := by
  simp only [drive]
  split <;> rfl

@[simp] theorem returns_step (reg : Registry) (m : Machine) : m.returns reg .step = true := rfl

/-- A run calls the `program_start` hooks, steps, and then calls the `program_end` hooks unless
a hook or a step failed first, or the steps never end. -/
theorem run_eq (reg : Registry) (budget : Option Int) (m : Machine) :
    m.run reg budget =
      match reg.emit .programStart m with
      | (lines, some f) =>
        { machine := m, notes := (lines.map Note.observer).toArray, fault := some f }
      | (lines, none) =>
        match runSteps reg budget m (lines.map Note.observer).toArray with
        | none => { machine := m, notes := (lines.map Note.observer).toArray }
        | some r =>
          match r.fault with
          | some _ => r
          | none =>
            { r with
              notes := r.notes ++ ((reg.emit .programEnd r.machine).1.map Note.observer).toArray
              fault := (reg.emit .programEnd r.machine).2 } := by
  unfold run run?
  rcases reg.emit .programStart m with ⟨lines, _ | f⟩
  · -- Without a failing start hook, the run is its steps' outcome, if they end.
    dsimp only
    rcases runSteps reg budget m (lines.map Note.observer).toArray with _ | r <;> rfl
  · rfl

theorem run_machine (reg : Registry) (budget : Option Int) (m : Machine) :
    (m.run reg budget).machine =
      match (reg.emit .programStart m).2 with
      | some _ => m
      | none =>
        ((runSteps reg budget m ((reg.emit .programStart m).1.map Note.observer).toArray).map
          Outcome.machine).getD m := by
  rw [run_eq]
  rcases reg.emit .programStart m with ⟨lines, _ | f⟩
  · simp only
    rcases runSteps reg budget m (lines.map Note.observer).toArray with _ | r
    · rfl
    · simp only [Option.map_some, Option.getD_some]
      split <;> rfl
  · rfl

section Loop

@[simp] theorem budgetSpent_none (taken : Nat) : budgetSpent none taken = false := rfl

variable {reg : Registry} {budget : Option Int} {fuel taken : Nat} {m : Machine}
  {notes : Array Note}

theorem stepWhile_of_ne_running (stopped : m.status ≠ .running) :
    stepWhile reg budget fuel taken m notes = { machine := m, notes } := by
  unfold stepWhile
  simp [stopped]

theorem stepWhile_of_spent (running : m.status = .running)
    (spent : budgetSpent budget taken = true) :
    stepWhile reg budget fuel taken m notes =
      { machine := m, notes := notes.push (.budgetExhausted (budget.getD 0) m.c) } := by
  unfold stepWhile
  simp [running, spent]

theorem stepWhile_zero (running : m.status = .running)
    (unspent : budgetSpent budget taken = false) :
    stepWhile reg budget 0 taken m notes = { machine := m, notes } := by
  unfold stepWhile
  simp [running, unspent]

theorem stepWhile_halted
    (halted : ¬(m.status = .running ∧ budgetSpent budget taken = false ∧ 0 < fuel)) :
    (stepWhile reg budget fuel taken m notes).machine = m ∧
      (stepWhile reg budget fuel taken m notes).fault = none := by
  by_cases running : m.status = .running
  · cases spent : budgetSpent budget taken
    · -- Running and within budget, so the fuel is what ran out.
      have empty : fuel = 0 := by
        by_contra moving
        exact halted ⟨running, spent, Nat.pos_of_ne_zero moving⟩
      subst empty
      rw [stepWhile_zero running spent]
      exact ⟨rfl, rfl⟩
    · rw [stepWhile_of_spent running spent]
      exact ⟨rfl, rfl⟩
  · rw [stepWhile_of_ne_running running]
    exact ⟨rfl, rfl⟩

theorem stepWhile_succ (running : m.status = .running)
    (unspent : budgetSpent budget taken = false) :
    stepWhile reg budget (fuel + 1) taken m notes =
      match (m.step reg).fault with
      | some f =>
        { machine := (m.step reg).machine, notes := notes ++ (m.step reg).notes, fault := some f }
      | none =>
        stepWhile reg budget fuel (taken + 1) (m.step reg).machine
          (notes ++ (m.step reg).notes) := by
  rw [stepWhile]
  simp only [running, unspent]
  rfl

end Loop

section Unbounded

variable {reg : Registry} {m : Machine} {notes : Array Note} {r : Outcome}

theorem stepUntilStop_of_ne_running (stopped : m.status ≠ .running) :
    stepUntilStop reg m notes = some { machine := m, notes } := by
  rw [stepUntilStop]
  simp [stopped]

theorem stepUntilStop_running (running : m.status = .running) :
    stepUntilStop reg m notes =
      match (m.step reg).fault with
      | some f =>
        some { machine := (m.step reg).machine, notes := notes ++ (m.step reg).notes,
               fault := some f }
      | none => stepUntilStop reg (m.step reg).machine (notes ++ (m.step reg).notes) := by
  exact (stepUntilStop.eq_1 reg m notes).trans (if_neg (not_not.mpr running))

theorem stepUntilStop_of_ended (fuel taken : Nat) (m : Machine) (notes : Array Note)
    (ended : (stepWhile reg none fuel taken m notes).Ended) :
    stepUntilStop reg m notes = some (stepWhile reg none fuel taken m notes) := by
  induction fuel generalizing taken m notes with
  | zero =>
    by_cases running : m.status = .running
    · -- Out of fuel while running and with no failure: not an end.
      rw [stepWhile_zero running (budgetSpent_none taken)] at ended
      rcases ended with stopped | failed
      · exact absurd running stopped
      · cases failed
    · rw [stepWhile_of_ne_running running, stepUntilStop_of_ne_running running]
  | succ fuel ih =>
    by_cases running : m.status = .running
    · rw [stepWhile_succ running (budgetSpent_none taken)] at ended ⊢
      rw [stepUntilStop_running running]
      -- A failing step ends both loops alike; otherwise both go on from the step's machine.
      revert ended
      rcases (m.step reg).fault with _ | f
      · exact ih _ _ _
      · exact fun _ => rfl
    · rw [stepWhile_of_ne_running running, stepUntilStop_of_ne_running running]

theorem stepWhile_of_stepUntilStop (returned : stepUntilStop reg m notes = some r) :
    ∀ taken, ∃ fuel, stepWhile reg none fuel taken m notes = r ∧ r.Ended := by
  -- Partial correctness: the property holds of every value the fixpoint returns.
  refine stepUntilStop.partial_correctness reg
    (fun m notes r => ∀ taken, ∃ fuel, stepWhile reg none fuel taken m notes = r ∧ r.Ended)
    ?_ m notes r returned
  intro loop ih m notes r unfolded taken
  by_cases running : m.status = .running
  · simp only [running, ne_eq, not_true_eq_false, if_false] at unfolded
    rcases stepped : (m.step reg).fault with _ | f
    · rw [stepped] at unfolded
      obtain ⟨fuel, ran, ended⟩ := ih _ _ r unfolded (taken + 1)
      refine ⟨fuel + 1, ?_, ended⟩
      rw [stepWhile_succ running (budgetSpent_none taken), stepped]
      exact ran
    · rw [stepped, Option.some.injEq] at unfolded
      subst unfolded
      refine ⟨1, ?_, .inr rfl⟩
      rw [stepWhile_succ running (budgetSpent_none taken), stepped]
  · simp only [running, ne_eq, not_false_eq_true, if_true, Option.some.injEq] at unfolded
    subst unfolded
    exact ⟨0, stepWhile_of_ne_running running, .inl running⟩

theorem runSteps_some {budget : Option Int} (returned : runSteps reg budget m notes = some r) :
    ∃ fuel, stepWhile reg budget fuel 0 m notes = r := by
  cases budget with
  | some b => exact ⟨b.toNat, Option.some.inj returned⟩
  | none =>
    obtain ⟨fuel, ran, -⟩ := stepWhile_of_stepUntilStop returned 0
    exact ⟨fuel, ran⟩

theorem runSteps_of_ne_running (budget : Option Int) (stopped : m.status ≠ .running) :
    runSteps reg budget m notes = some { machine := m, notes } := by
  cases budget with
  | some b => simp [runSteps, stepWhile_of_ne_running stopped]
  | none => exact stepUntilStop_of_ne_running stopped

end Unbounded

section Returns

variable {reg : Registry} {m : Machine}

theorem returns_run (budget : Option Int) :
    m.returns reg (.run budget) =
      ((reg.emit .programStart m).2.isSome ||
        (runSteps reg budget m
          ((reg.emit .programStart m).1.map Note.observer).toArray).isSome) := by
  simp only [returns, run?]
  rcases reg.emit .programStart m with ⟨lines, _ | f⟩
  · simp
  · rfl

@[simp] theorem returns_budget (b : Int) : m.returns reg (.run (some b)) = true := by
  rw [returns_run]
  simp [runSteps]

theorem returns_of_ne_running (stopped : m.status ≠ .running) (call : Drive) :
    m.returns reg call = true := by
  cases call with
  | step => rfl
  | run budget =>
    rw [returns_run, runSteps_of_ne_running budget stopped]
    simp

theorem running_of_not_returns {call : Drive} (diverges : m.returns reg call = false) :
    m.status = .running := by
  by_contra stopped
  rw [returns_of_ne_running stopped] at diverges
  cases diverges

theorem perform_of_not_returns {call : Drive} (diverges : m.returns reg call = false) :
    (m.perform reg call).machine = m := by
  cases call with
  | step => cases diverges
  | run budget =>
    have never : m.run? reg budget = none := by simpa [returns] using diverges
    simp [perform, run, never]

end Returns

section Preserved

variable {reg : Registry} {P : Machine → Prop}

theorem stepWhile_preserves (budget : Option Int) (kept : ∀ m, P m → P (m.step reg).machine)
    (fuel taken : Nat) (m : Machine) (notes : Array Note) (holds : P m) :
    P (stepWhile reg budget fuel taken m notes).machine := by
  induction fuel generalizing taken m notes with
  | zero =>
    rw [(stepWhile_halted fun ⟨_, _, pos⟩ => absurd pos (Nat.lt_irrefl 0)).1]
    exact holds
  | succ fuel ih =>
    by_cases goes : m.status = .running ∧ budgetSpent budget taken = false
    · rw [stepWhile_succ goes.1 goes.2]
      -- Whether or not the step failed, the run goes on from, or stops at, its machine.
      cases (m.step reg).fault with
      | some f => exact kept m holds
      | none => exact ih _ _ _ (kept m holds)
    · rw [(stepWhile_halted fun ⟨running, unspent, _⟩ => goes ⟨running, unspent⟩).1]
      exact holds

theorem run_preserves (budget : Option Int) (kept : ∀ m, P m → P (m.step reg).machine)
    (m : Machine) (holds : P m) : P (m.run reg budget).machine := by
  rw [run_machine]
  split
  · exact holds
  · -- The steps either never end, and the machine stays, or end where the fuelled loop does.
    rcases returned : runSteps reg budget m _ with _ | r
    · exact holds
    · obtain ⟨fuel, rfl⟩ := runSteps_some returned
      exact stepWhile_preserves budget kept _ _ _ _ holds

theorem drive_preserves (kept : ∀ m, P m → P (m.step reg).machine) (calls : List Drive)
    (m : Machine) (holds : P m) : P (m.drive reg calls).machine := by
  induction calls generalizing m with
  | nil => exact holds
  | cons call rest ih =>
    have first : P (m.perform reg call).machine := by
      cases call with
      | step => exact kept m holds
      | run budget => exact run_preserves budget kept m holds
    rw [drive_cons_machine]
    split
    · exact ih _ first
    · exact first

end Preserved

end Machine

end RingMachine
