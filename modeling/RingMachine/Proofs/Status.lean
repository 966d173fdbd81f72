import RingMachine.Proofs.Run

/-!
The status changes once. A running machine stops at most once, and then for good: a stopped
machine steps to itself, logs nothing and calls no observer, and a run of it calls only the
`program_start` and `program_end` hooks. Every change of status is logged once, with the new
status, and the `on_halt` hooks are called right after it on a machine that has that status;
no step, run or sequence of calls logs a second one.
-/

namespace RingMachine

def Note.changesStatus : Note → Bool
  | .statusChanged .. => true
  | _ => false

namespace Machine

/-- How a log reports what became of the status. Either the status is unchanged and no change
is logged, or it went from running to a stop, and the log holds exactly one change: the one
`announceStop` makes for a machine with the new status, which logs it and then calls the
`on_halt` hooks on that machine. -/
def Announced (reg : Registry) (before after : Status) (notes : List Note) : Prop :=
  (after = before ∧ ∀ n ∈ notes, n.changesStatus = false) ∨
  (before = .running ∧ after ≠ .running ∧
    ∃ pre post stopped, notes = pre ++ (announceStop reg stopped).1 ++ post ∧
      stopped.status = after ∧ ∀ n ∈ pre ++ post, n.changesStatus = false)

section Announced

variable {reg : Registry} {s1 s2 s3 : Status} {notes1 notes2 : List Note}

theorem Announced.quiet {s : Status} (quiet : ∀ n ∈ notes1, n.changesStatus = false) :
    Announced reg s s notes1 :=
  .inl ⟨rfl, quiet⟩

theorem Announced.append (first : Announced reg s1 s2 notes1)
    (second : Announced reg s2 s3 notes2) : Announced reg s1 s3 (notes1 ++ notes2) := by
  rcases first with
    ⟨rfl, quiet1⟩ | ⟨running1, stopped1, pre, post, stopped, rfl, status, quiet⟩
  · rcases second with
      ⟨rfl, quiet2⟩ | ⟨running2, stopped2, pre2, post2, stop2, rfl, status2, quiet2⟩
    · left
      refine ⟨rfl, fun n member => ?_⟩
      rcases List.mem_append.mp member with here | there
      · exact quiet1 n here
      · exact quiet2 n there
    · right
      refine ⟨running2, stopped2, notes1 ++ pre2, post2, stop2, by simp, status2, ?_⟩
      intro n member
      simp only [List.mem_append] at member
      rcases member with (here | there) | there
      · exact quiet1 n here
      · exact quiet2 n (List.mem_append_left _ there)
      · exact quiet2 n (List.mem_append_right _ there)
  · -- The first log already stopped the machine, so the second can change nothing.
    rcases second with ⟨rfl, quiet2⟩ | ⟨running2, -⟩
    · right
      refine ⟨running1, stopped1, pre, post ++ notes2, stopped, by simp, status, ?_⟩
      intro n member
      simp only [List.mem_append] at member
      rcases member with here | there | there
      · exact quiet n (List.mem_append_left _ here)
      · exact quiet n (List.mem_append_right _ there)
      · exact quiet2 n there
    · exact absurd running2 stopped1

theorem Announced.stop {pre post : List Note} {stopped : Machine} (running : s1 = .running)
    (halted : stopped.status ≠ .running) (quietPre : ∀ n ∈ pre, n.changesStatus = false)
    (quietPost : ∀ n ∈ post, n.changesStatus = false) :
    Announced reg s1 stopped.status (pre ++ (announceStop reg stopped).1 ++ post) := by
  refine .inr ⟨running, halted, pre, post, stopped, rfl, rfl, fun n member => ?_⟩
  rcases List.mem_append.mp member with here | there
  · exact quietPre n here
  · exact quietPost n there

end Announced

theorem observer_quiet (lines : List String) :
    ∀ n ∈ lines.map Note.observer, n.changesStatus = false := by
  simp [Note.changesStatus]

theorem Executes.notes_quiet {m m1 : Machine} {op : Option Instruction} {transferred : Bool}
    {notes : List Note} (run : Executes m op m1 transferred notes) :
    ∀ n ∈ notes, n.changesStatus = false := by
  cases run <;> simp [Note.changesStatus]

theorem announceChange_of_ne {reg : Registry} {before : Status} {m : Machine}
    (moved : m.status ≠ before) : announceChange reg before m = announceStop reg m := by
  simp [announceChange, moved]

theorem step_announced (reg : Registry) (m : Machine) :
    Announced reg m.status (m.step reg).machine.status (m.step reg).notes.toList := by
  by_cases running : m.status = .running
  · cases started : m.instruct with
    | error e =>
      have failed : m.step reg = { machine := m, fault := some (.failed e) } := by
        simp [step, running, started]
      rw [failed]
      exact .quiet (by simp)
    | ok x =>
      have logged := (instruct_executes started).notes_quiet
      rw [running]
      rcases step_of_instruct reg running started with
        ⟨faulted, stepped⟩ | ⟨-, settled, lines, noted⟩
      · -- An `on_halt` hook failed, so the instruction itself stopped the machine.
        obtain ⟨f, failed⟩ := Option.isSome_iff_exists.mp faulted
        have moved := (announceChange_fault failed).1
        rw [stepped, announceChange_of_ne moved]
        have announced : Announced reg .running x.machine.status
            (x.notes ++ (announceStop reg x.machine).1 ++ []) :=
          Announced.stop rfl moved logged (by simp)
        simpa using announced
      · rw [settled]
        by_cases stillRunning : x.machine.status = .running
        · rw [announceChange_of_eq stillRunning, List.append_nil] at noted
          by_cases watched : (m.account x).settle.status = .running
          · -- Neither the instruction nor the watchdog stopped the machine.
            rw [announceChange_of_eq (by rw [watched, stillRunning]), List.append_nil] at noted
            rw [noted, watched]
            refine .quiet fun n member => ?_
            rcases List.mem_append.mp member with here | there
            · exact logged n here
            · exact observer_quiet lines n there
          · -- The watchdog stopped it.
            rw [announceChange_of_ne (by rwa [stillRunning])] at noted
            rw [noted]
            exact Announced.stop rfl watched logged (observer_quiet lines)
        · -- The instruction stopped it, and the watchdog left it stopped.
          have kept : (m.account x).settle = m.account x :=
            settle_of_ne_running (by simpa using stillRunning)
          rw [announceChange_of_ne stillRunning, kept,
            announceChange_of_eq (by simp), List.append_nil] at noted
          rw [noted, kept]
          exact Announced.stop rfl stillRunning logged (observer_quiet lines)
  · have stopped : m.step reg = { machine := m } := step_of_ne_running reg m running
    rw [stopped]
    exact .quiet (by simp)

theorem Announced.stays {reg : Registry} {before after : Status} {notes : List Note}
    (announced : Announced reg before after notes) (stopped : before ≠ .running) :
    after = before := by
  rcases announced with ⟨same, -⟩ | ⟨running, -⟩
  · exact same
  · exact absurd running stopped

theorem stepWhile_announced (reg : Registry) (budget : Option Int) {before : Status}
    (fuel taken : Nat) (m : Machine) (notes : Array Note)
    (earlier : Announced reg before m.status notes.toList) :
    Announced reg before (stepWhile reg budget fuel taken m notes).machine.status
      (stepWhile reg budget fuel taken m notes).notes.toList := by
  induction fuel generalizing taken m notes with
  | zero =>
    unfold stepWhile
    split
    · exact earlier
    · split
      · simpa using earlier.append (.quiet (by simp [Note.changesStatus]))
      · exact earlier
  | succ fuel ih =>
    unfold stepWhile
    split
    · exact earlier
    · split
      · simpa using earlier.append (.quiet (by simp [Note.changesStatus]))
      · have stepped := earlier.append (step_announced reg m)
        simp only
        split
        · simpa using stepped
        · exact ih _ _ _ (by simpa using stepped)

theorem run_announced (reg : Registry) (budget : Option Int) (m : Machine) :
    Announced reg m.status (m.run reg budget).machine.status (m.run reg budget).notes.toList := by
  rw [run_eq]
  rcases reg.emit .programStart m with ⟨lines, _ | f⟩
  · simp only
    have started : Announced reg m.status m.status ((lines.map Note.observer).toArray.toList) :=
      .quiet (by simpa using observer_quiet lines)
    rcases returned : runSteps reg budget m (lines.map Note.observer).toArray with _ | r
    · exact started
    · -- The steps returned, so they are those of the fuelled loop.
      obtain ⟨fuel, rfl⟩ := runSteps_some returned
      have stepped := stepWhile_announced reg budget fuel 0 m _ started
      dsimp only
      split
      · exact stepped
      · simp only [Array.toList_append]
        exact stepped.append (.quiet (by simpa using observer_quiet _))
  · exact .quiet (by simpa using observer_quiet lines)

theorem drive_announced (reg : Registry) (calls : List Drive) (m : Machine) :
    Announced reg m.status (m.drive reg calls).machine.status (m.drive reg calls).notes.toList := by
  induction calls generalizing m with
  | nil => exact .quiet (by simp)
  | cons call rest ih =>
    have first : Announced reg m.status (m.perform reg call).machine.status
        (m.perform reg call).notes.toList := by
      cases call with
      | step => exact step_announced reg m
      | run budget => exact run_announced reg budget m
    by_cases returned : m.returns reg call = true
    · simpa [drive, returned] using first.append (ih _)
    · simpa [drive, returned] using first

theorem drive_append_of_stopped (reg : Registry) (first second : List Drive) (m : Machine)
    (stopped : (m.drive reg first).machine.status ≠ .running) :
    (m.drive reg (first ++ second)).machine =
      ((m.drive reg first).machine.drive reg second).machine := by
  induction first generalizing m with
  | nil => rfl
  | cons call rest ih =>
    -- A call that never returns leaves the running machine it started from.
    have returned : m.returns reg call = true := by
      by_contra diverges
      rw [Bool.not_eq_true] at diverges
      apply stopped
      rw [drive_cons_machine, diverges, if_neg Bool.false_ne_true, perform_of_not_returns diverges]
      exact running_of_not_returns diverges
    simp only [List.cons_append, drive_cons_machine, returned, if_true] at stopped ⊢
    exact ih _ stopped

theorem run_of_ne_running (reg : Registry) (budget : Option Int) {m : Machine}
    (stopped : m.status ≠ .running) :
    (m.run reg budget).machine = m ∧
      (m.run reg budget).notes.toList =
        ((reg.emit .programStart m).1 ++
          if (reg.emit .programStart m).2.isSome then [] else (reg.emit .programEnd m).1).map
          Note.observer := by
  rw [run_eq]
  rcases started : reg.emit .programStart m with ⟨lines, _ | f⟩
  · simp [runSteps_of_ne_running budget stopped]
  · simp

/-- The status changes at most once, from running to a stop, and then stays. A single step,
and every sequence of steps and runs, logs at most one change of status, and exactly one when
the status changed; that change carries the new status, and the `on_halt` hooks are called right
after it, on a machine that has the new status. Along the calls, a status once stopped stays. A
stopped machine steps to itself, logging nothing and calling neither channel nor observer, and a
run of it calls only the `program_start` and `program_end` hooks. -/
theorem status_changes_once (reg : Registry) (m : Machine) (calls : List Drive) :
    Announced reg m.status (m.step reg).machine.status (m.step reg).notes.toList ∧
    Announced reg m.status (m.drive reg calls).machine.status (m.drive reg calls).notes.toList ∧
    (∀ i j, i ≤ j → (m.drive reg (calls.take i)).machine.status ≠ .running →
      (m.drive reg (calls.take j)).machine.status = (m.drive reg (calls.take i)).machine.status) ∧
    (m.status ≠ .running → m.step reg = { machine := m } ∧
      ∀ budget, (m.run reg budget).machine = m ∧
        (m.run reg budget).notes.toList =
          ((reg.emit .programStart m).1 ++
            if (reg.emit .programStart m).2.isSome then [] else (reg.emit .programEnd m).1).map
            Note.observer) := by
  refine ⟨step_announced reg m, drive_announced reg calls m, ?_, ?_⟩
  · intro i j ordered stopped
    -- The calls up to `j` are those up to `i` followed by the calls between.
    have split : calls.take j = calls.take i ++ (calls.drop i).take (j - i) := by
      rw [← List.take_add, Nat.add_sub_cancel' ordered]
    rw [split, drive_append_of_stopped reg _ _ m stopped]
    exact (drive_announced reg _ _).stays stopped
  · intro stopped
    exact ⟨step_of_ne_running reg m stopped, fun budget => run_of_ne_running reg budget stopped⟩

theorem halted_machine_status_stays :
    let halted : Machine :=
      { ring := .standard, status := .haltCommand, trace := { depth := 0 },
        input := { pending := [] }, output := {} }
    halted.status ≠ .running ∧ 1 ≤ 2 ∧
      halted.step Registry.empty = { machine := halted } ∧
      (halted.run Registry.empty none).machine = halted ∧
      (halted.drive Registry.empty ([Drive.step, .run none].take 1)).machine.status ≠ .running ∧
      (halted.drive Registry.empty ([Drive.step, .run none].take 2)).machine.status =
        (halted.drive Registry.empty ([Drive.step, .run none].take 1)).machine.status := by
  intro halted
  have stopped : halted.status ≠ .running := by decide
  have once := status_changes_once Registry.empty halted [.step, .run none]
  have after : (halted.drive Registry.empty ([Drive.step, .run none].take 1)).machine.status ≠
      .running := by
    simp [drive, perform, step_of_ne_running _ _ stopped, stopped]
  exact ⟨stopped, by decide, (once.2.2.2 stopped).1, ((once.2.2.2 stopped).2 none).1, after,
    once.2.2.1 1 2 (by decide) after⟩

end Machine

end RingMachine
