import RingMachine.Proofs.Budget
import RingMachine.Proofs.Instruction
import RingMachine.Proofs.Priority

/-!
The order of observer calls. A call of an observer is a hook shown a machine, or a step rule
shown a step, and what it logs are its lines. With observers that never fail, the lines a run
logs through its observers are those of its calls, in this order: the `program_start` hooks;
then for each step, in order of its index, the `on_halt` hooks if the step stopped the machine,
shown the machine with its new status, and the step rules due at that index, shown the step's
command and the registers after it; last the `program_end` hooks, unless the run failed. A run
that spends its budget while the machine runs calls no `on_halt` hook. Within an event the hooks
are called by priority, highest first, and in registration order among equal priorities.
-/

namespace RingMachine

def Note.line? : Note → Option String
  | .observer text => some text
  | _ => none

def observerLines (notes : List Note) : List String := notes.filterMap Note.line?

@[simp] theorem observerLines_append (a b : List Note) :
    observerLines (a ++ b) = observerLines a ++ observerLines b :=
  List.filterMap_append

@[simp] theorem observerLines_observer (lines : List String) :
    observerLines (lines.map Note.observer) = lines := by
  simp [observerLines, List.filterMap_map, Function.comp_def, Note.line?]

/-- A call of an observer: a hook shown a machine, or a step rule shown a machine and a step. -/
inductive Call where
  | hook (h : Hook) (m : Machine)
  | rule (r : StepRule) (m : Machine) (ctx : StepContext)

def Call.lines : Call → List String
  | .hook h m => (h.react m).notes
  | .rule r m ctx => (r.react m ctx).notes

namespace Registry

def hookCalls (reg : Registry) (e : Event) (m : Machine) : List Call :=
  (reg.hooksFor e).map fun h => .hook h m

def ruleCalls (reg : Registry) (m : Machine) (ctx : StepContext) : List Call :=
  (reg.rules.filter fun r => r.period.isDue ctx.index).map fun r => .rule r m ctx

variable {reg : Registry}

theorem gather_lines {xs : List Reaction} (quiet : ∀ x ∈ xs, x.failure = none) :
    (gather xs).1 = xs.flatMap Reaction.notes := by
  induction xs with
  | nil => rfl
  | cons x rest ih =>
    have head : x.failure = none := quiet x List.mem_cons_self
    simp only [gather, head, List.flatMap_cons]
    rw [ih fun y member => quiet y (List.mem_cons_of_mem x member)]

theorem emit_lines (quiet : reg.Quiet) (e : Event) (m : Machine) :
    (reg.emit e m).1 = (reg.hookCalls e m).flatMap Call.lines := by
  have calm : ∀ x ∈ (reg.hooksFor e).map (fun h => h.react m), x.failure = none := by
    intro x member
    obtain ⟨h, found, rfl⟩ := List.mem_map.mp member
    exact quiet.1 h (List.mem_filter.mp found).1 m
  simp [emit, gather_lines calm, hookCalls, List.flatMap_map, Call.lines]

theorem mem_hookCalls {e : Event} {m shown : Machine} {h : Hook} :
    Call.hook h shown ∈ reg.hookCalls e m ↔ h ∈ reg.hooksFor e ∧ shown = m := by
  simp [hookCalls, eq_comm]

theorem hook_not_mem_ruleCalls {m : Machine} {ctx : StepContext} {shown : Machine} {h : Hook} :
    Call.hook h shown ∉ reg.ruleCalls m ctx := by
  simp [ruleCalls]

theorem afterStep_lines (quiet : reg.Quiet) (m : Machine) (ctx : StepContext) :
    (reg.afterStep m ctx).1 = (reg.ruleCalls m ctx).flatMap Call.lines := by
  have calm : ∀ x ∈ (reg.rules.filter fun r => r.period.isDue ctx.index).map
      (fun r => r.react m ctx), x.failure = none := by
    intro x member
    obtain ⟨r, found, rfl⟩ := List.mem_map.mp member
    exact quiet.2 r (List.mem_filter.mp found).1 m ctx
  simp [afterStep, gather_lines calm, ruleCalls, List.flatMap_map, Call.lines]

end Registry

namespace Machine

/-- The observer calls of the step from `m`, as the observer-free execution takes it. A step
that stops the machine calls the `on_halt` hooks, shown the machine its instruction left if the
instruction stopped it, and the machine after the step if the watchdog did. Then the step rules
due at the step's index are shown the machine after the step, and the step's command,
instruction and registers after it. A
stopped machine, and one whose instruction fails, call nothing. -/
def stepCalls (reg : Registry) (m : Machine) : List Call :=
  if m.status ≠ .running then [] else
  match m.instruct with
  | .error _ => []
  | .ok x =>
    (if x.machine.status ≠ .running then reg.hookCalls .onHalt x.machine
      else if m.next.status ≠ .running then reg.hookCalls .onHalt m.next else []) ++
    reg.ruleCalls m.next
      ⟨m.steps, x.command, Instruction.decode x.command, m.next.a, m.next.c, m.next.d⟩

section Step

variable {reg : Registry} {m : Machine} {x : Executed}

theorem Executes.observerLines_nil {m m1 : Machine} {op : Option Instruction} {transferred : Bool}
    {notes : List Note} (run : Executes m op m1 transferred notes) : observerLines notes = [] := by
  cases run <;> rfl

theorem announceChange_lines (quiet : reg.Quiet) (before : Status) (m : Machine) :
    observerLines (announceChange reg before m).1 =
      if m.status = before then [] else (reg.hookCalls .onHalt m).flatMap Call.lines := by
  unfold announceChange announceStop
  split
  · rfl
  · -- The change of status is logged first, and is no observer's line.
    rw [← Registry.emit_lines quiet]
    exact (List.filterMap_cons_none rfl).trans (observerLines_observer _)

theorem step_quiet_notes (quiet : reg.Quiet) (running : m.status = .running)
    (started : m.instruct = .ok x) :
    (m.step reg).notes.toList = x.notes ++ (announceChange reg .running x.machine).1 ++
      (announceChange reg x.machine.status m.next).1 ++
      ((reg.afterStep m.next ⟨m.steps, x.command, Instruction.decode x.command, m.next.a, m.next.c,
        m.next.d⟩).1.map Note.observer) := by
  rw [next_of_instruct running started]
  have halted := announceChange_quiet quiet .running x.machine
  have watched := announceChange_quiet quiet x.machine.status (m.account x).settle
  rcases announced : announceChange reg .running x.machine with ⟨notes2, f2⟩
  rcases settled : announceChange reg x.machine.status (m.account x).settle with ⟨notes3, f3⟩
  rw [announced] at halted
  rw [settled] at watched
  simp only at halted watched
  subst halted watched
  by_cases noRules : reg.rules.isEmpty
  · -- Without rules the step skips them, and with none due they would log nothing.
    have silent : ∀ m' ctx, (reg.afterStep m' ctx).1 = [] := fun m' ctx => by
      simp [Registry.afterStep, List.isEmpty_iff.mp noRules, Registry.gather]
    simp [step, running, started, announced, settled, noRules, silent]
  · simp [step, running, started, announced, settled, noRules,
      Registry.afterStep_fault_none quiet]

theorem step_lines (quiet : reg.Quiet) (m : Machine) :
    observerLines (m.step reg).notes.toList = (m.stepCalls reg).flatMap Call.lines := by
  by_cases running : m.status = .running
  · cases started : m.instruct with
    | error c => simp [step_failed reg running started, stepCalls, running, started, observerLines]
    | ok x =>
      rw [step_quiet_notes quiet running started]
      simp only [observerLines_append, (instruct_executes started).observerLines_nil,
        announceChange_lines quiet, observerLines_observer, Registry.afterStep_lines quiet,
        stepCalls, running, started, ne_eq, not_true_eq_false, if_false, List.nil_append,
        List.flatMap_append]
      -- A step stopped by its instruction is not stopped again by the watchdog.
      by_cases stillRunning : x.machine.status = .running
      · by_cases watchdog : m.next.status = .running <;> simp [stillRunning, watchdog]
      · simp [stillRunning, next_status_of_stop running started stillRunning]
  · simp [step_of_ne_running reg m running, stepCalls, running, observerLines]

theorem stepCalls_hook {h : Hook} {shown : Machine} (call : Call.hook h shown ∈ m.stepCalls reg) :
    h.event = .onHalt ∧ m.status = .running ∧ m.next.status ≠ .running ∧
      shown.status = m.next.status := by
  unfold stepCalls at call
  by_cases running : m.status = .running
  · cases started : m.instruct with
    | error c => simp [running, started] at call
    | ok x =>
      simp only [running, started, ne_eq, not_true_eq_false, if_false, List.mem_append,
        Registry.hook_not_mem_ruleCalls, or_false] at call
      by_cases stillRunning : x.machine.status = .running
      · by_cases watchdog : m.next.status = .running
        · simp [stillRunning, watchdog] at call
        · simp only [stillRunning, watchdog, not_true_eq_false, not_false_eq_true, if_false,
            if_true, Registry.mem_hookCalls] at call
          obtain ⟨found, rfl⟩ := call
          exact ⟨by simpa using List.of_mem_filter found, running, watchdog, rfl⟩
      · -- The instruction stopped the machine; the watchdog leaves that status alone.
        have same := next_status_of_stop running started stillRunning
        simp only [stillRunning, not_false_eq_true, if_true, Registry.mem_hookCalls] at call
        obtain ⟨found, rfl⟩ := call
        exact ⟨by simpa using List.of_mem_filter found, running, same ▸ stillRunning,
          same.symm⟩
  · simp [running] at call

end Step

section Run

variable {reg : Registry}

def stepsCalls (reg : Registry) (m : Machine) (n : Nat) : List Call :=
  (List.range n).flatMap fun j => (next^[j] m).stepCalls reg

theorem stepsCalls_succ (m : Machine) (n : Nat) :
    stepsCalls reg m (n + 1) = m.stepCalls reg ++ stepsCalls reg m.next n := by
  simp [stepsCalls, List.range_succ_eq_map, List.flatMap_map, Function.iterate_succ_apply]

theorem budgetNote_lines (budget : Option Int) (m : Machine) :
    observerLines (budgetNote budget m).toList = [] := by
  unfold budgetNote
  split
  · split <;> rfl
  · rfl

theorem hookNotes_lines (quiet : reg.Quiet) (e : Event) (m : Machine) :
    observerLines (hookNotes reg e m).toList = (reg.hookCalls e m).flatMap Call.lines := by
  simp [hookNotes, Registry.emit_lines quiet]

theorem stepNotes_lines (quiet : reg.Quiet) (n : Nat) (m : Machine) :
    observerLines (stepNotes reg m n).toList = (stepsCalls reg m n).flatMap Call.lines := by
  induction n generalizing m with
  | zero => rfl
  | succ n ih =>
    rw [stepNotes, Array.toList_append, observerLines_append, step_lines quiet, ih,
      stepsCalls_succ, List.flatMap_append]

theorem run_lines_budget (quiet : reg.Quiet) (b : Int) (m : Machine) :
    observerLines (m.run reg (some b)).notes.toList =
      (reg.hookCalls .programStart m ++ stepsCalls reg m b.toNat ++
        (if (m.run reg (some b)).fault = none then
          reg.hookCalls .programEnd (m.run reg (some b)).machine else [])).flatMap Call.lines := by
  rcases le_or_gt 0 b with nonneg | negative
  · obtain ⟨n, rfl⟩ := Int.eq_ofNat_of_zero_le nonneg
    obtain ⟨moved, calm⟩ := run_quiet_budget quiet n m
    rw [Int.toNat_natCast]
    by_cases fine : ∀ k < n, ¬ (next^[k] m).Crashes
    · rw [if_pos (calm.mpr fine), run_quiet_budget_notes quiet n m fine, moved]
      simp [hookNotes_lines quiet, stepNotes_lines quiet, budgetNote_lines]
    · -- A crash ends the run before the `program_end` hooks.
      have crash : ∃ k < n, (next^[k] m).Crashes := by simpa using fine
      rw [if_neg (mt calm.mp fine), run_quiet_budget_notes_of_crash quiet n m crash]
      simp [hookNotes_lines quiet, stepNotes_lines quiet]
  · obtain ⟨stays, calm, logged⟩ := run_quiet_spent quiet negative m
    rw [Int.toNat_of_nonpos negative.le, if_pos calm, logged, stays]
    simp [hookNotes_lines quiet, budgetNote_lines, stepsCalls]

theorem run_lines_unbounded (quiet : reg.Quiet) {m stopped : Machine} {t : Nat}
    (ran : RanTo m t stopped) (halted : stopped.status ≠ .running) :
    observerLines (m.run reg none).notes.toList =
      (reg.hookCalls .programStart m ++ stepsCalls reg m t ++
        reg.hookCalls .programEnd stopped).flatMap Call.lines := by
  obtain ⟨rfl, -⟩ := ran
  rw [run_quiet_unbounded_notes quiet halted]
  simp [hookNotes_lines quiet, stepNotes_lines quiet]

end Run

/-- The order in which a run calls its observers. Take a registry built by registering hooks
with whole priorities one after another, and any step rules, none of which fails. A run with
any budget calls the `program_start` hooks; then, step by step, the `on_halt` hooks if the step
stopped the machine, and the step rules due at its index, shown its command and the registers
after it; last the `program_end` hooks, shown the machine it ends on, unless an instruction
failed on the way. A run without a budget does the same over the steps to its stop. Only a step
that stops the machine calls hooks, and only `on_halt` hooks, shown its new status, so a budget
that runs out while the machine runs calls none. An event's hooks are those registered for it,
each once, by priority, highest first, and in registration order among equal priorities. -/
theorem run_calls_observers_in_order (hs : List Hook) (rules : List StepRule)
    (whole : ∀ h ∈ hs, h.Whole) (quiet : (hs.foldl Registry.addHook { rules := rules }).Quiet)
    (m : Machine) :
    let reg := hs.foldl Registry.addHook { rules := rules }
    (∀ b : Int, observerLines (m.run reg (some b)).notes.toList =
      (reg.hookCalls .programStart m ++ stepsCalls reg m b.toNat ++
        (if (m.run reg (some b)).fault = none then
          reg.hookCalls .programEnd (m.run reg (some b)).machine else [])).flatMap Call.lines) ∧
    (∀ t stopped, RanTo m t stopped → stopped.status ≠ .running →
      observerLines (m.run reg none).notes.toList =
        (reg.hookCalls .programStart m ++ stepsCalls reg m t ++
          reg.hookCalls .programEnd stopped).flatMap Call.lines) ∧
    (∀ j h shown, Call.hook h shown ∈ (next^[j] m).stepCalls reg →
      h.event = .onHalt ∧ (next^[j] m).status = .running ∧ (next^[j + 1] m).status ≠ .running ∧
        shown.status = (next^[j + 1] m).status) ∧
    (∀ e, (reg.hooksFor e).Perm (hs.filter fun h => h.event = e) ∧
      Hook.ByPriority (reg.hooksFor e) ∧
      ∀ p : Amount, (reg.hooksFor e).filter (fun h => h.priority = p) =
        (hs.filter fun h => h.event = e).filter fun h => h.priority = p) := by
  refine ⟨fun b => run_lines_budget quiet b m, fun t stopped ran halted =>
    run_lines_unbounded quiet ran halted, fun j h shown call => ?_,
    Registry.hooksFor_registered hs whole rules⟩
  rw [Function.iterate_succ_apply']
  exact stepCalls_hook call

theorem higher_priority_start_hook_logs_first :
    let hs : List Hook := [⟨.programStart, .whole 0, fun _ => { notes := ["low"] }⟩,
      ⟨.programStart, .whole 1, fun _ => { notes := ["high"] }⟩]
    let blank : Machine :=
      { ring := .standard, trace := { depth := 0 }, input := { pending := [] }, output := {} }
    (∀ h ∈ hs, h.Whole) ∧ (hs.foldl Registry.addHook { rules := [] }).Quiet ∧
      observerLines (blank.run (hs.foldl Registry.addHook { rules := [] }) (some 0)).notes.toList =
        ["high", "low"] := by
  intro hs blank
  have whole : ∀ h ∈ hs, h.Whole := by simp [hs, Hook.Whole]
  have quiet : (hs.foldl Registry.addHook { rules := [] }).Quiet := by
    simp [hs, Registry.Quiet, Registry.addHook, insertByPriority]
  refine ⟨whole, quiet, ?_⟩
  rw [(run_calls_observers_in_order hs [] whole quiet blank).1 0]
  split <;> rfl

end Machine

end RingMachine
