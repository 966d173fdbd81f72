import RingMachine.Proofs.Idle
import RingMachine.Machine.Report

/-!
The trace as a window on the steps. Each step that runs its instruction records its index, the
pointers before it, the accumulator after its instruction and the command it fetched; the trace
keeps the last `depth` records, oldest first, and a load empties it. So after a load, along any
calls in which no `on_halt` hook fails, the trace holds the records of the last `depth` steps of
the observer-free execution from the loaded machine, with consecutive indices ending one below
the step count, and both reports show exactly those records in that order. An `on_halt` hook that
fails after an instruction that stopped the machine cuts its step short before the record, which
is why such calls are left out. A trace of depth zero stays empty whatever happens.
-/

namespace RingMachine

namespace Trace

/-- The trace holds the last `depth` of `entries`, oldest first, and counts what it holds. -/
structure Holds (t : Trace) (entries : List TraceEntry) : Prop where
  counted : t.size = t.toList.length
  window : t.toList = entries.drop (entries.length - t.depth)

@[simp] theorem dropOldest_depth (t : Trace) : t.dropOldest.depth = t.depth := by
  unfold dropOldest
  split
  · rfl
  · split <;> rfl

@[simp] theorem record_depth (t : Trace) (e : TraceEntry) : (t.record e).depth = t.depth := by
  unfold record
  dsimp only
  split_ifs <;> simp

@[simp] theorem clear_depth (t : Trace) : t.clear.depth = t.depth := rfl

theorem holds_clear (t : Trace) : t.clear.Holds [] := ⟨rfl, by simp⟩

theorem size_dropOldest {t : Trace} (held : t.toList ≠ []) : t.dropOldest.size = t.size - 1 := by
  unfold dropOldest
  cases older : t.older with
  | cons x rest => rfl
  | nil =>
    cases newest : t.recent.reverse with
    | cons x rest => rfl
    | nil => simp [toList, older, newest] at held

theorem Holds.record {t : Trace} {entries : List TraceEntry} (holds : t.Holds entries)
    (e : TraceEntry) : (t.record e).Holds (entries ++ [e]) := by
  obtain ⟨counted, window⟩ := holds
  have held : t.toList.length = entries.length - (entries.length - t.depth) := by
    rw [window, List.length_drop]
  by_cases flat : t.depth = 0
  · -- A trace of depth zero records nothing and holds nothing.
    have kept : t.record e = t := by simp [Trace.record, flat]
    refine ⟨by rw [kept, counted], ?_⟩
    rw [kept, window, flat]
    simp
  by_cases full : t.depth < t.size + 1
  · -- A full trace drops its oldest entry to make room.
    have unfull : t.depth ≠ 0 := flat
    have long : t.depth ≤ entries.length := by omega
    have grown : ({ t with recent := e :: t.recent, size := t.size + 1 } : Trace).toList ≠ [] := by
      simp [toList]
    refine ⟨?_, ?_⟩
    · rw [Trace.record, if_neg unfull]
      simp only [full, if_true]
      rw [size_dropOldest grown, toList_dropOldest]
      simp [toList, counted]
    · rw [toList_record, if_neg unfull, if_pos full, record_depth, window]
      rw [← List.drop_one, List.drop_append_of_le_length (by simp; omega), List.drop_drop,
        List.length_append, List.length_singleton, List.drop_append_of_le_length (by omega)]
      congr 2
      omega
  · -- A trace with room keeps every entry and adds the new one.
    have unfull : t.depth ≠ 0 := flat
    have everything : entries.length - t.depth = 0 := by omega
    refine ⟨?_, ?_⟩
    · rw [Trace.record, if_neg unfull]
      simp only [full, if_false]
      simp [toList, counted]
      omega
    · rw [toList_record, if_neg unfull, if_neg full, record_depth, window, everything]
      rw [List.length_append, List.length_singleton, show entries.length + 1 - t.depth = 0 by omega]
      simp

end Trace

namespace Machine

variable {m : Machine} {x : Executed}

def stepRecord (m : Machine) (x : Executed) : TraceEntry :=
  ⟨m.steps, m.c, m.d, x.machine.a, x.command, Instruction.decode x.command⟩

theorem next_trace (running : m.status = .running) (started : m.instruct = .ok x) :
    m.next.trace = m.trace.record (m.stepRecord x) := by
  rw [next_of_instruct running started, settle_frame]
  simp only [account]
  rw [instruct_trace started]
  rfl

@[simp] theorem next_trace_depth (m : Machine) : m.next.trace.depth = m.trace.depth := by
  by_cases running : m.status = .running
  · cases started : m.instruct with
    | error e => rw [next_of_error started]
    | ok x => rw [next_trace running started, Trace.record_depth]
  · rw [next_of_ne_running running]

theorem step_trace_flat (reg : Registry) (flat : m.trace.depth = 0) :
    (m.step reg).machine.trace = m.trace := by
  have kept : m.next.trace = m.trace := by
    by_cases running : m.status = .running
    · cases started : m.instruct with
      | error e => rw [next_of_error started]
      | ok x => rw [next_trace running started]; simp [Trace.record, flat]
    · rw [next_of_ne_running running]
  rcases step_cases reg m with ⟨-, same⟩ | ⟨c, -, same, -⟩ | ⟨f, -, -, same | ⟨-, -, -, -, same⟩⟩
  all_goals rw [same]
  exacts [kept, kept]

theorem load_trace {m0 : Machine} {image : List Int} (loaded : m.load image = .ok m0) :
    m0.trace = m.trace.clear := by
  unfold load at loaded
  split at loaded
  · cases loaded
  · split at loaded
    · cases loaded
    · cases loaded
      rfl

/-- The records of the steps taken from `start` by a running machine whose instruction did not
fail, oldest first. -/
inductive Logged (start : Machine) : List TraceEntry → Machine → Prop
  | here : Logged start [] start
  | step {records : List TraceEntry} {m : Machine} {x : Executed} : Logged start records m →
      m.status = .running → m.instruct = .ok x →
      Logged start (records ++ [m.stepRecord x]) m.next

namespace Logged

variable {start : Machine} {records : List TraceEntry}

theorem along (log : Logged start records m) : m = next^[records.length] start := by
  induction log with
  | here => rfl
  | step _ _ _ ih =>
    rw [List.length_append, List.length_singleton, Function.iterate_succ_apply', ih]

theorem steps_eq (log : Logged start records m) : m.steps = start.steps + records.length := by
  induction log with
  | here => rfl
  | step _ running started ih =>
    rw [(next_counts running started).1, ih, List.length_append, List.length_singleton]
    omega

theorem record_eq (log : Logged start records m) (i : Nat) (h : i < records.length) :
    ∃ x, (next^[i] start).status = .running ∧ (next^[i] start).instruct = .ok x ∧
      records[i] = (next^[i] start).stepRecord x := by
  induction log with
  | here => exact absurd h (Nat.not_lt_zero i)
  | @step records m x earlier running started ih =>
    rw [List.length_append, List.length_singleton] at h
    rcases Nat.lt_succ_iff_lt_or_eq.mp h with before | rfl
    · rw [List.getElem_append_left before]
      exact ih before
    · -- The newest record is that of the step from the logged machine.
      rw [List.getElem_append_right (Nat.le_refl _)]
      rw [← earlier.along]
      exact ⟨x, running, started, by simp⟩

theorem indices (log : Logged start records m) :
    records.map TraceEntry.index = List.range' start.steps records.length := by
  induction log with
  | here => rfl
  | step earlier _ _ ih =>
    rw [List.map_append, ih, List.length_append, List.length_singleton, List.range'_concat]
    simp [stepRecord, earlier.steps_eq]

theorem trace_depth (log : Logged start records m) : m.trace.depth = start.trace.depth := by
  rw [log.along]
  induction records.length with
  | zero => rfl
  | succ n ih => rw [Function.iterate_succ_apply', next_trace_depth, ih]

theorem holds (log : Logged start records m) (empty : start.trace.Holds []) :
    m.trace.Holds records := by
  induction log with
  | here => exact empty
  | step _ running started ih =>
    rw [next_trace running started]
    exact ih.record _

theorem next (log : Logged start records m) : ∃ records', Logged start records' m.next := by
  by_cases running : m.status = .running
  · cases started : m.instruct with
    | error e => exact ⟨records, by rw [next_of_error started]; exact log⟩
    | ok x => exact ⟨_, log.step running started⟩
  · exact ⟨records, by rw [next_of_ne_running running]; exact log⟩

theorem window (log : Logged start records m) (fresh : start.steps = 0)
    (empty : start.trace.Holds []) :
    m.steps = records.length ∧
      m.trace.toList = records.drop (records.length - start.trace.depth) ∧
      m.trace.toList.length = min start.trace.depth m.steps ∧
      m.trace.toList.map TraceEntry.index =
        List.range' (m.steps - m.trace.toList.length) m.trace.toList.length := by
  have steps : m.steps = records.length := by rw [log.steps_eq, fresh, Nat.zero_add]
  have shown : m.trace.toList = records.drop (records.length - start.trace.depth) := by
    rw [← log.trace_depth]
    exact (log.holds empty).window
  refine ⟨steps, shown, ?_, ?_⟩
  · rw [shown, List.length_drop, steps]
    omega
  · -- The window is the tail of the indices `0, 1, ...` of all the steps.
    rw [shown, List.map_drop, log.indices, fresh, List.drop_range', List.length_drop, steps]
    congr 1
    omega

theorem iterate (log : Logged start records m) (n : Nat) :
    ∃ records', Logged start records' (Machine.next^[n] m) := by
  induction n with
  | zero => exact ⟨records, log⟩
  | succ n ih =>
    obtain ⟨records', later⟩ := ih
    rw [Function.iterate_succ_apply']
    exact later.next

end Logged

/-- No `on_halt` hook failed in any of the calls made; a call that never returns is the last. -/
def HaltHooksPass (reg : Registry) : Machine → List Drive → Prop
  | _, [] => True
  | m, call :: rest =>
    (∀ msg, (m.perform reg call).fault ≠ some (.hook .onHalt msg)) ∧
      (m.returns reg call = true → HaltHooksPass reg (m.perform reg call).machine rest)

theorem perform_interrupted (reg : Registry) (m : Machine) (call : Drive) {f : Fault}
    (faulted : (m.perform reg call).fault = some f) (observer : f.crash? = none) :
    ∃ n, Interrupted f m n (m.perform reg call).machine := by
  cases call with
  | step => exact ⟨1, (step_interrupted reg m faulted observer).2.1⟩
  | run budget =>
    obtain ⟨n, -, cut, -⟩ := run_interrupted reg budget m faulted observer
    exact ⟨n, cut⟩

theorem perform_along (reg : Registry) (m : Machine) (call : Drive)
    (noHalt : ∀ msg, (m.perform reg call).fault ≠ some (.hook .onHalt msg)) :
    ∃ n, (m.perform reg call).machine = next^[n] m := by
  by_cases passed : (m.perform reg call).ObserversPassed
  · have same := drive_unobserved reg m [call] ⟨passed, fun _ => trivial⟩
    simp only [drive_cons_machine, drive_nil, ite_self] at same
    rw [same]
    -- With no observers, every step is `next`.
    have free := @drive_preserves Registry.empty (fun m' => ∃ n, m' = next^[n] m)
      (fun m' ⟨n, reached⟩ => ⟨n + 1, by
        rw [(step_quiet Registry.empty_quiet m').1, reached, Function.iterate_succ_apply']⟩)
      [call] m ⟨0, rfl⟩
    simpa only [drive_cons_machine, drive_nil, ite_self] using free
  · obtain ⟨f, faulted, observer⟩ : ∃ f, (m.perform reg call).fault = some f ∧ f.crash? = none := by
      simpa [Outcome.ObserversPassed] using passed
    obtain ⟨n, cut⟩ := perform_interrupted reg m call faulted observer
    rcases cut with reached | ⟨msg, -, -, rfl, -⟩
    · exact ⟨n, reached⟩
    · exact absurd faulted (noHalt msg)

theorem drive_along (reg : Registry) (m : Machine) (calls : List Drive)
    (pass : m.HaltHooksPass reg calls) : ∃ n, (m.drive reg calls).machine = next^[n] m := by
  induction calls generalizing m with
  | nil => exact ⟨0, rfl⟩
  | cons call rest ih =>
    obtain ⟨first, later⟩ := pass
    obtain ⟨n1, reached⟩ := perform_along reg m call first
    rw [drive_cons_machine]
    split
    · rename_i returned
      obtain ⟨n2, more⟩ := ih _ (later returned)
      refine ⟨n2 + n1, ?_⟩
      rw [more, reached, Function.iterate_add_apply]
    · exact ⟨n1, reached⟩

theorem ObserversPass.haltHooksPass {reg : Registry} {calls : List Drive}
    (pass : m.ObserversPass reg calls) : m.HaltHooksPass reg calls := by
  induction calls generalizing m with
  | nil => trivial
  | cons call rest ih =>
    obtain ⟨passed, later⟩ := pass
    refine ⟨fun msg faulted => ?_, fun returned => ih (later returned)⟩
    exact passed _ faulted (by simp [Fault.crash?])

theorem drive_logged (reg : Registry) (m : Machine) (calls : List Drive)
    (pass : m.HaltHooksPass reg calls) :
    ∃ records, Logged m records (m.drive reg calls).machine := by
  obtain ⟨n, reached⟩ := drive_along reg m calls pass
  rw [reached]
  exact Logged.here.iterate n

theorem drive_trace_flat (reg : Registry) (m : Machine) (calls : List Drive)
    (flat : m.trace.depth = 0) : (m.drive reg calls).machine.trace = m.trace :=
  (@drive_preserves reg (fun m' => m'.trace = m.trace)
    (fun m' kept => by rw [step_trace_flat reg (kept ▸ flat), kept]) calls m rfl)

theorem textReport_trace (m : Machine) (verbose : Bool) :
    ∃ tail : List String, tail.length = (if verbose then 2 else 1) ∧
      m.textReport verbose = "\n".intercalate ("Trace (most recent step last):" ::
        (if m.trace.toList = [] then ["  <no trace recorded>"]
          else m.trace.toList.map TraceEntry.line) ++ tail) := by
  refine ⟨?tail, ?count, ?shape⟩
  case shape =>
    simp only [textReport, List.isEmpty_iff, List.cons_append, List.append_assoc]
    rfl
  case count => cases verbose <;> rfl

theorem jsonReport_trace (m : Machine) :
    ∃ status registers, m.jsonReport = .obj [("status", status), ("registers", registers),
      ("steps", .num m.steps), ("trace", .arr (m.trace.toList.map TraceEntry.toJsonValue))] :=
  ⟨_, _, rfl⟩

/-- The trace shows the last steps since the load. Along calls in which no `on_halt` hook failed,
the steps taken are those of the observer-free execution from the loaded machine, each leaving
its record, and the trace holds the last `depth` of those records, oldest first: `min depth
steps` of them, with consecutive indices ending one below the step count. The text report lists
them, one line each and in that order, between its heading and its closing lines, and the JSON
report gives them as its trace. A trace of depth zero stays empty whatever the observers do. -/
theorem trace_keeps_last_steps {reg : Registry} {m m0 : Machine} {image : List Int}
    (loaded : m.load image = .ok m0) (calls : List Drive) :
    let session := (m0.drive reg calls).machine
    let window := session.trace.toList
    (m0.HaltHooksPass reg calls →
      ∃ records : List TraceEntry, session = next^[records.length] m0 ∧
        session.steps = records.length ∧
        (∀ i (h : i < records.length), ∃ x, (next^[i] m0).status = .running ∧
          (next^[i] m0).instruct = .ok x ∧ records[i] = (next^[i] m0).stepRecord x) ∧
        window = records.drop (records.length - m.trace.depth) ∧
        window.length = min m.trace.depth session.steps ∧
        window.map TraceEntry.index = List.range' (session.steps - window.length) window.length ∧
        (∀ verbose, ∃ tail : List String, tail.length = (if verbose then 2 else 1) ∧
          session.textReport verbose = "\n".intercalate ("Trace (most recent step last):" ::
            (if window = [] then ["  <no trace recorded>"] else window.map TraceEntry.line) ++
              tail)) ∧
        ∃ status registers, session.jsonReport = .obj [("status", status),
          ("registers", registers), ("steps", .num session.steps),
          ("trace", .arr (window.map TraceEntry.toJsonValue))]) ∧
    (m.trace.depth = 0 → window = []) := by
  intro session window
  obtain ⟨-, counted, -, -⟩ := load_fresh loaded
  have cleared := load_trace loaded
  refine ⟨fun pass => ?_, fun flat => ?_⟩
  · obtain ⟨records, log⟩ := drive_logged reg m0 calls pass
    obtain ⟨steps, shown, size, indices⟩ :=
      log.window counted (by rw [cleared]; exact Trace.holds_clear _)
    rw [cleared, Trace.clear_depth] at shown size
    exact ⟨records, log.along, steps, fun i h => log.record_eq i h, shown, size, indices,
      textReport_trace session, jsonReport_trace session⟩
  · show (m0.drive reg calls).machine.trace.toList = []
    rw [drive_trace_flat reg m0 calls (by rw [cleared]; exact flat), cleared]
    rfl

theorem loaded_trace_keeps_last_steps :
    let fresh : Machine :=
      { ring := .standard, trace := { depth := 2 }, input := { pending := [] }, output := {} }
    let loaded : Machine := { fresh with memory := Memory.ofImage [], trace := fresh.trace.clear }
    let session := (loaded.drive Registry.empty [.step, .step, .step]).machine
    let window := session.trace.toList
    fresh.load [] = .ok loaded ∧ loaded.HaltHooksPass Registry.empty [.step, .step, .step] ∧
      ∃ records : List TraceEntry, session = next^[records.length] loaded ∧
        session.steps = records.length ∧
        (∀ i (h : i < records.length), ∃ x, (next^[i] loaded).status = .running ∧
          (next^[i] loaded).instruct = .ok x ∧ records[i] = (next^[i] loaded).stepRecord x) ∧
        window = records.drop (records.length - fresh.trace.depth) ∧
        window.length = min fresh.trace.depth session.steps ∧
        window.map TraceEntry.index = List.range' (session.steps - window.length) window.length ∧
        (∀ verbose, ∃ tail : List String, tail.length = (if verbose then 2 else 1) ∧
          session.textReport verbose = "\n".intercalate ("Trace (most recent step last):" ::
            (if window = [] then ["  <no trace recorded>"] else window.map TraceEntry.line) ++
              tail)) ∧
        ∃ status registers, session.jsonReport = .obj [("status", status),
          ("registers", registers), ("steps", .num session.steps),
          ("trace", .arr (window.map TraceEntry.toJsonValue))] := by
  intro fresh loaded
  have built : fresh.load [] = .ok loaded := rfl
  -- With no observers nothing but an instruction fails, after each of the three steps.
  have pass : loaded.HaltHooksPass Registry.empty [.step, .step, .step] := by
    let first := (loaded.step Registry.empty).machine
    let second := (first.step Registry.empty).machine
    exact ObserversPass.haltHooksPass ⟨step_empty_passed loaded, fun _ =>
      ⟨step_empty_passed first, fun _ => ⟨step_empty_passed second, fun _ => trivial⟩⟩⟩
  have shown := @trace_keeps_last_steps Registry.empty fresh loaded [] built [.step, .step, .step]
  exact ⟨built, pass, shown.1 pass⟩

end Machine

end RingMachine
