import RingMachine.Cli.Run
import RingMachine.Proofs.Run

/-!
Exit codes of the command line. Once the arguments are accepted, a program file that cannot
be read, and every failure of the program's own kinds (a parse, configuration, extension or
runtime error, at whichever stage), end the run with exit code 1; only failures of other kinds
escape. Otherwise the exit code is that of the status the machine stopped at: 0 for the two
normal halts, 1 for a failed transfer, 2 for the idle stop, and 3 for a machine still running.
That last one needs a step budget, since a run without one returns only once the machine has
stopped. A program file gives the same exit code and output as its bytes, read one character
per byte, given on the command line.
-/

namespace RingMachine

namespace Machine

theorem run?_unbudgeted_stopped {reg : Registry} {m : Machine} {r : Outcome}
    (returned : m.run? reg none = some r) (calm : r.fault = none) :
    r.machine.status ≠ .running := by
  unfold run? at returned
  rcases started : reg.emit .programStart m with ⟨lines, _ | f⟩
  · rw [started] at returned
    simp only [Option.map_eq_some_iff] at returned
    obtain ⟨steps, ran, finished⟩ := returned
    -- What the unbounded loop returns has stopped or failed; the `program_end` hooks keep the
    -- machine and add only their own failure.
    obtain ⟨-, -, ended⟩ := stepWhile_of_stepUntilStop ran 0
    rcases failed : steps.fault with _ | f
    · rw [failed] at finished
      subst finished
      rcases ended with stopped | failure
      · exact stopped
      · simp [failed] at failure
    · rw [failed] at finished
      subst finished
      simp [failed] at calm
  · rw [started] at returned
    simp only [Option.some.injEq] at returned
    subst returned
    simp at calm

end Machine

namespace Cli

theorem exitCode_table (s : Status) :
    (exitCode s = 0 ↔ s = .haltCommand ∨ s = .endOfOutput) ∧
      (exitCode s = 1 ↔ ∃ f, s = .readError f ∨ s = .writeError f) ∧
      (exitCode s = 2 ↔ s = .idleLoop) ∧ (exitCode s = 3 ↔ s = .running) := by
  cases s <;> simp [exitCode]

/-- What a run shows outside standard error: its exit code and the bytes it wrote. -/
def Result.visible (r : Result) : Nat × List UInt8 := (r.exitCode, r.stdout)

section Finish

variable {inv : Invocation} {log log' : List LogLine}

theorem finish_own_failure {f : Failure} (own : f.crash? = none) :
    ∃ err, inv.finish (.error (log, f)) = .ok ⟨1, [], err⟩ :=
  ⟨Invocation.finish.lines (shown inv.verbose log ++ [f.message]), by simp [Invocation.finish, own]⟩

theorem finish_crash {f : Failure} {c : Crash} (crashed : f.crash? = some c) :
    inv.finish (.error (log, f)) = .error c := by
  simp [Invocation.finish, crashed]

theorem finish_stopped {m : Machine} :
    ∃ err, inv.finish (.ok (log, m)) = .ok ⟨exitCode m.status, m.output.written.toList, err⟩ :=
  ⟨_, rfl⟩

theorem finish_error_visible {f f' : Failure} (same : f.crash? = f'.crash?) :
    (inv.finish (.error (log, f))).map Result.visible =
      (inv.finish (.error (log', f'))).map Result.visible := by
  simp only [Invocation.finish, ← same]
  cases f.crash? <;> rfl

theorem finish_ok_visible {m : Machine} :
    (inv.finish (.ok (log, m))).map Result.visible =
      (inv.finish (.ok (log', m))).map Result.visible := rfl

theorem finish_ne_error_of_ok {m : Machine} {c : Crash} :
    inv.finish (.ok (log, m)) ≠ .error c := by
  simp [Invocation.finish]

variable {e : Except (List LogLine × Failure) (List LogLine × Machine)}

theorem finish_eq_error {c : Crash} (finished : inv.finish e = .error c) :
    ∃ log f, e = .error (log, f) ∧ f.crash? = some c := by
  rcases e with ⟨log, f⟩ | ⟨log, m⟩
  · refine ⟨log, f, rfl, ?_⟩
    rcases crashed : f.crash? with _ | c'
    · obtain ⟨err, own⟩ := @finish_own_failure inv log f crashed
      rw [own] at finished
      cases finished
    · rw [finish_crash crashed, Except.error.injEq] at finished
      rw [finished]
  · exact absurd finished finish_ne_error_of_ok

theorem finish_eq_ok {r : Result} (finished : inv.finish e = .ok r) :
    r.exitCode = 1 ∨ ∃ log m, e = .ok (log, m) ∧ r.exitCode = exitCode m.status := by
  rcases e with ⟨log, f⟩ | ⟨log, m⟩
  · left
    rcases crashed : f.crash? with _ | c
    · obtain ⟨err, own⟩ := @finish_own_failure inv log f crashed
      rw [own, Except.ok.injEq] at finished
      rw [← finished]
    · rw [finish_crash crashed] at finished
      cases finished
  · obtain ⟨err, stopped⟩ := @finish_stopped inv log m
    rw [stopped, Except.ok.injEq] at finished
    exact .inr ⟨log, m, rfl, by rw [← finished]⟩

end Finish

section Execute

variable {inv : Invocation} {env : Environment} {file text : String}

theorem execute_ok {log : List LogLine} {m : Machine}
    (done : inv.execute env file text = some (.ok (log, m))) :
    ∃ p r, inv.prepare env file text = .ok p ∧ p.machine.run? p.registry inv.maxSteps = some r ∧
      r.fault = none ∧ r.machine = m := by
  unfold Invocation.execute at done
  rcases prepared : inv.prepare env file text with f | p
  · simp [prepared] at done
  · rw [prepared] at done
    dsimp only at done
    rcases ran : p.machine.run? p.registry inv.maxSteps with _ | r
    · simp [ran] at done
    · rw [ran, Option.map_some, Option.some.injEq] at done
      rcases calm : r.fault with _ | f
      · simp only [calm, Except.ok.injEq, Prod.mk.injEq] at done
        exact ⟨p, r, rfl, ran, calm, done.2⟩
      · simp [calm] at done

theorem prepare_rename (inv : Invocation) (env : Environment) (file file' text : String) :
    (∃ f f', inv.prepare env file text = .error f ∧ inv.prepare env file' text = .error f' ∧
      f.crash? = f'.crash?) ∨
    (∃ p p', inv.prepare env file text = .ok p ∧ inv.prepare env file' text = .ok p' ∧
      p.registry = p'.registry ∧ p.machine = p'.machine) := by
  unfold Invocation.prepare
  simp only [bind, Except.bind, Except.mapError]
  -- Stage by stage: a failing stage fails both alike, and only assembling names the file.
  rcases inv.ring with e | ring
  · exact .inl ⟨_, _, rfl, rfl, rfl⟩
  dsimp only
  rcases loadExtensions env inv.extensions [] Registry.empty with e | reg
  · exact .inl ⟨_, _, rfl, rfl, rfl⟩
  dsimp only
  rcases assemble ring text with e | image
  · exact .inl ⟨_, _, rfl, rfl, rfl⟩
  dsimp only
  generalize Machine.create _ _ _ _ _ = created
  rcases created with e | m
  · exact .inl ⟨_, _, rfl, rfl, rfl⟩
  dsimp only
  rcases allocate env ring with f | _
  · exact .inl ⟨_, _, rfl, rfl, rfl⟩
  dsimp only
  generalize Machine.load _ _ = loaded
  rcases loaded with e | m
  · exact .inl ⟨_, _, rfl, rfl, rfl⟩
  exact .inr ⟨_, _, rfl, rfl, rfl, rfl⟩

theorem execute_rename_visible (inv : Invocation) (env : Environment) (file file' text : String) :
    ((inv.execute env file text).map inv.finish).map (Except.map Result.visible) =
      ((inv.execute env file' text).map inv.finish).map (Except.map Result.visible) := by
  unfold Invocation.execute
  rcases prepare_rename inv env file file' text with
    ⟨f, f', failed, failed', same⟩ | ⟨p, p', ready, ready', sameReg, sameMachine⟩
  · rw [failed, failed']
    exact congrArg some (finish_error_visible same)
  · rw [ready, ready']
    dsimp only
    rw [← sameReg, ← sameMachine]
    -- The same machine runs under the same observers; only the logged lines differ.
    rcases p.machine.run? p.registry inv.maxSteps with _ | r
    · rfl
    · simp only [Option.map_some]
      rcases r.fault with _ | f
      · exact congrArg some finish_ok_visible
      · exact congrArg some (finish_error_visible rfl)

end Execute

section Run

variable {args : List String} {env : Environment} {inv : Invocation}

theorem run_failed (parsed : Invocation.parse args = .ok inv) (noHelp : inv.help = false)
    {c : Crash} (source : inv.programSource env = .failed c) : run args env = some (.error c) := by
  simp [run, parsed, noHelp, source]

theorem run_unreadable (parsed : Invocation.parse args = .ok inv) (noHelp : inv.help = false)
    {msg : String} (source : inv.programSource env = .unreadable msg) :
    run args env = some (.ok ⟨1, [], msg ++ "\n"⟩) := by
  simp [run, parsed, noHelp, source]

theorem run_text (parsed : Invocation.parse args = .ok inv) (noHelp : inv.help = false)
    {file text : String} (source : inv.programSource env = .text file text) :
    run args env = (inv.execute env file text).map inv.finish := by
  simp [run, parsed, noHelp, source]

theorem run_returns (parsed : Invocation.parse args = .ok inv) (noHelp : inv.help = false)
    {res : Except Crash Result} (returned : run args env = some res) :
    (∃ c, inv.programSource env = .failed c ∧ res = .error c) ∨
    (∃ msg, inv.programSource env = .unreadable msg ∧ res = .ok ⟨1, [], msg ++ "\n"⟩) ∨
    ∃ file text e, inv.programSource env = .text file text ∧ inv.execute env file text = some e ∧
      inv.finish e = res := by
  rcases source : inv.programSource env with ⟨file, text⟩ | msg | c
  · rw [run_text parsed noHelp source] at returned
    obtain ⟨e, done, finished⟩ := Option.map_eq_some_iff.mp returned
    exact .inr (.inr ⟨file, text, e, rfl, done, finished⟩)
  · rw [run_unreadable parsed noHelp source, Option.some.injEq] at returned
    exact .inr (.inl ⟨msg, rfl, returned.symm⟩)
  · rw [run_failed parsed noHelp source, Option.some.injEq] at returned
    exact .inl ⟨c, rfl, returned.symm⟩

theorem run_error (parsed : Invocation.parse args = .ok inv) (noHelp : inv.help = false)
    {c : Crash} (escaped : run args env = some (.error c)) :
    inv.programSource env = .failed c ∨ ∃ file text log f, inv.programSource env = .text file text ∧
      inv.execute env file text = some (.error (log, f)) ∧ f.crash? = some c := by
  rcases run_returns parsed noHelp escaped with
    ⟨c', source, same⟩ | ⟨msg, -, unreadable⟩ | ⟨file, text, e, source, done, finished⟩
  · rw [Except.error.injEq] at same
    exact .inl (same ▸ source)
  · cases unreadable
  · obtain ⟨log, f, rfl, crashed⟩ := finish_eq_error finished
    exact .inr ⟨file, text, log, f, source, done, crashed⟩

theorem run_still_running (parsed : Invocation.parse args = .ok inv) (noHelp : inv.help = false)
    {r : Result} (returned : run args env = some (.ok r)) (three : r.exitCode = 3) :
    inv.maxSteps.isSome := by
  rcases run_returns parsed noHelp returned with
    ⟨c, -, escaped⟩ | ⟨msg, -, unreadable⟩ | ⟨file, text, e, -, done, finished⟩
  · cases escaped
  · rw [Except.ok.injEq] at unreadable
    rw [unreadable] at three
    cases three
  · rcases finish_eq_ok finished with one | ⟨log, m, rfl, code⟩
    · omega
    have running : m.status = .running := (exitCode_table m.status).2.2.2.mp (code ▸ three)
    obtain ⟨p, outcome, -, ran, calm, rfl⟩ := execute_ok done
    -- Without a budget the run would have returned only once the machine stopped.
    cases budget : inv.maxSteps with
    | none =>
      rw [budget] at ran
      exact absurd running (Machine.run?_unbudgeted_stopped ran calm)
    | some b => rfl

theorem latin1_char_codes (bytes : List UInt8) :
    (latin1 bytes).toList.map Char.toNat = bytes.map UInt8.toNat := by
  have byte_char (b : UInt8) : (Char.ofNat b.toNat).toNat = b.toNat := by
    have small : b.toNat < 256 := b.toNat_lt
    simp [Char.ofNat, Char.ofNatAux, show b.toNat < 55296 by omega, Nat.isValidChar]
  simp [latin1, byte_char]

theorem run_file_as_source (parsed : Invocation.parse args = .ok inv) (noHelp : inv.help = false)
    {args' : List String} {parts : List String} {bytes : List UInt8} (fromFile : inv.source = false)
    (encodable : Text.encodeFailure? inv.program true = none)
    (found : env.directory.entry inv.program = .file parts bytes)
    (parsed' : Invocation.parse args' = .ok { inv with source := true, program := latin1 bytes }) :
    (run args env).map (Except.map Result.visible) =
      (run args' env).map (Except.map Result.visible) := by
  have source : inv.programSource env = .text inv.program (latin1 bytes) := by
    simp [Invocation.programSource, fromFile, encodable, found]
  have source' : ({ inv with source := true, program := latin1 bytes } : Invocation).programSource
      env = .text "<string>" (latin1 bytes) := by
    simp [Invocation.programSource]
  rw [run_text parsed noHelp source, run_text parsed' noHelp source']
  -- The options other than the program's are the same, so only the file's name differs.
  exact execute_rename_visible inv env inv.program "<string>" (latin1 bytes)

end Run

/-- The exit codes of the command line, for every accepted argument list that does not ask for
help. A program file that cannot be read, and every failure of the program's own kinds at any
stage, end with exit code 1, and only failures of other kinds escape. Otherwise the exit code
is that of the status the machine stopped at, with its output on standard output: 0 only for
the two normal halts, 1 for a failed transfer, 2 for the idle stop and 3 for a machine still
running, which needs a step budget. A program file runs as its bytes, read one character per
byte, given with `-source`. -/
theorem command_line_exit_codes (args : List String) (env : Environment) (inv : Invocation)
    (parsed : Invocation.parse args = .ok inv) (noHelp : inv.help = false) :
    (∀ msg, inv.programSource env = .unreadable msg →
      ∃ err, run args env = some (.ok ⟨1, [], err⟩)) ∧
    (∀ file text log f, inv.programSource env = .text file text →
      inv.execute env file text = some (.error (log, f)) → f.crash? = none →
      ∃ err, run args env = some (.ok ⟨1, [], err⟩)) ∧
    (∀ c, run args env = some (.error c) →
      inv.programSource env = .failed c ∨
      ∃ file text log f, inv.programSource env = .text file text ∧
        inv.execute env file text = some (.error (log, f)) ∧ f.crash? = some c) ∧
    (∀ file text log m, inv.programSource env = .text file text →
      inv.execute env file text = some (.ok (log, m)) →
      ∃ err, run args env = some (.ok ⟨exitCode m.status, m.output.written.toList, err⟩)) ∧
    (∀ s, (exitCode s = 0 ↔ s = .haltCommand ∨ s = .endOfOutput) ∧
      (exitCode s = 1 ↔ ∃ f, s = .readError f ∨ s = .writeError f) ∧
      (exitCode s = 2 ↔ s = .idleLoop) ∧ (exitCode s = 3 ↔ s = .running)) ∧
    (∀ r, run args env = some (.ok r) → r.exitCode = 3 → inv.maxSteps.isSome) ∧
    (∀ args' parts bytes, inv.source = false → Text.encodeFailure? inv.program true = none →
      env.directory.entry inv.program = .file parts bytes →
      Invocation.parse args' = .ok { inv with source := true, program := latin1 bytes } →
      (run args env).map (Except.map Result.visible) =
        (run args' env).map (Except.map Result.visible)) := by
  refine ⟨fun msg source => ⟨_, run_unreadable parsed noHelp source⟩, ?_,
    fun c escaped => run_error parsed noHelp escaped, ?_, exitCode_table,
    fun r returned three => run_still_running parsed noHelp returned three,
    fun args' parts bytes fromFile encodable found parsed' =>
      run_file_as_source parsed noHelp fromFile encodable found parsed'⟩
  · intro file text log f source done own
    obtain ⟨err, failed⟩ := @finish_own_failure inv log f own
    exact ⟨err, by rw [run_text parsed noHelp source, done, Option.map_some, failed]⟩
  · intro file text log m source done
    obtain ⟨err, stopped⟩ := @finish_stopped inv log m
    exact ⟨err, by rw [run_text parsed noHelp source, done, Option.map_some, stopped]⟩

theorem program_file_exit_codes :
    let env : Environment :=
      { directory := ⟨[(["prog.dis"], [33])]⟩, tracer := none, modules := fun _ => {},
        stdin := [], traceEvery := none, allocates := fun _ => true }
    let inv : Invocation := { program := "prog.dis" }
    Invocation.parse ["prog.dis"] = .ok inv ∧ inv.help = false ∧
      ((∀ msg, inv.programSource env = .unreadable msg →
        ∃ err, run ["prog.dis"] env = some (.ok ⟨1, [], err⟩)) ∧
      (∀ file text log f, inv.programSource env = .text file text →
        inv.execute env file text = some (.error (log, f)) → f.crash? = none →
        ∃ err, run ["prog.dis"] env = some (.ok ⟨1, [], err⟩)) ∧
      (∀ c, run ["prog.dis"] env = some (.error c) →
        inv.programSource env = .failed c ∨ ∃ file text log f,
          inv.programSource env = .text file text ∧
          inv.execute env file text = some (.error (log, f)) ∧ f.crash? = some c) ∧
      (∀ file text log m, inv.programSource env = .text file text →
        inv.execute env file text = some (.ok (log, m)) →
        ∃ err,
          run ["prog.dis"] env = some (.ok ⟨exitCode m.status, m.output.written.toList, err⟩)) ∧
      (∀ s, (exitCode s = 0 ↔ s = .haltCommand ∨ s = .endOfOutput) ∧
        (exitCode s = 1 ↔ ∃ f, s = .readError f ∨ s = .writeError f) ∧
        (exitCode s = 2 ↔ s = .idleLoop) ∧ (exitCode s = 3 ↔ s = .running)) ∧
      (∀ r, run ["prog.dis"] env = some (.ok r) → r.exitCode = 3 → inv.maxSteps.isSome) ∧
      (∀ args' parts bytes, inv.source = false → Text.encodeFailure? inv.program true = none →
        env.directory.entry inv.program = .file parts bytes →
        Invocation.parse args' = .ok { inv with source := true, program := latin1 bytes } →
        (run ["prog.dis"] env).map (Except.map Result.visible) =
          (run args' env).map (Except.map Result.visible))) := by
  intro env inv
  have parsed : Invocation.parse ["prog.dis"] = .ok inv := by cbv
  exact ⟨parsed, rfl, command_line_exit_codes ["prog.dis"] env inv parsed rfl⟩

end Cli

end RingMachine
