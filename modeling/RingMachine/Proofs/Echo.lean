import RingMachine.Proofs.Instruction
import RingMachine.Proofs.Budget
import RingMachine.Proofs.Assemble

/-!
The echo program `}{`: read a value, write it, and pass over the blank cells of the rest of
memory, lap after lap. Each lap takes one step per cell, the read, the write and a blank step
for every other cell, and leaves both pointers on the first cell again. A value that reads as
the largest word, or the end of the input, makes the next write end the output. So the machine
stops after one lap per value before the first such one, and the read and the write that stop
it, having written each of those values modulo 256, with memory as it was loaded.
-/

namespace RingMachine

namespace Input

theorem read_fst (inp : Input) : inp.read.1 = (inp.pending.head?.getD .endOfInput).normalize := by
  unfold read
  split <;> simp_all

theorem read_pending (inp : Input) : inp.read.2.pending = inp.pending.tail := by
  unfold read
  split <;> simp_all

end Input

theorem assemble_echo {r : WordRing} (roomy : 126 ≤ r.size) :
    assemble r "\x7d\x7b" = .ok [125, 123] := by
  have read : (Lexed.ofText "\x7d\x7b").map Lexed.image = .ok [125, 123] := by rfl
  cases lexed : Lexed.ofText "\x7d\x7b" with
  | error e =>
    rw [lexed] at read
    cases read
  | ok l =>
    rw [lexed] at read
    have image : l.image = [125, 123] := by simpa [Except.map] using read
    have length : l.tokens.length = 2 := by simpa [Lexed.image] using congrArg List.length image
    rw [assemble_of_read lexed, Lexed.assemble_eq_ok]
    refine ⟨by omega, fun t listed => ?_, image.symm⟩
    have inImage : t.command.byte ∈ l.image := List.mem_map_of_mem listed
    have := r.maxValue_add_one
    rw [image] at inImage
    simp at inImage
    omega

namespace Machine

/-- A machine at the start of a lap of the echo program: the program in memory, both pointers
on its first cell, and running. The output takes every byte, and the idle count and limit leave
room for a lap of blank cells and one more idle step. -/
structure EchoLap (m : Machine) : Prop where
  roomy : 3 ≤ m.ring.size
  program : m.memory = Memory.ofImage [125, 123]
  atC : m.c = 0
  atD : m.d = 0
  running : m.status = .running
  sink : m.output.failAfter = none
  idle : m.idleSteps ≤ m.ring.size - 2
  watchdog : ∀ k, m.idleLimit = some k → m.ring.size ≤ k

section Lap

theorem echo_reads : Instruction.decode ((Memory.ofImage [125, 123]).get 0) = some .read := rfl

theorem echo_writes : Instruction.decode ((Memory.ofImage [125, 123]).get 1) = some .write := rfl

theorem echo_blank {j : Nat} (past : 2 ≤ j) :
    Instruction.decode ((Memory.ofImage [125, 123]).get j) = none := by
  rw [Memory.get_ofImage, List.getD_eq_default _ _ (by simpa using past)]
  rfl

theorem blank_run (n : Nat) : ∀ (i : Nat) (m : Machine), m.status = .running → m.c = i →
    m.d = i → i + n + 1 = m.ring.size → (∀ j, i ≤ j → Instruction.decode (m.memory.get j) = none) →
    (∀ k, m.idleLimit = some k → m.idleSteps + n + 1 < k) →
    ∃ tr, RanTo m (n + 1) { m with
      steps := m.steps + (n + 1), idleSteps := m.idleSteps + (n + 1), c := 0, d := 0,
      trace := tr } := by
  induction n with
  | zero =>
    intro i m running atC atD last blank fresh
    have word : i < m.ring.size := by omega
    have wrap : (i + 1) % m.ring.size = 0 := by rw [← last]; simp
    have moved := next_blank running (by rw [atC]; exact m.ring.cellAt_natCast i word)
      (blank i (Nat.le_refl i)) (fun k limit => by have := fresh k limit; omega)
    have here := RanTo.single running
    rw [moved] at here
    exact ⟨_, by simpa [atC, atD, m.ring.successor_natCast i word, wrap] using here⟩
  | succ n ih =>
    intro i m running atC atD last blank fresh
    have word : i < m.ring.size := by omega
    have onward := m.ring.successor_of_lt i (by omega)
    have moved := next_blank running (by rw [atC]; exact m.ring.cellAt_natCast i word)
      (blank i (Nat.le_refl i)) (fun k limit => by have := fresh k limit; omega)
    obtain ⟨tr, rest⟩ := ih (i + 1) m.next (by rw [moved]; exact running)
      (by simp [moved, atC, onward])
      (by simp [moved, atD, onward])
      (by simp [moved]; omega)
      (fun j later => by simpa [moved] using blank j (by omega))
      (fun k limit => by simp [moved] at limit ⊢; have := fresh k limit; omega)
    refine ⟨tr, ?_⟩
    have whole := (RanTo.single running).trans rest
    rw [moved] at whole
    simpa [Nat.add_comm 1, Nat.add_assoc] using whole

namespace EchoLap

variable {m : Machine} (lap : EchoLap m)
include lap

theorem first_cell : m.ring.cellAt? m.c = some 0 := by
  rw [lap.atC]
  simpa using m.ring.cellAt_natCast 0 (by have := lap.roomy; omega)

theorem fresh_transfer : ∀ k, m.idleLimit = some k → 0 < k := fun k limit => by
  have := lap.watchdog k limit
  have := lap.roomy
  omega

theorem echo {v : Int} (fed : m.input.read.1 = .value (.int v))
    (echoed : m.ring.reduce v ≠ m.ring.maxValue) :
    ∃ tr, RanTo m m.ring.size { m with
      steps := m.steps + m.ring.size, a := m.ring.reduce v, input := m.input.read.2,
      output := { m.output with written := m.output.written.push (m.ring.reduce v % 256).toUInt8 },
      idleSteps := m.ring.size - 2, trace := tr } := by
  have roomy := lap.roomy
  have second : m.ring.successor 0 = 1 := by simpa using m.ring.successor_of_lt 0 (by omega)
  have third : m.ring.successor 1 = 2 := by simpa using m.ring.successor_of_lt 1 (by omega)
  -- The read, on the first cell.
  have read := next_read_value lap.running lap.first_cell (by rw [lap.program]; exact echo_reads)
    fed lap.fresh_transfer
  -- The write, on the second cell.
  have running1 : m.next.status = .running := by rw [read]; exact lap.running
  have cell1 : m.next.ring.cellAt? m.next.c = some 1 := by
    simpa [read, lap.atC, second] using m.ring.cellAt_natCast 1 (by omega)
  have writes1 : Instruction.decode (m.next.memory.get 1) = some .write := by
    simpa [read, lap.program] using echo_writes
  have notMax1 : m.next.a ≠ m.next.ring.maxValue := by simpa [read] using echoed
  have taken1 : m.next.output.write (m.next.a % 256).toNat =
      .ok { m.output with written := m.output.written.push (m.ring.reduce v % 256).toUInt8 } := by
    have byte : ((m.ring.reduce v : Int) % 256).toNat = m.ring.reduce v % 256 := by omega
    simp [read, Output.write, lap.sink, byte]
  have wrote := next_write_byte running1 cell1 writes1 notMax1 taken1
    (by simpa [read] using lap.fresh_transfer)
  -- The blank cells, from the third to the last.
  obtain ⟨tr, blanks⟩ := blank_run (m.ring.size - 3) 2 m.next.next
    (by rw [wrote]; exact running1) (by rw [wrote]; simp [read, lap.atC, second, third])
    (by rw [wrote]; simp [read, lap.atD, second, third]) (by rw [wrote]; simp [read]; omega)
    (fun j past => by rw [wrote]; simpa [read, lap.program] using echo_blank past)
    (fun k limit => by
      rw [wrote] at limit ⊢
      simp [read] at limit ⊢
      have := lap.watchdog k limit
      omega)
  refine ⟨tr, ?_⟩
  have whole := ((RanTo.single lap.running).trans (RanTo.single running1)).trans blanks
  have count : 1 + 1 + (m.ring.size - 3 + 1) = m.ring.size := by omega
  have steps : m.steps + 1 + 1 + (m.ring.size - 2) = m.steps + m.ring.size := by omega
  have idle : m.ring.size - 3 + 1 = m.ring.size - 2 := by omega
  rw [count, wrote, read] at whole
  simpa [steps, idle, lap.atC, lap.atD] using whole

theorem next_lap {v : Int} (tr : Trace) : EchoLap { m with
    steps := m.steps + m.ring.size, a := m.ring.reduce v, input := m.input.read.2,
    output := { m.output with written := m.output.written.push (m.ring.reduce v % 256).toUInt8 },
    idleSteps := m.ring.size - 2, trace := tr } :=
  ⟨lap.roomy, lap.program, lap.atC, lap.atD, lap.running, lap.sink, Nat.le_refl _, lap.watchdog⟩

theorem stop (ends : m.input.read.1 = .endOfInput ∨
      ∃ v, m.input.read.1 = .value (.int v) ∧ m.ring.reduce v = m.ring.maxValue) :
    ∃ last, RanTo m 2 last ∧ last.status = .endOfOutput ∧ last.steps = m.steps + 2 ∧
      last.memory = m.memory ∧ last.output = m.output := by
  have roomy := lap.roomy
  have reads : Instruction.decode (m.memory.get 0) = some .read := by
    rw [lap.program]; exact echo_reads
  -- Either way the read leaves the largest word in the accumulator and moves to the write.
  have read : m.next.status = .running ∧ m.next.c = 1 ∧ m.next.a = m.ring.maxValue ∧
      m.next.ring = m.ring ∧ m.next.memory = m.memory ∧ m.next.steps = m.steps + 1 ∧
      m.next.output = m.output := by
    have second : m.ring.successor 0 = 1 := by simpa using m.ring.successor_of_lt 0 (by omega)
    rcases ends with ended | ⟨v, fed, atMax⟩
    · rw [next_read_end lap.running lap.first_cell reads ended (fun k limit => by
        have := lap.watchdog k limit; have := lap.idle; omega)]
      simp [lap.running, lap.atC, second]
    · rw [next_read_value lap.running lap.first_cell reads fed lap.fresh_transfer]
      simp [lap.running, lap.atC, second, atMax]
  obtain ⟨running1, at1, atMax1, ring1, memory1, steps1, output1⟩ := read
  have wrote := next_write_end running1
    (by rw [at1, ring1]; simpa using m.ring.cellAt_natCast 1 (by omega))
    (by rw [memory1, lap.program]; exact echo_writes) (by rw [atMax1, ring1])
  refine ⟨m.next.next, (RanTo.single lap.running).trans (RanTo.single running1), ?_, ?_, ?_, ?_⟩ <;>
    simp [wrote, steps1, memory1, output1]

theorem run_laps (vs : List Int) (rest : List Reply)
    (fed : m.input.pending = vs.map (fun v => .value (.int v)) ++ rest)
    (echoed : ∀ v ∈ vs, m.ring.reduce v ≠ m.ring.maxValue)
    (ends : rest.head?.getD .endOfInput = .endOfInput ∨
      ∃ v, rest.head?.getD .endOfInput = .value (.int v) ∧ m.ring.reduce v = m.ring.maxValue) :
    ∃ last, RanTo m (m.ring.size * vs.length + 2) last ∧ last.status = .endOfOutput ∧
      last.steps = m.steps + (m.ring.size * vs.length + 2) ∧ last.memory = m.memory ∧
      last.output.written.toList = m.output.written.toList ++
        vs.map (fun v => (m.ring.reduce v % 256).toUInt8) := by
  induction vs generalizing m with
  | nil =>
    simp only [List.map_nil, List.nil_append] at fed
    have atRead : m.input.read.1 = (rest.head?.getD .endOfInput).normalize := by
      rw [Input.read_fst, fed]
    obtain ⟨last, ran, stopped, counted, kept, same⟩ := lap.stop (by
      rcases ends with ended | ⟨v, found, atMax⟩
      · exact .inl (by rw [atRead, ended]; rfl)
      · exact .inr ⟨v, by rw [atRead, found]; rfl, atMax⟩)
    exact ⟨last, by simpa using ran, stopped, by simpa using counted, kept, by simp [same]⟩
  | cons v vs ih =>
    have fed1 : m.input.read.1 = .value (.int v) := by simp [Input.read_fst, fed]
    obtain ⟨tr, lapped⟩ := lap.echo fed1 (echoed v List.mem_cons_self)
    obtain ⟨last, ran, stopped, counted, kept, written⟩ := ih (lap.next_lap tr)
      (by simp [Input.read_pending, fed]) (fun w listed => echoed w (List.mem_cons_of_mem v listed))
      ends
    have laps :
        m.ring.size + (m.ring.size * vs.length + 2) = m.ring.size * (vs.length + 1) + 2 := by
      rw [Nat.mul_succ]; omega
    refine ⟨last, by simpa [laps] using lapped.trans ran, stopped, ?_, kept, ?_⟩
    · simp only [counted, List.length_cons]
      rw [Nat.mul_succ]; omega
    · simp [written]

end EchoLap

end Lap

theorem load_echo {m : Machine} (roomy : 126 ≤ m.ring.size)
    (watchdog : ∀ k, m.idleLimit = some k → m.ring.size ≤ k) (sink : m.output.failAfter = none) :
    ∃ loaded, m.load [125, 123] = .ok loaded ∧ EchoLap loaded ∧ loaded.steps = 0 ∧
      loaded.ring = m.ring ∧ loaded.input = m.input ∧ loaded.output = m.output := by
  have fits : [(125 : Int), 123].length ≤ m.ring.size := by simp; omega
  have words : ∀ v ∈ [(125 : Int), 123], m.ring.isValid v = true := by
    intro v listed
    rw [WordRing.isValid_iff]
    simp at listed
    omega
  refine ⟨_, Machine.load_of_words fits words,
    ⟨Nat.le_trans (by decide) roomy, rfl, rfl, rfl, rfl, sink, ?_, watchdog⟩,
    rfl, rfl, rfl, rfl⟩
  simp

theorem echo_run {reg : Registry} (quiet : reg.Quiet) {m : Machine} (roomy : 126 ≤ m.ring.size)
    (watchdog : ∀ k, m.idleLimit = some k → m.ring.size ≤ k) (sink : m.output.failAfter = none)
    (vs : List Int) (tail : List Reply) (ended : tail = [] ∨ ∃ more, tail = .endOfInput :: more)
    (fed : m.input.pending = vs.map (fun v => .value (.int v)) ++ tail) :
    ∃ loaded, m.load [125, 123] = .ok loaded ∧
      (loaded.run reg none).fault = none ∧
      (loaded.run reg none).machine.status = .endOfOutput ∧
      (loaded.run reg none).machine.steps =
        m.ring.size * (vs.takeWhile fun v => m.ring.reduce v != m.ring.maxValue).length + 2 ∧
      (loaded.run reg none).machine.output.written.toList = m.output.written.toList ++
        (vs.takeWhile fun v => m.ring.reduce v != m.ring.maxValue).map
          (fun v => (m.ring.reduce v % 256).toUInt8) ∧
      (loaded.run reg none).machine.memory = loaded.memory := by
  obtain ⟨loaded, load, lap, fresh, ring, input, output⟩ := load_echo roomy watchdog sink
  -- The values split where the first one that reads as the largest word stands.
  have split : (vs.takeWhile fun v => m.ring.reduce v != m.ring.maxValue) ++
      (vs.dropWhile fun v => m.ring.reduce v != m.ring.maxValue) = vs :=
    List.takeWhile_append_dropWhile
  have echoes : ∀ v ∈ vs.takeWhile (fun v => m.ring.reduce v != m.ring.maxValue),
      m.ring.reduce v ≠ m.ring.maxValue :=
    fun v listed => by simpa using List.mem_takeWhile_imp listed
  have firstStop := List.head?_dropWhile_not (fun v => m.ring.reduce v != m.ring.maxValue) vs
  generalize vs.takeWhile (fun v => m.ring.reduce v != m.ring.maxValue) = echoed at split echoes ⊢
  generalize vs.dropWhile (fun v => m.ring.reduce v != m.ring.maxValue) = stopper at split firstStop
  have fedLoaded : loaded.input.pending = echoed.map (fun v => .value (.int v)) ++
      (stopper.map (fun v => .value (.int v)) ++ tail) := by
    rw [input, fed, ← split]
    simp
  -- What the machine reads after the echoed values stops it.
  have ends : (stopper.map (fun v => Reply.value (.int v)) ++ tail).head?.getD .endOfInput =
        .endOfInput ∨
      ∃ v, (stopper.map (fun v => Reply.value (.int v)) ++ tail).head?.getD .endOfInput =
        .value (.int v) ∧ loaded.ring.reduce v = loaded.ring.maxValue := by
    cases stopper with
    | nil =>
      left
      rcases ended with rfl | ⟨more, rfl⟩ <;> rfl
    | cons w more =>
      right
      exact ⟨w, rfl, by rw [ring]; simpa using firstStop⟩
  obtain ⟨last, ⟨reached, -⟩, stopped, counted, kept, written⟩ :=
    lap.run_laps echoed _ fedLoaded (by rw [ring]; exact echoes) ends
  have stops : (next^[loaded.ring.size * echoed.length + 2] loaded).status ≠ .running := by
    rw [← reached, stopped]
    simp
  obtain ⟨machine, calm⟩ := run_quiet_unbounded quiet stops
  refine ⟨loaded, load, calm, ?_, ?_, ?_, ?_⟩ <;> rw [machine, ← reached]
  · exact stopped
  · rw [counted, fresh, ring, Nat.zero_add]
  · rw [written, output, ring]
  · exact kept

/-- The echo program `}{`, on a ring of at least 126 words, with observers that never fail, an
output that takes every byte, and no idle limit or one of at least the ring size. It assembles
into its two command bytes. Run without a budget over any finite input that ends, it stops at
the end of the output after one lap of the ring per value before the first that reads as the
largest word, and the two steps that stop it; it has written exactly those values modulo the
ring size, modulo 256, and left memory as loaded. So it echoes every byte string exactly when
the largest word exceeds 255. -/
theorem echo_program_copies_input (reg : Registry) (quiet : reg.Quiet) (m : Machine)
    (roomy : 126 ≤ m.ring.size) (watchdog : ∀ k, m.idleLimit = some k → m.ring.size ≤ k)
    (sink : m.output.failAfter = none) :
    assemble m.ring "\x7d\x7b" = .ok [125, 123] ∧
    (∀ (vs : List Int) (tail : List Reply) (inp : Input),
      (tail = [] ∨ ∃ more, tail = .endOfInput :: more) →
      inp.pending = vs.map (fun v => .value (.int v)) ++ tail →
      ∃ loaded, { m with input := inp }.load [125, 123] = .ok loaded ∧
        (loaded.run reg none).fault = none ∧
        (loaded.run reg none).machine.status = .endOfOutput ∧
        (loaded.run reg none).machine.steps =
          m.ring.size * (vs.takeWhile fun v => m.ring.reduce v != m.ring.maxValue).length + 2 ∧
        (loaded.run reg none).machine.output.written.toList = m.output.written.toList ++
          (vs.takeWhile fun v => m.ring.reduce v != m.ring.maxValue).map
            (fun v => (m.ring.reduce v % 256).toUInt8) ∧
        (loaded.run reg none).machine.memory = loaded.memory) ∧
    ((∀ (bytes : List UInt8) (inp : Input),
        inp.pending = bytes.map (fun b => .value (.int b.toNat)) →
        ∃ loaded, { m with input := inp }.load [125, 123] = .ok loaded ∧
          (loaded.run reg none).machine.output.written.toList =
            m.output.written.toList ++ bytes) ↔
      255 < m.ring.maxValue) := by
  have general := fun vs tail (inp : Input) ended fed =>
    @echo_run reg quiet { m with input := inp } roomy watchdog sink vs tail ended fed
  refine ⟨assemble_echo roomy, general, ?_⟩
  have below := m.ring.maxValue_lt_size
  constructor
  · -- On a ring whose largest word is a byte, that byte is read as the end and not echoed.
    intro echoesAll
    by_contra small
    have byte : (m.ring.maxValue : Int) % 256 = m.ring.maxValue := by omega
    have stops : m.ring.reduce (m.ring.maxValue : Int) = m.ring.maxValue :=
      m.ring.reduce_natCast _ below
    let inp : Input := ⟨[.value (.int (UInt8.ofNat m.ring.maxValue).toNat)], 0⟩
    obtain ⟨loaded, load, copied⟩ := echoesAll [UInt8.ofNat m.ring.maxValue] inp rfl
    obtain ⟨loaded', load', -, -, -, written, -⟩ :=
      general [((UInt8.ofNat m.ring.maxValue).toNat : Int)] [] inp (.inl rfl) rfl
    rw [load] at load'
    cases load'
    rw [copied] at written
    simp [byte, stops] at written
  · -- Every byte is a word below the largest, so each is read and written as itself.
    intro wide bytes inp fed
    obtain ⟨loaded, load, -, -, -, written, -⟩ :=
      general (bytes.map fun b => (b.toNat : Int)) [] inp (.inl rfl) (by simp [fed])
    have small : ∀ b : UInt8, m.ring.reduce (b.toNat : Int) = b.toNat := fun b =>
      m.ring.reduce_natCast _ (by have := b.toNat_lt; omega)
    have all : ((bytes.map fun b => (b.toNat : Int)).takeWhile
        fun v => m.ring.reduce v != m.ring.maxValue) = bytes.map fun b => (b.toNat : Int) := by
      rw [List.takeWhile_eq_self_iff]
      intro v listed
      obtain ⟨b, -, rfl⟩ := List.mem_map.mp listed
      have := b.toNat_lt
      simp [small]
      omega
    refine ⟨loaded, load, ?_⟩
    rw [written, all]
    simp [small, Function.comp_def]

theorem standard_ring_echoes_hi :
    Registry.empty.Quiet ∧ 126 ≤ WordRing.standard.size ∧
      ∃ loaded, Machine.load
          { ring := .standard, trace := { depth := 0 },
            input := { pending := [.value (.int 104), .value (.int 105)] }, output := {} }
          [125, 123] = .ok loaded ∧
        (loaded.run Registry.empty none).machine.output.written.toList = [104, 105] := by
  obtain ⟨-, -, echoes⟩ := echo_program_copies_input Registry.empty Registry.empty_quiet
    { ring := .standard, trace := { depth := 0 }, input := { pending := [] }, output := {} }
    (by decide) (fun _ absent => by cases absent) rfl
  exact ⟨Registry.empty_quiet, by decide,
    echoes.mpr (by decide) [104, 105] { pending := [.value (.int 104), .value (.int 105)] } rfl⟩

end Machine

end RingMachine
