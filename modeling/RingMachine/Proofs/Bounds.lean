import RingMachine.Proofs.Run

/-!
Words stay words. Every operation of the ring returns a word, so a machine whose registers and
cells hold words keeps them so through every instruction, step and run, and a load checks its
image before it installs it. Every machine a caller can reach by building, loading, stepping
and running therefore addresses only cells that exist, names them directly, and holds only
values its cells can store.
-/

namespace RingMachine

namespace WordRing

theorem maxValue_lt_size (r : WordRing) : r.maxValue < r.size := by
  have := r.maxValue_add_one
  omega

theorem isValid_natCast {r : WordRing} {n : Nat} : r.isValid n = true ↔ n < r.size := by
  rw [isValid_iff]
  omega

theorem maxValue_le_cell (r : WordRing) : r.maxValue ≤ r.cell.maxValue := by
  have := r.fits
  unfold maxValue size CellWidth.maxValue
  omega

theorem cellAt_of_isValid {r : WordRing} {x : Int} (valid : r.isValid x = true) :
    r.cellAt? x = some x.toNat := by
  rw [isValid_iff] at valid
  simp [cellAt?, valid]

end WordRing

namespace Machine

/-- Every register and every memory cell holds a word. -/
structure Bounded (m : Machine) : Prop where
  a_valid : m.ring.isValid m.a = true
  c_valid : m.ring.isValid m.c = true
  d_valid : m.ring.isValid m.d = true
  cell_le : ∀ i, m.memory.get i ≤ m.ring.maxValue

section Kept

variable {m m1 : Machine} {op : Option Instruction} {transferred : Bool} {notes : List Note}

theorem Bounded.cell_valid (bounded : m.Bounded) (i : Nat) :
    m.ring.isValid (m.memory.get i) = true := by
  have := bounded.cell_le i
  have := m.ring.maxValue_add_one
  rw [WordRing.isValid_natCast]
  omega

theorem cell_le_set (bounded : m.Bounded) {z : Nat} (word : z < m.ring.size) (i j : Nat) :
    (m.memory.set i z).get j ≤ m.ring.maxValue := by
  have := m.ring.maxValue_add_one
  rw [Memory.get_set]
  split
  · omega
  · exact bounded.cell_le j

/-- Every instruction keeps the words words: what it loads comes from a cell, and what it
stores or reads is reduced into the ring. -/
theorem Executes.bounded (run : Executes m op m1 transferred notes) (bounded : m.Bounded) :
    m1.Bounded := by
  cases run with
  | skip => exact bounded
  | halt => exact ⟨bounded.a_valid, bounded.c_valid, bounded.d_valid, bounded.cell_le⟩
  | load _ => exact ⟨bounded.a_valid, bounded.c_valid, bounded.cell_valid _, bounded.cell_le⟩
  | @rot i _ =>
    have word := m.ring.rotateRight_lt (m.memory.get i)
    exact ⟨WordRing.isValid_natCast.mpr word, bounded.c_valid, bounded.d_valid,
      cell_le_set bounded word _⟩
  | jmp _ => exact ⟨bounded.a_valid, bounded.cell_valid _, bounded.d_valid, bounded.cell_le⟩
  | @opr i _ =>
    have word := m.ring.digitSubtract_lt m.a (m.memory.get i)
    exact ⟨WordRing.isValid_natCast.mpr word, bounded.c_valid, bounded.d_valid,
      cell_le_set bounded word _⟩
  | endOfOutput _ => exact ⟨bounded.a_valid, bounded.c_valid, bounded.d_valid, bounded.cell_le⟩
  | written _ _ => exact ⟨bounded.a_valid, bounded.c_valid, bounded.d_valid, bounded.cell_le⟩
  | writeFailed _ _ =>
    exact ⟨bounded.a_valid, bounded.c_valid, bounded.d_valid, bounded.cell_le⟩
  | readValue _ _ =>
    exact ⟨WordRing.isValid_natCast.mpr (m.ring.reduce_lt _), bounded.c_valid, bounded.d_valid,
      bounded.cell_le⟩
  | readEnd _ =>
    exact ⟨WordRing.isValid_natCast.mpr m.ring.maxValue_lt_size, bounded.c_valid,
      bounded.d_valid, bounded.cell_le⟩
  | readFailed _ =>
    exact ⟨WordRing.isValid_natCast.mpr m.ring.maxValue_lt_size, bounded.c_valid,
      bounded.d_valid, bounded.cell_le⟩

theorem settle_bounded (bounded : m.Bounded) : m.settle.Bounded := by
  unfold settle
  split
  · exact bounded
  · split
    · exact ⟨bounded.a_valid, bounded.c_valid, bounded.d_valid, bounded.cell_le⟩
    · -- The pointers advance to their successors, which are words again.
      exact ⟨bounded.a_valid, WordRing.isValid_natCast.mpr (m.ring.successor_lt _),
        WordRing.isValid_natCast.mpr (m.ring.successor_lt _), bounded.cell_le⟩

theorem next_bounded (bounded : m.Bounded) : m.next.Bounded := by
  by_cases running : m.status = .running
  · cases started : m.instruct with
    | error e => rw [next_of_error started]; exact bounded
    | ok x =>
      -- Counting the step touches no word.
      have counted : ({ m with steps := m.steps + 1 } : Machine).Bounded :=
        ⟨bounded.a_valid, bounded.c_valid, bounded.d_valid, bounded.cell_le⟩
      have done := (instruct_executes started).bounded counted
      rw [next_of_instruct running started]
      apply settle_bounded
      exact ⟨done.a_valid, done.c_valid, done.d_valid, done.cell_le⟩
  · rw [next_of_ne_running running]
    exact bounded

theorem step_bounded (reg : Registry) (bounded : m.Bounded) : (m.step reg).machine.Bounded := by
  have advanced := next_bounded bounded
  -- Whatever the observers do, the step leaves `next`, the machine itself, or `next` less its
  -- trace entry and idle count, which hold no word.
  rcases step_cases reg m with
    ⟨-, same⟩ | ⟨_, -, same, -⟩ | ⟨_, -, -, same | ⟨_, -, -, -, same⟩⟩
  · rw [same]
    exact advanced
  · rw [same]
    exact bounded
  · rw [same]
    exact advanced
  · rw [same]
    exact ⟨advanced.a_valid, advanced.c_valid, advanced.d_valid, advanced.cell_le⟩

theorem load_bounded {image : List Int} (loaded : m.load image = .ok m1) : m1.Bounded := by
  unfold load at loaded
  split at loaded
  · cases loaded
  · cases found : firstOutOfRange m.ring image with
    | some bad => simp [found] at loaded
    | none =>
      simp only [found, Except.ok.injEq] at loaded
      subst loaded
      have valid : ∀ v ∈ image, m.ring.isValid v = true := by
        intro v member
        obtain ⟨i, at_i⟩ := List.mem_iff_getElem?.mp member
        have listed : (v, i) ∈ image.zipIdx := List.mk_mem_zipIdx_iff_getElem?.mpr at_i
        have passes := List.find?_eq_none.mp (Option.map_eq_none_iff.mp found) _ listed
        simpa using passes
      have zero : m.ring.isValid 0 = true := WordRing.isValid_natCast.mpr m.ring.size_pos
      refine ⟨zero, zero, zero, fun i => ?_⟩
      have top := m.ring.maxValue_add_one
      simp only [Memory.get_ofImage, List.getD_eq_getElem?_getD, List.getElem?_map]
      cases at_i : image[i]? with
      | none => simp
      | some v =>
        have word := (m.ring.isValid_iff v).mp (valid v (List.mem_of_getElem? at_i))
        simp only [Option.map_some, Option.getD_some]
        omega

theorem create_shape {ring : WordRing} {idleLimit : Literal} {traceDepth : Int} {input : Input}
    {output : Output} (built : create ring idleLimit traceDepth input output = .ok m) :
    ∃ limit, m =
      { ring, idleLimit := limit, trace := { depth := traceDepth.toNat }, input, output } := by
  unfold create at built
  simp only at built
  -- Every way of reading the idle limit ends in the same size check and the same machine.
  repeat' split at built
  all_goals
    obtain ⟨limit, -, rest⟩ := except_bind_ok built
    obtain ⟨_, -, final⟩ := except_bind_ok rest
    cases final
    exact ⟨limit, rfl⟩

theorem create_bounded {ring : WordRing} {idleLimit : Literal} {traceDepth : Int} {input : Input}
    {output : Output} (built : create ring idleLimit traceDepth input output = .ok m) :
    m.Bounded := by
  obtain ⟨limit, rfl⟩ := create_shape built
  have zero : ring.isValid 0 = true := WordRing.isValid_natCast.mpr ring.size_pos
  exact ⟨zero, zero, zero, fun i => by simp [Memory.ofImage, Memory.get, Memory.loaded]⟩

end Kept

/-- The machines a caller can reach: a machine as built, then loads, steps and runs in any
order, each step or run with any observers. -/
inductive Reachable : Machine → Prop
  | create {ring : WordRing} {idleLimit : Literal} {traceDepth : Int} {input : Input}
      {output : Output} {m : Machine} :
      create ring idleLimit traceDepth input output = .ok m → Reachable m
  | load {m m' : Machine} {image : List Int} :
      Reachable m → m.load image = .ok m' → Reachable m'
  | perform {m : Machine} (reg : Registry) (call : Drive) :
      Reachable m → Reachable (m.perform reg call).machine

theorem Reachable.bounded {m : Machine} (reached : m.Reachable) : m.Bounded := by
  induction reached with
  | create built => exact create_bounded built
  | load _ loaded _ => exact load_bounded loaded
  | perform reg call _ ih =>
    cases call with
    | step => exact step_bounded reg ih
    | run budget => exact run_preserves budget (fun m => step_bounded reg) _ ih

/-- Every machine a caller can reach holds words in its registers and its cells. So the cells
under `c` and `d`, which a step reads and writes, exist and are named directly, and every
cell holds a value its cell type can store. -/
theorem reachable_words_in_bounds {m : Machine} (reached : m.Reachable) :
    m.Bounded ∧ m.ring.cellAt? m.c = some m.c.toNat ∧ m.ring.cellAt? m.d = some m.d.toNat ∧
      ∀ i, m.memory.get i ≤ m.ring.cell.maxValue := by
  have bounded := reached.bounded
  refine ⟨bounded, WordRing.cellAt_of_isValid bounded.c_valid,
    WordRing.cellAt_of_isValid bounded.d_valid, fun i => ?_⟩
  exact Nat.le_trans (bounded.cell_le i) m.ring.maxValue_le_cell

theorem fresh_machine_in_bounds :
    let fresh : Machine :=
      { ring := .standard, trace := { depth := 0 }, input := { pending := [] }, output := {} }
    fresh.Reachable ∧ fresh.Bounded ∧ fresh.ring.cellAt? fresh.c = some fresh.c.toNat ∧
      fresh.ring.cellAt? fresh.d = some fresh.d.toNat ∧
      ∀ i, fresh.memory.get i ≤ fresh.ring.cell.maxValue := by
  intro fresh
  have reached : fresh.Reachable :=
    @Reachable.create .standard .none 0 { pending := [] } {} fresh rfl
  exact ⟨reached, reachable_words_in_bounds reached⟩

end Machine

end RingMachine
