import RingMachine.Proofs.Assemble

/-!
Loading an image. A load checks the whole image before it changes anything: an image longer
than the memory is refused first, then the first cell, in index order, that is not a word. An
image that passes becomes the memory, followed by zeros up to the memory's size, and the
registers, the status, both counts and the trace start over. A failed load gives only its
error, so the machine it was asked of stays as it was. What a load gives depends on the machine
only through its ring, idle limit, trace depth and channels: a machine that has stopped, or is
in the middle of a run, loads exactly as a fresh one does.
-/

namespace RingMachine.Machine

variable {m : Machine} {image : List Int}

theorem isValid_iff_le {r : WordRing} {v : Int} : r.isValid v = true ↔ 0 ≤ v ∧ v ≤ r.maxValue := by
  simp [WordRing.isValid]

theorem load_tooLong (long : m.ring.size < image.length) :
    m.load image = .error (.imageTooLong image.length m.ring.size) := by
  simp [load, long]

theorem firstOutOfRange_split {r : WordRing} {pre post : List Int} {v : Int}
    (before : ∀ w ∈ pre, r.isValid w = true) (bad : r.isValid v = false) :
    firstOutOfRange r (pre ++ v :: post) = some (pre.length, v) := by
  -- The search for a cell that is not a word passes every cell before `v`.
  have clean : ∀ p ∈ pre.zipIdx, r.isValid p.1 = true := fun p listed =>
    before p.1 (List.fst_mem_of_mem_zipIdx listed)
  rw [firstOutOfRange, List.zipIdx_append, List.find?_append,
    List.find?_eq_none.mpr fun p listed => by obtain ⟨w, i⟩ := p; simpa using clean _ listed]
  simp [bad]

theorem load_cellOutOfRange {pre post : List Int} {v : Int}
    (fits : (pre ++ v :: post).length ≤ m.ring.size) (before : ∀ w ∈ pre, m.ring.isValid w = true)
    (bad : m.ring.isValid v = false) :
    m.load (pre ++ v :: post) = .error (.cellOutOfRange pre.length v m.ring.maxValue) := by
  rw [load, if_neg (by omega), firstOutOfRange_split before bad]

theorem cells_ofImage {n : Nat} (fits : image.length ≤ n) (nonneg : ∀ v ∈ image, 0 ≤ v) :
    (List.range n).map (fun i => ((Memory.ofImage (image.map Int.toNat)).get i : Int)) =
      image ++ List.replicate (n - image.length) 0 := by
  apply List.ext_getElem
  · simp only [List.length_map, List.length_range, List.length_append, List.length_replicate]
    omega
  · intro i inRange _
    simp only [List.getElem_map, List.getElem_range, Memory.get_ofImage, List.getElem_append]
    split
    · case isTrue inImage =>
      have := nonneg _ (List.getElem_mem inImage)
      simp [List.getD_eq_getElem?_getD, List.getElem?_eq_getElem inImage, Int.toNat_of_nonneg this]
    · case isFalse beyond =>
      simp [List.getD_eq_getElem?_getD, List.getElem?_eq_none (Nat.le_of_not_lt beyond)]

theorem load_congr {m₀ : Machine} (ring : m₀.ring = m.ring) (limit : m₀.idleLimit = m.idleLimit)
    (depth : m₀.trace.depth = m.trace.depth) (input : m₀.input = m.input)
    (output : m₀.output = m.output) : m₀.load image = m.load image := by
  have cleared : m₀.trace.clear = m.trace.clear := by
    simp only [Trace.clear, depth]
  unfold load
  rw [ring]
  split
  · rfl
  · split
    · rfl
    · -- The two machines built agree on every field.
      cases m₀
      cases m
      simp_all

/-- Loading an image into any machine. An image longer than the memory is refused, before its
cells are looked at; one that fits is refused at its first cell, in index order, that is not a
word. Otherwise the memory becomes the image followed by zeros, the registers and both counts
are zero, the machine runs and the trace is empty. What a load gives, either way, is the same
for every machine of the same ring, idle limit, trace depth and channels, whatever its state. -/
theorem load_checks_image_then_starts_over (m : Machine) (image : List Int) :
    (m.ring.size < image.length →
      m.load image = .error (.imageTooLong image.length m.ring.size)) ∧
    (∀ (pre : List Int) (v : Int) (post : List Int), image = pre ++ v :: post →
      image.length ≤ m.ring.size →
      (∀ w ∈ pre, 0 ≤ w ∧ w ≤ m.ring.maxValue) → ¬ (0 ≤ v ∧ v ≤ m.ring.maxValue) →
      m.load image = .error (.cellOutOfRange pre.length v m.ring.maxValue)) ∧
    (image.length ≤ m.ring.size → (∀ v ∈ image, 0 ≤ v ∧ v ≤ m.ring.maxValue) →
      ∃ m', m.load image = .ok m' ∧
        (List.range m.ring.size).map (fun i => (m'.memory.get i : Int)) =
          image ++ List.replicate (m.ring.size - image.length) 0 ∧
        m'.a = 0 ∧ m'.c = 0 ∧ m'.d = 0 ∧ m'.status = .running ∧ m'.steps = 0 ∧
        m'.idleSteps = 0 ∧ m'.trace.toList = []) ∧
    (∀ m₀ : Machine, m₀.ring = m.ring → m₀.idleLimit = m.idleLimit →
      m₀.trace.depth = m.trace.depth → m₀.input = m.input → m₀.output = m.output →
      m₀.load image = m.load image) := by
  refine ⟨load_tooLong, ?_, ?_, fun m₀ => load_congr⟩
  · rintro pre v post rfl fits before bad
    exact load_cellOutOfRange fits (fun w listed => isValid_iff_le.mpr (before w listed))
      (Bool.eq_false_iff.mpr fun valid => bad (isValid_iff_le.mp valid))
  · intro fits words
    refine ⟨_, load_of_words fits fun v listed => isValid_iff_le.mpr (words v listed), ?_,
      rfl, rfl, rfl, rfl, rfl, rfl, rfl⟩
    exact cells_ofImage fits fun v listed => (words v listed).1

theorem halted_machine_reloads_as_fresh :
    let fresh : Machine :=
      { ring := .standard, trace := { depth := 4 }, input := { pending := [] }, output := {} }
    let halted : Machine :=
      { fresh with a := 7, c := 12, d := 3, status := .haltCommand, steps := 9, idleSteps := 2 }
    fresh.load [33, 42] = halted.load [33, 42] ∧
      (∃ m', halted.load [33, 42] = .ok m' ∧ m'.a = 0 ∧ m'.status = .running ∧ m'.steps = 0) ∧
      halted.load [33, 59049] = .error (.cellOutOfRange 1 59049 59048) := by
  intro fresh halted
  have spec := load_checks_image_then_starts_over halted [33, 42]
  have top : halted.ring.maxValue = 59048 := by decide
  have refused := (load_checks_image_then_starts_over halted [33, 59049]).2.1 [33] 59049 []
    rfl (by decide) (by decide) (by decide)
  rw [top] at refused
  obtain ⟨m', loaded, -, a, -, -, running, steps, -⟩ := spec.2.2.1 (by decide) (by decide)
  exact ⟨spec.2.2.2 fresh rfl rfl rfl rfl rfl, ⟨m', loaded, a, running, steps⟩, refused⟩

end RingMachine.Machine
