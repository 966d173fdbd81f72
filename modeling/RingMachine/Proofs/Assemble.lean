import RingMachine.Program.Token
import RingMachine.Proofs.Bounds

/-!
Assembling program text. Text that reads is assembled exactly when its commands fit in the
memory and their bytes are words; the image is then the commands' bytes in program order, a
machine on the same ring loads it, and each loaded cell decodes to the instruction its command
names. A program too long for the memory is refused at the first command that does not fit,
before any byte is looked at; one that fits is refused at its first byte that is not a word.
-/

namespace RingMachine

def Command.op : Command → Option Instruction
  | .run i => some i
  | .nop => none

@[simp] theorem Command.decode_byte (c : Command) : Instruction.decode c.byte = c.op := by
  rcases c with ⟨_ | _ | _ | _ | _ | _ | _⟩ | _ <;> rfl

theorem WordRing.isValid_natCast_iff_le {r : WordRing} {n : Nat} :
    r.isValid n = true ↔ n ≤ r.maxValue := by
  rw [WordRing.isValid_natCast]
  have := r.maxValue_add_one
  omega

section Load

variable {m : Machine} {image : List Int}

theorem Machine.firstOutOfRange_eq_none {r : WordRing} :
    Machine.firstOutOfRange r image = none ↔ ∀ v ∈ image, r.isValid v = true := by
  simp only [Machine.firstOutOfRange, Option.map_eq_none_iff, List.find?_eq_none,
    Bool.not_eq_true', Bool.not_eq_false]
  constructor
  · intro passes v member
    obtain ⟨i, at_i⟩ := List.mem_iff_getElem?.mp member
    exact passes (v, i) (List.mk_mem_zipIdx_iff_getElem?.mpr at_i)
  · rintro words ⟨v, i⟩ listed
    exact words v (List.fst_mem_of_mem_zipIdx listed)

theorem Machine.load_of_words (fits : image.length ≤ m.ring.size)
    (words : ∀ v ∈ image, m.ring.isValid v = true) :
    m.load image = .ok { m with
      memory := Memory.ofImage (image.map Int.toNat), a := 0, c := 0, d := 0,
      status := .running, steps := 0, idleSteps := 0, trace := m.trace.clear } := by
  unfold Machine.load
  rw [if_neg (by omega), Machine.firstOutOfRange_eq_none.mpr words]

end Load

namespace Lexed

variable {r : WordRing} {l : Lexed}

theorem assemble_tooLong (long : r.size < l.tokens.length) :
    ∃ t, l.tokens[r.size]? = some t ∧ l.assemble r = .error (.tooLong r.size t.pos) := by
  have found : l.tokens[r.size]? = some l.tokens[r.size] := List.getElem?_eq_getElem long
  exact ⟨_, found, by simp [assemble, found]⟩

theorem image_find_none :
    (l.image.find? fun (b : Nat) => !r.isValid b) = none ↔
      ∀ t ∈ l.tokens, t.command.byte ≤ r.maxValue := by
  simp [image, WordRing.isValid_natCast_iff_le]

theorem image_find_first {pre post : List Token} {t : Token}
    (split : l.tokens = pre ++ t :: post) (before : ∀ u ∈ pre, u.command.byte ≤ r.maxValue)
    (wide : r.maxValue < t.command.byte) :
    (l.image.find? fun (b : Nat) => !r.isValid b) = some t.command.byte := by
  have notWord : ¬ r.isValid t.command.byte = true := by
    rw [WordRing.isValid_natCast_iff_le]
    omega
  rw [List.find?_eq_some_iff_append]
  refine ⟨by simpa using notWord, pre.map fun u => u.command.byte,
    post.map fun u => u.command.byte, by simp [image, split, Command.byte], ?_⟩
  intro b listed
  obtain ⟨u, earlier, rfl⟩ := List.mem_map.mp listed
  simpa [WordRing.isValid_natCast_iff_le] using before u earlier

/-- A read program is assembled exactly when it fits and its bytes are words, into its image. -/
theorem assemble_eq_ok {image : List Nat} :
    l.assemble r = .ok image ↔
      l.tokens.length ≤ r.size ∧ (∀ t ∈ l.tokens, t.command.byte ≤ r.maxValue) ∧
        image = l.image := by
  constructor
  · intro assembled
    unfold assemble at assembled
    split at assembled
    · cases assembled
    · rename_i absent
      split at assembled
      · cases assembled
      · rename_i clean
        cases assembled
        exact ⟨List.getElem?_eq_none_iff.mp absent, image_find_none.mp clean, rfl⟩
  · rintro ⟨fits, words, rfl⟩
    simp only [assemble, List.getElem?_eq_none fits, image_find_none.mpr words]

theorem assemble_unrepresentable {pre post : List Token} {t : Token}
    (fits : l.tokens.length ≤ r.size) (split : l.tokens = pre ++ t :: post)
    (before : ∀ u ∈ pre, u.command.byte ≤ r.maxValue) (wide : r.maxValue < t.command.byte) :
    l.assemble r = .error (.unrepresentable t.command.byte r) := by
  simp only [assemble, List.getElem?_eq_none fits, image_find_first split before wide]

end Lexed

theorem assemble_of_read {r : WordRing} {text : String} {l : Lexed}
    (read : Lexed.ofText text = .ok l) : assemble r text = l.assemble r := by
  simp [assemble, read, bind, Except.bind]

theorem assemble_of_unread {r : WordRing} {text : String} {e : ParseError}
    (failed : Lexed.ofText text = .error e) : assemble r text = .error e := by
  simp [assemble, failed, bind, Except.bind]

/-- Assembling program text for a ring. It succeeds exactly when the text reads, its commands
fit in the memory and every command byte is a word, and it then gives the commands' bytes in
program order. Every machine on that ring loads the image, and each loaded cell decodes to the
instruction of its command. Text that does not read fails as reading does. A program with more
commands than cells fails at the first command without a cell, whatever its bytes; one that fits
fails at its first command byte that is not a word. -/
theorem assembled_image_loads (r : WordRing) (text : String) :
    (∀ image, assemble r text = .ok image ↔
      ∃ l, Lexed.ofText text = .ok l ∧ l.tokens.length ≤ r.size ∧
        (∀ t ∈ l.tokens, t.command.byte ≤ r.maxValue) ∧
        image = l.tokens.map fun t => t.command.char.toNat) ∧
    (∀ image, assemble r text = .ok image → ∀ m : Machine, m.ring = r →
      ∃ loaded, m.load (image.map Int.ofNat) = .ok loaded ∧
        ∀ l, Lexed.ofText text = .ok l → ∀ i t, l.tokens[i]? = some t →
          Instruction.decode (loaded.memory.get i) = t.command.op) ∧
    (∀ e, Lexed.ofText text = .error e → assemble r text = .error e) ∧
    (∀ l, Lexed.ofText text = .ok l → r.size < l.tokens.length →
      ∃ t, l.tokens[r.size]? = some t ∧ assemble r text = .error (.tooLong r.size t.pos)) ∧
    (∀ l, Lexed.ofText text = .ok l → l.tokens.length ≤ r.size →
      ∀ pre t post, l.tokens = pre ++ t :: post → (∀ u ∈ pre, u.command.byte ≤ r.maxValue) →
        r.maxValue < t.command.byte →
        assemble r text = .error (.unrepresentable t.command.byte r)) := by
  -- Success comes only through a reading, a length that fits and bytes that are words.
  have exact : ∀ image, assemble r text = .ok image ↔
      ∃ l, Lexed.ofText text = .ok l ∧ l.tokens.length ≤ r.size ∧
        (∀ t ∈ l.tokens, t.command.byte ≤ r.maxValue) ∧
        image = l.tokens.map fun t => t.command.char.toNat := by
    intro image
    constructor
    · intro assembled
      cases read : Lexed.ofText text with
      | error e =>
        rw [assemble_of_unread read] at assembled
        cases assembled
      | ok l =>
        rw [assemble_of_read read, Lexed.assemble_eq_ok] at assembled
        exact ⟨l, rfl, assembled⟩
    · rintro ⟨l, read, accepted⟩
      rw [assemble_of_read read, Lexed.assemble_eq_ok]
      exact accepted
  refine ⟨exact, ?_, fun e failed => assemble_of_unread failed, ?_, ?_⟩
  · intro image assembled m onRing
    obtain ⟨l, read, fits, words, rfl⟩ := (exact image).mp assembled
    -- The image is one word per command, so it fits and every cell is a word.
    have loadFits : ((l.tokens.map fun t => t.command.char.toNat).map Int.ofNat).length ≤
        m.ring.size := by
      simpa [onRing] using fits
    have loadWords : ∀ v ∈ (l.tokens.map fun t => t.command.char.toNat).map Int.ofNat,
        m.ring.isValid v = true := by
      intro v member
      simp only [List.map_map, List.mem_map, Function.comp_apply] at member
      obtain ⟨t, listed, rfl⟩ := member
      rw [onRing, Int.ofNat_eq_natCast, WordRing.isValid_natCast_iff_le]
      exact words t listed
    refine ⟨_, Machine.load_of_words loadFits loadWords, ?_⟩
    intro l' read' i t at_i
    obtain rfl : l' = l := by rw [read] at read'; cases read'; rfl
    -- The loaded cell holds the command's byte, read back through the image.
    have cell : (Memory.ofImage (((l'.tokens.map fun t => t.command.char.toNat).map
        Int.ofNat).map Int.toNat)).get i = t.command.byte := by
      simp [at_i, Command.byte]
    rw [cell, Command.decode_byte]
  · intro l read long
    rw [assemble_of_read read]
    exact Lexed.assemble_tooLong long
  · intro l read fits pre t post split before wide
    rw [assemble_of_read read]
    exact Lexed.assemble_unrepresentable fits split before wide

end RingMachine
