import RingMachine.Ring.Basic
import Mathlib

/-!
Word arithmetic is residue arithmetic. Reduction, addition, subtraction, the successor and the
predecessor of a ring each return the floor residue, modulo the ring size, of the same operation
on integers, for every integer argument. Subtraction and the predecessor never form a negative
intermediate: they branch, adding the size or returning the largest word, and both branches
land on the residue. Every result is therefore a word, subtraction undoes addition, and the
successor and the predecessor undo each other.

Each operation is shown congruent to its integer counterpart and below the size; a word is the
only residue in its class, which fixes it.
-/

namespace RingMachine.WordRing

variable (r : WordRing) (x y : Int)

theorem fmod_size : Int.fmod x r.size = x % r.size :=
  Int.fmod_eq_emod_of_nonneg x (Int.natCast_nonneg _)

theorem le_maxValue_of_lt {w : Nat} (word : w < r.size) : w ≤ r.maxValue := by
  have := r.maxValue_add_one
  omega

variable {r}

theorem eq_fmod_of_modEq {w : Nat} {x : Int} (word : w < r.size)
    (cong : (w : Int) ≡ x [ZMOD r.size]) : (w : Int) = Int.fmod x r.size := by
  rw [fmod_size, ← cong.eq, Int.emod_eq_of_lt (Int.natCast_nonneg w) (by exact_mod_cast word)]

theorem eq_of_modEq {v w : Nat} (hv : v < r.size) (hw : w < r.size)
    (cong : (v : Int) ≡ w [ZMOD r.size]) : v = w := by
  have same := (eq_fmod_of_modEq hv cong).trans (eq_fmod_of_modEq hw (Int.ModEq.refl _)).symm
  exact_mod_cast same

variable (r)

theorem reduce_modEq : (r.reduce x : Int) ≡ x [ZMOD r.size] := by
  rw [reduce_eq]
  exact Int.mod_modEq x r.size

theorem successor_modEq : (r.successor x : Int) ≡ x + 1 [ZMOD r.size] :=
  calc (r.successor x : Int) = ((r.reduce x : Int) + 1) % r.size := by
        simp [successor]
    _ ≡ (r.reduce x : Int) + 1 [ZMOD r.size] := Int.mod_modEq _ _
    _ ≡ x + 1 [ZMOD r.size] := (r.reduce_modEq x).add_right 1

theorem addWrapping_modEq : (r.addWrapping x y : Int) ≡ x + y [ZMOD r.size] :=
  calc (r.addWrapping x y : Int) = ((r.reduce x : Int) + r.reduce y) % r.size := by
        simp [addWrapping]
    _ ≡ (r.reduce x : Int) + r.reduce y [ZMOD r.size] := Int.mod_modEq _ _
    _ ≡ x + y [ZMOD r.size] := (r.reduce_modEq x).add (r.reduce_modEq y)

theorem subWrapping_modEq : (r.subWrapping x y : Int) ≡ x - y [ZMOD r.size] := by
  have diff := (r.reduce_modEq x).sub (r.reduce_modEq y)
  have small := r.reduce_lt y
  dsimp only [subWrapping]
  split
  · case isTrue le =>
    rw [Nat.cast_sub le]
    exact diff
  · case isFalse gt =>
    calc ((r.reduce x + (r.size - r.reduce y) : Nat) : Int)
        = (r.reduce x : Int) - r.reduce y + r.size := by omega
      _ ≡ (r.reduce x : Int) - r.reduce y [ZMOD r.size] := Int.add_modEq_right
      _ ≡ x - y [ZMOD r.size] := diff

theorem predecessor_modEq : (r.predecessor x : Int) ≡ x - 1 [ZMOD r.size] := by
  have back := (r.reduce_modEq x).sub_right 1
  have top := r.maxValue_add_one
  dsimp only [predecessor]
  split
  · case isTrue zero =>
    rw [zero] at back
    calc (r.maxValue : Int) = ((0 : Nat) : Int) - 1 + r.size := by omega
      _ ≡ ((0 : Nat) : Int) - 1 [ZMOD r.size] := Int.add_modEq_right
      _ ≡ x - 1 [ZMOD r.size] := back
  · case isFalse pos =>
    rw [Nat.cast_sub (by omega)]
    exact back

theorem reduce_eq_fmod : (r.reduce x : Int) = Int.fmod x r.size :=
  eq_fmod_of_modEq (r.reduce_lt x) (r.reduce_modEq x)

theorem addWrapping_eq_fmod : (r.addWrapping x y : Int) = Int.fmod (x + y) r.size :=
  eq_fmod_of_modEq (r.addWrapping_lt x y) (r.addWrapping_modEq x y)

theorem subWrapping_eq_fmod : (r.subWrapping x y : Int) = Int.fmod (x - y) r.size :=
  eq_fmod_of_modEq (r.subWrapping_lt x y) (r.subWrapping_modEq x y)

theorem successor_eq_fmod : (r.successor x : Int) = Int.fmod (x + 1) r.size :=
  eq_fmod_of_modEq (r.successor_lt x) (r.successor_modEq x)

theorem predecessor_eq_fmod : (r.predecessor x : Int) = Int.fmod (x - 1) r.size :=
  eq_fmod_of_modEq (r.predecessor_lt x) (r.predecessor_modEq x)

theorem subWrapping_addWrapping : r.subWrapping (r.addWrapping x y) y = r.reduce x :=
  eq_of_modEq (r.subWrapping_lt _ y) (r.reduce_lt x) <|
    calc (r.subWrapping (r.addWrapping x y) y : Int)
        ≡ (r.addWrapping x y : Int) - y [ZMOD r.size] := r.subWrapping_modEq _ y
      _ ≡ x + y - y [ZMOD r.size] := (r.addWrapping_modEq x y).sub_right y
      _ = x := by ring
      _ ≡ r.reduce x [ZMOD r.size] := (r.reduce_modEq x).symm

theorem successor_predecessor : r.successor (r.predecessor x) = r.reduce x :=
  eq_of_modEq (r.successor_lt _) (r.reduce_lt x) <|
    calc (r.successor (r.predecessor x) : Int)
        ≡ (r.predecessor x : Int) + 1 [ZMOD r.size] := r.successor_modEq _
      _ ≡ x - 1 + 1 [ZMOD r.size] := (r.predecessor_modEq x).add_right 1
      _ = x := by ring
      _ ≡ r.reduce x [ZMOD r.size] := (r.reduce_modEq x).symm

theorem predecessor_successor : r.predecessor (r.successor x) = r.reduce x :=
  eq_of_modEq (r.predecessor_lt _) (r.reduce_lt x) <|
    calc (r.predecessor (r.successor x) : Int)
        ≡ (r.successor x : Int) - 1 [ZMOD r.size] := r.predecessor_modEq _
      _ ≡ x + 1 - 1 [ZMOD r.size] := (r.successor_modEq x).sub_right 1
      _ = x := by ring
      _ ≡ r.reduce x [ZMOD r.size] := (r.reduce_modEq x).symm

/-- For every ring and all integers, reduction, addition, subtraction, the successor and the
predecessor are the floor residues of their integer counterparts, so each returns a word; and
subtraction undoes addition, as the successor and the predecessor undo each other. -/
theorem word_operations_are_floor_residues :
    (r.reduce x : Int) = Int.fmod x r.size ∧
    (r.addWrapping x y : Int) = Int.fmod (x + y) r.size ∧
    (r.subWrapping x y : Int) = Int.fmod (x - y) r.size ∧
    (r.successor x : Int) = Int.fmod (x + 1) r.size ∧
    (r.predecessor x : Int) = Int.fmod (x - 1) r.size ∧
    (r.reduce x ≤ r.maxValue ∧ r.addWrapping x y ≤ r.maxValue ∧ r.subWrapping x y ≤ r.maxValue ∧
      r.successor x ≤ r.maxValue ∧ r.predecessor x ≤ r.maxValue) ∧
    r.subWrapping (r.addWrapping x y) y = r.reduce x ∧
    r.successor (r.predecessor x) = r.reduce x ∧
    r.predecessor (r.successor x) = r.reduce x :=
  ⟨r.reduce_eq_fmod x, r.addWrapping_eq_fmod x y, r.subWrapping_eq_fmod x y,
    r.successor_eq_fmod x, r.predecessor_eq_fmod x,
    ⟨r.le_maxValue_of_lt (r.reduce_lt x), r.le_maxValue_of_lt (r.addWrapping_lt x y),
      r.le_maxValue_of_lt (r.subWrapping_lt x y), r.le_maxValue_of_lt (r.successor_lt x),
      r.le_maxValue_of_lt (r.predecessor_lt x)⟩,
    r.subWrapping_addWrapping x y, r.successor_predecessor x, r.predecessor_successor x⟩

end RingMachine.WordRing
