/-!
Words of a machine whose values are `digits` base-`base` numerals, stored in unsigned
cells of a fixed width. The ring is `ℤ / base ^ digits`; every operation first reduces its
arguments, so all of them are total on `Int`.
-/

namespace RingMachine

/-- The widths of unsigned cells that can hold words. -/
inductive CellWidth where
  | w8
  | w16
  | w32
  | w64
  deriving DecidableEq, Repr

namespace CellWidth

def bits : CellWidth → Nat
  | .w8 => 8
  | .w16 => 16
  | .w32 => 32
  | .w64 => 64

def maxValue (w : CellWidth) : Nat := Nat.pow 2 w.bits - 1

def bytes (w : CellWidth) : Nat := w.bits / 8

def name : CellWidth → String
  | .w8 => "uint8"
  | .w16 => "uint16"
  | .w32 => "uint32"
  | .w64 => "uint64"

end CellWidth

inductive ByteOrder where
  | little
  | big
  deriving DecidableEq, Repr

def powLe (b : Nat) : Nat → Nat → Bool
  | 0, limit => 1 ≤ limit
  | n + 1, limit => if b = 0 then true else b ≤ limit && powLe b n (limit / b)

/-- A ring of words: `digits` base-`base` digits, held in cells of width `cell` whose bytes
are stored in `order`. -/
structure WordRing where
  cell : CellWidth
  base : Nat
  digits : Nat
  two_le_base : 2 ≤ base
  one_le_digits : 1 ≤ digits
  fits : Nat.pow base digits ≤ Nat.pow 2 cell.bits
  order : ByteOrder := .little

namespace WordRing

def size (r : WordRing) : Nat := Nat.pow r.base r.digits

def maxValue (r : WordRing) : Nat := r.size - 1

def topWeight (r : WordRing) : Nat := r.size / r.base

theorem size_pos (r : WordRing) : 0 < r.size :=
  Nat.pow_pos (by have := r.two_le_base; omega)

def standard : WordRing where
  cell := .w16
  base := 3
  digits := 10
  two_le_base := by decide
  one_le_digits := by decide
  fits := by decide

instance : DecidableEq WordRing := fun r s =>
  if h : r.cell = s.cell ∧ r.order = s.order ∧ r.base = s.base ∧ r.digits = s.digits then
    isTrue (by
      cases r; cases s
      obtain ⟨h1, h2, h3, h4⟩ := h
      simp only at h1 h2 h3 h4
      subst h1 h2 h3 h4
      rfl)
  else
    isFalse (by
      intro e
      subst e
      exact h ⟨rfl, rfl, rfl, rfl⟩)

def describe (r : WordRing) : String :=
  "Ring(dtype=" ++ r.cell.name ++ ", base=" ++ toString r.base ++ ", digits=" ++
    toString r.digits ++ ")"

def isValid (r : WordRing) (x : Int) : Bool := 0 ≤ x && x ≤ r.maxValue

/-- The residue of `x` modulo the ring size, never negative. -/
def reduce (r : WordRing) (x : Int) : Nat := (x % (r.size : Int)).toNat

def successor (r : WordRing) (x : Int) : Nat := (r.reduce x + 1) % r.size

def predecessor (r : WordRing) (x : Int) : Nat :=
  let v := r.reduce x
  if v = 0 then r.maxValue else v - 1

def addWrapping (r : WordRing) (x y : Int) : Nat := (r.reduce x + r.reduce y) % r.size

def subWrapping (r : WordRing) (x y : Int) : Nat :=
  let v := r.reduce x
  let w := r.reduce y
  if w ≤ v then v - w else v + (r.size - w)

/-- Moves the least significant digit to the most significant place. -/
def rotateRight (r : WordRing) (x : Int) : Nat :=
  let v := r.reduce x
  v / r.base + v % r.base * r.topWeight

def subtractDigits (r : WordRing) (x y place acc : Nat) : Nat :=
  if x = 0 ∧ y = 0 then acc
  else r.subtractDigits (x / r.base) (y / r.base) (place * r.base)
    (acc + (r.base + x % r.base - y % r.base) % r.base * place)
termination_by x + y
decreasing_by
  -- The operand that still has a digit loses it, and the other one does not grow.
  have two := r.two_le_base
  have lowX := Nat.div_le_self x r.base
  have lowY := Nat.div_le_self y r.base
  by_cases zero : x = 0
  · have := Nat.div_lt_self (show 0 < y by omega) (show 1 < r.base by omega)
    omega
  · have := Nat.div_lt_self (show 0 < x by omega) (show 1 < r.base by omega)
    omega

/-- Subtracts digit by digit without borrow; each digit wraps modulo the base. -/
def digitSubtract (r : WordRing) (x y : Int) : Nat :=
  let x := r.reduce x
  let y := r.reduce y
  if x = 0 ∧ y = 0 then 0 else r.subtractDigits x y 1 0

theorem maxValue_add_one (r : WordRing) : r.maxValue + 1 = r.size := by
  have := r.size_pos
  unfold maxValue
  omega

theorem reduce_lt (r : WordRing) (x : Int) : r.reduce x < r.size := by
  have pos : (0 : Int) < r.size := by exact_mod_cast r.size_pos
  have lo := Int.emod_nonneg x (Int.ne_of_gt pos)
  have hi := Int.emod_lt_of_pos x pos
  unfold reduce
  omega

theorem reduce_eq (r : WordRing) (x : Int) : (r.reduce x : Int) = x % r.size := by
  have pos : (0 : Int) < r.size := by exact_mod_cast r.size_pos
  have lo := Int.emod_nonneg x (Int.ne_of_gt pos)
  unfold reduce
  omega

theorem isValid_iff (r : WordRing) (x : Int) : r.isValid x = true ↔ 0 ≤ x ∧ x < r.size := by
  have := r.maxValue_add_one
  simp only [isValid, Bool.and_eq_true, decide_eq_true_eq]
  omega

theorem successor_lt (r : WordRing) (x : Int) : r.successor x < r.size :=
  Nat.mod_lt _ r.size_pos

theorem addWrapping_lt (r : WordRing) (x y : Int) : r.addWrapping x y < r.size :=
  Nat.mod_lt _ r.size_pos

theorem predecessor_lt (r : WordRing) (x : Int) : r.predecessor x < r.size := by
  have := r.reduce_lt x
  have := r.maxValue_add_one
  simp only [predecessor]
  split <;> omega

theorem subWrapping_lt (r : WordRing) (x y : Int) : r.subWrapping x y < r.size := by
  have := r.reduce_lt x
  have := r.reduce_lt y
  simp only [subWrapping]
  split <;> omega

end WordRing

end RingMachine

namespace RingMachine

theorem powLe_iff (b n limit : Nat) : powLe b n limit = true ↔ Nat.pow b n ≤ limit := by
  rw [Nat.pow_eq]
  induction n generalizing limit with
  | zero => simp [powLe]
  | succ n ih =>
    by_cases hb : b = 0
    · subst hb
      simp [powLe]
    · have pos : 0 < b := Nat.pos_of_ne_zero hb
      have one : 1 ≤ b ^ n := Nat.pow_pos pos
      simp only [powLe, hb, if_false, Bool.and_eq_true, decide_eq_true_eq, ih,
        Nat.le_div_iff_mul_le pos, Nat.pow_succ]
      constructor
      · exact fun h => h.2
      · intro h
        refine ⟨?_, h⟩
        calc b = 1 * b := (Nat.one_mul b).symm
          _ ≤ b ^ n * b := Nat.mul_le_mul_right b one
          _ ≤ limit := h

end RingMachine
