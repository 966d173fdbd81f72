import RingMachine.Ring.Basic
import Mathlib

/-!
Words as numerals. The `i`-th digit of a word is its `i`-th base-`base` digit, as `Nat.digits`
gives it. Digit-wise subtraction subtracts every one of the ring's digits modulo the base, with
no borrow, although its loop stops as soon as both operands have run out of digits; so it
undoes itself in its second argument. Rotation moves the least significant digit to the top:
it permutes the words, and its order is exactly the number of digits.
-/

open Finset

namespace RingMachine

namespace WordRing

variable (r : WordRing)

/-- The `i`-th base-`base` digit of `v`, counted from the least significant. -/
def digit (i v : Nat) : Nat := (Nat.digits r.base v).getD i 0

theorem digit_eq (i v : Nat) : r.digit i v = v / r.base ^ i % r.base :=
  Nat.getD_digits v i r.two_le_base

@[simp] theorem digit_zero (v : Nat) : r.digit 0 v = v % r.base := by
  simp [digit_eq]

theorem digit_succ (i v : Nat) : r.digit (i + 1) v = r.digit i (v / r.base) := by
  rw [digit_eq, digit_eq, Nat.div_div_eq_div_mul, pow_succ']

theorem base_pos : 0 < r.base := by
  have := r.two_le_base
  omega

theorem size_eq_pow : r.size = r.base ^ r.digits := Nat.pow_eq

theorem div_base_lt {n v : Nat} (small : v < r.base ^ (n + 1)) : v / r.base < r.base ^ n :=
  Nat.div_lt_of_lt_mul (by rwa [← pow_succ'])

theorem reduce_natCast (i : Nat) (word : i < r.size) : r.reduce i = i := by
  have := r.reduce_eq i
  rw [Int.emod_eq_of_lt (by omega) (by omega)] at this
  omega

theorem sum_digits {n v : Nat} (small : v < r.base ^ n) :
    ∑ i ∈ range n, r.digit i v * r.base ^ i = v := by
  induction n generalizing v with
  | zero => simp_all
  | succ n ih =>
    have high : v / r.base < r.base ^ n := r.div_base_lt small
    -- The digits above the lowest are those of `v / base`, one place higher.
    have shifted : ∑ i ∈ range n, r.digit (i + 1) v * r.base ^ (i + 1) =
        r.base * (v / r.base) := by
      rw [← ih high, mul_sum]
      refine sum_congr rfl fun i _ => ?_
      rw [digit_succ, pow_succ]
      ring
    rw [sum_range_succ', shifted, digit_zero, pow_zero, mul_one]
    exact Nat.div_add_mod v r.base

section Subtraction

theorem sub_mod_base {b u v : Nat} (hu : u < b) (hv : v < b) :
    (b + u - v) % b = if v ≤ u then u - v else b + u - v := by
  split
  · rw [show b + u - v = u - v + b by omega, Nat.add_mod_right, Nat.mod_eq_of_lt (by omega)]
  · exact Nat.mod_eq_of_lt (by omega)

theorem sub_mod_base_cast {b u v : Nat} (hv : v < b) :
    (((b + u - v) % b : ℕ) : ℤ) = ((u : ℤ) - v) % b := by
  push_cast [Nat.cast_sub (show v ≤ b + u by omega)]
  rw [show (b : ℤ) + u - v = (u - v) + b by ring, ← Int.emod_eq_add_self_emod]

/-- Digit-wise difference of the `n` low base-`b` digits, each digit taken modulo `b`. -/
def subDigits (b : Nat) : Nat → Nat → Nat → Nat
  | 0, _, _ => 0
  | n + 1, x, y => (b + x % b - y % b) % b + b * subDigits b n (x / b) (y / b)

theorem subDigits_lt {b : Nat} (positive : 0 < b) (n x y : Nat) : subDigits b n x y < b ^ n := by
  induction n generalizing x y with
  | zero => simp [subDigits]
  | succ n ih =>
    have digit : (b + x % b - y % b) % b < b := Nat.mod_lt _ positive
    have rest := ih (x / b) (y / b)
    calc (b + x % b - y % b) % b + b * subDigits b n (x / b) (y / b)
        < b + b * subDigits b n (x / b) (y / b) := by omega
      _ = b * (subDigits b n (x / b) (y / b) + 1) := by rw [Nat.mul_succ, Nat.add_comm]
      _ ≤ b * b ^ n := Nat.mul_le_mul_left b rest
      _ = b ^ (n + 1) := by rw [Nat.pow_succ, Nat.mul_comm]

@[simp] theorem subDigits_zero_zero (b n : Nat) : subDigits b n 0 0 = 0 := by
  induction n with
  | zero => rfl
  | succ n ih => simp [subDigits, ih]

theorem subtractDigits_eq (x y place acc : Nat) :
    ∀ n, x < r.base ^ n → y < r.base ^ n →
      r.subtractDigits x y place acc = acc + place * subDigits r.base n x y := by
  fun_induction r.subtractDigits x y place acc with
  | case1 x y place acc done =>
    intro n _ _
    obtain ⟨rfl, rfl⟩ := done
    simp
  | case2 x y place acc going ih =>
    intro n coverX coverY
    cases n with
    | zero =>
      -- A count of no digits covers only zero, and one operand still has a digit.
      simp only [pow_zero, Nat.lt_one_iff] at coverX coverY
      exact absurd ⟨coverX, coverY⟩ going
    | succ n =>
      rw [ih n (r.div_base_lt coverX) (r.div_base_lt coverY), subDigits]
      ring

theorem digitSubtract_eq_subDigits (x y : Int) :
    r.digitSubtract x y = subDigits r.base r.digits (r.reduce x) (r.reduce y) := by
  have coverX : r.reduce x < r.base ^ r.digits := r.size_eq_pow ▸ r.reduce_lt x
  have coverY : r.reduce y < r.base ^ r.digits := r.size_eq_pow ▸ r.reduce_lt y
  simp only [digitSubtract]
  split
  · rename_i both
    rw [both.1, both.2, subDigits_zero_zero]
  · rw [r.subtractDigits_eq _ _ 1 0 r.digits coverX coverY]
    simp

theorem digitSubtract_lt (x y : Int) : r.digitSubtract x y < r.size := by
  rw [digitSubtract_eq_subDigits, size_eq_pow]
  exact subDigits_lt r.base_pos _ _ _

theorem subDigits_eq_sum (n x y : Nat) :
    (subDigits r.base n x y : ℤ) =
      ∑ i ∈ range n, ((r.digit i x : ℤ) - r.digit i y) % r.base * (r.base : ℤ) ^ i := by
  induction n generalizing x y with
  | zero => simp [subDigits]
  | succ n ih =>
    have shifted : ∑ i ∈ range n,
        ((r.digit (i + 1) x : ℤ) - r.digit (i + 1) y) % r.base * (r.base : ℤ) ^ (i + 1) =
          r.base * (subDigits r.base n (x / r.base) (y / r.base) : ℤ) := by
      rw [ih, mul_sum]
      refine sum_congr rfl fun i _ => ?_
      rw [digit_succ, digit_succ, pow_succ]
      ring
    have low : (((r.base + x % r.base - y % r.base) % r.base : ℕ) : ℤ) =
        ((r.digit 0 x : ℤ) - r.digit 0 y) % r.base := by
      rw [digit_zero, digit_zero]
      exact sub_mod_base_cast (Nat.mod_lt _ r.base_pos)
    rw [sum_range_succ', shifted, subDigits]
    push_cast [low]
    ring

theorem subDigits_self (b n x : Nat) : subDigits b n x x = 0 := by
  induction n generalizing x with
  | zero => rfl
  | succ n ih => simp [subDigits, ih]

theorem subDigits_zero_right (b n x : Nat) :
    subDigits b n x 0 = x % b ^ n := by
  induction n generalizing x with
  | zero => simp [subDigits, Nat.mod_one]
  | succ n ih =>
    have low : (b + x % b - 0 % b) % b = x % b := by
      rw [Nat.zero_mod, Nat.sub_zero, Nat.add_mod_left, Nat.mod_mod]
    rw [subDigits, low, Nat.zero_div, ih, pow_succ', Nat.mod_mul]

theorem subDigits_subDigits {b : Nat} (positive : 0 < b) (n x y : Nat) :
    subDigits b n x (subDigits b n x y) = y % b ^ n := by
  induction n generalizing x y with
  | zero => simp [subDigits, Nat.mod_one]
  | succ n ih =>
    -- The difference splits into its low digit and the difference of the higher digits.
    set e := (b + x % b - y % b) % b with he
    have eLow : e < b := Nat.mod_lt _ positive
    have diffMod : subDigits b (n + 1) x y % b = e := by
      rw [subDigits, Nat.add_mul_mod_self_left, Nat.mod_eq_of_lt eLow]
    have diffDiv : subDigits b (n + 1) x y / b = subDigits b n (x / b) (y / b) := by
      rw [subDigits, Nat.add_mul_div_left _ _ positive, Nat.div_eq_of_lt eLow, Nat.zero_add]
    -- Digit by digit, subtracting the difference from `x` gives back `y`'s digit.
    have digitBack : (b + x % b - e) % b = y % b := by
      have hx := Nat.mod_lt x positive
      have hy := Nat.mod_lt y positive
      rw [he, sub_mod_base hx hy]
      split
      · rw [sub_mod_base hx (by omega), if_pos (by omega)]
        omega
      · rw [sub_mod_base hx (by omega), if_neg (by omega)]
        omega
    conv_lhs => rw [subDigits]
    rw [diffMod, diffDiv, digitBack, ih, pow_succ', Nat.mod_mul]

/-- Digit-wise subtraction is, digit by digit, subtraction modulo the base over exactly the
ring's digits, so it stays a word. Subtracting a word from itself gives zero, subtracting zero
reduces, and subtracting twice from the same word gives back the reduced subtrahend. -/
theorem digitSubtract_digitwise (x y : Int) :
    (r.digitSubtract x y : ℤ) = ∑ i ∈ range r.digits,
        ((r.digit i (r.reduce x) : ℤ) - r.digit i (r.reduce y)) % r.base * (r.base : ℤ) ^ i ∧
      r.digitSubtract x y ≤ r.maxValue ∧
      r.digitSubtract x x = 0 ∧
      r.digitSubtract x 0 = r.reduce x ∧
      r.digitSubtract x (r.digitSubtract x y) = r.reduce y := by
  have word : ∀ v : Int, r.reduce v % r.base ^ r.digits = r.reduce v := fun v =>
    Nat.mod_eq_of_lt (r.size_eq_pow ▸ r.reduce_lt v)
  have below := r.digitSubtract_lt x y
  have fits := r.maxValue_add_one
  refine ⟨?_, by omega, ?_, ?_, ?_⟩
  · rw [digitSubtract_eq_subDigits, subDigits_eq_sum]
  · rw [digitSubtract_eq_subDigits, subDigits_self]
  · have zero : r.reduce 0 = 0 := r.reduce_natCast 0 r.size_pos
    rw [digitSubtract_eq_subDigits, zero, subDigits_zero_right, word]
  · -- The inner difference is already a word, so the outer call does not reduce it again.
    have inner : r.reduce (r.digitSubtract x y : ℤ) = r.digitSubtract x y :=
      r.reduce_natCast _ below
    rw [r.digitSubtract_eq_subDigits x _, inner, digitSubtract_eq_subDigits,
      subDigits_subDigits r.base_pos, word]

end Subtraction

section Rotation

theorem topWeight_eq : r.topWeight = r.base ^ (r.digits - 1) := by
  obtain ⟨n, grown⟩ := Nat.exists_eq_add_of_le' r.one_le_digits
  rw [topWeight, size_eq_pow, grown, Nat.add_sub_cancel, pow_succ',
    Nat.mul_div_cancel_left _ r.base_pos]

theorem size_eq_base_mul_topWeight : r.size = r.base * r.topWeight := by
  rw [topWeight_eq, ← pow_succ', Nat.sub_add_cancel r.one_le_digits, size_eq_pow]

theorem reduce_div_base_lt (x : Int) : r.reduce x / r.base < r.topWeight := by
  rw [topWeight_eq]
  apply r.div_base_lt
  rw [Nat.sub_add_cancel r.one_le_digits, ← size_eq_pow]
  exact r.reduce_lt x

theorem rotateRight_lt (x : Int) : r.rotateRight x < r.size := by
  have split := r.size_eq_base_mul_topWeight
  have high := r.reduce_div_base_lt x
  have low : r.reduce x % r.base < r.base := Nat.mod_lt _ r.base_pos
  show r.reduce x / r.base + r.reduce x % r.base * r.topWeight < r.size
  calc r.reduce x / r.base + r.reduce x % r.base * r.topWeight
      < r.topWeight + r.reduce x % r.base * r.topWeight := by omega
    _ = (r.reduce x % r.base + 1) * r.topWeight := by rw [Nat.succ_mul, Nat.add_comm]
    _ ≤ r.base * r.topWeight := Nat.mul_le_mul_right _ low
    _ = r.size := split.symm

theorem rotateRight_eq_digits (x : Int) :
    r.rotateRight x = r.digit 0 (r.reduce x) * r.base ^ (r.digits - 1) +
      ∑ i ∈ Ico 1 r.digits, r.digit i (r.reduce x) * r.base ^ (i - 1) := by
  have high : r.reduce x / r.base < r.base ^ (r.digits - 1) :=
    r.topWeight_eq ▸ r.reduce_div_base_lt x
  have upper : ∑ i ∈ Ico 1 r.digits, r.digit i (r.reduce x) * r.base ^ (i - 1) =
      r.reduce x / r.base := by
    rw [sum_Ico_eq_sum_range, ← r.sum_digits high]
    refine sum_congr rfl fun i _ => ?_
    rw [Nat.add_comm 1 i, digit_succ, Nat.add_sub_cancel]
  rw [upper, digit_zero, ← topWeight_eq]
  show r.reduce x / r.base + r.reduce x % r.base * r.topWeight = _
  ring

def rotateWord (v : ℕ) : ℕ := r.rotateRight v

theorem rotateWord_of_lt {v : Nat} (word : v < r.size) :
    r.rotateWord v = v / r.base + v % r.base * r.base ^ (r.digits - 1) := by
  show r.reduce v / r.base + r.reduce v % r.base * r.topWeight = _
  rw [reduce_natCast _ _ word, topWeight_eq]

theorem iterate_rotateWord_lt (k : Nat) {v : Nat} (word : v < r.size) :
    r.rotateWord^[k] v < r.size := by
  induction k with
  | zero => exact word
  | succ k _ =>
    rw [Function.iterate_succ_apply']
    exact r.rotateRight_lt _

theorem iterate_rotateWord {k v : Nat} (hk : k ≤ r.digits) (word : v < r.size) :
    r.rotateWord^[k] v = v / r.base ^ k + v % r.base ^ k * r.base ^ (r.digits - k) := by
  induction k with
  | zero => simp [Nat.mod_one]
  | succ k ih =>
    have stays := r.iterate_rotateWord_lt k word
    rw [Function.iterate_succ_apply', ih (by omega)] at *
    rw [rotateWord_of_lt r stays]
    -- Below the place `k` the digits are `v`'s low ones, shifted up by the rest of the word.
    obtain ⟨m, gap⟩ : ∃ m, r.digits - k = m + 1 := ⟨r.digits - k - 1, by omega⟩
    have rest : r.digits - (k + 1) = m := by omega
    have top : r.digits - 1 = k + m := by omega
    have lowDigit : (v / r.base ^ k + v % r.base ^ k * r.base ^ (m + 1)) % r.base =
        v / r.base ^ k % r.base := by
      rw [pow_succ, ← Nat.mul_assoc, Nat.add_mul_mod_self_right]
    have highDigits : (v / r.base ^ k + v % r.base ^ k * r.base ^ (m + 1)) / r.base =
        v / r.base ^ k / r.base + v % r.base ^ k * r.base ^ m := by
      rw [pow_succ, ← Nat.mul_assoc, Nat.add_mul_div_right _ _ r.base_pos]
    have divStep : v / r.base ^ k / r.base = v / r.base ^ (k + 1) := by
      rw [Nat.div_div_eq_div_mul, pow_succ]
    have modStep : v % r.base ^ (k + 1) = v % r.base ^ k + r.base ^ k * (v / r.base ^ k % r.base) :=
      Nat.mod_pow_succ
    rw [gap, lowDigit, highDigits, divStep, rest, top, modStep, pow_add]
    ring

theorem iterate_rotateWord_digits {v : Nat} (word : v < r.size) :
    r.rotateWord^[r.digits] v = v := by
  have below : v < r.base ^ r.digits := r.size_eq_pow ▸ word
  rw [r.iterate_rotateWord le_rfl word, Nat.sub_self, pow_zero, Nat.mul_one,
    Nat.div_eq_of_lt below, Nat.mod_eq_of_lt below, Nat.zero_add]

theorem one_lt_size : 1 < r.size := by
  rw [size_eq_pow]
  exact Nat.one_lt_pow (by have := r.one_le_digits; omega) (by have := r.two_le_base; omega)

theorem iterate_rotateWord_one {k : Nat} (pos : 0 < k) (lt : k < r.digits) :
    r.rotateWord^[k] 1 ≠ 1 := by
  have two := r.two_le_base
  have below : 1 < r.base ^ k := Nat.one_lt_pow (by omega) (by omega)
  have above : 1 < r.base ^ (r.digits - k) := Nat.one_lt_pow (by omega) (by omega)
  rw [r.iterate_rotateWord lt.le r.one_lt_size, Nat.div_eq_of_lt below, Nat.mod_eq_of_lt below,
    Nat.zero_add, Nat.one_mul]
  omega

theorem rotateWord_iterate_pred {v : Nat} (word : v < r.size) :
    r.rotateWord^[r.digits - 1] (r.rotateWord v) = v ∧
      r.rotateWord (r.rotateWord^[r.digits - 1] v) = v := by
  obtain ⟨n, grown⟩ := Nat.exists_eq_add_of_le' r.one_le_digits
  have whole := r.iterate_rotateWord_digits word
  rw [grown, Nat.add_sub_cancel]
  rw [grown] at whole
  exact ⟨(Function.iterate_succ_apply _ n v).symm.trans whole,
    (Function.iterate_succ_apply' _ n v).symm.trans whole⟩

/-- Rotation as a permutation of the words; rotating back is rotating `digits - 1` more
times. -/
def rotation : Equiv.Perm (Fin r.size) where
  toFun v := ⟨r.rotateRight v, r.rotateRight_lt v⟩
  invFun v := ⟨r.rotateWord^[r.digits - 1] v, r.iterate_rotateWord_lt _ v.isLt⟩
  left_inv v := Fin.ext (r.rotateWord_iterate_pred v.isLt).1
  right_inv v := Fin.ext (r.rotateWord_iterate_pred v.isLt).2

theorem rotation_pow_apply (k : Nat) (v : Fin r.size) :
    ((r.rotation ^ k) v : ℕ) = r.rotateWord^[k] v := by
  induction k with
  | zero => rfl
  | succ k ih =>
    rw [pow_succ', Equiv.Perm.mul_apply, Function.iterate_succ_apply', ← ih]
    rfl

theorem orderOf_rotation : orderOf r.rotation = r.digits := by
  rw [orderOf_eq_iff r.one_le_digits]
  constructor
  · ext v
    rw [rotation_pow_apply, iterate_rotateWord_digits r v.isLt]
    rfl
  · intro k lt pos same
    -- A power below the digit count already moves the word `1`.
    have moved := congrArg (fun p : Equiv.Perm (Fin r.size) => (p ⟨1, r.one_lt_size⟩ : ℕ)) same
    simp only [rotation_pow_apply, Equiv.Perm.one_apply] at moved
    exact r.iterate_rotateWord_one pos lt moved

/-- Rotation moves the least significant digit to the top and shifts the others down one
place, so it returns a word. On the words it is a permutation that `digits` rotations undo
while fewer move the word `1`: its order is exactly the number of digits. -/
theorem rotateRight_rotates_digits :
    (∀ x : Int, r.rotateRight x = r.digit 0 (r.reduce x) * r.base ^ (r.digits - 1) +
        ∑ i ∈ Ico 1 r.digits, r.digit i (r.reduce x) * r.base ^ (i - 1)) ∧
      (∀ x : Int, r.rotateRight x ≤ r.maxValue) ∧
      (∀ v : Fin r.size, (r.rotation v : ℕ) = r.rotateRight v) ∧
      (∀ v < r.size, r.rotateWord^[r.digits] v = v) ∧
      (∀ k, 0 < k → k < r.digits → r.rotateWord^[k] 1 ≠ 1) ∧
      orderOf r.rotation = r.digits := by
  have fits := r.maxValue_add_one
  refine ⟨r.rotateRight_eq_digits, fun x => ?_, fun _ => rfl, fun v word => ?_,
    fun k pos lt => r.iterate_rotateWord_one pos lt, r.orderOf_rotation⟩
  · have := r.rotateRight_lt x
    omega
  · exact r.iterate_rotateWord_digits word

end Rotation

end WordRing

end RingMachine
