import RingMachine.Ring.Operation
import RingMachine.Proofs.Bounds
import RingMachine.Proofs.Digits

/-!
Building a word ring from a request. The checks run in a fixed order: the cell type resolves,
and to an unsigned integer type; base and digit count are integers, which truth values are
not; the base is at least 2 and the digit count at least 1; and the largest word
`base ^ digits - 1` fits the cell, a ring that fills its cell exactly included. A request that
passes them all gives the ring of those numbers; one that fails is refused for the first check
it fails. Every failed construction is meant to be a configuration error, and the unknown-type
check wraps the type reader's failures as one; but it wraps only the reader's type errors, so a
description the reader rejects with a value error, such as a record map whose entry is not a
pair, escapes as that error instead.
-/

namespace RingMachine

def CellType.isUnsigned : CellType → Bool
  | .unsigned _ _ => true
  | _ => false

theorem Literal.asInteger?_eq_none {v : Literal} :
    v.asInteger? = Option.none ↔ ∀ k : Int, v ≠ .int k := by
  cases v <;> simp [Literal.asInteger?]

theorem CellType.resolve_text {s : String} (clean : Text.encodeFailure? s false = none) :
    CellType.resolve (.text s) = CellType.ofText false (s.length + 1) s := by
  -- The fuel is left unevaluated: only its successor form matters.
  show CellType.ofLiteral (_ + 1) false (.text s) = _
  rw [CellType.ofLiteral.eq_3, clean]

namespace WordRing

/-- A request that passes every check: its type resolves to unsigned cells of width `w` stored
in `order`, its base `b` and digit count `n` are integers with `b ≥ 2` and `n ≥ 1`, and its
largest word `b ^ n - 1` is at most the largest value of the cell. -/
structure Admits (cellType base digits : Literal) (w : CellWidth) (order : ByteOrder)
    (b n : Nat) : Prop where
  resolves : CellType.resolve cellType = .ok (.unsigned w order)
  base_eq : base = .int b
  digits_eq : digits = .int n
  two_le_base : 2 ≤ b
  one_le_digits : 1 ≤ n
  fits : b ^ n - 1 ≤ w.maxValue

/-- Why a request is refused: the first check it fails, with every earlier check passed. -/
inductive Refused (cellType base digits : Literal) : ConfigError → Prop
  | unknownType : CellType.resolve cellType = .error .notUnderstood →
      Refused cellType base digits (.unknownCellType cellType)
  | unreadable {c : Crash} : CellType.resolve cellType = .error (.crash c) →
      Refused cellType base digits (.failed c)
  | notUnsigned {t : CellType} : CellType.resolve cellType = .ok t → t.isUnsigned = false →
      Refused cellType base digits (.notUnsigned t.name)
  | baseNotInteger {w : CellWidth} {o : ByteOrder} :
      CellType.resolve cellType = .ok (.unsigned w o) → (∀ k : Int, base ≠ .int k) →
      Refused cellType base digits (.notInteger "base" base)
  | digitsNotInteger {w : CellWidth} {o : ByteOrder} {b : Int} :
      CellType.resolve cellType = .ok (.unsigned w o) → base = .int b →
      (∀ k : Int, digits ≠ .int k) → Refused cellType base digits (.notInteger "digits" digits)
  | baseTooSmall {w : CellWidth} {o : ByteOrder} {b n : Int} :
      CellType.resolve cellType = .ok (.unsigned w o) → base = .int b → digits = .int n →
      b < 2 → Refused cellType base digits (.baseTooSmall b)
  | digitsTooSmall {w : CellWidth} {o : ByteOrder} {b n : Int} :
      CellType.resolve cellType = .ok (.unsigned w o) → base = .int b → digits = .int n →
      2 ≤ b → n < 1 → Refused cellType base digits (.digitsTooSmall n)
  | overflow {w : CellWidth} {o : ByteOrder} {b n : Int} :
      CellType.resolve cellType = .ok (.unsigned w o) → base = .int b → digits = .int n →
      2 ≤ b → 1 ≤ n → w.maxValue < b.toNat ^ n.toNat - 1 →
      Refused cellType base digits (.overflow b.toNat n.toNat w)

section Numbers

variable {w : CellWidth} {o : ByteOrder} {b n : Int}

theorem powLe_iff_maxValue {b n : Nat} (pos : 0 < b) :
    powLe b n (Nat.pow 2 w.bits) = true ↔ b ^ n - 1 ≤ w.maxValue := by
  have some : 0 < b ^ n := Nat.pow_pos pos
  have room : 0 < 2 ^ w.bits := Nat.two_pow_pos w.bits
  rw [powLe_iff, CellWidth.maxValue, Nat.pow_eq, Nat.pow_eq]
  omega

theorem ofNumbers_baseTooSmall (small : b < 2) : ofNumbers w o b n = .error (.baseTooSmall b) := by
  simp [ofNumbers, small]

theorem ofNumbers_digitsTooSmall (two : 2 ≤ b) (noDigit : n < 1) :
    ofNumbers w o b n = .error (.digitsTooSmall n) := by
  simp [ofNumbers, noDigit, Int.not_lt.mpr two]

theorem ofNumbers_overflow (two : 2 ≤ b) (one : 1 ≤ n)
    (overflows : w.maxValue < b.toNat ^ n.toNat - 1) :
    ofNumbers w o b n = .error (.overflow b.toNat n.toNat w) := by
  have refused : powLe b.toNat n.toNat (Nat.pow 2 w.bits) = false := by
    rw [Bool.eq_false_iff, ne_eq, powLe_iff_maxValue (by omega)]
    omega
  rw [Nat.pow_eq] at refused
  simp [ofNumbers, Int.not_lt.mpr two, Int.not_lt.mpr one, refused]

end Numbers

section Build

variable {cellType base digits : Literal} {w : CellWidth} {o : ByteOrder}

theorem build_of_notUnderstood (unknown : CellType.resolve cellType = .error .notUnderstood) :
    build cellType base digits = .error (.unknownCellType cellType) := by
  simp [build, unknown]

theorem build_of_crash {c : Crash} (unreadable : CellType.resolve cellType = .error (.crash c)) :
    build cellType base digits = .error (.failed c) := by
  simp [build, unreadable]

theorem build_of_other {t : CellType} (resolved : CellType.resolve cellType = .ok t)
    (other : t.isUnsigned = false) : build cellType base digits = .error (.notUnsigned t.name) := by
  cases t <;> simp_all [build, CellType.isUnsigned]

theorem build_of_baseNotInteger (resolved : CellType.resolve cellType = .ok (.unsigned w o))
    (noBase : ∀ k : Int, base ≠ .int k) :
    build cellType base digits = .error (.notInteger "base" base) := by
  simp [build, resolved, Literal.asInteger?_eq_none.mpr noBase]

theorem build_of_digitsNotInteger {b : Int}
    (resolved : CellType.resolve cellType = .ok (.unsigned w o)) (isBase : base = .int b)
    (noDigits : ∀ k : Int, digits ≠ .int k) :
    build cellType base digits = .error (.notInteger "digits" digits) := by
  have noInteger := Literal.asInteger?_eq_none.mpr noDigits
  rw [build, resolved, isBase, noInteger]
  rfl

theorem build_of_integers {b n : Int} (resolved : CellType.resolve cellType = .ok (.unsigned w o))
    (isBase : base = .int b) (isDigits : digits = .int n) :
    build cellType base digits = ofNumbers w o b n := by
  simp [build, resolved, isBase, isDigits, Literal.asInteger?]

theorem Refused.build {e : ConfigError} (refused : Refused cellType base digits e) :
    build cellType base digits = .error e := by
  cases refused with
  | unknownType unknown => exact build_of_notUnderstood unknown
  | unreadable unreadable => exact build_of_crash unreadable
  | notUnsigned resolved other => exact build_of_other resolved other
  | baseNotInteger resolved noBase => exact build_of_baseNotInteger resolved noBase
  | digitsNotInteger resolved isBase noDigits =>
    exact build_of_digitsNotInteger resolved isBase noDigits
  | baseTooSmall resolved isBase isDigits small =>
    rw [build_of_integers resolved isBase isDigits, ofNumbers_baseTooSmall small]
  | digitsTooSmall resolved isBase isDigits two noDigit =>
    rw [build_of_integers resolved isBase isDigits, ofNumbers_digitsTooSmall two noDigit]
  | overflow resolved isBase isDigits two one overflows =>
    rw [build_of_integers resolved isBase isDigits, ofNumbers_overflow two one overflows]

theorem Admits.build {b n : Nat} (admits : Admits cellType base digits w o b n) :
    ∃ r, build cellType base digits = .ok r ∧
      r.cell = w ∧ r.order = o ∧ r.base = b ∧ r.digits = n := by
  have two := admits.two_le_base
  have one := admits.one_le_digits
  have fits : powLe b n (Nat.pow 2 w.bits) = true :=
    (powLe_iff_maxValue (by omega)).mpr admits.fits
  refine ⟨⟨w, b, n, two, one, (powLe_iff _ _ _).mp fits, o⟩, ?_, rfl, rfl, rfl, rfl⟩
  rw [build_of_integers admits.resolves admits.base_eq admits.digits_eq]
  have notSmall : ¬ (b : Int) < 2 := by omega
  have notNone : ¬ (n : Int) < 1 := by omega
  rw [Nat.pow_eq] at fits
  simp [ofNumbers, notSmall, notNone, fits]

end Build

example : (build (.text "uint64") (.int 2) (.int 64)).toOption.map maxValue =
    some 18446744073709551615 := by
  rw [build_of_integers (CellType.resolve_text rfl) rfl rfl]
  rfl

end WordRing

end RingMachine
