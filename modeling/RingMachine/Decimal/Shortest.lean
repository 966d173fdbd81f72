

/-!
Doubles as exact binary values, and the shortest decimal that reads back as a double.

## Exact values

The exact value of a double. A finite double is `±mantissa · 2 ^ exponent`; decoding its
bits gives that pair, and from it exact truncation toward zero, the exact ceiling and exact
comparison with an integer, with no rounding anywhere.
-/

namespace RingMachine.Decimal

/-- The exact value of a double. -/
inductive Binary where
  | finite (negative : Bool) (mantissa : Nat) (exponent : Int)
  | infinite (negative : Bool)
  | nan
  deriving DecidableEq, Repr

namespace Binary

def ofBits (bits : UInt64) : Binary :=
  let n := bits.toNat
  let negative := n / Nat.pow 2 63 % 2 = 1
  let e : Nat := n / Nat.pow 2 52 % Nat.pow 2 11
  let f : Nat := n % Nat.pow 2 52
  if e = 2047 then
    if f = 0 then .infinite negative else .nan
  else if e = 0 then .finite negative f (-1074)
  else .finite negative (f + Nat.pow 2 52) ((e : Int) - 1075)

def ofFloat (x : Float) : Binary := ofBits x.toBits

def scaleTrunc (m : Nat) (e : Int) : Nat :=
  if 0 ≤ e then m * Nat.pow 2 e.toNat else m / Nat.pow 2 (-e).toNat

def truncate : Binary → Option Int
  | .finite negative m e =>
    let t : Int := scaleTrunc m e
    some (if negative then -t else t)
  | _ => none

def withinNat (bound : Nat) : Binary → Bool
  | .finite negative m e =>
    if negative then m = 0
    else if 0 ≤ e then m * Nat.pow 2 e.toNat ≤ bound
    else m ≤ bound * Nat.pow 2 (-e).toNat
  | _ => false

def ceiling : Binary → Option Int
  | .finite negative m e =>
    if 0 ≤ e then
      let t : Int := m * Int.pow 2 e.toNat
      some (if negative then -t else t)
    else
      let d := Nat.pow 2 (-e).toNat
      if negative then some (-((m / d : Nat) : Int)) else some (((m + d - 1) / d : Nat) : Int)
  | _ => none

def compareInt (b : Binary) (k : Int) : Option Ordering :=
  match b with
  | .finite negative m e =>
    let v : Int := if negative then -(m : Int) else m
    if 0 ≤ e then some (compare (v * Int.pow 2 e.toNat) k)
    else some (compare v (k * Int.pow 2 (-e).toNat))
  | .infinite negative => some (if negative then .lt else .gt)
  | .nan => none

end Binary

end RingMachine.Decimal

/-!
## Shortest decimals

The shortest decimal that reads back as a given double. The reals that round to
`m · 2 ^ q` form an interval around it, with both ends included when `m` is even. For one,
two, … seventeen significant digits the search looks at the two neighbours of the value on
that decimal grid: the first grid with a neighbour inside the interval wins, of two such the
nearer, and an exact tie goes to the even one.
-/

namespace RingMachine.Decimal

/-- The interval of reals that round to a positive double, as numerators over `den`. -/
structure RoundingInterval where
  low : Nat
  mid : Nat
  high : Nat
  den : Nat
  closed : Bool

def RoundingInterval.ofBinary (m : Nat) (q : Int) : RoundingInterval :=
  let lowGap := if m = Nat.pow 2 52 ∧ q > -1074 then 1 else 2
  let lo := 4 * m - lowGap
  let mi := 4 * m
  let hi := 4 * m + 2
  if 2 ≤ q then
    let s := Nat.pow 2 (q - 2).toNat
    ⟨lo * s, mi * s, hi * s, 1, m % 2 = 0⟩
  else ⟨lo, mi, hi, Nat.pow 2 (2 - q).toNat, m % 2 = 0⟩

def compareScaled (den t : Nat) (p : Int) (x : Nat) : Ordering :=
  if 0 ≤ p then compare (t * Nat.pow 10 p.toNat * den) x
  else compare (t * den) (x * Nat.pow 10 (-p).toNat)

def RoundingInterval.admits (i : RoundingInterval) (t : Nat) (p : Int) : Bool :=
  let above := compareScaled i.den t p i.low
  let below := compareScaled i.den t p i.high
  if i.closed then above != .lt && below != .gt
  else above == .gt && below == .lt

def RoundingInterval.floorAt (i : RoundingInterval) (p : Int) : Nat :=
  if 0 ≤ p then i.mid / (i.den * Nat.pow 10 p.toNat) else i.mid * Nat.pow 10 (-p).toNat / i.den

def RoundingInterval.decade (i : RoundingInterval) : Int :=
  let estimate : Int := ((Nat.log2 i.mid : Int) - (Nat.log2 i.den : Int)) * 30103 / 100000
  let up := fun (k : Int) => compareScaled i.den 1 (k + 1) i.mid != .gt
  let down := fun (k : Int) => compareScaled i.den 1 k i.mid == .gt
  let k1 := if down estimate then estimate - 1 else estimate
  let k2 := if down k1 then k1 - 1 else k1
  let k3 := if up k2 then k2 + 1 else k2
  if up k3 then k3 + 1 else k3

def RoundingInterval.nearer (i : RoundingInterval) (t : Nat) (p : Int) : Nat :=
  match compareScaled i.den (2 * t + 1) p (2 * i.mid) with
  | .gt => t
  | .lt => t + 1
  | .eq => if t % 2 = 0 then t else t + 1

def stripZeros : Nat → Nat → Int → Nat × Int
  | 0, t, p => (t, p)
  | fuel + 1, t, p => if t ≠ 0 ∧ t % 10 = 0 then stripZeros fuel (t / 10) (p + 1) else (t, p)

def RoundingInterval.search (i : RoundingInterval) (k : Int) : Nat → Nat → Nat × Int
  | 0, _ => (i.floorAt (k - 16), k - 16)
  | fuel + 1, n =>
    let p := k + 1 - n
    let t := i.floorAt p
    let lowIn := i.admits t p
    let highIn := i.admits (t + 1) p
    if lowIn && highIn then (i.nearer t p, p)
    else if lowIn then (t, p)
    else if highIn then (t + 1, p)
    else search i k fuel (n + 1)

/-- The shortest decimal `t · 10 ^ p` that reads back as `m · 2 ^ q` (with `m > 0`), with
no trailing zero in `t`. -/
def shortest (m : Nat) (q : Int) : Nat × Int :=
  let i := RoundingInterval.ofBinary m q
  let (t, p) := i.search i.decade 17 1
  stripZeros 20 t p

end RingMachine.Decimal
