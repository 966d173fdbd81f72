import RingMachine.Ring.Operation

/-!
Numbers that configure a machine as a caller supplies them: an idle limit and the period of
a step rule. Such a number is an integer, a truth value or a double, and it is compared with
integers exactly, so `0.5` is below 1 and a limit of `2.5` is reached by the third idle
step. A double that is not a number compares false with everything: it passes every check
and is never reached. An infinite limit is never reached, and an infinite period is due at
step 0 only. Any other value does not compare, which ends the request.
-/

namespace RingMachine

/-- The exact value of a supplied number: an integer (truth values count as 0 and 1) or a
double. -/
inductive Amount where
  | whole (n : Int)
  | real (b : Decimal.Binary)
  deriving DecidableEq, Repr

namespace Amount

def ofLiteral? : Literal → Option Amount
  | .int n => some (.whole n)
  | .bool b => some (.whole (if b then 1 else 0))
  | .float x => some (.real (Decimal.Binary.ofFloat x))
  | _ => none

def compareInt (x : Amount) (k : Int) : Option Ordering :=
  match x with
  | .whole n => some (compare n k)
  | .real b => b.compareInt k

def lt (x : Amount) (k : Int) : Bool := x.compareInt k == some .lt

def le (x : Amount) (k : Int) : Bool := x.compareInt k == some .lt || x.compareInt k == some .eq

inductive Place where
  | below
  | point (num exp : Int)
  | above
  deriving DecidableEq, Repr

def place? : Amount → Option Place
  | .whole n => some (.point n 0)
  | .real (.finite negative m e) => some (.point (if negative then -(m : Int) else m) e)
  | .real (.infinite negative) => some (if negative then .below else .above)
  | .real .nan => none

def Place.compare : Place → Place → Ordering
  | .below, .below | .above, .above => .eq
  | .below, _ | _, .above => .lt
  | _, .below | .above, _ => .gt
  | .point n d, .point m e =>
    let low := min d e
    Ord.compare (n * Int.pow 2 (d - low).toNat) (m * Int.pow 2 (e - low).toNat)

def compare? (x y : Amount) : Option Ordering :=
  match x.place?, y.place? with
  | some p, some q => some (p.compare q)
  | _, _ => none

def atMost (x y : Amount) : Bool :=
  match x.compare? y with
  | some .lt | some .eq => true
  | _ => false

def reachedAt? : Amount → Option Nat
  | .whole n => some n.toNat
  | .real b => b.ceiling.map Int.toNat

end Amount

/-- When a step rule is due: at the step indices `k` for which `k * den` is a multiple of
`num` (the whole multiples of `num / den`), at step 0 only (an infinite period), or never
(a period that is not a number). -/
inductive Period where
  | ratio (num den : Nat)
  | first
  | never
  deriving DecidableEq, Repr

namespace Period

/-- The period of `n` steps. -/
def every (n : Nat) : Period := .ratio n 1

def isDue : Period → Nat → Bool
  | .ratio num den, k => k * den % num == 0
  | .first, k => k == 0
  | .never, _ => false

theorem isDue_every (n k : Nat) : (every n).isDue k = (k % n == 0) := by
  simp [every, isDue]

end Period

def Amount.period : Amount → Period
  | .whole n => .every n.toNat
  | .real (.finite _ m e) =>
    if 0 ≤ e then .every (m * Nat.pow 2 e.toNat) else .ratio m (Nat.pow 2 (-e).toNat)
  | .real (.infinite _) => .first
  | .real .nan => .never

def incomparable (op : String) (v : Literal) : Crash :=
  ⟨"TypeError", Text.quote op ++ " not supported between instances of " ++ Text.quote v.kindName ++
    " and 'int'"⟩

end RingMachine
