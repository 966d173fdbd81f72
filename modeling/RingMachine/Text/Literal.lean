import RingMachine.Decimal.Shortest
import RingMachine.Text.Quoted

/-!
Values as a caller supplies them to a configuration, before they are checked, and the text
by which messages show them: `None`, `True`, `3`, `2.9`, `'x'`, `[3]`, `{'k': 1}`. A double
is shown by its shortest decimal that reads back, positionally for decimal exponents from
-4 to 15 and with an exponent otherwise.
-/

namespace RingMachine

/-- A value supplied by a caller. -/
inductive Literal where
  | none
  | bool (b : Bool)
  | int (n : Int)
  | float (x : Float)
  | text (s : String)
  | list (items : List Literal)
  | dict (entries : List (String × Literal))
  deriving Inhabited

/-- How a double is written: positionally for decimal exponents from `positionalFrom` up to
just below `positionalBelow`, else with an exponent of at least `exponentDigits` digits; an
integral value keeps a point and one zero when `pointZero` is set. -/
structure FloatFormat where
  positionalFrom : Int
  positionalBelow : Int
  exponentDigits : Nat
  pointZero : Bool

def FloatFormat.standard : FloatFormat := ⟨-4, 16, 2, true⟩

namespace FloatFormat

/-- Writes `t · 10 ^ p`, where `t > 0` has no trailing zero. -/
def decimal (f : FloatFormat) (t : Nat) (p : Int) : String :=
  let ds := (Nat.toDigits 10 t)
  let n := ds.length
  let x : Int := n - 1 + p
  if f.positionalFrom ≤ x ∧ x < f.positionalBelow then
    if 0 ≤ p then
      String.ofList (ds ++ List.replicate p.toNat '0') ++ (if f.pointZero then ".0" else "")
    else if 0 ≤ x then
      String.ofList (ds.take (x.toNat + 1) ++ '.' :: ds.drop (x.toNat + 1))
    else String.ofList ('0' :: '.' :: List.replicate (-x - 1).toNat '0' ++ ds)
  else
    let mantissa := match ds with
      | [] => []
      | [d] => [d]
      | d :: rest => d :: '.' :: rest
    let e := Nat.toDigits 10 x.natAbs
    String.ofList (mantissa ++ 'e' :: (if x < 0 then '-' else '+') ::
      List.replicate (f.exponentDigits - e.length) '0' ++ e)

def render (f : FloatFormat) (x : Float) : String :=
  match Decimal.Binary.ofFloat x with
  | .nan => "nan"
  | .infinite negative => if negative then "-inf" else "inf"
  | .finite negative m q =>
    let sign := if negative then "-" else ""
    if m = 0 then sign ++ (if f.pointZero then "0.0" else "0")
    else
      let (t, p) := Decimal.shortest m q
      sign ++ f.decimal t p

end FloatFormat

namespace Literal

mutual

def render : Literal → String
  | .none => "None"
  | .bool b => if b then "True" else "False"
  | .int n => toString n
  | .float x => FloatFormat.standard.render x
  | .text s => Text.quote s
  | .list items => "[" ++ renderItems items ++ "]"
  | .dict entries => "\x7b" ++ renderEntries entries ++ "\x7d"

def renderItems : List Literal → String
  | [] => ""
  | [v] => render v
  | v :: rest => render v ++ ", " ++ renderItems rest

def renderEntries : List (String × Literal) → String
  | [] => ""
  | [(k, v)] => Text.quote k ++ ": " ++ render v
  | (k, v) :: rest => Text.quote k ++ ": " ++ render v ++ ", " ++ renderEntries rest

end

end Literal

end RingMachine
