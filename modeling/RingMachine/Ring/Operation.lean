import RingMachine.Ring.Basic
import RingMachine.Cell.Resolve
import RingMachine.Decimal.Shortest
import RingMachine.Text.Integer

/-!
Word rings as callers ask for them: building one from supplied values, and the ring's
operations applied to supplied values.

## Building a ring

Building a word ring from what a caller asks for: a cell type named as an array element
type, a base and a digit count, each supplied as a raw value. The checks run in a fixed
order and the first that fails names the problem: a type description that is not
understood, a type that is not an unsigned integer, a base or digit count that is not an
integer, a base below 2, a digit count below 1, and a ring whose largest word does not fit
the cell. Only the type reader's type errors are wrapped as an unknown type; a description it
rejects with a value error ends the request with that error instead.
-/

namespace RingMachine

/-- Why a word ring, or its memory, cannot be built. -/
inductive ConfigError where
  | unknownCellType (given : Literal)
  | notUnsigned (name : String)
  | notInteger (field : String) (given : Literal)
  | baseTooSmall (base : Int)
  | digitsTooSmall (digits : Int)
  | overflow (base digits : Nat) (cell : CellWidth)
  | cannotAllocate (ring : WordRing)
  | failed (c : Crash)

def ConfigError.message : ConfigError → String
  | .unknownCellType given => "Unknown dtype " ++ given.render
  | .notUnsigned name => "dtype must be an unsigned integer type, got " ++ name
  | .notInteger field given => field ++ " must be an integer, got " ++ given.render
  | .baseTooSmall b => "base must be >= 2, got " ++ toString b
  | .digitsTooSmall n => "digits must be >= 1, got " ++ toString n
  | .overflow b n cell =>
    "END overflown: " ++ toString b ++ "**" ++ toString n ++ " does not fit " ++ cell.name ++
      "; try with a wider unsigned dtype"
  | .cannotAllocate r =>
    "cannot allocate " ++ toString r.size ++ " cells of " ++ r.cell.name ++ " for " ++ r.describe
  | .failed c => c.message

def ConfigError.crash? : ConfigError → Option Crash
  | .failed c => some c
  | _ => none

def Literal.asInteger? : Literal → Option Int
  | .int n => some n
  | _ => Option.none

namespace WordRing

def ofNumbers (w : CellWidth) (order : ByteOrder) (b n : Int) : Except ConfigError WordRing :=
  if hb : b < 2 then .error (.baseTooSmall b)
  else if hn : n < 1 then .error (.digitsTooSmall n)
  else if hf : powLe b.toNat n.toNat (Nat.pow 2 w.bits) = true then
    .ok ⟨w, b.toNat, n.toNat, by omega, by omega, (powLe_iff _ _ _).1 hf, order⟩
  else .error (.overflow b.toNat n.toNat w)

/-- Builds a ring from a requested cell type, base and digit count. -/
def build (cellType base digits : Literal) : Except ConfigError WordRing :=
  match CellType.resolve cellType with
  | .error .notUnderstood => .error (.unknownCellType cellType)
  | .error (.crash c) => .error (.failed c)
  | .ok (.unsigned w order) =>
    match base.asInteger?, digits.asInteger? with
    | none, _ => .error (.notInteger "base" base)
    | some _, none => .error (.notInteger "digits" digits)
    | some b, some n => ofNumbers w order b n
  | .ok t => .error (.notUnsigned t.name)

end WordRing

end RingMachine

/-!
## Operations

The ring's operations applied to supplied values. An operation takes the integer that a
value denotes: an integer as it is, a truth value as 0 or 1, a double truncated toward zero,
integer text by its digits; validity instead compares the value itself, a double exactly.
-/

namespace RingMachine

inductive ArgumentError where
  | notNumeric (kind : String)
  | infinite
  | notANumber
  | badText (s : String)
  | tooManyDigits (count : Nat)
  | notComparable (kind : String)
  | count (expected given : Nat)

inductive ArgumentFault where
  | wrongType
  | tooLarge
  | wrongValue
  deriving DecidableEq

namespace ArgumentError

def fault : ArgumentError → ArgumentFault
  | .notNumeric _ | .notComparable _ => .wrongType
  | .infinite => .tooLarge
  | .notANumber | .badText _ | .tooManyDigits _ | .count _ _ => .wrongValue

def message : ArgumentError → String
  | .notNumeric kind =>
    "int() argument must be a string, a bytes-like object or a real number, not " ++
      Text.quote kind
  | .infinite => "cannot convert float infinity to integer"
  | .notANumber => "cannot convert float NaN to integer"
  | .badText s =>
    "invalid literal for int() with base 10: " ++ String.ofList ((Text.quote s).toList.take 200)
  | .tooManyDigits n =>
    "Exceeds the limit (" ++ toString Text.digitLimit ++
      " digits) for integer string conversion: value has " ++ toString n ++
      " digits; use sys.set_int_max_str_digits() to increase the limit"
  | .notComparable kind => "'<=' not supported between instances of 'int' and " ++ Text.quote kind
  | .count expected given =>
    "takes " ++ toString expected ++ " arguments, got " ++ toString given

def toCrash (e : ArgumentError) : Crash :=
  let kind := match e.fault with
    | .wrongType => "TypeError"
    | .tooLarge => "OverflowError"
    | .wrongValue => "ValueError"
  ⟨kind, e.message⟩

end ArgumentError

def Literal.kindName : Literal → String
  | .none => "NoneType"
  | .bool _ => "bool"
  | .int _ => "int"
  | .float _ => "float"
  | .text _ => "str"
  | .list _ => "list"
  | .dict _ => "dict"

def Literal.toInteger : Literal → Except ArgumentError Int
  | .int n => .ok n
  | .bool b => .ok (if b then 1 else 0)
  | .float x =>
    match Decimal.Binary.ofFloat x with
    | .nan => .error .notANumber
    | .infinite _ => .error .infinite
    | b => match b.truncate with
      | some n => .ok n
      | Option.none => .error .notANumber
  | .text s => match Text.readInteger s with
    | .ok n => .ok n
    | .error .malformed => .error (.badText s)
    | .error (.tooManyDigits n) => .error (.tooManyDigits n)
  | v => .error (.notNumeric v.kindName)

/-- The operations of a word ring. -/
inductive RingOp where
  | reduce
  | isValid
  | rotateRight
  | digitSubtract
  | successor
  | predecessor
  | addWrapping
  | subWrapping
  deriving DecidableEq, Repr

inductive RingResult where
  | word (n : Nat)
  | truth (b : Bool)
  deriving DecidableEq, Repr

namespace RingOp

def arity : RingOp → Nat
  | .digitSubtract | .addWrapping | .subWrapping => 2
  | _ => 1

end RingOp

namespace WordRing

def isValidLiteral (r : WordRing) : Literal → Except ArgumentError Bool
  | .int n => .ok (r.isValid n)
  | .bool b => .ok (r.isValid (if b then 1 else 0))
  | .float x => .ok ((Decimal.Binary.ofFloat x).withinNat r.maxValue)
  | v => .error (.notComparable v.kindName)

/-- Applies an operation to its arguments; arguments are converted from the first on. -/
def apply (r : WordRing) : RingOp → List Literal → Except ArgumentError RingResult
  | .isValid, [x] => .truth <$> r.isValidLiteral x
  | .reduce, [x] => (fun v => .word (r.reduce v)) <$> x.toInteger
  | .rotateRight, [x] => (fun v => .word (r.rotateRight v)) <$> x.toInteger
  | .successor, [x] => (fun v => .word (r.successor v)) <$> x.toInteger
  | .predecessor, [x] => (fun v => .word (r.predecessor v)) <$> x.toInteger
  | .digitSubtract, [x, y] => do
    let v ← x.toInteger
    let w ← y.toInteger
    pure (.word (r.digitSubtract v w))
  | .addWrapping, [x, y] => do
    let v ← x.toInteger
    let w ← y.toInteger
    pure (.word (r.addWrapping v w))
  | .subWrapping, [x, y] => do
    let v ← x.toInteger
    let w ← y.toInteger
    pure (.word (r.subWrapping v w))
  | op, args => .error (.count op.arity args.length)

end WordRing

end RingMachine
