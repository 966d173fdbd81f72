/-!
Blank characters, decimal digits of every script, and integer text.

## Blanks

Two classes of blank characters. The Unicode white-space characters are those of the
`White_Space` property in Unicode 14.0 together with the four ASCII information separators
(U+001C to U+001F), which a bidirectional class of separator makes blank too. The ASCII
blanks are the six that the C locale calls spaces: tab, line feed, vertical tab, form feed,
carriage return and the space itself.
-/

namespace RingMachine.Text

def isAsciiSpace (c : Char) : Bool :=
  let n := c.toNat
  (0x09 ≤ n && n ≤ 0x0d) || n = 0x20

def isSpace (c : Char) : Bool :=
  let n := c.toNat
  (0x09 ≤ n && n ≤ 0x0d) || (0x1c ≤ n && n ≤ 0x20) || n = 0x85 || n = 0xa0 ||
    n = 0x1680 || (0x2000 ≤ n && n ≤ 0x200a) || n = 0x2028 || n = 0x2029 || n = 0x202f ||
    n = 0x205f || n = 0x3000

theorem isSpace_of_isAsciiSpace (c : Char) (h : isAsciiSpace c = true) : isSpace c = true := by
  simp only [isAsciiSpace, isSpace, Bool.or_eq_true, Bool.and_eq_true, decide_eq_true_eq] at *
  omega

example : (List.range 128).filter (fun n => isSpace (Char.ofNat n)) =
    [9, 10, 11, 12, 13, 28, 29, 30, 31, 32] := by decide

end RingMachine.Text

/-!
## Decimal digits

The characters of general category `Nd` in Unicode 14.0
come in runs of ten, from the digit zero of a script to its digit nine; the table lists the
zero of every run, in increasing order, so the value of a digit is its distance from the
zero of its run.
-/

namespace RingMachine.Text

def decimalZeros : Array Nat := #[
  0x30, 0x660, 0x6f0, 0x7c0, 0x966, 0x9e6, 0xa66, 0xae6, 0xb66, 0xbe6, 0xc66, 0xce6, 0xd66,
  0xde6, 0xe50, 0xed0, 0xf20, 0x1040, 0x1090, 0x17e0, 0x1810, 0x1946, 0x19d0, 0x1a80, 0x1a90,
  0x1b50, 0x1bb0, 0x1c40, 0x1c50, 0xa620, 0xa8d0, 0xa900, 0xa9d0, 0xa9f0, 0xaa50, 0xabf0,
  0xff10, 0x104a0, 0x10d30, 0x11066, 0x110f0, 0x11136, 0x111d0, 0x112f0, 0x11450, 0x114d0,
  0x11650, 0x116c0, 0x11730, 0x118e0, 0x11950, 0x11c50, 0x11d50, 0x11da0, 0x16a60, 0x16ac0,
  0x16b50, 0x1d7ce, 0x1d7d8, 0x1d7e2, 0x1d7ec, 0x1d7f6, 0x1e140, 0x1e2f0, 0x1e950, 0x1fbf0]

def digitValue? (c : Char) : Option Nat :=
  let n := c.toNat
  (decimalZeros.find? fun z => z ≤ n && n < z + 10).map fun z => n - z

def isDecimalDigit (c : Char) : Bool := (digitValue? c).isSome

theorem digitValue_lt (c : Char) (d : Nat) (h : digitValue? c = some d) : d < 10 := by
  simp only [digitValue?, Option.map_eq_some_iff] at h
  obtain ⟨z, found, rfl⟩ := h
  have := Array.find?_some found
  simp only [Bool.and_eq_true, decide_eq_true_eq] at this
  omega

example : digitValue? '7' = some 7 ∧ digitValue? '٣' = some 3 ∧ digitValue? 'x' = none := by
  decide

end RingMachine.Text

/-!
## Integer text

Integer text is read in two stages. First each character that is not ASCII is normalised: a
Unicode blank becomes a space and a decimal digit of any script becomes the ASCII digit of
the same value, while any other such character ends the text with an unreadable mark.
Then the ASCII text is read: optional ASCII blanks, an optional sign, decimal digits in which
single underscores may stand between two digits, and optional ASCII blanks. Text of more
than 4300 digits is refused for its length, once its digits and underscores are seen to be
well placed and before what follows them is looked at.
-/

namespace RingMachine.Text

inductive IntegerTextError where
  | malformed
  | tooManyDigits (count : Nat)
  deriving DecidableEq, Repr

def digitLimit : Nat := 4300

def normalize : List Char → List Char
  | [] => []
  | c :: rest =>
    if c.toNat < 0x7f then c :: normalize rest
    else if isSpace c then ' ' :: normalize rest
    else match digitValue? c with
      | some d => Char.ofNat (48 + d) :: normalize rest
      | none => ['?']

def scanDigits (acc : Array Nat) (afterUnderscore : Bool) :
    List Char → Except IntegerTextError (Array Nat × List Char)
  | [] => if afterUnderscore then .error .malformed else .ok (acc, [])
  | c :: rest =>
    if c.isDigit then scanDigits (acc.push (c.toNat - 48)) false rest
    else if c = '_' then
      if afterUnderscore then .error .malformed else scanDigits acc true rest
    else if afterUnderscore then .error .malformed
    else .ok (acc, c :: rest)

def digitsValue (ds : Array Nat) : Nat := ds.foldl (fun acc d => acc * 10 + d) 0

/-- The integer that a text denotes. -/
def readInteger (s : String) : Except IntegerTextError Int := do
  let cs := (normalize s.toList).dropWhile isAsciiSpace
  let (negative, body) := match cs with
    | '-' :: rest => (true, rest)
    | '+' :: rest => (false, rest)
    | _ => (false, cs)
  if body.head? = some '_' then throw .malformed
  let (digits, rest) ← scanDigits #[] false body
  if digitLimit < digits.size then throw (.tooManyDigits digits.size)
  if digits.isEmpty || !(rest.dropWhile isAsciiSpace).isEmpty then throw .malformed
  let n := digitsValue digits
  return if negative then -(n : Int) else n

def parseInteger? (s : String) : Option Int := (readInteger s).toOption

def readNumberPrefix? (cs : List Char) : Option (Int × List Char) :=
  let body := cs.dropWhile isAsciiSpace
  let (negative, body) := match body with
    | '-' :: rest => (true, rest)
    | '+' :: rest => (false, rest)
    | _ => (false, body)
  let digits := body.takeWhile Char.isDigit
  if digits.isEmpty then none
  else
    let n : Nat := digits.foldl (fun acc c => acc * 10 + (c.toNat - 48)) 0
    some (if negative then -(n : Int) else n, body.dropWhile Char.isDigit)

example : parseInteger? " -1_000 " = some (-1000) := by decide +kernel

example : parseInteger? "1__0" = none ∧ parseInteger? "\x1c5" = none := by decide +kernel

example : parseInteger? "　٤٢　" = some 42 := by decide +kernel

end RingMachine.Text
