import RingMachine.Text.Quoted
import RingMachine.Text.Integer

/-!
Layouts: type descriptions that list fields separated by commas (`u1,u2`), or give a field a
repeat count or shape in front (`2u1`, `(2,3)f8`). A description is read as a layout when it
starts with a digit, possibly after a byte-order mark, when it starts with `()`, or when it
has a comma outside square brackets.

Each field is a byte-order mark, a repeat part of spaces, an optional `(`, spaces, commas and
digits, an optional `)` and spaces, another byte-order mark, and a type name of letters,
digits, dots and question marks with an optional bracketed suffix. Fields are separated by a
comma with blanks around it; blanks may end the text. The repeat part is read as a literal
tuple or integer; writing it wrong is a syntax error, reported the way an expression reader
reports it: leading zeros and an unmatched `)` first, then a missing comma inside
parentheses, an unclosed `(`, and otherwise a plain syntax error.
-/

namespace RingMachine.Layout

inductive Repeat where
  | count (n : Nat)
  | shape (dims : List Nat)
  deriving DecidableEq, Repr

structure Field where
  description : String
  repeats : Option Repeat
  deriving DecidableEq, Repr

inductive Shape where
  | fields (items : List Field)
  | single (item : Field)
  deriving DecidableEq, Repr

def isOrderMark (c : Char) : Bool := c = '<' || c = '>' || c = '|' || c = '='

def isLayout (cs : List Char) : Bool :=
  let startsWithDigit := match cs with
    | c :: d :: _ => c.isDigit || (isOrderMark c && d.isDigit)
    | [c] => c.isDigit
    | [] => false
  let startsWithEmpty := match cs with
    | '(' :: ')' :: _ => true
    | m :: '(' :: ')' :: _ :: _ => isOrderMark m
    | _ => false
  let commaOutside := (cs.foldl (fun (acc : Bool × Int) c =>
    if c = ',' && acc.2 = 0 then (true, acc.2)
    else if c = '[' then (acc.1, acc.2 + 1)
    else if c = ']' then (acc.1, acc.2 - 1)
    else acc) (false, 0)).1
  startsWithDigit || startsWithEmpty || commaOutside

/-! ### The repeat part -/

inductive Token where
  | number (n : Nat) (leadingZero : Bool)
  | comma
  | opening
  | closing (unmatched : Bool)
  deriving DecidableEq, Repr

def Token.isNumber : Token → Bool
  | .number _ _ => true
  | _ => false

def syntaxError (what : String) : Crash := ⟨"SyntaxError", what ++ " (<unknown>, line 1)"⟩

def leadingZeros : Crash :=
  syntaxError ("leading zeros in decimal integer literals are not permitted; " ++
    "use an 0o prefix for octal integers")

def unmatched : Crash := syntaxError "unmatched ')'"

def neverClosed : Crash := syntaxError "'(' was never closed"

def plainSyntax : Crash := syntaxError "invalid syntax"

def missingComma : Crash := syntaxError "invalid syntax. Perhaps you forgot a comma?"

def Token.fault? : Token → Option Crash
  | .number _ true => some leadingZeros
  | .closing true => some unmatched
  | _ => none

def tokenize (opened : Bool) : List Char → List Token
  | [] => []
  | c :: rest =>
    if c = ' ' then tokenize opened rest
    else if c.isDigit then
      let ds := c :: rest.takeWhile Char.isDigit
      let n := ds.foldl (fun acc d => acc * 10 + (d.toNat - 48)) 0
      .number n (c = '0' && ds.any (· ≠ '0')) :: tokenize opened (rest.dropWhile Char.isDigit)
    else if c = ',' then .comma :: tokenize opened rest
    else if c = '(' then .opening :: tokenize true rest
    else if c = ')' then .closing (!opened) :: tokenize false rest
    else tokenize opened rest
  termination_by cs => cs.length
  decreasing_by
    all_goals simp only [List.length_cons]
    all_goals first
      | omega
      | exact Nat.lt_succ_of_le (List.dropWhile_suffix _).length_le

def firstFault (tokens : List Token) (otherwise : Crash) : Crash :=
  ((tokens.filterMap Token.fault?).head?).getD otherwise

def request (tokens : List Token) (i : Nat) : Except Crash (Option Token) :=
  match tokens[i]? with
  | some t => match t.fault? with
    | some f => .error f
    | none => .ok (some t)
  | none => .ok none

def readItems (tokens : List Token) (inside : Bool) (fuel i : Nat) (numbers : List Nat)
    (comma : Bool) : Except Crash Repeat := do
  let finish := fun (ns : List Nat) (c : Bool) =>
    match ns, c with
    | [n], false => Repeat.count n
    | ns, _ => Repeat.shape ns
  match fuel with
  | 0 => throw plainSyntax
  | fuel + 1 =>
  match (← request tokens i) with
  | some (.number n _) =>
    let numbers := numbers ++ [n]
    match (← request tokens (i + 1)) with
    | none => if inside then throw neverClosed else pure (finish numbers comma)
    | some (.closing _) => pure (finish numbers comma)
    | some (.number _ _) =>
      if !inside then throw (firstFault tokens plainSyntax)
      else if tokens.length ≤ i + 2 then throw neverClosed
      else throw (firstFault tokens missingComma)
    | some _ =>
      match (← request tokens (i + 2)) with
      | none => if inside then throw neverClosed else pure (Repeat.shape numbers)
      | some (.closing _) => pure (Repeat.shape numbers)
      | some (.number _ _) => readItems tokens inside fuel (i + 2) numbers true
      | some _ => throw (firstFault tokens plainSyntax)
  | _ => throw (firstFault tokens plainSyntax)

def evalRepeat (text : List Char) : Except Crash Repeat :=
  let tokens := tokenize false (text.dropWhile fun c => c = ' ' || c = '\t')
  match tokens with
  | [] => .error ⟨"SyntaxError", "invalid syntax (<unknown>, line 0)"⟩
  | .opening :: _ =>
    match request tokens 1 with
    | .error f => .error f
    | .ok none => .error neverClosed
    | .ok (some (.closing _)) => .ok (.shape [])
    | .ok (some (.number _ _)) => readItems tokens true tokens.length 1 [] false
    | .ok (some _) => .error (firstFault tokens plainSyntax)
  | _ => readItems tokens false tokens.length 0 [] false

/-! ### Fields -/

def isRepeatChar (c : Char) : Bool := c = ' ' || c = ',' || c.isDigit

def isNameChar (c : Char) : Bool := c.isAlpha || c.isDigit || c = '.' || c = '?'

def isSuffixChar (c : Char) : Bool := c.isAlpha || c.isDigit || c = ',' || c = '.'

def takeMark : List Char → Option Char × List Char
  | c :: rest => if isOrderMark c then (some c, rest) else (none, c :: rest)
  | [] => (none, [])

def takeRepeat (cs : List Char) : List Char × List Char :=
  let (lead, r1) := cs.span (· = ' ')
  let (opening, r2) := match r1 with
    | '(' :: r => (['('], r)
    | _ => ([], r1)
  let (body, r3) := r2.span isRepeatChar
  let (closing, r4) := match r3 with
    | ')' :: r => ([')'], r)
    | _ => ([], r3)
  let (trail, r5) := r4.span (· = ' ')
  (lead ++ opening ++ body ++ closing ++ trail, r5)

def takeName (cs : List Char) : List Char × List Char :=
  let (name, r1) := cs.span isNameChar
  match r1 with
  | '[' :: r2 =>
    match r2.span isSuffixChar with
    | (inner@(_ :: _), ']' :: r3) => (name ++ '[' :: inner ++ [']'], r3)
    | _ => (name, r1)
  | _ => (name, r1)

def resolveMark : Char → Char
  | '=' => '<'
  | c => c

def takeField (cs : List Char) :
    (Option Char × List Char × Option Char × List Char) × List Char :=
  let (mark1, r1) := takeMark cs
  let (rep, r2) := takeRepeat r1
  let (mark2, r3) := takeMark r2
  let (name, r4) := takeName r3
  ((mark1, rep, mark2, name), r4)

def buildField (mark1 : Option Char) (rep : List Char) (mark2 : Option Char)
    (name : List Char) : Except Crash Field := do
  let order ← match mark1, mark2 with
    | m, none => pure m
    | none, m => pure m
    | some a, some b =>
      let a := resolveMark a
      let b := resolveMark b
      if a ≠ b then
        throw (Crash.valueError ("inconsistent byte-order specification " ++
          String.singleton a ++ " and " ++ String.singleton b))
      else pure (some a)
  let marked := match order with
    | some '>' => ">"
    | _ => ""
  let description := marked ++ String.ofList name
  if rep.isEmpty then pure ⟨description, none⟩
  else pure ⟨description, some (← evalRepeat rep)⟩

def readFields (text : String) : Nat → List Char → List Field → Bool → Except Crash Shape
  | 0, _, fields, _ => .ok (.fields fields)
  | fuel + 1, cs, fields, isList =>
    let ((mark1, rep, mark2, name), rest) := takeField cs
    let notRecognized := Crash.valueError ("format number " ++ toString (fields.length + 1) ++
      " of \"" ++ text ++ "\" is not recognized")
    let next : Except Crash (Option (List Char)) :=
      if rest.isEmpty then .ok none
      else if rest.all Text.isSpace then .ok none
      else match (rest.dropWhile Text.isSpace) with
        | ',' :: after => .ok (some (after.dropWhile Text.isSpace))
        | _ => .error notRecognized
    match next with
    | .error e => .error e
    | .ok next =>
      match buildField mark1 rep mark2 name with
      | .error e => .error e
      | .ok field =>
        match next with
        | none =>
          if isList then .ok (.fields (fields ++ [field]))
          else .ok (.single field)
        | some after =>
          if after.isEmpty then .ok (.fields (fields ++ [field]))
          else readFields text fuel after (fields ++ [field]) true

/-- Reads a layout description. -/
def parse (text : String) : Except Crash Shape :=
  readFields text (text.length + 1) text.toList [] false

end RingMachine.Layout
