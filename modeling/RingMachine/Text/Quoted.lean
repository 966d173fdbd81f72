import RingMachine.Text.Printable

/-!
Failures, lone surrogates, and quoted text as messages show it.

## Failures

Failures that the program does not turn into one of its own errors. Such a failure ends the
whole request where it arises; it is known by the class of the failure and by its message.
-/

namespace RingMachine

structure Crash where
  kind : String
  message : String
  deriving DecidableEq, Repr

def Crash.valueError (message : String) : Crash := ⟨"ValueError", message⟩

end RingMachine

/-!
## Lone surrogates

Text supplied to the program may hold code points from U+D800 to U+DFFF
that pair with nothing. A `String` cannot hold them, so each is carried by a stand-in: the
surrogate U+D800 + k by the code point U+10F800 + k, among the last 2048 code points, which
are for private use and are assigned to nothing. Showing or encoding text treats a stand-in
as the surrogate it carries. Such a surrogate cannot be encoded as UTF-8; a file name may
still hold those from U+DC80 to U+DCFF, which stand for the bytes 0x80 to 0xFF.
-/

namespace RingMachine.Text

def standInBase : Nat := 0x10F800

def surrogateBase : Nat := 0xD800

def surrogateOf? (c : Char) : Option Nat :=
  if standInBase ≤ c.toNat then some (c.toNat - standInBase + surrogateBase) else none

def isByteSurrogate (c : Char) : Bool :=
  match surrogateOf? c with
  | some n => 0xDC80 ≤ n && n ≤ 0xDCFF
  | none => false

theorem surrogateOf_lt (c : Char) (n : Nat) (h : surrogateOf? c = some n) : n < 0xE000 := by
  have hc := c.valid
  unfold surrogateOf? at h
  split at h
  · cases h
    have : c.toNat < 0x110000 := by
      unfold Char.toNat
      rcases hc with h1 | h1 <;> omega
    simp only [standInBase, surrogateBase]
    omega
  · cases h

end RingMachine.Text

/-!
## Quoting

Quoted text as a program shows it in its messages: the text between quote marks, with the
quote mark, the backslash and hidden characters escaped; a stand-in for a lone surrogate is
shown as the escaped surrogate. The mark is a single quote unless the text holds a single
quote and no double quote.
-/

namespace RingMachine.Text

def hexPadded (width n : Nat) : List Char :=
  let ds := Nat.toDigits 16 n
  List.replicate (width - ds.length) '0' ++ ds

def quoteMark (s : List Char) : Char :=
  if s.contains '\x27' && !s.contains '"' then '"' else '\x27'

def escapeChar (q c : Char) : List Char :=
  match surrogateOf? c with
  | some n => '\\' :: 'u' :: hexPadded 4 n
  | none =>
  if c = q || c = '\\' then ['\\', c]
  else if c = '\t' then ['\\', 't']
  else if c = '\n' then ['\\', 'n']
  else if c = '\r' then ['\\', 'r']
  else if isHidden c then
    if c.toNat < 0x100 then '\\' :: 'x' :: hexPadded 2 c.toNat
    else if c.toNat < 0x10000 then '\\' :: 'u' :: hexPadded 4 c.toNat
    else '\\' :: 'U' :: hexPadded 8 c.toNat
  else [c]

def encode (s : List Char) : List Char :=
  let q := quoteMark s
  q :: s.flatMap (escapeChar q) ++ [q]

/-- The quoted form of a text. -/
def quote (s : String) : String := String.ofList (encode s.toList)

/-- The failure of encoding a text as UTF-8, if it holds a lone surrogate that cannot be
encoded: it covers the run of surrogates from that one on. With `bytes`, the surrogates from
U+DC80 to U+DCFF encode as the bytes they stand for, as in file names. -/
def encodeFailure? (s : String) (bytes : Bool) : Option Crash :=
  let cs := s.toList
  let isSurrogate := fun (c : Char) => (surrogateOf? c).isSome
  match cs.findIdx? (fun c => isSurrogate c && !(bytes && isByteSurrogate c)) with
  | none => none
  | some i =>
    let run := (cs.drop i).takeWhile isSurrogate
    let what := match run with
      | [c] => "character '\\u" ++ String.ofList (hexPadded 4 ((surrogateOf? c).getD 0)) ++
          "' in position " ++ toString i
      | _ => "characters in position " ++ toString i ++ "-" ++ toString (i + run.length - 1)
    some ⟨"UnicodeEncodeError", "'utf-8' codec can't encode " ++ what ++ ": surrogates not allowed"⟩

end RingMachine.Text
