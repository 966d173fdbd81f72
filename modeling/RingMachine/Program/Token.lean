import RingMachine.Machine.Instruction
import RingMachine.Ring.Basic
import RingMachine.Text.Quoted

/-!
Reading program text into command tokens, and assembling the tokens into a memory image.

## Reading

Reading program text into command tokens. Text is read one character at a time: the six
blanks are skipped, `(` opens a comment that the next `)` closes (comments do not nest), a
command character becomes a token at its position, and any other character stops the
reading. Positions count lines from 1 and columns from 1 in characters; only a line feed
starts a new line.
-/

namespace RingMachine

structure Position where
  line : Nat
  column : Nat
  deriving DecidableEq, Repr

namespace Position

def start : Position := ⟨1, 1⟩

def next (p : Position) (c : Char) : Position :=
  if c = '\n' then ⟨p.line + 1, 1⟩ else ⟨p.line, p.column + 1⟩

def advance (p : Position) (cs : List Char) : Position := cs.foldl next p

@[simp] theorem advance_nil (p : Position) : p.advance [] = p := rfl

theorem advance_append (p : Position) (xs ys : List Char) :
    p.advance (xs ++ ys) = (p.advance xs).advance ys := List.foldl_append

end Position

structure Token where
  command : Command
  pos : Position
  deriving DecidableEq, Repr

/-- Why program text cannot be read or assembled. -/
inductive ParseError where
  | unexpected (c : Char) (pos : Position)
  | unterminatedComment (pos : Position)
  | tooLong (size : Nat) (pos : Position)
  | unrepresentable (byte : Nat) (ring : WordRing)

def ParseError.message (file : String) : ParseError → String
  | .unexpected c pos =>
    "Unexpected character " ++ Text.quote (String.singleton c) ++ " at " ++ file ++ ":" ++
      toString pos.line ++ ":" ++ toString pos.column
  | .unterminatedComment pos =>
    "Unterminated comment at " ++ file ++ ":" ++ toString pos.line ++ ":" ++ toString pos.column
  | .tooLong size pos =>
    "Program does not fit in " ++ toString size ++ " cells; cell " ++ toString size ++ " is at " ++
      file ++ ":" ++ toString pos.line ++ ":" ++ toString pos.column
  | .unrepresentable byte ring =>
    "Command byte " ++ toString byte ++ " is not representable in " ++ ring.describe ++ " (" ++
      file ++ ")"

def isBlank (c : Char) : Bool :=
  c = ' ' || c = '\t' || c = '\r' || c = '\n' || c = '\x0c' || c = '\x0b'

inductive ReadState where
  | between (pos : Position) (found : List Token)
  | comment (opened pos : Position) (found : List Token)
  | stopped (e : ParseError)

namespace ReadState

/-- Reads one more character; tokens are kept newest first. -/
def feed : ReadState → Char → ReadState
  | .between pos found, c =>
    if isBlank c then .between (pos.next c) found
    else if c = '(' then .comment pos (pos.next c) found
    else match Command.ofChar? c with
      | some cmd => .between (pos.next c) (⟨cmd, pos⟩ :: found)
      | none => .stopped (.unexpected c pos)
  | .comment opened pos found, c =>
    if c = ')' then .between (pos.next c) found else .comment opened (pos.next c) found
  | .stopped e, _ => .stopped e

end ReadState

structure Lexed where
  tokens : List Token
  endPos : Position

namespace ReadState

def finish : ReadState → Except ParseError Lexed
  | .between pos found => .ok ⟨found.reverse, pos⟩
  | .comment opened _ _ => .error (.unterminatedComment opened)
  | .stopped e => .error e

end ReadState

def Lexed.ofChars (cs : List Char) : Except ParseError Lexed :=
  (cs.foldl ReadState.feed (.between .start [])).finish

def Lexed.ofText (s : String) : Except ParseError Lexed := Lexed.ofChars s.toList

end RingMachine

/-!
## Assembling

Assembling program text into a memory image: the bytes of its commands in order. A program
needs one cell per command, so it must have at most as many commands as the ring has words;
and each byte must itself be a word. The length check comes first.
-/

namespace RingMachine

def Lexed.image (l : Lexed) : List Nat := l.tokens.map fun t => t.command.byte

def Lexed.assemble (r : WordRing) (l : Lexed) : Except ParseError (List Nat) :=
  match l.tokens[r.size]? with
  | some t => .error (.tooLong r.size t.pos)
  | none =>
    match l.image.find? fun (b : Nat) => !r.isValid b with
    | some b => .error (.unrepresentable b r)
    | none => .ok l.image

/-- Program text assembled for a ring. -/
def assemble (r : WordRing) (text : String) : Except ParseError (List Nat) := do
  let l ← Lexed.ofText text
  l.assemble r

end RingMachine
