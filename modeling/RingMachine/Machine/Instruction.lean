/-!
The seven instructions and the command bytes that select them. Every other byte, the
no-operation character among them, selects nothing and a step over it does nothing.
-/

namespace RingMachine

inductive Instruction where
  | halt
  | load
  | rot
  | jmp
  | write
  | opr
  | read
  deriving DecidableEq, Repr

namespace Instruction

def all : List Instruction := [.halt, .load, .rot, .jmp, .write, .opr, .read]

def byte : Instruction → Nat
  | .halt => 33
  | .load => 42
  | .rot => 62
  | .jmp => 94
  | .write => 123
  | .opr => 124
  | .read => 125

def name : Instruction → String
  | .halt => "HALT"
  | .load => "LOAD"
  | .rot => "ROT"
  | .jmp => "JMP"
  | .write => "WRITE"
  | .opr => "OPR"
  | .read => "READ"

/-- The instruction a memory cell selects, if any. -/
def decode (command : Nat) : Option Instruction :=
  all.find? fun i => i.byte = command

end Instruction

end RingMachine

/-!
## Command characters

The eight command characters of program text: one per instruction, and `_`, which stands
for a cell that does nothing.
-/

namespace RingMachine

inductive Command where
  | run (i : Instruction)
  | nop
  deriving DecidableEq, Repr

namespace Command

def all : List Command := Command.nop :: Instruction.all.map Command.run

def char : Command → Char
  | .run .halt => '!'
  | .run .load => '*'
  | .run .rot => '>'
  | .run .jmp => '^'
  | .run .write => '{'
  | .run .opr => '|'
  | .run .read => '}'
  | .nop => '_'

def byte (c : Command) : Nat := c.char.toNat

def name : Command → String
  | .run i => i.name
  | .nop => "NOP"

def ofChar? (ch : Char) : Option Command :=
  all.find? fun c => c.char = ch

def isCommandByte (n : Nat) : Bool :=
  all.any fun c => c.byte = n

end Command

end RingMachine
