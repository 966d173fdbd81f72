import RingMachine.Machine.Instruction
import Std.Data.TreeMap
import RingMachine.Text.Literal
import RingMachine.Machine.Setting

/-!
The machine and what it keeps: the trace of its recent steps, its status, its memory, its two
byte channels and its registers, and loading an image into it.

## The trace

The trace: a record of the most recent steps, at most `depth` of them, oldest first. Each
entry holds the step's index, the pointers before the step, the accumulator after it, and
the command byte with the instruction it selected. A depth of zero records nothing.
-/

namespace RingMachine

structure TraceEntry where
  index : Nat
  c : Int
  d : Int
  a : Int
  command : Nat
  op : Option Instruction
  deriving DecidableEq, Repr

def TraceEntry.stateId (e : TraceEntry) : String :=
  let ds := Nat.toDigits 10 e.index
  "s_" ++ String.ofList (List.replicate (6 - ds.length) '0' ++ ds)

/-- The last `depth` entries. The newest entries are kept in `recent`, newest first, and
older ones in `older`, oldest first, so that adding and dropping are cheap. -/
structure Trace where
  depth : Nat
  older : List TraceEntry := []
  recent : List TraceEntry := []
  size : Nat := 0
  deriving Repr

namespace Trace

def toList (t : Trace) : List TraceEntry := t.older ++ t.recent.reverse

def dropOldest (t : Trace) : Trace :=
  match t.older with
  | _ :: rest => { t with older := rest, size := t.size - 1 }
  | [] =>
    match t.recent.reverse with
    | _ :: rest => { t with older := rest, recent := [], size := t.size - 1 }
    | [] => t

/-- Adds an entry, dropping the oldest when more than `depth` are held. -/
def record (t : Trace) (e : TraceEntry) : Trace :=
  if t.depth = 0 then t
  else
    let t' := { t with recent := e :: t.recent, size := t.size + 1 }
    if t.depth < t'.size then t'.dropOldest else t'

def clear (t : Trace) : Trace := { depth := t.depth }

theorem toList_dropOldest (t : Trace) : t.dropOldest.toList = t.toList.tail := by
  unfold dropOldest toList
  cases h : t.older with
  | cons x rest => simp
  | nil =>
    simp only [List.nil_append]
    cases h' : t.recent.reverse with
    | nil => simp [h, h']
    | cons x rest => simp

theorem toList_record (t : Trace) (e : TraceEntry) :
    (t.record e).toList =
      if t.depth = 0 then t.toList
      else if t.depth < t.size + 1 then (t.toList ++ [e]).tail
      else t.toList ++ [e] := by
  unfold record
  by_cases h0 : t.depth = 0
  · simp [h0]
  · simp only [h0, if_false]
    by_cases h1 : t.depth < t.size + 1
    · simp only [h1, if_true, toList_dropOldest]
      simp [toList]
    · simp only [h1, if_false]
      simp [toList]

@[simp] theorem toList_clear (t : Trace) : t.clear.toList = [] := rfl

end Trace

end RingMachine

/-!
## Status

Where a machine stands: still running, or stopped for one of five reasons. A failed transfer
keeps the failure that stopped it, named by its class and its message.
-/

namespace RingMachine

structure IoFailure where
  kind : String
  message : String
  deriving DecidableEq, Repr

inductive Status where
  | running
  | haltCommand
  | endOfOutput
  | idleLoop
  | writeError (f : IoFailure)
  | readError (f : IoFailure)
  deriving DecidableEq, Repr

def IoFailure.render (f : IoFailure) : String := f.kind ++ ": " ++ f.message

namespace Status

def kindName : Status → String
  | .running => "running"
  | .haltCommand => "haltedByHaltCommand"
  | .endOfOutput => "haltedByEofWrite"
  | .idleLoop => "noIoInfiniteLoop"
  | .writeError _ => "writeError"
  | .readError _ => "readError"

def cause? : Status → Option IoFailure
  | .writeError f | .readError f => some f
  | _ => none

def render (s : Status) : String :=
  match s.cause? with
  | some f => s.kindName ++ "(" ++ f.render ++ ")"
  | none => s.kindName

def isRunning (s : Status) : Bool := s == .running

def isError (s : Status) : Bool := s.cause?.isSome

end Status

end RingMachine

/-!
## Memory

A machine's memory holds the image loaded last, zero beyond it, and the cells written since,
kept in a sorted map. Reading a cell sees the last write to it, else the image. The cells
that now differ from the image are listed in address order.
-/

namespace RingMachine

structure Memory where
  image : Array Nat
  writes : Std.TreeMap Nat Nat compare

namespace Memory

def ofImage (image : List Nat) : Memory := ⟨image.toArray, ∅⟩

def loaded (m : Memory) (i : Nat) : Nat := m.image.getD i 0

def get (m : Memory) (i : Nat) : Nat :=
  match m.writes[i]? with
  | some v => v
  | none => m.loaded i

def set (m : Memory) (i v : Nat) : Memory := { m with writes := m.writes.insert i v }

def changes (m : Memory) : List (Nat × Nat) :=
  m.writes.toList.filter fun (i, v) => v ≠ m.loaded i

@[simp] theorem get_set (m : Memory) (i j v : Nat) :
    (m.set i v).get j = if i = j then v else m.get j := by
  simp only [get, set, Std.TreeMap.getElem?_insert]
  by_cases h : i = j
  · subst h
    simp
  · have : compare i j ≠ .eq := by
      intro e
      exact h (Std.LawfulEqCmp.eq_of_compare e)
    simp [this, h, loaded]

@[simp] theorem get_ofImage (image : List Nat) (i : Nat) :
    (ofImage image).get i = image.getD i 0 := by
  simp [get, ofImage, loaded]

end Memory

end RingMachine

/-!
## Channels

Input is a queue of replies, one per read: a value as supplied, which the machine reads as
an integer, the end of the input, or a failure; once the queue is empty every read finds the
end. Output
collects the bytes written and may be set to fail every write once it holds a given number
of bytes.
-/

namespace RingMachine

inductive Reply where
  | value (x : Literal)
  | endOfInput
  | failure (f : IoFailure)

/-- A provider that answers `None` has come to the end of its input. -/
def Reply.normalize : Reply → Reply
  | .value .none => .endOfInput
  | r => r

@[simp] theorem Reply.normalize_endOfInput : Reply.endOfInput.normalize = .endOfInput := rfl

@[simp] theorem Reply.normalize_int (v : Int) :
    (Reply.value (.int v)).normalize = .value (.int v) :=
  rfl

structure Input where
  pending : List Reply
  reads : Nat := 0

namespace Input

/-- Takes the next reply; an empty queue, and a value of `None`, answer with the end of the
input. -/
def read (inp : Input) : Reply × Input :=
  match inp.pending with
  | [] => (.endOfInput, { inp with reads := inp.reads + 1 })
  | r :: rest => (r.normalize, { pending := rest, reads := inp.reads + 1 })

theorem reads_read (inp : Input) : inp.read.2.reads = inp.reads + 1 := by
  unfold read
  split <;> rfl

end Input

structure Output where
  written : Array UInt8 := #[]
  failAfter : Option Nat := none
  failure : IoFailure := ⟨"BrokenPipeError", "closed"⟩
  deriving Repr

namespace Output

/-- Writes a byte, or fails once the output holds `failAfter` bytes. -/
def write (out : Output) (b : Nat) : Except IoFailure Output :=
  match out.failAfter with
  | some k =>
    if k ≤ out.written.size then .error out.failure
    else .ok { out with written := out.written.push b.toUInt8 }
  | none => .ok { out with written := out.written.push b.toUInt8 }

end Output

end RingMachine

/-!
## The machine

The machine holds accumulator `a`, code pointer `c` and data pointer `d`, a memory of one cell
per word, a status, counts of steps and of steps without a transfer, a trace and its two
channels. Loading an image checks it and starts over: registers, status, counts and trace
are reset, while the channels go on.

Registers hold any integer, as a caller may set them; the machine itself only stores words.
An address names a cell when it lies within the memory, or counts back from its end when it
is negative down to minus the memory's size; any other address ends the request. A cell
holds any value of its cell type, so a caller may store more than a word in it, and a value
outside the cell type ends the request.
-/

namespace RingMachine

/-- A machine: its ring, the three registers, the memory, the status, the counts of steps and of
steps since the last transfer with the count at which it stops idling, the trace of recent
steps, and its two channels. -/
structure Machine where
  ring : WordRing
  a : Int := 0
  c : Int := 0
  d : Int := 0
  memory : Memory := Memory.ofImage []
  status : Status := .running
  steps : Nat := 0
  idleSteps : Nat := 0
  idleLimit : Option Nat := none
  trace : Trace
  input : Input
  output : Output

inductive MachineError where
  | idleLimit (shown : String)
  | imageTooLong (cells size : Nat)
  | cellOutOfRange (index : Nat) (value : Int) (maxValue : Nat)
  | failed (c : Crash)

def MachineError.message : MachineError → String
  | .idleLimit shown => "idle_limit must be >= 1, got " ++ shown
  | .imageTooLong n size => "Memory image has " ++ toString n ++ " cells; at most " ++
      toString size ++ " fit"
  | .cellOutOfRange i v m => "Memory image cell " ++ toString i ++ " holds " ++ toString v ++
      ", outside [0, " ++ toString m ++ "]"
  | .failed c => c.message

def MachineError.crash? : MachineError → Option Crash
  | .failed c => some c
  | _ => none

namespace WordRing

def cellAt? (r : WordRing) (i : Int) : Option Nat :=
  if 0 ≤ i ∧ i < r.size then some i.toNat
  else if -(r.size : Int) ≤ i ∧ i < 0 then some (i + r.size).toNat
  else none

def outOfBounds (r : WordRing) (i : Int) : Crash :=
  if i < -Int.pow 2 63 ∨ Int.pow 2 64 ≤ i then
    ⟨"IndexError", "only integers, slices (`:`), ellipsis (`...`), numpy.newaxis (`None`) " ++
      "and integer or boolean arrays are valid indices"⟩
  else if Int.pow 2 63 ≤ i then ⟨"OverflowError", "Python int too large to convert to C long"⟩
  else ⟨"IndexError", "index " ++ toString i ++ " is out of bounds for axis 0 with size " ++
    toString r.size⟩

theorem cellAt_lt (r : WordRing) (i : Int) (n : Nat) (h : r.cellAt? i = some n) :
    n < r.size := by
  unfold cellAt? at h
  split at h
  · cases h
    omega
  · split at h
    · cases h
      omega
    · cases h

end WordRing

namespace Machine

def sizeLimit : Nat := Nat.pow 2 63

def checkSize (ring : WordRing) : Except MachineError Unit :=
  if sizeLimit ≤ ring.size then .error (.failed (.valueError "Maximum allowed dimension exceeded"))
  else if sizeLimit ≤ ring.size * ring.cell.bytes then
    .error (.failed (.valueError ("array is too big; `arr.size * arr.dtype.itemsize` is " ++
      "larger than the maximum possible size.")))
  else .ok ()

/-- A fresh machine with zeroed memory. An idle limit, unless it is `none`, must be at
least 1, and is checked before the memory's size; a trace depth of zero or less records
nothing. -/
def create (ring : WordRing) (idleLimit : Literal) (traceDepth : Int) (input : Input)
    (output : Output) : Except MachineError Machine := do
  let trace : Trace := { depth := traceDepth.toNat }
  let limit ← match idleLimit with
    | .none => pure none
    | v =>
      match Amount.ofLiteral? v with
      | none => throw (.failed (incomparable "<" v))
      | some x => if x.lt 1 then throw (.idleLimit v.render) else pure x.reachedAt?
  checkSize ring
  pure { ring, idleLimit := limit, trace, input, output }

def fetch (m : Machine) (i : Int) : Except Crash Nat :=
  match m.ring.cellAt? i with
  | some n => .ok (m.memory.get n)
  | none => .error (m.ring.outOfBounds i)

def poke (m : Machine) (i v : Int) : Except Crash Machine :=
  match m.ring.cellAt? i with
  | none => .error (m.ring.outOfBounds i)
  | some n =>
    if 0 ≤ v ∧ v < Int.pow 2 m.ring.cell.bits then .ok { m with memory := m.memory.set n v.toNat }
    else .error ⟨"OverflowError", "Python integer " ++ toString v ++ " out of bounds for " ++
      m.ring.cell.name⟩

def firstOutOfRange (r : WordRing) (image : List Int) : Option (Nat × Int) :=
  (image.zipIdx.find? fun (v, _) => !r.isValid v).map fun (v, i) => (i, v)

/-- Loads an image of integers and starts over; a failed load changes nothing. -/
def load (m : Machine) (image : List Int) : Except MachineError Machine :=
  if m.ring.size < image.length then .error (.imageTooLong image.length m.ring.size)
  else match firstOutOfRange m.ring image with
    | some (i, v) => .error (.cellOutOfRange i v m.ring.maxValue)
    | none => .ok { m with
        memory := Memory.ofImage (image.map Int.toNat), a := 0, c := 0, d := 0,
        status := .running, steps := 0, idleSteps := 0, trace := m.trace.clear }

def loadValues (m : Machine) (image : List Literal) : Except MachineError Machine :=
  match image.mapM Literal.toInteger with
  | .error e => .error (.failed e.toCrash)
  | .ok values => m.load values

end Machine

end RingMachine
