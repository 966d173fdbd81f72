import RingMachine.Text.Quoted
import RingMachine.Machine.Basic
import RingMachine.Machine.Instruction

/-!
JSON documents, and the reports on a machine written with them.

## JSON documents

JSON documents and their indented text. Objects keep their keys in the given order; a
nonempty array or object puts each member on its own line, indented two spaces deeper than
its brackets, and an empty one is written `[]` or `{}`. Strings are written in ASCII: other
characters become `\u` escapes, with a surrogate pair above the first plane.
-/

namespace RingMachine

inductive JsonValue where
  | null
  | bool (b : Bool)
  | num (n : Int)
  | str (s : String)
  | arr (items : List JsonValue)
  | obj (members : List (String × JsonValue))
  deriving Inhabited

namespace JsonValue

def unitEscape (u : Nat) : List Char := '\\' :: 'u' :: Text.hexPadded 4 u

def escapeChar (c : Char) : List Char :=
  let n := c.toNat
  if c = '"' then ['\\', '"']
  else if c = '\\' then ['\\', '\\']
  else if c = '\n' then ['\\', 'n']
  else if c = '\r' then ['\\', 'r']
  else if c = '\t' then ['\\', 't']
  else if n = 8 then ['\\', 'b']
  else if n = 12 then ['\\', 'f']
  else if n < 0x20 || 0x7f ≤ n then
    if n < 0x10000 then unitEscape n
    else
      let v := n - 0x10000
      unitEscape (0xd800 + v / 0x400) ++ unitEscape (0xdc00 + v % 0x400)
  else [c]

def quote (s : String) : String := String.ofList ('"' :: s.toList.flatMap escapeChar ++ ['"'])

def pad (n : Nat) : String := String.ofList (List.replicate n ' ')

mutual

/-- The text of a value whose brackets stand at depth `depth`. -/
def render (depth : Nat) : JsonValue → String
  | .null => "null"
  | .bool b => if b then "true" else "false"
  | .num n => toString n
  | .str s => quote s
  | .arr [] => "[]"
  | .arr items => "[\n" ++ renderItems (depth + 1) items ++ "\n" ++ pad (2 * depth) ++ "]"
  | .obj [] => "\x7b\x7d"
  | .obj members =>
    "\x7b\n" ++ renderMembers (depth + 1) members ++ "\n" ++ pad (2 * depth) ++ "\x7d"

def renderItems (depth : Nat) : List JsonValue → String
  | [] => ""
  | [v] => pad (2 * depth) ++ render depth v
  | v :: rest => pad (2 * depth) ++ render depth v ++ ",\n" ++ renderItems depth rest

def renderMembers (depth : Nat) : List (String × JsonValue) → String
  | [] => ""
  | [(k, v)] => pad (2 * depth) ++ quote k ++ ": " ++ render depth v
  | (k, v) :: rest =>
    pad (2 * depth) ++ quote k ++ ": " ++ render depth v ++ ",\n" ++ renderMembers depth rest

end

end JsonValue

end RingMachine

/-!
## Reports

Reports on a machine: a text with its trace and status, and a JSON document with its
status, registers, step count and trace.
-/

namespace RingMachine

namespace TraceEntry

def symbol (e : TraceEntry) : String :=
  if Command.isCommandByte e.command then Text.quote (String.singleton (Char.ofNat e.command))
  else Text.quote "?"

def line (e : TraceEntry) : String :=
  "  " ++ e.stateId ++ "  C=" ++ toString e.c ++ " D=" ++ toString e.d ++ " A=" ++ toString e.a ++
    "  " ++ e.symbol ++ " (" ++ toString e.command ++ ") " ++
    (match e.op with
      | some i => i.name
      | none => "NOP")

def toJsonValue (e : TraceEntry) : JsonValue :=
  .obj [("step_index", .num e.index), ("state_id", .str e.stateId), ("c", .num e.c),
    ("d", .num e.d), ("a", .num e.a), ("command", .num e.command),
    ("op", match e.op with
      | some i => .str i.name
      | none => .null)]

end TraceEntry

namespace Machine

/-- The text report; in verbose form it also shows the registers and the step count. -/
def textReport (m : Machine) (verbose : Bool) : String :=
  let entries := m.trace.toList
  let traceLines :=
    if entries.isEmpty then ["  <no trace recorded>"] else entries.map TraceEntry.line
  let registers := if verbose then
      ["  Registers: A=" ++ toString m.a ++ ", C=" ++ toString m.c ++ ", D=" ++ toString m.d ++
        "  Steps: " ++ toString m.steps]
    else []
  "\n".intercalate ("Trace (most recent step last):" :: traceLines ++ registers ++
    ["VmStatus: " ++ m.status.render])

/-- The JSON report. -/
def jsonReport (m : Machine) : JsonValue :=
  .obj [("status", .obj [("kind", .str m.status.kindName),
      ("cause", match m.status.cause? with
        | some f => .str f.render
        | none => .null)]),
    ("registers", .obj [("a", .num m.a), ("c", .num m.c), ("d", .num m.d)]),
    ("steps", .num m.steps),
    ("trace", .arr (m.trace.toList.map TraceEntry.toJsonValue))]

end Machine

end RingMachine
