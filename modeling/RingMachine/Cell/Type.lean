import RingMachine.Ring.Basic
import RingMachine.Text.Quoted

/-!
Element types of arrays, and their short names.

## Element types

Element types of arrays, as a type description resolves to them: unsigned and signed
integers of the four widths, truth values, floating-point and complex numbers, byte strings,
fixed-length text, records and blocks of bytes, object references, dates, durations and
variable-length text. A type has a size in bytes and a canonical name such as `uint16`,
`bytes8`, `str256`, `void16` or `datetime64[s]`; byte strings, text and blocks of size zero
are named without a size.
-/

namespace RingMachine

inductive TimeBase where
  | year
  | month
  | week
  | day
  | hour
  | minute
  | second
  | milli
  | micro
  | nano
  | pico
  | femto
  | atto
  | generic
  deriving DecidableEq, Repr

def TimeBase.symbol : TimeBase → String
  | .year => "Y"
  | .month => "M"
  | .week => "W"
  | .day => "D"
  | .hour => "h"
  | .minute => "m"
  | .second => "s"
  | .milli => "ms"
  | .micro => "us"
  | .nano => "ns"
  | .pico => "ps"
  | .femto => "fs"
  | .atto => "as"
  | .generic => "generic"

structure TimeUnit where
  count : Int
  base : TimeBase
  deriving DecidableEq, Repr

def TimeUnit.generic : TimeUnit := ⟨1, .generic⟩

def TimeUnit.suffix (u : TimeUnit) : String :=
  if u.base = .generic then ""
  else "[" ++ (if u.count = 1 then "" else toString u.count) ++ u.base.symbol ++ "]"

/-- An element type. Text holds `chars` characters of four bytes each; a record is a block of
`size` bytes aligned to `alignment` bytes. -/
inductive CellType where
  | unsigned (w : CellWidth) (order : ByteOrder)
  | signed (w : CellWidth)
  | boolean
  | float (bytes : Nat)
  | complex (bytes : Nat)
  | bytes (size : Nat)
  | text (chars : Nat)
  | record (size : Nat) (fields : Bool) (alignment : Nat)
  | object
  | date (unit : TimeUnit)
  | duration (unit : TimeUnit)
  | textObject
  deriving DecidableEq, Repr

namespace CellType

def sizedName (stem : String) (bytes : Nat) : String :=
  if bytes = 0 then stem else stem ++ toString (8 * bytes)

def name : CellType → String
  | .unsigned w _ => w.name
  | .signed w => "int" ++ toString w.bits
  | .boolean => "bool"
  | .float b => "float" ++ toString (8 * b)
  | .complex b => "complex" ++ toString (8 * b)
  | .bytes n => sizedName "bytes" n
  | .text n => sizedName "str" (4 * n)
  | .record n _ _ => sizedName "void" n
  | .object => "object"
  | .date u => "datetime64" ++ u.suffix
  | .duration u => "timedelta64" ++ u.suffix
  | .textObject => "StringDType128"

def size : CellType → Nat
  | .unsigned w _ | .signed w => w.bytes
  | .boolean => 1
  | .float b | .complex b => b
  | .bytes n => n
  | .text n => 4 * n
  | .record n _ _ => n
  | .object | .date _ | .duration _ => 8
  | .textObject => 16

def alignment : CellType → Nat
  | .unsigned w _ | .signed w => w.bytes
  | .boolean | .bytes _ => 1
  | .float b => b
  | .complex b => b / 2
  | .text _ => 4
  | .record _ _ a => a
  | .object | .date _ | .duration _ | .textObject => 8

def isUnsized : CellType → Bool
  | .bytes 0 | .text 0 | .record 0 false _ => true
  | _ => false

def withOrder (o : ByteOrder) : CellType → CellType
  | .unsigned w _ => .unsigned w (if w = .w8 then .little else o)
  | t => t

end CellType

/-- Why a description names no type: a type error, which the reader's callers report as an
unknown type, or another failure of the reader, such as a value error. -/
inductive CellTypeError where
  | notUnderstood
  | crash (c : Crash)
  deriving DecidableEq, Repr

end RingMachine

/-!
## Short names

The short names of element types. A type has a one-character code (`H` is `uint16`, `d` is
`float64`); the characters U+0000 to U+0017 are codes too, standing for the builtin types in
their numbering. A kind letter and a size in bytes name a type (`u2` is `uint16`, `c16` is
`complex128`). Last, some types are registered under full names and aliases (`ushort`,
`float`, `unicode`). Sizes follow a host with 64-bit integers, pointers and 16-byte extended
floats.
-/

namespace RingMachine.CellType

def builtin : Array CellType := #[
  .boolean, .signed .w8, .unsigned .w8 .little, .signed .w16, .unsigned .w16 .little,
  .signed .w32, .unsigned .w32 .little, .signed .w64, .unsigned .w64 .little, .signed .w64,
  .unsigned .w64 .little, .float 4, .float 8, .float 16, .complex 8, .complex 16,
  .complex 32, .object, .bytes 0, .text 0, .record 0 false 1, .date .generic,
  .duration .generic, .float 2]

def ofCode? (c : Char) : Option CellType :=
  if c.toNat < builtin.size then builtin[c.toNat]?
  else match c with
    | '?' => some .boolean
    | 'b' => some (.signed .w8)
    | 'B' => some (.unsigned .w8 .little)
    | 'h' => some (.signed .w16)
    | 'H' => some (.unsigned .w16 .little)
    | 'i' => some (.signed .w32)
    | 'I' => some (.unsigned .w32 .little)
    | 'l' | 'q' | 'n' | 'p' => some (.signed .w64)
    | 'L' | 'Q' | 'N' | 'P' => some (.unsigned .w64 .little)
    | 'e' => some (.float 2)
    | 'f' => some (.float 4)
    | 'd' => some (.float 8)
    | 'g' => some (.float 16)
    | 'F' => some (.complex 8)
    | 'D' => some (.complex 16)
    | 'G' => some (.complex 32)
    | 'O' => some .object
    | 'S' => some (.bytes 0)
    | 'U' => some (.text 0)
    | 'V' => some (.record 0 false 1)
    | 'M' => some (.date .generic)
    | 'm' => some (.duration .generic)
    | 'c' => some (.bytes 1)
    | 'T' => some .textObject
    | _ => none

def widthOf? : Nat → Option CellWidth
  | 1 => some .w8
  | 2 => some .w16
  | 4 => some .w32
  | 8 => some .w64
  | _ => none

def ofKindSize? (kind : Char) (size : Nat) : Option CellType :=
  match kind with
  | 'b' => if size = 1 then some .boolean else none
  | 'i' => (widthOf? size).map .signed
  | 'u' => (widthOf? size).map fun w => .unsigned w .little
  | 'f' => if size ∈ [2, 4, 8, 16] then some (.float size) else none
  | 'c' => if size ∈ [8, 16, 32] then some (.complex size) else none
  | 'O' => if size = 4 || size = 8 then some .object else none
  | 'M' => if size = 8 then some (.date .generic) else none
  | 'm' => if size = 8 then some (.duration .generic) else none
  | _ => none

def registered : List (String × CellType) :=
  let u := fun (w : CellWidth) => CellType.unsigned w .little
  let s := CellType.signed
  [("bool", .boolean), ("bool_", .boolean),
   ("float16", .float 2), ("half", .float 2),
   ("float32", .float 4), ("single", .float 4),
   ("float64", .float 8), ("double", .float 8), ("float", .float 8),
   ("longdouble", .float 16), ("float128", .float 16),
   ("complex64", .complex 8), ("csingle", .complex 8),
   ("complex128", .complex 16), ("cdouble", .complex 16), ("complex", .complex 16),
   ("clongdouble", .complex 32), ("complex256", .complex 32),
   ("bytes_", .bytes 0), ("bytes", .bytes 0), ("a", .bytes 0),
   ("str_", .text 0), ("str", .text 0), ("unicode", .text 0),
   ("void", .record 0 false 1),
   ("object_", .object), ("object", .object),
   ("datetime64", .date .generic), ("timedelta64", .duration .generic),
   ("int8", s .w8), ("byte", s .w8), ("uint8", u .w8), ("ubyte", u .w8),
   ("int16", s .w16), ("short", s .w16), ("uint16", u .w16), ("ushort", u .w16),
   ("int32", s .w32), ("intc", s .w32), ("uint32", u .w32), ("uintc", u .w32),
   ("int64", s .w64), ("long", s .w64), ("longlong", s .w64), ("intp", s .w64),
   ("int_", s .w64), ("int", s .w64),
   ("uint64", u .w64), ("ulong", u .w64), ("ulonglong", u .w64), ("uintp", u .w64),
   ("uint", u .w64)]

end RingMachine.CellType
