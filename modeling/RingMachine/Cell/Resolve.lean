import RingMachine.Cell.Type
import RingMachine.Text.Integer
import RingMachine.Cell.Layout
import RingMachine.Text.Literal

/-!
Reading type descriptions: the units of dates and durations, and descriptions as a whole.

## Units of dates and durations

Units of dates and durations, as written after the stem of a type name (`M8[ns]`,
`datetime64[25s]`, `m8[ms/4]`). Nothing after the stem is the generic unit. Otherwise the text
is `[`, an optional count, a base unit, an optional `/` and divisor, and `]`. A divisor moves
to a finer base unit in which the count stays whole, trying the few finer units one by one;
a divisor that no finer unit allows is refused, and so is a divisor of the generic unit.
-/

namespace RingMachine.TimeUnit

def baseOf? : List Char → Option TimeBase
  | ['Y'] => some .year
  | ['M'] => some .month
  | ['W'] => some .week
  | ['D'] => some .day
  | ['h'] => some .hour
  | ['m'] => some .minute
  | ['s'] => some .second
  | ['m', 's'] => some .milli
  | ['u', 's'] => some .micro
  | ['μ', 's'] => some .micro
  | ['n', 's'] => some .nano
  | ['p', 's'] => some .pico
  | ['f', 's'] => some .femto
  | ['a', 's'] => some .atto
  | ['g', 'e', 'n', 'e', 'r', 'i', 'c'] => some .generic
  | _ => none

def finerUnits : TimeBase → List (Int × TimeBase)
  | .year => [(12, .month), (52, .week), (365, .day)]
  | .month => [(4, .week), (30, .day), (720, .hour)]
  | .week => [(7, .day), (168, .hour), (10080, .minute), (0, .year)]
  | .day => [(24, .hour), (1440, .minute), (86400, .second)]
  | .hour => [(60, .minute), (3600, .second)]
  | .minute => [(60, .second), (60000, .milli)]
  | .second => [(1000, .milli), (1000000, .micro)]
  | .milli => [(1000, .micro), (1000000, .nano)]
  | .micro => [(1000, .nano), (1000000, .pico)]
  | .nano => [(1000, .pico), (1000000, .femto)]
  | .pico => [(1000, .femto), (1000000, .atto)]
  | .femto => [(1000, .atto)]
  | .atto | .generic => []

def divide (written : String) (u : TimeUnit) (den : Int) : Except CellTypeError TimeUnit :=
  if u.base = .generic then
    .error (.crash (.valueError "Can't use 'den' divisor with generic units"))
  else if den = 0 then .error .notUnderstood
  else
    match (finerUnits u.base).find? fun (m, _) => m.tmod den = 0 with
    | some (m, finer) => .ok ⟨u.count * m.tdiv den, finer⟩
    | none => .error (.crash (.valueError ("divisor (" ++ toString den ++
        ") is not a multiple of a lower-unit in datetime metadata \"" ++ written ++ "\"")))

def countLimit : Int := 2147483647

def readInner (written : String) (inner : List Char) : Except CellTypeError TimeUnit := do
  let (count, rest) ← match Text.readNumberPrefix? inner with
    | none => pure (1, inner)
    | some (n, rest) =>
      if n < 0 || countLimit < n then throw .notUnderstood else pure (n, rest)
  let symbol := rest.takeWhile (· ≠ '/')
  if symbol.isEmpty then throw .notUnderstood
  let some base := baseOf? symbol | throw .notUnderstood
  match rest.dropWhile (· ≠ '/') with
  | [] => pure ⟨count, base⟩
  | _ :: divisorText =>
    match Text.readNumberPrefix? divisorText with
    | some (den, []) => if den = 1 then pure ⟨count, base⟩ else divide written ⟨count, base⟩ den
    | _ => throw .notUnderstood

/-- Reads the text after the stem of a date or duration type name. -/
def parse (suffix : List Char) : Except CellTypeError TimeUnit :=
  match suffix with
  | [] => .ok .generic
  | '[' :: rest =>
    if suffix.length < 3 then .error .notUnderstood
    else match rest.span (· ≠ ']') with
      | (inner, ']' :: after) =>
        if inner.isEmpty then .error .notUnderstood
        else do
          let u ← readInner (String.ofList suffix) inner
          if after.isEmpty then pure u else throw .notUnderstood
      | _ => .error .notUnderstood
  | _ => .error .notUnderstood

end RingMachine.TimeUnit

/-!
## Descriptions

Resolving a type description to an element type. A description is text, nothing (which
means `float64`), an empty list (an empty record), or a record given as a map. Text is read
as UTF-8, so a lone surrogate in it ends the request.

Text that reads as a layout is resolved field by field: a field with a repeat count over a
byte string, text or block of open size gives it that size, any other repeated field is a
block of the repeated size, and several fields make a record of their total size. Other
text is an optional byte-order mark and then a date or duration name with its unit, a
one-character code, a kind letter with a size, or, failing those, a registered name
(looked up with the mark, so a marked registered name is not understood).

A record given as a map lists `names` and `formats`, and may give `offsets`, `titles`, an
`itemsize` and whether it is `aligned`; a map without both keys lists fields as pairs, which
cannot be written here. An aligned record starts each field at a multiple of its alignment
and rounds its size up to the largest alignment; the request to align passes on to the
records inside it.
-/

namespace RingMachine.CellType

def intLimit : Nat := 2147483647

def crash (message : String) : CellTypeError := .crash (Crash.valueError message)

def resize (n : Nat) : CellType → CellType
  | .bytes _ => .bytes n
  | .text _ => .text n
  | .record _ f a => .record n f a
  | t => t

def withRepeat (base : CellType) (r : Layout.Repeat) : Except CellTypeError CellType :=
  if base.isUnsized then
    match r with
    | .count n =>
      if intLimit < n then .error (crash "invalid itemsize in generic type tuple")
      else .ok (resize n base)
    | .shape _ => .error (crash "invalid itemsize in generic type tuple")
  else
    let (dims, isTuple) := match r with
      | .count n => ([n], false)
      | .shape ds => (ds, true)
    if dims.any (Nat.pow 2 63 ≤ ·) || 64 < dims.length then
      .error (crash "invalid shape in fixed-type tuple.")
    else if dims.isEmpty && isTuple then .ok base
    else if dims.any (intLimit < ·) then
      .error (crash "invalid shape in fixed-type tuple: dimension does not fit into a C int.")
    else
      let items := dims.foldl (· * ·) 1
      if intLimit < items || intLimit < items * base.size then
        .error (crash ("invalid shape in fixed-type tuple: dtype size in bytes must fit " ++
          "into a C int."))
      else .ok (.record (items * base.size) false base.alignment)

def ofField (resolve : String → Except CellTypeError CellType) (f : Layout.Field) :
    Except CellTypeError CellType := do
  let base ← resolve f.description
  match f.repeats with
  | none => pure base
  | some r => withRepeat base r

def alignUp (n a : Nat) : Nat := if a ≤ 1 then n else (n + a - 1) / a * a

def packed (align : Bool) (types : List CellType) : Nat × Nat :=
  let (size, largest) := types.foldl (fun (acc : Nat × Nat) t =>
    if align then (alignUp acc.1 t.alignment + t.size, max acc.2 t.alignment)
    else (acc.1 + t.size, acc.2)) (0, 1)
  (alignUp size largest, largest)

def ofFields (align : Bool) (resolve : String → Except CellTypeError CellType)
    (fs : List Layout.Field) : Except CellTypeError CellType := do
  let fs := match fs.getLast? with
    | some ⟨"", none⟩ => fs.dropLast
    | _ => fs
  if fs.isEmpty then throw (crash "Expected at least one field name")
  let types ← fs.mapM (ofField resolve)
  let (size, largest) := packed align types
  pure (.record size true (if align then largest else 1))

def isTimeName (body : List Char) : Bool :=
  match body with
  | c :: '8' :: _ => c = 'M' || c = 'm'
  | _ => "datetime64".toList.isPrefixOf body || "timedelta64".toList.isPrefixOf body

def ofTimeName (body : List Char) : Except CellTypeError CellType :=
  match body with
  | 'm' :: '8' :: rest => duration <$> TimeUnit.parse rest
  | 'M' :: '8' :: rest => date <$> TimeUnit.parse rest
  | _ =>
    if "timedelta64".toList.isPrefixOf body then duration <$> TimeUnit.parse (body.drop 11)
    else date <$> TimeUnit.parse (body.drop 10)

def ofKind (kind : Char) (n : Nat) (fallback : Except CellTypeError CellType) :
    Except CellTypeError CellType :=
  match kind with
  | 'S' | 'a' => .ok (.bytes n)
  | 'U' => if intLimit / 4 < n then .error .notUnderstood else .ok (.text n)
  | 'V' => .ok (.record n false 1)
  | _ =>
    if n = 0 then fallback
    else match ofKindSize? kind n with
      | some t => .ok t
      | none => fallback

def ofShortName (s : String) : Except CellTypeError CellType := do
  let cs := s.toList
  let (order, body) : ByteOrder × List Char := match cs with
    | '>' :: rest => (.big, rest)
    | c :: rest => if c = '<' || c = '=' || c = '|' then (.little, rest) else (.little, cs)
    | [] => (.little, [])
  if body.isEmpty then throw .notUnderstood
  if isTimeName body then return (← ofTimeName body)
  let lookup : Except CellTypeError CellType :=
    match registered.lookup s with
    | some t => .ok t
    | none => .error .notUnderstood
  let found ← match body with
    | [c] =>
      match ofCode? c with
      | some t => pure t
      | none => lookup
    | kind :: rest =>
      match Text.readNumberPrefix? rest with
      | some (n, tail) =>
        if n < 0 || (intLimit : Int) < n then throw .notUnderstood
        else if tail.isEmpty then ofKind kind n.toNat lookup
        else lookup
      | none => lookup
    | [] => lookup
  return found.withOrder order

def ofText (align : Bool) : Nat → String → Except CellTypeError CellType
  | 0, _ => .error .notUnderstood
  | fuel + 1, s =>
    if s.isEmpty then .error .notUnderstood
    else if Layout.isLayout s.toList then
      match Layout.parse s with
      | .error c => .error (.crash c)
      | .ok (.single f) => ofField (ofText align fuel) f
      | .ok (.fields fs) => ofFields align (ofText align fuel) fs
    else ofShortName s

/-! ### Records given as maps -/

def itemCount? : Literal → Option Nat
  | .list xs => some xs.length
  | .text s => some s.length
  | .dict es => some es.length
  | _ => none

def itemAt (v : Literal) (i : Nat) : Except CellTypeError Literal :=
  match v with
  | .list xs => match xs[i]? with
    | some x => .ok x
    | none => .error (.crash ⟨"IndexError", "list index out of range"⟩)
  | .text s => match s.toList[i]? with
    | some c => .ok (.text (String.singleton c))
    | none => .error (.crash ⟨"IndexError", "string index out of range"⟩)
  | .dict _ => .error (.crash ⟨"KeyError", toString i⟩)
  | _ => .error .notUnderstood

def asCInt : Literal → Except CellTypeError Int
  | .int n =>
    if n < -Int.pow 2 63 ∨ Int.pow 2 63 ≤ n then
      .error (.crash ⟨"OverflowError", "Python int too large to convert to C long"⟩)
    else if n < -Int.pow 2 31 ∨ Int.pow 2 31 ≤ n then
      .error (crash "integer won't fit into a C int")
    else .ok n
  | _ => .error .notUnderstood

structure RecordState where
  used : List String := []
  size : Nat := 0
  largest : Nat := 1

structure RecordParts where
  names : Literal
  formats : Literal
  offsets : Option Literal
  titles : Option Literal

def addField (resolve : Literal → Except CellTypeError CellType) (align : Bool)
    (parts : RecordParts) (st : RecordState) (i : Nat) : Except CellTypeError RecordState := do
  let title : Option Literal := match parts.titles with
    | some ts => match itemAt ts i with
      | .ok .none => none
      | .ok t => some t
      | .error _ => none
    | none => none
  let t ← resolve (← itemAt parts.formats i)
  let largest := if align then max st.largest t.alignment else st.largest
  let size ← match parts.offsets with
    | some offs =>
      let off ← asCInt (← itemAt offs i)
      if off < 0 then throw (crash ("offset " ++ toString off ++ " cannot be negative"))
      if align && off.toNat % t.alignment ≠ 0 then
        throw (crash ("offset " ++ toString off ++ " for NumPy dtype with fields is not " ++
          "divisible by the field alignment " ++ toString t.alignment ++ " with align=True"))
      pure (max st.size (off.toNat + t.size))
    | none => pure ((if align then alignUp st.size t.alignment else st.size) + t.size)
  let name ← match (← itemAt parts.names i) with
    | .text s => pure s
    | _ => throw (crash "field names must be strings")
  if st.used.contains name then throw (crash "name already used as a name or title")
  let used := st.used ++ [name]
  let used ← match title with
    | some (.text s) =>
      if used.contains s then throw (crash "title already used as a name or title.")
      pure (used ++ [s])
    | _ => pure used
  pure { used, size, largest }

def ofNamed (resolve : Bool → Literal → Except CellTypeError CellType) (align : Bool)
    (parts : RecordParts) (aligned itemsize : Option Literal) :
    Except CellTypeError CellType := do
  let some n := itemCount? parts.names | throw .notUnderstood
  let shorter := fun (v : Option Literal) => match v with
    | some v => match itemCount? v with
      | some k => decide (k < n)
      | none => true
    | none => false
  if shorter (some parts.formats) || shorter parts.offsets || shorter parts.titles then
    throw (crash ("'names', 'formats', 'offsets', and 'titles' dict entries " ++
      "must have the same length"))
  let align ← match aligned with
    | none | some (.bool false) => pure align
    | some (.bool true) => pure true
    | some _ => throw (crash ("NumPy dtype descriptor includes 'aligned' entry, but its " ++
        "value is neither True nor False"))
  let st ← (List.range n).foldlM (addField (resolve align) align parts) {}
  let size := alignUp st.size st.largest
  let alignment := if align then st.largest else 1
  match itemsize with
  | none => pure (.record size true alignment)
  | some v =>
    let k ← asCInt v
    if k < size then
      throw (crash ("NumPy dtype descriptor requires " ++ toString size ++
        " bytes, cannot override to smaller itemsize of " ++ toString k))
    if align && k.toNat % alignment ≠ 0 then
      throw (crash ("NumPy dtype descriptor requires alignment of " ++ toString alignment ++
        " bytes, which is not divisible into the specified itemsize " ++ toString k))
    pure (.record k.toNat true alignment)

def ofFieldMap : List (String × Literal) → Except CellTypeError CellType
  | [] => .ok (.record 0 true 1)
  | (_, v) :: _ =>
    match itemCount? v with
    | some _ => .error (crash "entry not a 2- or 3- tuple")
    | none => .error .notUnderstood

def ofLiteral : Nat → Bool → Literal → Except CellTypeError CellType
  | 0, _, _ => .error .notUnderstood
  | fuel + 1, align, v =>
    match v with
    | .none => .ok (.float 8)
    | .text s =>
      match Text.encodeFailure? s false with
      | some c => .error (.crash c)
      | none => ofText align (s.length + 1) s
    | .list [] => .ok (.record 0 true 1)
    | .dict entries =>
      match entries.lookup "names", entries.lookup "formats" with
      | some names, some formats =>
        ofNamed (ofLiteral fuel) align
          ⟨names, formats, entries.lookup "offsets", entries.lookup "titles"⟩
          (entries.lookup "aligned") (entries.lookup "itemsize")
      | _, _ => ofFieldMap entries
    | _ => .error .notUnderstood

/-- The type a supplied value describes. -/
def resolve (v : Literal) : Except CellTypeError CellType :=
  ofLiteral (v.render.length + 1) false v

end RingMachine.CellType
