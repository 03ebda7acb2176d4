import BackupAcks.MessagePack.Writer
import BackupAcks.Text.Diagnostics

/-!
# Reading MessagePack values

A `Reader` takes a value off the front of a list of bytes. `readHead` takes the marker together
with the number or the length that belongs to it; what a text, a block of bytes or a container
holds is left for the reader that knows what to make of it. `skip` takes one whole value of any
kind. Each way in which reading fails has its message; the text of what was expected belongs to the
schema of the value and is carried along.

The nesting of containers is limited: a reader of a container gets the *room* that is left, the
number of levels that may still be opened.
-/
namespace BackupAcks.MessagePack

/-! ## Errors -/

/-- Why a typed value could not be read. -/
inductive DecodeError where
  /-- The bytes end where a marker should stand. -/
  | markerMissing
  /-- The bytes end inside a number, a tag or a length. -/
  | dataMissing
  /-- The bytes end inside a text or a block of bytes. -/
  | payloadMissing
  /-- Containers are nested too deeply. -/
  | tooDeep
  /-- A marker that cannot start the value. -/
  | wrongMarker (m : Marker)
  /-- A container holds more elements than the `used` ones, or other than one entry. -/
  | wrongLength (used : Nat)
  /-- A container holds too few elements. -/
  | tooShort (length : Nat) (expected : String)
  | wrongType (found : Kind) (expected : String)
  | wrongValue (found : Kind) (expected : String)
  | unknownVariant (name : String) (variants : List String)
  | duplicateField (name : String)
  | missingField (name : String)
  | brokenText (why : Utf8.Broken)
  deriving DecidableEq, Repr

def ticked (name : String) : String := "`" ++ name ++ "`"

def DecodeError.message : DecodeError → String
  | .markerMissing => "IO error while reading marker: failed to fill whole buffer"
  | .dataMissing => "IO error while reading data: failed to fill whole buffer"
  | .payloadMissing => "IO error while reading data: unexpected end of file"
  | .tooDeep => "depth limit exceeded"
  | .wrongMarker m => s!"wrong msgpack marker {m.text}"
  | .wrongLength used => s!"array had incorrect length, expected {used}"
  | .tooShort length expected => s!"invalid length {length}, expected {expected}"
  | .wrongType found expected => s!"invalid type: {found.text}, expected {expected}"
  | .wrongValue found expected => s!"invalid value: {found.text}, expected {expected}"
  | .unknownVariant name variants =>
    "unknown variant " ++ ticked name ++ ", expected one of " ++
      ", ".intercalate (variants.map ticked)
  | .duplicateField name => "duplicate field " ++ ticked name
  | .missingField name => "missing field " ++ ticked name
  | .brokenText why => s!"string found to be invalid utf8: {why.message}"

/-- Takes a value off the front of the bytes, or says why it cannot. -/
abbrev Reader := StateT (List UInt8) (Except DecodeError)

/-! ## Bytes -/

/-- The next `n` bytes, or the error `missing` if there are fewer. -/
def takeBytes (n : Nat) (missing : DecodeError) : Reader (List UInt8) := fun bytes =>
  let taken := bytes.take n
  if taken.length < n then .error missing else .ok (taken, bytes.drop n)

def readMarker : Reader Marker := fun
  | [] => .error .markerMissing
  | b :: rest => .ok (Marker.ofByte b, rest)

/-- The number whose bytes are listed, the highest first. -/
def natural (bytes : List UInt8) : Nat := bytes.foldl (fun n b => 256 * n + b.toNat) 0

def readNatural (count : Nat) : Reader Nat := do
  return natural (← takeBytes count .dataMissing)

/-- The signed reading of `n`, a pattern of `count` bytes. -/
def toSigned (count : Nat) (n : Nat) : Int :=
  if n < Nat.pow 2 (8 * count - 1) then n else (n : Int) - Nat.pow 2 (8 * count)

def readSigned (count : Nat) : Reader Int := do
  return toSigned count (← readNatural count)

/-- The `n` bytes of a text or a block of bytes. -/
def readPayload (n : Nat) : Reader (List UInt8) := takeBytes n .payloadMissing

/-! ## Heads -/

inductive Scalar where
  | null
  | boolean (b : Bool)
  | unsigned (n : Nat)
  | signed (i : Int)
  | float (x : Binary64)
  deriving DecidableEq, Repr

/-- A scalar, or the kind and the length of a longer value. -/
inductive Head where
  | scalar (s : Scalar)
  | str (length : Nat)
  | bin (length : Nat)
  | array (length : Nat)
  | map (length : Nat)
  | ext (length : Nat)
  deriving DecidableEq, Repr

/-- What follows the marker up to the end of the head. -/
def Marker.readHead : Marker → Reader Head
  | .null => return .scalar .null
  | .boolean b => return .scalar (.boolean b)
  | .fixPos n => return .scalar (.unsigned n)
  | .fixNeg n => return .scalar (.signed ((n.val : Int) - 32))
  | .u8 => return .scalar (.unsigned (← readNatural 1))
  | .u16 => return .scalar (.unsigned (← readNatural 2))
  | .u32 => return .scalar (.unsigned (← readNatural 4))
  | .u64 => return .scalar (.unsigned (← readNatural 8))
  | .i8 => return .scalar (.signed (← readSigned 1))
  | .i16 => return .scalar (.signed (← readSigned 2))
  | .i32 => return .scalar (.signed (← readSigned 4))
  | .i64 => return .scalar (.signed (← readSigned 8))
  | .f32 => return .scalar (.float (.ofBits32 (UInt32.ofNat (← readNatural 4))))
  | .f64 => return .scalar (.float (.ofBits (UInt64.ofNat (← readNatural 8))))
  | .fixStr n => return .str n
  | .str8 => return .str (← readNatural 1)
  | .str16 => return .str (← readNatural 2)
  | .str32 => return .str (← readNatural 4)
  | .bin8 => return .bin (← readNatural 1)
  | .bin16 => return .bin (← readNatural 2)
  | .bin32 => return .bin (← readNatural 4)
  | .fixArray n => return .array n
  | .array16 => return .array (← readNatural 2)
  | .array32 => return .array (← readNatural 4)
  | .fixMap n => return .map n
  | .map16 => return .map (← readNatural 2)
  | .map32 => return .map (← readNatural 4)
  | .fixExt1 => return .ext 1
  | .fixExt2 => return .ext 2
  | .fixExt4 => return .ext 4
  | .fixExt8 => return .ext 8
  | .fixExt16 => return .ext 16
  | .ext8 => return .ext (← readNatural 1)
  | .ext16 => return .ext (← readNatural 2)
  | .ext32 => return .ext (← readNatural 4)
  | .reserved => throw (.wrongMarker .reserved)

def readHead : Reader Head := do (← readMarker).readHead

/-- Whether the marker starts a scalar. -/
def Marker.isScalar : Marker → Bool
  | .null | .boolean _ | .fixPos _ | .fixNeg _ | .u8 | .u16 | .u32 | .u64 | .i8 | .i16 | .i32
  | .i64 | .f32 | .f64 => true
  | _ => false

def Scalar.kind : Scalar → Kind
  | .null => .unit
  | .boolean b => .boolean b
  | .unsigned n => .integer n
  | .signed i => .integer i
  | .float x => .float x

/-- The kind of a value, for a diagnostic. A text shows itself, so it is read for that. -/
def Head.readKind : Head → Reader Kind
  | .scalar s => return s.kind
  | .str n => do
    match Utf8.decode (← readPayload n) with
    | .ok s => return .string s
    | .error why => throw (.brokenText why)
  | .bin n => do
    let _ ← readPayload n
    return .bytes
  | .array _ => return .sequence
  | .map _ => return .map
  | .ext _ => return .wrapped

/-- Refuses a value in whose place something else was expected. -/
def Head.refuse {α : Type} (h : Head) (expected : String) : Reader α := do
  throw (.wrongType (← h.readKind) expected)

/-! ## Whole values -/

/-- The number, if it is whole and from zero to below `limit`. -/
def Scalar.toNatural (limit : Nat) (expected : String) : Scalar → Except DecodeError Nat
  | .unsigned n =>
    if n < limit then .ok n else .error (.wrongValue (.integer n) expected)
  | .signed i =>
    if 0 ≤ i ∧ i < limit then .ok i.toNat else .error (.wrongValue (.integer i) expected)
  | s => .error (.wrongType s.kind expected)

/-- A number in any of the integer encodings, if it lies below `limit`. -/
def readBelow (limit : Nat) (expected : String) : Reader Nat := do
  let m ← readMarker
  if m.isScalar then
    match ← m.readHead with
    | .scalar s => s.toNatural limit expected
    | h => h.refuse expected
  else throw (.wrongMarker m)

def readWord32 : Reader UInt32 := return UInt32.ofNat (← readBelow 0x100000000 "u32")

def readWord64 : Reader UInt64 := return UInt64.ofNat (← readBelow 0x10000000000000000 "u64")

/-- A text, given as text or as bytes that are UTF-8. -/
def readText : Reader String := do
  match ← readHead with
  | .str n =>
    match Utf8.decode (← readPayload n) with
    | .ok s => return s
    | .error why => throw (.brokenText why)
  | .bin n =>
    match Utf8.decode (← readPayload n) with
    | .ok s => return s
    | .error _ => throw (.wrongValue .bytes "a string")
  | h => h.refuse "a string"

def times : (n : Nat) → Reader Unit → Reader Unit
  | 0, _ => return ()
  | n + 1, r => do
    r
    times n r

/-- Takes one value of any kind off the front. -/
def skip (room : Nat) : Reader Unit := do
  match ← readHead with
  | .scalar _ => return ()
  | .str n | .bin n => discard (readPayload n)
  | .ext n =>
    if room = 0 then throw .tooDeep
    discard (takeBytes 1 .dataMissing)
    discard (readPayload n)
  | .array n =>
    match room with
    | 0 => throw .tooDeep
    | room + 1 => times n (skip room)
  | .map n =>
    match room with
    | 0 => throw .tooDeep
    | room + 1 => times n do
      skip room
      skip room

end BackupAcks.MessagePack
