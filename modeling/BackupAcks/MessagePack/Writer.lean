import BackupAcks.Text.Utf8

/-!
# Writing MessagePack values

Every value starts with a marker byte that gives its type and, for short values, its length or
the value itself. Numbers and headers take the shortest form that holds them.

Results:
* `Marker.ofByte_toByte`: a marker is read back from its byte.
-/
namespace BackupAcks.MessagePack

/-! ## Markers -/

inductive Marker where
  | fixPos (n : Fin 128)
  | fixMap (n : Fin 16)
  | fixArray (n : Fin 16)
  | fixStr (n : Fin 32)
  | null
  | reserved
  | boolean (b : Bool)
  | bin8 | bin16 | bin32
  | ext8 | ext16 | ext32
  | f32 | f64
  | u8 | u16 | u32 | u64
  | i8 | i16 | i32 | i64
  | fixExt1 | fixExt2 | fixExt4 | fixExt8 | fixExt16
  | str8 | str16 | str32
  | array16 | array32
  | map16 | map32
  | fixNeg (n : Fin 32)
  deriving DecidableEq, Repr

namespace Marker

def toByte : Marker → UInt8
  | .fixPos n => UInt8.ofNat n
  | .fixMap n => UInt8.ofNat (0x80 + n)
  | .fixArray n => UInt8.ofNat (0x90 + n)
  | .fixStr n => UInt8.ofNat (0xA0 + n)
  | .null => 0xC0
  | .reserved => 0xC1
  | .boolean false => 0xC2
  | .boolean true => 0xC3
  | .bin8 => 0xC4 | .bin16 => 0xC5 | .bin32 => 0xC6
  | .ext8 => 0xC7 | .ext16 => 0xC8 | .ext32 => 0xC9
  | .f32 => 0xCA | .f64 => 0xCB
  | .u8 => 0xCC | .u16 => 0xCD | .u32 => 0xCE | .u64 => 0xCF
  | .i8 => 0xD0 | .i16 => 0xD1 | .i32 => 0xD2 | .i64 => 0xD3
  | .fixExt1 => 0xD4 | .fixExt2 => 0xD5 | .fixExt4 => 0xD6 | .fixExt8 => 0xD7 | .fixExt16 => 0xD8
  | .str8 => 0xD9 | .str16 => 0xDA | .str32 => 0xDB
  | .array16 => 0xDC | .array32 => 0xDD
  | .map16 => 0xDE | .map32 => 0xDF
  | .fixNeg n => UInt8.ofNat (0xE0 + n)

def ofByte (b : UInt8) : Marker :=
  let n := b.toNat
  if h : n < 0x80 then .fixPos ⟨n, h⟩
  else if h : n < 0x90 then .fixMap ⟨n - 0x80, by omega⟩
  else if h : n < 0xA0 then .fixArray ⟨n - 0x90, by omega⟩
  else if h : n < 0xC0 then .fixStr ⟨n - 0xA0, by omega⟩
  else match n with
    | 0xC0 => .null
    | 0xC2 => .boolean false
    | 0xC3 => .boolean true
    | 0xC4 => .bin8 | 0xC5 => .bin16 | 0xC6 => .bin32
    | 0xC7 => .ext8 | 0xC8 => .ext16 | 0xC9 => .ext32
    | 0xCA => .f32 | 0xCB => .f64
    | 0xCC => .u8 | 0xCD => .u16 | 0xCE => .u32 | 0xCF => .u64
    | 0xD0 => .i8 | 0xD1 => .i16 | 0xD2 => .i32 | 0xD3 => .i64
    | 0xD4 => .fixExt1 | 0xD5 => .fixExt2 | 0xD6 => .fixExt4 | 0xD7 => .fixExt8
    | 0xD8 => .fixExt16
    | 0xD9 => .str8 | 0xDA => .str16 | 0xDB => .str32
    | 0xDC => .array16 | 0xDD => .array32
    | 0xDE => .map16 | 0xDF => .map32
    | n => if 0xE0 ≤ n then .fixNeg ⟨(n - 0xE0) % 32, Nat.mod_lt _ (by omega)⟩ else .reserved

theorem ofByte_toByte (m : Marker) : ofByte m.toByte = m := by
  cases m with
  | fixPos n => revert n; decide
  | fixMap n => revert n; decide
  | fixArray n => revert n; decide
  | fixStr n => revert n; decide
  | fixNeg n => revert n; decide
  | boolean b => cases b <;> rfl
  | _ => rfl

/-- The marker's name, with the length or value it carries. -/
def text : Marker → String
  | .fixPos n => s!"FixPos({n.val})"
  | .fixMap n => s!"FixMap({n.val})"
  | .fixArray n => s!"FixArray({n.val})"
  | .fixStr n => s!"FixStr({n.val})"
  | .fixNeg n => s!"FixNeg({(n.val : Int) - 32})"
  | .null => "Null"
  | .reserved => "Reserved"
  | .boolean false => "False"
  | .boolean true => "True"
  | .bin8 => "Bin8" | .bin16 => "Bin16" | .bin32 => "Bin32"
  | .ext8 => "Ext8" | .ext16 => "Ext16" | .ext32 => "Ext32"
  | .f32 => "F32" | .f64 => "F64"
  | .u8 => "U8" | .u16 => "U16" | .u32 => "U32" | .u64 => "U64"
  | .i8 => "I8" | .i16 => "I16" | .i32 => "I32" | .i64 => "I64"
  | .fixExt1 => "FixExt1" | .fixExt2 => "FixExt2" | .fixExt4 => "FixExt4"
  | .fixExt8 => "FixExt8" | .fixExt16 => "FixExt16"
  | .str8 => "Str8" | .str16 => "Str16" | .str32 => "Str32"
  | .array16 => "Array16" | .array32 => "Array32"
  | .map16 => "Map16" | .map32 => "Map32"

end Marker

/-! ## Values -/

/-- The `count` low bytes of `n`, the highest first. -/
def bigEndian : (count : Nat) → (n : Nat) → List UInt8
  | 0, _ => []
  | count + 1, n => UInt8.ofNat (n / Nat.pow 256 count) :: bigEndian count n

/-- A whole number below `2 ^ 64`. -/
def writeNatural (n : Nat) : List UInt8 :=
  if n < 0x80 then [UInt8.ofNat n]
  else if n < 0x100 then Marker.u8.toByte :: bigEndian 1 n
  else if n < 0x10000 then Marker.u16.toByte :: bigEndian 2 n
  else if n < 0x100000000 then Marker.u32.toByte :: bigEndian 4 n
  else Marker.u64.toByte :: bigEndian 8 n

/-- The header of a text of `n` bytes, `n` below `2 ^ 32`. -/
def textHeader (n : Nat) : List UInt8 :=
  if n < 32 then [UInt8.ofNat (0xA0 + n)]
  else if n < 0x100 then Marker.str8.toByte :: bigEndian 1 n
  else if n < 0x10000 then Marker.str16.toByte :: bigEndian 2 n
  else Marker.str32.toByte :: bigEndian 4 n

def writeText (s : String) : List UInt8 :=
  let bytes := Utf8.encode s
  textHeader bytes.length ++ bytes

/-- The header of an array of fewer than 16 elements. -/
def arrayHeader (n : Fin 16) : List UInt8 := [(Marker.fixArray n).toByte]

/-- The header of a map of fewer than 16 entries. -/
def mapHeader (n : Fin 16) : List UInt8 := [(Marker.fixMap n).toByte]

end BackupAcks.MessagePack
