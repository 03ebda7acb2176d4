import BackupAcks.MessagePack.Record
import BackupAcks.Write.Basic

/-!
# Replies of backups

What a backup sends after it handled a forwarded write. The sender is known to the transport and
not part of the reply.

A reply is written as a map with one entry, from the name of its kind to the array of its fields;
the identifier of the write is an array of two numbers. Beside the form that `Reply.encode` writes,
every spelling of the same data is read: kinds by name or number, records as arrays or maps,
numbers and lengths in any width. Bytes after the reply are ignored.
-/
namespace BackupAcks

/-- A backup's answer to a forwarded write, stamped with the epoch the backup saw (§6). -/
inductive Reply where
  /-- The write was applied. -/
  | ack (id : WriteId) (epoch : Epoch)
  /-- The write was applied to the keys of one segment. -/
  | segmentAck (id : WriteId) (epoch : Epoch) (segment : SegmentId)
  /-- The write failed. -/
  | errorAck (id : WriteId) (epoch : Epoch) (cause : String)
  deriving DecidableEq, Repr

namespace Reply

def id : Reply → WriteId
  | .ack id _ | .segmentAck id _ _ | .errorAck id _ _ => id

/-- The bytes of text that the reply carries. -/
def textSize : Reply → Nat
  | .errorAck _ _ cause => cause.utf8ByteSize
  | _ => 0

end Reply

/-! ## Replies as bytes -/

open MessagePack

def WriteId.encode (id : WriteId) : List UInt8 :=
  arrayHeader 2 ++ writeNatural id.origin.toNat ++ writeNatural id.seq.toNat

namespace Reply

/-- A reply of the named kind with the given number of fields, written one after the other. -/
def envelope (kind : String) (count : Fin 16) (fields : List UInt8) : List UInt8 :=
  mapHeader 1 ++ writeText kind ++ arrayHeader count ++ fields

def encode : Reply → List UInt8
  | .ack id epoch => envelope "Ack" 2 (id.encode ++ writeNatural epoch.toNat)
  | .segmentAck id epoch segment =>
    envelope "SegmentAck" 3
      (id.encode ++ writeNatural epoch.toNat ++ writeNatural segment.toNat)
  | .errorAck id epoch cause =>
    envelope "ErrorAck" 3 (id.encode ++ writeNatural epoch.toNat ++ writeText cause)

end Reply

/-! ## Replies from bytes -/

open MessagePack

/-- Refuses a single byte in the place of something that is no number. -/
def refuseByte {α : Type} (expected : String) (b : UInt8) : Except DecodeError α :=
  .error (.wrongType (.integer b.toNat) expected)

namespace WriteId

def fields : Fields [UInt32, UInt64] :=
  .cons "origin" readWord32 (fun b => .ok b.toUInt32)
    (.cons "seq" readWord64 (fun b => .ok b.toUInt64) .nil)

/-- An identifier; `room` is what is left for its fields. -/
def read (room : Nat) : Reader WriteId := do
  let (origin, seq, ()) ← readRecord room "struct OperationId" " with 2 elements" fields
  return ⟨origin, seq⟩

end WriteId

namespace Reply

inductive Variant where
  | ack | segmentAck | errorAck
  deriving DecidableEq, Repr

namespace Variant

def name : Variant → String
  | .ack => "Ack" | .segmentAck => "SegmentAck" | .errorAck => "ErrorAck"

/-- The kinds in the order of their numbers. -/
def all : List Variant := [.ack, .segmentAck, .errorAck]

def names : List String := all.map name

def ofName (name : String) : Except DecodeError Variant :=
  match all.find? fun v => v.name == name with
  | some v => .ok v
  | none => .error (.unknownVariant name names)

def ofIndex (i : Nat) : Except DecodeError Variant :=
  match all[i]? with
  | some v => .ok v
  | none => .error (.wrongValue (.integer i) "variant index 0 <= i < 3")

/-- The kind that a head, with the text that belongs to it, names. -/
def ofHead : Head → Reader Variant
  | .scalar (.unsigned n) => ofIndex n
  | .str n => do
    match Utf8.decode (← readPayload n) with
    | .ok s => ofName s
    | .error why => throw (.brokenText why)
  | .bin n => do ofName (Utf8.decodeLossy (← readPayload n))
  | h => h.refuse "variant identifier"

def read : Reader Variant := do ofHead (← readHead)

end Variant

/-- Levels of nesting that a reply may have below its outermost map. -/
def depth : Nat := 1023

/-- The fields all replies share; `room` is what is left below them. -/
def sharedFields (room : Nat) {ts : List Type} (rest : Fields ts) :
    Fields (WriteId :: UInt32 :: ts) :=
  .cons "op" (WriteId.read (room - 1)) (refuseByte "struct OperationId")
    (.cons "topology" readWord32 (fun b => .ok b.toUInt32) rest)

def readBody (room : Nat) : Variant → Reader Reply
  | .ack => do
    let (id, epoch, ()) ← readRecord room "struct variant AckMsg::Ack" " with 2 elements"
      (sharedFields room .nil)
    return .ack id epoch
  | .segmentAck => do
    let (id, epoch, segment, ()) ← readRecord room "struct variant AckMsg::SegmentAck"
      " with 3 elements"
      (sharedFields room (.cons "segment" readWord32 (fun b => .ok b.toUInt32) .nil))
    return .segmentAck id epoch segment
  | .errorAck => do
    let (id, epoch, cause, ()) ← readRecord room "struct variant AckMsg::ErrorAck"
      " with 3 elements"
      (sharedFields room (.cons "cause" readText (refuseByte "a string") .nil))
    return .errorAck id epoch cause

/-- A reply at the front of the bytes. -/
def read : Reader Reply := do
  match ← readHead with
  | .map n =>
    if n ≠ 1 then throw (.wrongLength n)
    readBody (depth - 1) (← Variant.read)
  | h =>
    let _ ← Variant.ofHead h
    throw (.wrongType .unitVariant "struct variant")

def decode (bytes : List UInt8) : Except DecodeError Reply := (·.1) <$> read.run bytes

end Reply

end BackupAcks
