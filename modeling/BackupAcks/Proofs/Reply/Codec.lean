import BackupAcks.Proofs.MessagePack.Extension
import BackupAcks.Proofs.Reply.Spelling
import BackupAcks.Reply

/-!
# Replies survive the wire

What is written of a reply is one of its spellings, so it is read back from there. Bytes behind a
reply are never looked at, in whatever form the reply is spelled; so replies may be sent one behind
the other, and no reply is written as the beginning of another.

Results:
* `read_extends`: bytes behind a reply make no difference;
* `encode_spelled`, `read_encode`: a reply is read back from its bytes, whatever stands behind them;
* `decode_faithful`: both, of whole messages.
-/
namespace BackupAcks

open MessagePack

/-! ## Bytes behind a reply -/

theorem WriteId.fields_extend : WriteId.fields.Extend :=
  .cons readWord32_extends (.cons readWord64_extends .nil)

theorem WriteId.read_extends (room : Nat) : Extends (WriteId.read room) :=
  (readRecord_extends WriteId.fields_extend _ _ _).bind fun _ => .pure _

namespace Reply

theorem Variant.ofHead_extends (h : Head) : Extends (Variant.ofHead h) := by
  cases h with
  | scalar s =>
    cases s with
    | unsigned n => exact .lift _
    | _ => exact refuse_extends _ _
  | str n =>
    refine (readPayload_extends n).bind fun bytes => ?_
    cases Utf8.decode bytes with
    | ok s => exact .lift _
    | error why => exact .throw _
  | bin n => exact (readPayload_extends n).bind fun _ => .lift _
  | _ => exact refuse_extends _ _

theorem Variant.read_extends : Extends Variant.read :=
  readHead_extends.bind Variant.ofHead_extends

theorem sharedFields_extend {room : Nat} {ts : List Type} {rest : Fields ts} (h : rest.Extend) :
    (sharedFields room rest).Extend :=
  .cons (WriteId.read_extends (room - 1)) (.cons readWord32_extends h)

theorem readBody_extends (room : Nat) (v : Variant) : Extends (readBody room v) := by
  cases v with
  | ack => exact (readRecord_extends (sharedFields_extend .nil) _ _ _).bind fun _ => .pure _
  | segmentAck =>
    exact (readRecord_extends (sharedFields_extend (.cons readWord32_extends .nil)) _ _ _).bind
      fun _ => .pure _
  | errorAck =>
    exact (readRecord_extends (sharedFields_extend (.cons readText_extends .nil)) _ _ _).bind
      fun _ => .pure _

/-- However a reply is spelled, bytes behind it make no difference. -/
theorem read_extends : Extends Reply.read := by
  refine readHead_extends.bind fun h => ?_
  cases h with
  | map n =>
    exact .ite ((Extends.throw _).bind fun _ => Variant.read_extends.bind (readBody_extends _))
      (Variant.read_extends.bind (readBody_extends _))
  | _ => exact (Variant.ofHead_extends _).bind fun _ => .throw _

end Reply

/-! ## What is written of a reply -/

theorem WriteId.encode_spelled (room : Nat) (id : WriteId) : id.Spelled room id.encode := by
  have hform : RecordForm room WriteId.fieldNames [Whole id.origin.toNat, Whole id.seq.toNat]
      (arrayHeader 2 ++ [writeNatural id.origin.toNat, writeNatural id.seq.toNat].flatten) :=
    .inOrder (arrayHeader_form 2)
      (.cons (writeNatural_whole32 id.origin) (.cons (writeNatural_whole64 id.seq) .nil))
  simpa [WriteId.Spelled, WriteId.encode] using hform

namespace Reply

variable {bytes : List UInt8} {r : Reply}

theorem Variant.name_spelled (v : Variant) : v.Spelled (writeText v.name) := by
  have hsize : v.name.utf8ByteSize < 2 ^ 32 := by cases v <;> decide
  exact .name (writeText_block hsize)

theorem envelope_spelled (r : Reply) (count : Fin 16) {items : List (List UInt8)}
    (hcount : count.val = (r.cells (depth - 1)).length)
    (hitems : List.Forall₂ (fun cell item => cell item) (r.cells (depth - 1)) items) :
    Spelled r (envelope r.kind.name count items.flatten) := by
  have hhead : Form (.array (r.cells (depth - 1)).length) (arrayHeader count) :=
    hcount ▸ arrayHeader_form count
  rw [envelope, List.append_assoc, List.append_assoc]
  exact .intro (mapHeader_form 1) (Variant.name_spelled _) (.inOrder hhead hitems)

/-- What is written of a reply is one of its spellings. -/
theorem encode_spelled (h : r.textSize < 2 ^ 32) : Spelled r r.encode := by
  cases r with
  | ack id epoch =>
    have hform := envelope_spelled (.ack id epoch) 2 rfl
      (.cons (WriteId.encode_spelled _ id) (.cons (writeNatural_whole32 epoch) .nil))
    simpa [encode, kind, Variant.name] using hform
  | segmentAck id epoch segment =>
    have hform := envelope_spelled (.segmentAck id epoch segment) 3 rfl
      (.cons (WriteId.encode_spelled _ id)
        (.cons (writeNatural_whole32 epoch) (.cons (writeNatural_whole32 segment) .nil)))
    simpa [encode, kind, Variant.name] using hform
  | errorAck id epoch cause =>
    have hform := envelope_spelled (.errorAck id epoch cause) 3 rfl
      (.cons (WriteId.encode_spelled _ id)
        (.cons (writeNatural_whole32 epoch) (.cons (writeText_block h) .nil)))
    simpa [encode, kind, Variant.name] using hform

theorem read_encode (h : r.textSize < 2 ^ 32) : Reads Reply.read r.encode r :=
  (encode_spelled h).reads

/-! ## Whole messages -/

theorem decode_append (h : decode bytes = .ok r) (t : List UInt8) :
    decode (bytes ++ t) = .ok r := by
  obtain ⟨rest, hread⟩ := decode_eq_ok_iff.1 h
  exact decode_eq_ok_iff.2 ⟨rest ++ t, read_extends.run_append hread t⟩

theorem decode_encode_append (h : r.textSize < 2 ^ 32) (t : List UInt8) :
    decode (r.encode ++ t) = .ok r :=
  decode_eq_ok_iff.2 ⟨t, read_encode h t⟩

theorem decode_encode (h : r.textSize < 2 ^ 32) : decode r.encode = .ok r := by
  have hnil := decode_encode_append h []
  rwa [List.append_nil] at hnil

/-- **The encoding is faithful.** Bytes behind a reply make no difference to how it is read, in
whatever form it is spelled. Every reply, with a text of less than `2 ^ 32` bytes, is read back from
what is written of it, whatever stands behind; and what is written of it is not the beginning of what
is written of another. -/
theorem decode_faithful :
    (∀ bytes t r, decode bytes = .ok r → decode (bytes ++ t) = .ok r) ∧
      ∀ r, r.textSize < 2 ^ 32 → decode r.encode = .ok r ∧
        (∀ t, decode (r.encode ++ t) = .ok r) ∧
        ∀ r', r'.textSize < 2 ^ 32 → r.encode <+: r'.encode → r' = r := by
  refine ⟨fun bytes t r h => decode_append h t, fun r h => ?_⟩
  refine ⟨decode_encode h, decode_encode_append h, fun r' h' hprefix => ?_⟩
  obtain ⟨t, ht⟩ := hprefix
  have hr := decode_encode_append h t
  rw [ht, decode_encode h'] at hr
  cases hr
  rfl

/-- A confirmation that is spelled as a map, with an entry that belongs to no field. -/
def spelledOut : List UInt8 :=
  [0x81] ++ writeText "Ack" ++ [0x83] ++ writeText "x" ++ [Marker.null.toByte] ++
    writeText "op" ++ WriteId.encode ⟨0, 300⟩ ++ writeText "topology" ++ writeNatural 70000

theorem decode_faithful_spelledOut :
    decode (spelledOut ++ [0xC1]) = .ok (.ack ⟨0, 300⟩ 70000) ∧
      (errorAck ⟨1, 2⟩ 200 "disk é").textSize < 2 ^ 32 ∧
      decode (errorAck ⟨1, 2⟩ 200 "disk é").encode = .ok (.errorAck ⟨1, 2⟩ 200 "disk é") := by
  have hspelled : decode spelledOut = .ok (.ack ⟨0, 300⟩ 70000) := by decide +kernel
  have hsize : (errorAck ⟨1, 2⟩ 200 "disk é").textSize < 2 ^ 32 := by decide
  exact ⟨decode_faithful.1 _ _ _ hspelled, hsize, (decode_faithful.2 _ hsize).1⟩

end Reply
end BackupAcks
