import BackupAcks.Proofs.MessagePack.Refusal
import BackupAcks.Reply

/-!
# Spellings of a reply

What is written of a reply is one of many spellings of it. The kind may be given by its name or by
its number, the identifier of the write and the reply itself as arrays or as maps of their fields,
and every number, text and length in any form that holds it. All of them are read, and all as the
same reply.

Maps are read with care: one that names a field twice, or not at all, is no reply, whether it stands
in the place of the whole or of the identifier.

Results:
* `WriteId.Spelled.reads`, `Variant.Spelled.reads`, `Spelled.reads`: every spelling is read;
* `readBody_refuses`, `Broken.refuses`: maps that repeat or lack a field are refused;
* `decode_spellings`: both, of whole messages.
-/
namespace BackupAcks

open MessagePack

variable {room : Nat} {bytes : List UInt8}

/-! ## Identifiers -/

namespace WriteId

def fieldNames : List String := ["origin", "seq"]

/-- The spellings of an identifier; `room` is what is left for the nesting of its values. -/
def Spelled (room : Nat) (id : WriteId) : List UInt8 → Prop :=
  RecordForm room fieldNames [Whole id.origin.toNat, Whole id.seq.toNat]

theorem fields_nodup : fields.names.Nodup := by decide

theorem Spelled.reads {id : WriteId} (h : id.Spelled room bytes) :
    Reads (WriteId.read room) bytes id := by
  have hserves : fields.Serves (id.origin, id.seq, ())
      [Whole id.origin.toNat, Whole id.seq.toNat] :=
    .cons (fun _ h => h.reads_word32) (.cons (fun _ h => h.reads_word64) .nil)
  exact (hserves.readRecord fields_nodup h _ _).map (.pure id)

theorem fields_takeWhole : fields.TakeWhole :=
  .cons readWord32_takes (.cons readWord64_takes .nil)

theorem read_takes (room : Nat) : TakesWhole (WriteId.read room) :=
  fun bytes hw => (readRecord_takes fields_takeWhole fields_nodup room _ _ bytes hw).map
    fun _ => (Reads.pure _).takes

/-- A map that repeats or lacks a field is no identifier. -/
theorem read_refuses (room : Nat) (h : Faulty fieldNames bytes) :
    Refuses (WriteId.read room) bytes :=
  (Faulty.refuses fields_takeWhole fields_nodup h).bind

end WriteId

namespace Reply

/-! ## Kinds -/

def Variant.fieldNames : Variant → List String
  | .ack => ["op", "topology"]
  | .segmentAck => ["op", "topology", "segment"]
  | .errorAck => ["op", "topology", "cause"]

theorem Variant.fieldNames_nodup (v : Variant) : v.fieldNames.Nodup := by
  cases v <;> decide

/-- A kind by its name or by its number. -/
inductive Variant.Spelled (v : Variant) : List UInt8 → Prop
  | name {bytes : List UInt8} (h : Block (Utf8.encode v.name) bytes) : Variant.Spelled v bytes
  | index {i : Nat} {bytes : List UInt8} (hi : Variant.all[i]? = some v)
      (h : Form (.scalar (.unsigned i)) bytes) : Variant.Spelled v bytes

theorem Variant.ofName_name (v : Variant) : ofName v.name = .ok v := by
  cases v <;> rfl

theorem Variant.Spelled.reads {v : Variant} (h : v.Spelled bytes) : Reads Variant.read bytes v := by
  cases h with
  | name h =>
    cases h with
    | str h =>
      refine h.reads.bind ((readPayload_reads _).map ?_)
      rw [Utf8.decode_encode]
      simp only [Variant.ofName_name]
      exact .pure v
    | bin h =>
      refine h.reads.bind ((readPayload_reads _).map ?_)
      rw [Utf8.decodeLossy_encode, Variant.ofName_name]
      exact .pure v
  | index hi h =>
    refine h.reads.map ?_
    simp only [Variant.ofHead, Variant.ofIndex, hi]
    exact .pure v

/-! ## Fields -/

def kind : Reply → Variant
  | .ack _ _ => .ack
  | .segmentAck _ _ _ => .segmentAck
  | .errorAck _ _ _ => .errorAck

/-- What the values of the fields of a reply may be spelled as, in order; `room` is what is left for
their nesting. -/
def cells (room : Nat) : Reply → List (List UInt8 → Prop)
  | .ack id epoch => [id.Spelled (room - 1), Whole epoch.toNat]
  | .segmentAck id epoch segment =>
    [id.Spelled (room - 1), Whole epoch.toNat, Whole segment.toNat]
  | .errorAck id epoch cause =>
    [id.Spelled (room - 1), Whole epoch.toNat, Block (Utf8.encode cause)]

theorem sharedFields_serves {ts : List Type} {rest : Fields ts} {row : Row ts} {id : WriteId}
    {epoch : Epoch} {cells : List (List UInt8 → Prop)} (h : rest.Serves row cells) :
    (sharedFields room rest).Serves (id, epoch, row)
      (id.Spelled (room - 1) :: Whole epoch.toNat :: cells) :=
  .cons (fun _ h => h.reads) (.cons (fun _ h => h.reads_word32) h)

theorem sharedFields_takeWhole {ts : List Type} {rest : Fields ts} (h : rest.TakeWhole) :
    (sharedFields room rest).TakeWhole :=
  .cons (WriteId.read_takes (room - 1)) (.cons readWord32_takes h)

/-- The fields of a reply are read from each of their spellings. -/
theorem readBody_reads {r : Reply} (h : RecordForm room r.kind.fieldNames (r.cells room) bytes) :
    Reads (readBody room r.kind) bytes r := by
  cases r with
  | ack id epoch =>
    have hserves : (sharedFields room .nil).Serves (id, epoch, ())
        [id.Spelled (room - 1), Whole epoch.toNat] := sharedFields_serves .nil
    exact (hserves.readRecord (Variant.fieldNames_nodup .ack) h _ _).map (.pure _)
  | segmentAck id epoch segment =>
    have hserves : (sharedFields room
        (.cons "segment" readWord32 (fun b => .ok b.toUInt32) .nil)).Serves
        (id, epoch, segment, ()) [id.Spelled (room - 1), Whole epoch.toNat, Whole segment.toNat] :=
      sharedFields_serves (.cons (fun _ h => h.reads_word32) .nil)
    exact (hserves.readRecord (Variant.fieldNames_nodup .segmentAck) h _ _).map (.pure _)
  | errorAck id epoch cause =>
    have hserves : (sharedFields room (.cons "cause" readText (refuseByte "a string") .nil)).Serves
        (id, epoch, cause, ())
        [id.Spelled (room - 1), Whole epoch.toNat, Block (Utf8.encode cause)] :=
      sharedFields_serves (.cons (fun _ h => h.reads_text) .nil)
    exact (hserves.readRecord (Variant.fieldNames_nodup .errorAck) h _ _).map (.pure _)

/-- The fields of a reply are not read where no record of its kind is. -/
theorem readBody_refuses {v : Variant}
    (h : ∀ {ts : List Type} {rest : Fields ts} (name shape : String),
      (sharedFields room rest).TakeWhole → (sharedFields room rest).names = v.fieldNames →
      Refuses (readRecord room name shape (sharedFields room rest)) bytes) :
    Refuses (readBody room v) bytes := by
  cases v with
  | ack => exact (h _ _ (sharedFields_takeWhole .nil) rfl).bind
  | segmentAck => exact (h _ _ (sharedFields_takeWhole (.cons readWord32_takes .nil)) rfl).bind
  | errorAck => exact (h _ _ (sharedFields_takeWhole (.cons readText_takes .nil)) rfl).bind

/-! ## Whole replies -/

/-- The spellings of a reply: a map with one entry, from its kind to its fields. -/
inductive Spelled (r : Reply) : List UInt8 → Prop
  | intro {head name body : List UInt8} (hhead : Form (.map 1) head)
      (hname : r.kind.Spelled name)
      (hbody : RecordForm (depth - 1) r.kind.fieldNames (r.cells (depth - 1)) body) :
      Spelled r (head ++ (name ++ body))

theorem Spelled.reads {r : Reply} (h : r.Spelled bytes) : Reads Reply.read bytes r := by
  cases h with
  | intro hhead hname hbody => exact hhead.reads.bind (hname.reads.bind (readBody_reads hbody))

/-- Fields of a reply in which one is repeated or missing, of the reply itself or of the identifier
that it holds. -/
inductive BrokenBody (v : Variant) : List UInt8 → Prop
  | whole {body : List UInt8} (h : Faulty v.fieldNames body) : BrokenBody v body
  /-- The identifier stands first in an array, whatever follows. -/
  | firstId {n : Nat} {head id : List UInt8} (h : Form (.array n) head)
      (hid : Faulty WriteId.fieldNames id) : BrokenBody v (head ++ id)
  /-- The identifier stands anywhere in a map. -/
  | namedId {head : List UInt8} {entries : List (List UInt8 × List UInt8)}
      (h : Form (.map entries.length) head) (hw : ∀ e ∈ entries, WellFormed e.1 ∧ WellFormed e.2)
      {e : List UInt8 × List UInt8} (he : e ∈ entries) (hop : Names v.fieldNames 0 e.1)
      (hid : Faulty WriteId.fieldNames e.2) : BrokenBody v (head ++ pairBytes entries)

/-- A map with one entry, from a kind to fields in which one is repeated or missing. -/
inductive Broken : List UInt8 → Prop
  | intro {v : Variant} {head name body : List UInt8} (hhead : Form (.map 1) head)
      (hname : v.Spelled name) (hbody : BrokenBody v body) : Broken (head ++ (name ++ body))

theorem BrokenBody.refuses {v : Variant} (h : BrokenBody v bytes) :
    Refuses (readBody room v) bytes := by
  refine readBody_refuses fun {ts rest} name shape htake hnames => ?_
  have hd : (sharedFields room rest).names.Nodup := hnames ▸ v.fieldNames_nodup
  cases h with
  | whole h => exact Faulty.refuses htake hd (hnames ▸ h)
  | firstId h hid => exact readRecord_refuses_of_first h (WriteId.read_refuses _ hid)
  | namedId h hw he hop hid =>
    have hrefuses := WriteId.read_refuses (room - 1) hid
    exact readRecord_refuses_of_field (i := 0) htake hd h hw he (hnames ▸ hop) hrefuses

theorem Broken.refuses (h : Broken bytes) : Refuses Reply.read bytes := by
  cases h with
  | intro hhead hname hbody =>
    exact hhead.reads.bind_refuses (hname.reads.bind_refuses hbody.refuses)

/-! ## Whole messages -/

theorem decode_eq_ok_iff {r : Reply} :
    decode bytes = .ok r ↔ ∃ rest, read.run bytes = .ok (r, rest) := by
  unfold decode
  cases h : read.run bytes with
  | error e =>
    constructor
    · intro hr
      cases hr
    · rintro ⟨rest, hr⟩
      cases hr
  | ok x =>
    constructor
    · intro hr
      cases hr
      exact ⟨x.2, rfl⟩
    · rintro ⟨rest, hr⟩
      cases hr
      rfl

/-- **The spelling makes no difference.** A reply is read from each of its spellings, whatever
stands behind; and no reply is read where a map, in the place of the whole or of the identifier,
repeats a field or lacks one. -/
theorem decode_spellings :
    (∀ r bytes, Spelled r bytes → ∀ t, decode (bytes ++ t) = .ok r) ∧
      ∀ bytes, Broken bytes → ∀ t, ∃ e, decode (bytes ++ t) = .error e := by
  refine ⟨fun r bytes h t => decode_eq_ok_iff.2 ⟨t, h.reads t⟩, fun bytes h t => ?_⟩
  cases hdecode : decode (bytes ++ t) with
  | error e => exact ⟨e, rfl⟩
  | ok r =>
    obtain ⟨rest, hread⟩ := decode_eq_ok_iff.1 hdecode
    exact absurd hread (h.refuses t _)

/-- The identifier in wide forms: an array of `0` in eight bytes and of `300` as a signed number. -/
def wideId : List UInt8 := [0xDC, 0, 2, 0xCF, 0, 0, 0, 0, 0, 0, 0, 0, 0xD1, 1, 44]

/-- The fields of a confirmation as a map: the first entry is given by number, the last by its name
as a block of bytes, and the array between them belongs to no field. -/
def oddEntries : List (Option Nat × List UInt8) :=
  [(some 1, [1] ++ [0xD2, 0, 1, 17, 112]), (none, ([0xA1] ++ [120]) ++ ([0x91] ++ [[0xC0]].flatten)),
   (some 0, ([0xC4, 2] ++ [111, 112]) ++ wideId)]

/-- A confirmation with these fields, in a map with a wide head, and whose kind is given by number. -/
def oddlySpelled : List UInt8 :=
  [0xDE, 0, 1] ++ ([0xCD, 0, 0] ++ ([0x83] ++ oddEntries.flatMap Prod.snd))

/-- The entries of an identifier that has two numbers, one by its name and one by number, and no
origin. -/
def twiceNumbered : List (List UInt8 × List UInt8) :=
  [([1], [5]), ([0xA3] ++ [115, 101, 113], [5])]

/-- A confirmation of a write that is so identified. -/
def brokenId : List UInt8 := [0x81] ++ ([0] ++ ([0x92] ++ ([0x82] ++ pairBytes twiceNumbered)))

theorem decode_spellings_oddlySpelled :
    Spelled (.ack ⟨0, 300⟩ 70000) oddlySpelled ∧
      decode (oddlySpelled ++ [0xC1]) = .ok (.ack ⟨0, 300⟩ 70000) ∧
      Broken brokenId ∧ ∃ e, decode (brokenId ++ [7]) = .error e := by
  have hid : WriteId.Spelled (depth - 1 - 1) ⟨0, 300⟩ wideId := by
    have horigin : Whole 0 [0xCF, 0, 0, 0, 0, 0, 0, 0, 0] :=
      .unsigned (.sized (.u64 0) (by decide))
    have hseq : Whole 300 [0xD1, 1, 44] := .signed (.signed .i16 (by decide) (by decide))
    exact .inOrder (.sized (.array16 2) (by decide)) (.cons horigin (.cons hseq .nil))
  have hentries : ∀ e ∈ oddEntries, EntryForm (depth - 1) Variant.ack.fieldNames
      [WriteId.Spelled (depth - 1 - 1) ⟨0, 300⟩, Whole 70000] e.1 e.2 := by
    have hnil : Value 1021 [0xC0] := .scalar (.fixed .null)
    refine List.forall_mem_cons.2 ⟨?_, List.forall_mem_cons.2 ⟨?_, List.forall_mem_singleton.2 ?_⟩⟩
    · exact .field (.index (by decide) (.fixed (.fixPos 1))) rfl
        (.signed (.signed .i32 (by decide) (by decide)))
    · exact .foreign (.name (by decide) (.str (.fixed (.fixStr 1))))
        (.array (.fixed (.fixArray 1)) (List.forall_mem_singleton.2 hnil))
    · exact .field (.name rfl (.bin (.sized (.bin8 2) (by decide)))) rfl hid
  have hspelled : Spelled (.ack ⟨0, 300⟩ 70000) oddlySpelled :=
    .intro (.sized (.map16 1) (by decide)) (.index (i := 0) rfl (.sized (.u16 0) (by decide)))
      (.named (.fixed (.fixMap 3)) hentries (by decide))
  have hfaulty : Faulty WriteId.fieldNames ([0x82] ++ pairBytes twiceNumbered) := by
    have hwhole : ∀ n : Fin 128, WellFormed [(Marker.fixPos n).toByte] :=
      fun n => ⟨0, .scalar (.fixed (.fixPos n))⟩
    have hname : Block (Utf8.encode "seq") ([0xA3] ++ [115, 101, 113]) :=
      .str (.fixed (.fixStr 3))
    refine .repeated (i := 1) (.fixed (.fixMap 2)) ?_ (List.Sublist.refl _)
      (.index (by decide) (.fixed (.fixPos 1))) (.name rfl hname)
    exact List.forall_mem_cons.2 ⟨⟨hwhole 1, hwhole 5⟩, List.forall_mem_singleton.2
      ⟨⟨0, .str (.fixed (.fixStr 3))⟩, hwhole 5⟩⟩
  have hbroken : Broken brokenId :=
    .intro (v := .ack) (.fixed (.fixMap 1)) (.index (i := 0) rfl (.fixed (.fixPos 0)))
      (.firstId (.fixed (.fixArray 2)) hfaulty)
  exact ⟨hspelled, decode_spellings.1 _ _ hspelled _, hbroken, decode_spellings.2 _ hbroken _⟩

end Reply
end BackupAcks
