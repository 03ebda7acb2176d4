import BackupAcks.MessagePack.Record
import BackupAcks.Proofs.MessagePack.Format
import BackupAcks.Proofs.Text.Utf8
import Mathlib.Data.List.Nodup

/-!
# Spellings of a record

The same data can be spelled in many ways. A whole number may stand in any integer form that holds
it, and a text as a text or as a block of bytes. A record is an array of its values, or a map in
which they stand in any order, each under the name or the number of its field, among entries that
belong to no field.

A reader does not care which spelling it meets. In a map it fills in the values as they come: after
some entries those fields have their values whose keys have been read (`Row.only`), and in the end
all have.

Results:
* `Whole.reads`, `Block.reads_text`, `Names.reads`: numbers, texts and keys, however they are written;
* `Fields.Serves.readEntries`: the entries of a map fill in the values that they name;
* `Fields.Serves.readRecord`: a record is read from each of its spellings;
* `writeNatural_whole`, `writeText_block`: what is written, in the shortest form, is a spelling.
-/
namespace BackupAcks.MessagePack

/-! ## Numbers and texts -/

/-- A whole number in any of the integer forms that hold it. -/
inductive Whole (n : Nat) : List UInt8 → Prop
  | unsigned {bytes : List UInt8} (h : Form (.scalar (.unsigned n)) bytes) : Whole n bytes
  | signed {bytes : List UInt8} (h : Form (.scalar (.signed n)) bytes) : Whole n bytes

/-- A payload behind the head of a text, or behind that of a block of bytes. -/
inductive Block (payload : List UInt8) : List UInt8 → Prop
  | str {head : List UInt8} (h : Form (.str payload.length) head) : Block payload (head ++ payload)
  | bin {head : List UInt8} (h : Form (.bin payload.length) head) : Block payload (head ++ payload)

theorem readBelow_of_form {s : Scalar} {bytes : List UInt8} {n limit : Nat} {expected : String}
    (h : Form (.scalar s) bytes) (hs : s.toNatural limit expected = .ok n) :
    Reads (readBelow limit expected) bytes n := by
  obtain ⟨m, more, rfl, hm, hscalar⟩ := h.exists_marker
  refine (readMarker_toByte m).bind ?_
  rw [if_pos (hscalar.2 trivial)]
  refine hm.map fun t => ?_
  simp only [hs]
  rfl

/-- A number is read from each of its forms, if it lies below the limit. -/
theorem Whole.reads {n limit : Nat} {bytes : List UInt8} (h : Whole n bytes) (hn : n < limit)
    (expected : String) : Reads (readBelow limit expected) bytes n := by
  cases h with
  | unsigned h => exact readBelow_of_form h (by simp [Scalar.toNatural, hn])
  | signed h => exact readBelow_of_form h (by simp [Scalar.toNatural, hn])

theorem Whole.reads_word32 {n : UInt32} {bytes : List UInt8} (h : Whole n.toNat bytes) :
    Reads readWord32 bytes n := by
  refine (h.reads n.toNat_lt "u32").map ?_
  rw [UInt32.ofNat_toNat]
  exact .pure n

theorem Whole.reads_word64 {n : UInt64} {bytes : List UInt8} (h : Whole n.toNat bytes) :
    Reads readWord64 bytes n := by
  refine (h.reads n.toNat_lt "u64").map ?_
  rw [UInt64.ofNat_toNat]
  exact .pure n

theorem Block.reads_text {s : String} {bytes : List UInt8} (h : Block (Utf8.encode s) bytes) :
    Reads readText bytes s := by
  cases h with
  | str h | bin h =>
    refine h.reads.bind ((readPayload_reads _).map ?_)
    rw [Utf8.decode_encode]
    exact .pure s

/-! ## Keys -/

/-- A key that names field `i`, by its name or by its number. -/
inductive Names (names : List String) (i : Nat) : List UInt8 → Prop
  | name {name : String} {bytes : List UInt8} (hi : names[i]? = some name)
      (h : Block (Utf8.encode name) bytes) : Names names i bytes
  | index {bytes : List UInt8} (hi : i < names.length)
      (h : Form (.scalar (.unsigned i)) bytes) : Names names i bytes

/-- A key that names no field: another name, or a number that no field has. -/
inductive Foreign (names : List String) : List UInt8 → Prop
  | name {payload bytes : List UInt8} (hne : ∀ name ∈ names, Utf8.encode name ≠ payload)
      (h : Block payload bytes) : Foreign names bytes
  | index {n : Nat} {bytes : List UInt8} (hn : names.length ≤ n)
      (h : Form (.scalar (.unsigned n)) bytes) : Foreign names bytes

namespace Fields

variable {ts : List Type} {fields : Fields ts} {row : Row ts} {bytes : List UInt8}

theorem length_names (fields : Fields ts) : fields.names.length = ts.length := by
  induction fields with
  | nil => rfl
  | cons name read ofByte rest ih => rw [names, List.length_cons, List.length_cons, ih]

theorem readKey_block {payload : List UInt8} (h : Block payload bytes) :
    Reads fields.readKey bytes (fields.names.findIdx? fun name => Utf8.encode name == payload) := by
  cases h with
  | str h | bin h => exact h.reads.bind ((readPayload_reads _).map (.pure _))

theorem readKey_index {n : Nat} (h : Form (.scalar (.unsigned n)) bytes) :
    Reads fields.readKey bytes (if n < fields.names.length then some n else none) :=
  h.reads.map (.pure _)

theorem findIdx?_encode {names : List String} (hd : names.Nodup) {i : Nat} {name : String}
    (hi : names[i]? = some name) :
    (names.findIdx? fun x => Utf8.encode x == Utf8.encode name) = some i := by
  obtain ⟨hlt, rfl⟩ := List.getElem?_eq_some_iff.1 hi
  rw [List.findIdx?_eq_some_iff_getElem]
  refine ⟨hlt, by simp, fun j hj he => ?_⟩
  have heq : names[j] = names[i] := Utf8.encode_inj (by simpa using he)
  exact Nat.ne_of_lt hj ((List.Nodup.getElem_inj_iff hd).1 heq)

end Fields

/-- A key that names a field is understood, if no two fields have one name. -/
theorem Names.reads {ts : List Type} {fields : Fields ts} (hd : fields.names.Nodup) {i : Nat}
    {bytes : List UInt8} (h : Names fields.names i bytes) : Reads fields.readKey bytes (some i) := by
  cases h with
  | name hi h =>
    rw [← Fields.findIdx?_encode hd hi]
    exact Fields.readKey_block h
  | index hi h =>
    have hread : Reads fields.readKey bytes _ := Fields.readKey_index h
    rwa [if_pos hi] at hread

theorem Foreign.reads {ts : List Type} {fields : Fields ts} {bytes : List UInt8}
    (h : Foreign fields.names bytes) : Reads fields.readKey bytes none := by
  cases h with
  | name hne h =>
    have hread : Reads fields.readKey bytes _ := Fields.readKey_block h
    rwa [List.findIdx?_eq_none_iff.2 fun x hx => by simpa using hne x hx] at hread
  | index hn h =>
    have hread : Reads fields.readKey bytes _ := Fields.readKey_index h
    rwa [if_neg (Nat.not_lt_of_le hn)] at hread

/-! ## Records -/

/-- An entry of a map of fields. Under a key of field `i` stands what spells its value, that is
what satisfies the `i`-th of `cells`; under any other key, any value. -/
inductive EntryForm (room : Nat) (names : List String) (cells : List (List UInt8 → Prop)) :
    Option Nat → List UInt8 → Prop
  | field {i : Nat} {cell : List UInt8 → Prop} {key value : List UInt8} (hk : Names names i key)
      (hc : cells[i]? = some cell) (hv : cell value) :
      EntryForm room names cells (some i) (key ++ value)
  | foreign {key value : List UInt8} (hk : Foreign names key) (hv : Value room value) :
      EntryForm room names cells none (key ++ value)

/-- The spellings of a record whose fields have the given names and whose values are spelled by
what satisfies `cells`; `room` is what is left for the nesting of its values. -/
inductive RecordForm (room : Nat) (names : List String) (cells : List (List UInt8 → Prop)) :
    List UInt8 → Prop
  /-- An array of the values in the order of the fields. -/
  | inOrder {head : List UInt8} {items : List (List UInt8)} (h : Form (.array cells.length) head)
      (hitems : List.Forall₂ (fun cell item => cell item) cells items) :
      RecordForm room names cells (head ++ items.flatten)
  /-- A map in which each field comes once. -/
  | named {head : List UInt8} {entries : List (Option Nat × List UInt8)}
      (h : Form (.map entries.length) head)
      (hentries : ∀ e ∈ entries, EntryForm room names cells e.1 e.2)
      (honce : (entries.filterMap Prod.fst).Perm (List.range cells.length)) :
      RecordForm room names cells (head ++ entries.flatMap Prod.snd)

/-- The values of those fields that `has` tells, and none of the others. -/
def Row.only : {ts : List Type} → (has : Nat → Bool) → Row ts → Partial ts
  | [], _, _ => ()
  | _ :: _, has, (value, values) =>
    (if has 0 then some value else none, Row.only (fun i => has (i + 1)) values)

theorem Row.only_cons {α : Type} {ts : List Type} (has : Nat → Bool) (value : α)
    (values : Row ts) : @Row.only (α :: ts) has (value, values) =
      (if has 0 then some value else none, values.only fun i => has (i + 1)) :=
  rfl

namespace Fields

/-- The readers of the fields read the values of the row from all that satisfies `cells`. -/
def Serves : {ts : List Type} → Fields ts → Row ts → List (List UInt8 → Prop) → Prop
  | _, .nil, _, cells => cells = []
  | _, .cons _ read _ rest, (value, values), cells =>
    ∃ cell more, cells = cell :: more ∧ (∀ bytes, cell bytes → Reads read bytes value) ∧
      rest.Serves values more

variable {ts : List Type} {fields : Fields ts} {row : Row ts} {bytes : List UInt8}
  {cells : List (List UInt8 → Prop)}

theorem Serves.nil : Fields.nil.Serves () [] := rfl

theorem Serves.cons {α : Type} {name : String} {read : Reader α}
    {ofByte : UInt8 → Except DecodeError α} {value : α} {cell : List UInt8 → Prop}
    (hread : ∀ bytes, cell bytes → Reads read bytes value) (h : fields.Serves row cells) :
    (Fields.cons name read ofByte fields).Serves (value, row) (cell :: cells) :=
  ⟨cell, cells, rfl, hread, h⟩

theorem Serves.length_eq (h : fields.Serves row cells) : cells.length = ts.length := by
  induction fields generalizing cells with
  | nil =>
    cases h
    rfl
  | cons name read ofByte rest ih =>
    obtain ⟨value, values⟩ := row
    obtain ⟨cell, more, rfl, -, hrest⟩ := h
    rw [List.length_cons, List.length_cons, ih hrest]

/-! ## In order -/

/-- Values that stand in the order of the fields. -/
theorem Serves.readInOrder (h : fields.Serves row cells) {items : List (List UInt8)}
    (hitems : List.Forall₂ (fun cell item => cell item) cells items) (expected : String)
    (index : Nat) :
    Reads (fields.readInOrder expected index ts.length) items.flatten row := by
  induction fields generalizing cells items index with
  | nil =>
    cases h
    cases hitems
    exact .pure ()
  | cons name read ofByte rest ih =>
    obtain ⟨value, values⟩ := row
    obtain ⟨cell, more, rfl, hread, hrest⟩ := h
    cases hitems with
    | cons hitem hitems => exact (hread _ hitem).bind ((ih hrest hitems (index + 1)).map (.pure _))

/-! ## By name -/

theorem blank_eq (fields : Fields ts) (row : Row ts) :
    fields.blank = row.only fun _ => false := by
  induction fields with
  | nil => rfl
  | cons name read ofByte rest ih => exact congrArg (Prod.mk none) (ih row.2)

theorem Serves.fill (h : fields.Serves row cells) {i : Nat} {cell : List UInt8 → Prop}
    (hc : cells[i]? = some cell) (hb : cell bytes) {has : Nat → Bool} (hnew : has i = false) :
    Reads (fields.fill i (row.only has)) bytes (row.only fun j => j == i || has j) := by
  induction fields generalizing cells i has with
  | nil =>
    cases h
    cases hc
  | cons name read ofByte rest ih =>
    obtain ⟨value, values⟩ := row
    obtain ⟨first, more, rfl, hread, hrest⟩ := h
    cases i with
    | zero =>
      cases hc
      rw [Row.only_cons, Row.only_cons, hnew]
      exact (hread bytes hb).map (.pure _)
    | succ i =>
      have hzero : (0 == i + 1) = false := rfl
      have hsucc : ∀ j, (j + 1 == i + 1) = (j == i) := fun j => by simp
      rw [Row.only_cons, Row.only_cons]
      simp only [hzero, hsucc, Bool.false_or]
      exact (ih hrest hc hnew).map (.pure _)

theorem complete_only {has : Nat → Bool} (hall : ∀ i < ts.length, has i = true) :
    fields.complete (row.only has) = .ok row := by
  induction fields generalizing has with
  | nil => rfl
  | cons name read ofByte rest ih =>
    obtain ⟨value, values⟩ := row
    have hfirst : has 0 = true := hall 0 (Nat.zero_lt_succ _)
    have hrest : rest.complete (values.only fun i => has (i + 1)) = .ok values :=
      ih fun i hi => hall (i + 1) (Nat.succ_lt_succ hi)
    simp only [Row.only, hfirst, if_true, complete, hrest]
    rfl

/-- The entries of a map fill in the values of the fields that they name. -/
theorem Serves.readEntries (h : fields.Serves row cells) (hd : fields.names.Nodup) (room : Nat)
    {entries : List (Option Nat × List UInt8)}
    (hentries : ∀ e ∈ entries, EntryForm room fields.names cells e.1 e.2)
    (honce : (entries.filterMap Prod.fst).Nodup) (has : Nat → Bool)
    (hnew : ∀ i ∈ entries.filterMap Prod.fst, has i = false) :
    Reads (fields.readEntries room entries.length (row.only has)) (entries.flatMap Prod.snd)
      (row.only fun i => has i || decide (i ∈ entries.filterMap Prod.fst)) := by
  induction entries generalizing has with
  | nil =>
    simp only [List.filterMap_nil, List.not_mem_nil, decide_false, Bool.or_false]
    exact .pure _
  | cons e entries ih =>
    obtain ⟨label, bytes⟩ := e
    have hfirst := hentries _ List.mem_cons_self
    have hrest : ∀ e ∈ entries, EntryForm room fields.names cells e.1 e.2 :=
      fun e he => hentries e (List.mem_cons_of_mem _ he)
    rw [List.flatMap_cons]
    cases hfirst with
    | @field i cell key value hk hc hv =>
      obtain ⟨hi, hnodup⟩ := List.nodup_cons.1 honce
      have hrow : (fun j => has j || decide (j ∈ i :: entries.filterMap Prod.fst)) =
          fun j => (j == i || has j) || decide (j ∈ entries.filterMap Prod.fst) := by
        funext j
        have hmem : decide (j ∈ i :: entries.filterMap Prod.fst) =
            (j == i || decide (j ∈ entries.filterMap Prod.fst)) := by simp [List.mem_cons]
        rw [hmem, Bool.or_left_comm, Bool.or_assoc]
      have hlater : ∀ j ∈ entries.filterMap Prod.fst, (j == i || has j) = false := by
        intro j hj
        have hji : j ≠ i := fun he => hi (he ▸ hj)
        simpa [hji] using hnew j (List.mem_cons_of_mem _ hj)
      change Reads _ (key ++ value ++ entries.flatMap Prod.snd)
        (row.only fun j => has j || decide (j ∈ i :: entries.filterMap Prod.fst))
      rw [hrow, List.append_assoc]
      refine (hk.reads hd).bind ?_
      exact (h.fill hc hv (hnew i List.mem_cons_self)).bind (ih hrest hnodup _ hlater)
    | @foreign key value hk hv =>
      change Reads _ (key ++ value ++ entries.flatMap Prod.snd) _
      rw [List.append_assoc]
      exact hk.reads.bind (hv.reads_skip.bind (ih hrest honce has hnew))

end Fields

/-- A record is read from each of its spellings. -/
theorem Fields.Serves.readRecord {ts : List Type} {fields : Fields ts} {row : Row ts}
    {bytes : List UInt8} {cells : List (List UInt8 → Prop)} (h : fields.Serves row cells)
    (hd : fields.names.Nodup) {room : Nat} (hb : RecordForm room fields.names cells bytes)
    (name shape : String) : Reads (readRecord room name shape fields) bytes row := by
  cases hb with
  | inOrder hhead hitems =>
    refine hhead.reads.bind ?_
    rw [h.length_eq]
    exact h.readInOrder hitems _ 0
  | named hhead hentries honce =>
    refine hhead.reads.bind ?_
    have hread := h.readEntries hd room hentries (honce.nodup_iff.2 List.nodup_range)
      (fun _ => false) fun _ _ => rfl
    rw [← blank_eq fields row] at hread
    refine hread.map ?_
    rw [complete_only fun i hi => ?_]
    · exact .pure row
    · rw [Bool.false_or, decide_eq_true_eq, honce.mem_iff, List.mem_range, h.length_eq]
      exact hi

/-! ## What is written -/

theorem writeNatural_whole {n : Nat} (hn : n < 2 ^ 64) : Whole n (writeNatural n) := by
  unfold writeNatural
  split
  · rename_i h
    exact .unsigned (.fixed (.fixPos ⟨n, h⟩))
  split
  · rename_i h
    exact .unsigned (.sized (.u8 n) h)
  split
  · rename_i h
    exact .unsigned (.sized (.u16 n) h)
  split
  · rename_i h
    exact .unsigned (.sized (.u32 n) h)
  · exact .unsigned (.sized (.u64 n) hn)

theorem writeNatural_whole32 (n : UInt32) : Whole n.toNat (writeNatural n.toNat) :=
  writeNatural_whole (Nat.lt_trans n.toNat_lt (by decide))

theorem writeNatural_whole64 (n : UInt64) : Whole n.toNat (writeNatural n.toNat) :=
  writeNatural_whole n.toNat_lt

theorem textHeader_form {n : Nat} (hn : n < 2 ^ 32) : Form (.str n) (textHeader n) := by
  unfold textHeader
  split
  · rename_i h
    exact .fixed (.fixStr ⟨n, h⟩)
  split
  · rename_i h
    exact .sized (.str8 n) h
  split
  · rename_i h
    exact .sized (.str16 n) h
  · exact .sized (.str32 n) hn

/-- A text is written in one of its forms, if its length has room in a header. -/
theorem writeText_block {s : String} (hs : s.utf8ByteSize < 2 ^ 32) :
    Block (Utf8.encode s) (writeText s) := by
  rw [← Utf8.length_encode] at hs
  exact .str (textHeader_form hs)

theorem arrayHeader_form (n : Fin 16) : Form (.array n) (arrayHeader n) :=
  .fixed (.fixArray n)

theorem mapHeader_form (n : Fin 16) : Form (.map n) (mapHeader n) :=
  .fixed (.fixMap n)

end BackupAcks.MessagePack
