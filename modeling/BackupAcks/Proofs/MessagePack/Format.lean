import BackupAcks.MessagePack.Reader
import Mathlib.Tactic.Ring

/-!
# Well-formed values

A reader reads a value from some bytes if it takes just these off the front, whatever stands behind
(`Reads`); so a reader of two values reads them from the bytes of the first and then of the second.

What bytes are a value is a matter of the format and not of any reader. A head is a marker and, for
most markers, a number in the bytes behind it; there are several forms of one head, narrow and wide
ones (`Form`). A value is a head and what it announces: nothing, a payload, or further values, as
often as it says (`Value`).

Results:
* `Reads.bind`: one value behind another;
* `natural_bigEndian`: a number is its bytes;
* `Form.reads`: a head is read from each of its forms;
* `Value.reads_skip`: a value of any kind is skipped as a whole, if there is room for its nesting.
-/
namespace BackupAcks.MessagePack

/-! ## What is read -/

/-- The reader takes the bytes off the front and makes `a` of them, whatever stands behind. -/
def Reads {α : Type} (r : Reader α) (bytes : List UInt8) (a : α) : Prop :=
  ∀ t, r.run (bytes ++ t) = .ok (a, t)

section

variable {α β : Type} {r : Reader α} {f : α → Reader β} {bytes more : List UInt8} {a : α} {b : β}

theorem Reads.pure (a : α) : Reads (Pure.pure a : Reader α) [] a := by
  intro t
  rfl

/-- What is read first is out of the way. -/
theorem Reads.run_bind (hr : Reads r bytes a) (t : List UInt8) :
    (r >>= f).run (bytes ++ t) = (f a).run t := by
  rw [StateT.run_bind, hr]
  rfl

theorem Reads.bind (hr : Reads r bytes a) (hf : Reads (f a) more b) :
    Reads (r >>= f) (bytes ++ more) b := by
  intro t
  rw [List.append_assoc, hr.run_bind]
  exact hf t

theorem Reads.map (hr : Reads r bytes a) (hf : Reads (f a) [] b) : Reads (r >>= f) bytes b := by
  have h := hr.bind hf
  rwa [List.append_nil] at h

end

/-! ## Bytes of a number -/

theorem length_bigEndian (count n : Nat) : (bigEndian count n).length = count := by
  induction count with
  | zero => rfl
  | succ count ih => rw [bigEndian, List.length_cons, ih]

theorem foldl_bigEndian (count n acc : Nat) :
    (bigEndian count n).foldl (fun n b => 256 * n + b.toNat) acc =
      acc * 256 ^ count + n % 256 ^ count := by
  induction count generalizing acc with
  | zero => simp [bigEndian, Nat.mod_one]
  | succ count ih =>
    rw [bigEndian, List.foldl_cons, ih, UInt8.toNat_ofNat', Nat.pow_eq, Nat.pow_succ (n := 256),
      Nat.mod_mul]
    have h : (256 * acc + n / 256 ^ count % 256) * 256 ^ count =
        acc * (256 ^ count * 256) + 256 ^ count * (n / 256 ^ count % 256) := by ring
    rw [show 2 ^ 8 = 256 from rfl, h]
    omega

theorem natural_bigEndian {count n : Nat} (h : n < 256 ^ count) :
    natural (bigEndian count n) = n := by
  rw [natural, foldl_bigEndian, Nat.zero_mul, Nat.zero_add, Nat.mod_eq_of_lt h]

theorem takeBytes_reads {bytes : List UInt8} {n : Nat} (h : bytes.length = n)
    (missing : DecodeError) : Reads (takeBytes n missing) bytes bytes := by
  intro t
  subst h
  change (if ((bytes ++ t).take bytes.length).length < bytes.length then _ else _) = _
  rw [List.take_left, List.drop_left, if_neg (Nat.lt_irrefl _)]

theorem readNatural_bigEndian {count n : Nat} (h : n < 256 ^ count) :
    Reads (readNatural count) (bigEndian count n) n := by
  have hread := (takeBytes_reads (length_bigEndian count n) .dataMissing).map
    (f := fun bytes => pure (natural bytes)) (Reads.pure _)
  rwa [natural_bigEndian h] at hread

/-! ## Markers -/

theorem readMarker_toByte (m : Marker) : Reads readMarker [m.toByte] m := by
  intro t
  change Except.ok (Marker.ofByte m.toByte, t) = _
  rw [Marker.ofByte_toByte]

theorem readHead_of_marker {m : Marker} {bytes : List UInt8} {h : Head}
    (hm : Reads m.readHead bytes h) : Reads readHead (m.toByte :: bytes) h :=
  (readMarker_toByte m).bind hm

/-! ## The forms of a head -/

/-- Markers that are a head by themselves. -/
inductive Fixed : Marker → Head → Prop
  | null : Fixed .null (.scalar .null)
  | boolean (b : Bool) : Fixed (.boolean b) (.scalar (.boolean b))
  | fixPos (n : Fin 128) : Fixed (.fixPos n) (.scalar (.unsigned n))
  | fixNeg (n : Fin 32) : Fixed (.fixNeg n) (.scalar (.signed ((n.val : Int) - 32)))
  | fixStr (n : Fin 32) : Fixed (.fixStr n) (.str n)
  | fixArray (n : Fin 16) : Fixed (.fixArray n) (.array n)
  | fixMap (n : Fin 16) : Fixed (.fixMap n) (.map n)
  | fixExt1 : Fixed .fixExt1 (.ext 1)
  | fixExt2 : Fixed .fixExt2 (.ext 2)
  | fixExt4 : Fixed .fixExt4 (.ext 4)
  | fixExt8 : Fixed .fixExt8 (.ext 8)
  | fixExt16 : Fixed .fixExt16 (.ext 16)

/-- Markers that are a head together with a number `n`, and the bytes that the number takes. -/
inductive Sized : Marker → (count n : Nat) → Head → Prop
  | u8 (n : Nat) : Sized .u8 1 n (.scalar (.unsigned n))
  | u16 (n : Nat) : Sized .u16 2 n (.scalar (.unsigned n))
  | u32 (n : Nat) : Sized .u32 4 n (.scalar (.unsigned n))
  | u64 (n : Nat) : Sized .u64 8 n (.scalar (.unsigned n))
  | f32 (n : Nat) : Sized .f32 4 n (.scalar (.float (.ofBits32 (UInt32.ofNat n))))
  | f64 (n : Nat) : Sized .f64 8 n (.scalar (.float (.ofBits (UInt64.ofNat n))))
  | str8 (n : Nat) : Sized .str8 1 n (.str n)
  | str16 (n : Nat) : Sized .str16 2 n (.str n)
  | str32 (n : Nat) : Sized .str32 4 n (.str n)
  | bin8 (n : Nat) : Sized .bin8 1 n (.bin n)
  | bin16 (n : Nat) : Sized .bin16 2 n (.bin n)
  | bin32 (n : Nat) : Sized .bin32 4 n (.bin n)
  | array16 (n : Nat) : Sized .array16 2 n (.array n)
  | array32 (n : Nat) : Sized .array32 4 n (.array n)
  | map16 (n : Nat) : Sized .map16 2 n (.map n)
  | map32 (n : Nat) : Sized .map32 4 n (.map n)
  | ext8 (n : Nat) : Sized .ext8 1 n (.ext n)
  | ext16 (n : Nat) : Sized .ext16 2 n (.ext n)
  | ext32 (n : Nat) : Sized .ext32 4 n (.ext n)

/-- Markers of signed numbers, and the bytes that the number takes. -/
inductive SignedWidth : Marker → (count : Nat) → Prop
  | i8 : SignedWidth .i8 1
  | i16 : SignedWidth .i16 2
  | i32 : SignedWidth .i32 4
  | i64 : SignedWidth .i64 8

/-- The bytes are the head in one of its forms. Signed numbers are written in two's complement. -/
inductive Form : Head → List UInt8 → Prop
  | fixed {m : Marker} {h : Head} (row : Fixed m h) : Form h [m.toByte]
  | sized {m : Marker} {count n : Nat} {h : Head} (row : Sized m count n h)
      (hn : n < 256 ^ count) : Form h (m.toByte :: bigEndian count n)
  | signed {m : Marker} {count : Nat} {i : Int} (row : SignedWidth m count)
      (hlow : -2 ^ (8 * count - 1) ≤ i) (hhigh : i < 2 ^ (8 * count - 1)) :
      Form (.scalar (.signed i)) (m.toByte :: bigEndian count (i % 2 ^ (8 * count)).toNat)

/-! ## Reading a head -/

theorem toSigned_emod {count : Nat} (hc : 0 < count) {i : Int} (hlow : -2 ^ (8 * count - 1) ≤ i)
    (hhigh : i < 2 ^ (8 * count - 1)) : toSigned count (i % 2 ^ (8 * count)).toNat = i := by
  have hdouble : (2 : Int) ^ (8 * count) = 2 * 2 ^ (8 * count - 1) := by
    rw [← pow_succ', Nat.sub_add_cancel (by omega)]
  have hhalf : ((Nat.pow 2 (8 * count - 1) : Nat) : Int) = 2 ^ (8 * count - 1) := Nat.cast_pow 2 _
  have hwhole : ((Nat.pow 2 (8 * count) : Nat) : Int) = 2 ^ (8 * count) := Nat.cast_pow 2 _
  unfold toSigned
  rcases Int.lt_or_le i 0 with hneg | hpos
  · have hmod : i % 2 ^ (8 * count) = i + 2 ^ (8 * count) := by
      rw [← Int.add_emod_right, Int.emod_eq_of_lt (by omega) (by omega)]
    rw [hmod, if_neg (by omega), Int.toNat_of_nonneg (by omega), hwhole]
    omega
  · have hmod : i % 2 ^ (8 * count) = i := Int.emod_eq_of_lt hpos (by omega)
    rw [hmod, if_pos (by omega), Int.toNat_of_nonneg hpos]

theorem readSigned_bigEndian {count : Nat} (hc : 0 < count) {i : Int}
    (hlow : -2 ^ (8 * count - 1) ≤ i) (hhigh : i < 2 ^ (8 * count - 1)) :
    Reads (readSigned count) (bigEndian count (i % 2 ^ (8 * count)).toNat) i := by
  have hfits : (i % 2 ^ (8 * count)).toNat < 256 ^ count := by
    have hlt : i % 2 ^ (8 * count) < 2 ^ (8 * count) := Int.emod_lt_of_pos i (Int.pow_pos (by decide))
    have hcast : (2 : Int) ^ (8 * count) = ((256 ^ count : Nat) : Int) := by
      rw [pow_mul]
      norm_num
    omega
  have hread := (readNatural_bigEndian hfits).map
    (f := fun n => pure (toSigned count n)) (Reads.pure _)
  rwa [toSigned_emod hc hlow hhigh] at hread

theorem Fixed.readHead_eq {m : Marker} {h : Head} (row : Fixed m h) : m.readHead = pure h := by
  cases row <;> rfl

theorem Sized.reads {m : Marker} {count n : Nat} {h : Head} (row : Sized m count n h)
    (hn : n < 256 ^ count) : Reads m.readHead (bigEndian count n) h := by
  cases row <;> exact (readNatural_bigEndian hn).map (.pure _)

theorem SignedWidth.reads {m : Marker} {count : Nat} (row : SignedWidth m count) {i : Int}
    (hlow : -2 ^ (8 * count - 1) ≤ i) (hhigh : i < 2 ^ (8 * count - 1)) :
    Reads m.readHead (bigEndian count (i % 2 ^ (8 * count)).toNat) (.scalar (.signed i)) := by
  cases row <;> exact (readSigned_bigEndian (by decide) hlow hhigh).map (.pure _)

def Head.IsScalar : Head → Prop
  | .scalar _ => True
  | _ => False

/-- A form is a marker, which tells whether the value is a scalar, and what belongs to it. -/
theorem Form.exists_marker {h : Head} {bytes : List UInt8} (hf : Form h bytes) :
    ∃ (m : Marker) (more : List UInt8), bytes = m.toByte :: more ∧ Reads m.readHead more h ∧
      (m.isScalar = true ↔ h.IsScalar) := by
  cases hf with
  | fixed row =>
    refine ⟨_, [], rfl, ?_, ?_⟩
    · rw [row.readHead_eq]
      exact .pure h
    · cases row <;> simp [Marker.isScalar, Head.IsScalar]
  | sized row hn =>
    refine ⟨_, _, rfl, row.reads hn, ?_⟩
    cases row <;> simp [Marker.isScalar, Head.IsScalar]
  | signed row hlow hhigh =>
    refine ⟨_, _, rfl, row.reads hlow hhigh, ?_⟩
    cases row <;> simp [Marker.isScalar, Head.IsScalar]

theorem Form.reads {h : Head} {bytes : List UInt8} (hf : Form h bytes) : Reads readHead bytes h := by
  obtain ⟨m, more, rfl, hm, -⟩ := hf.exists_marker
  exact readHead_of_marker hm

/-! ## Values -/

/-- Keys and values of a map, one after the other. -/
def pairBytes (entries : List (List UInt8 × List UInt8)) : List UInt8 :=
  entries.flatMap fun e => e.1 ++ e.2

/-- The bytes are one value, in which values are nested no deeper than `room`. -/
inductive Value : (room : Nat) → List UInt8 → Prop
  | scalar {room : Nat} {s : Scalar} {head : List UInt8} (h : Form (.scalar s) head) :
      Value room head
  | str {room : Nat} {head payload : List UInt8} (h : Form (.str payload.length) head) :
      Value room (head ++ payload)
  | bin {room : Nat} {head payload : List UInt8} (h : Form (.bin payload.length) head) :
      Value room (head ++ payload)
  /-- A value of a type of its own: a byte that tells which, and a payload. -/
  | ext {room : Nat} {head payload : List UInt8} (h : Form (.ext payload.length) head)
      (tag : UInt8) : Value (room + 1) (head ++ tag :: payload)
  | array {room : Nat} {head : List UInt8} {items : List (List UInt8)}
      (h : Form (.array items.length) head) (hitems : ∀ item ∈ items, Value room item) :
      Value (room + 1) (head ++ items.flatten)
  | map {room : Nat} {head : List UInt8} {entries : List (List UInt8 × List UInt8)}
      (h : Form (.map entries.length) head) (hkeys : ∀ e ∈ entries, Value room e.1)
      (hvalues : ∀ e ∈ entries, Value room e.2) : Value (room + 1) (head ++ pairBytes entries)

/-- The bytes are one value, however deep. -/
def WellFormed (bytes : List UInt8) : Prop := ∃ room, Value room bytes

theorem readPayload_reads (payload : List UInt8) :
    Reads (readPayload payload.length) payload payload :=
  takeBytes_reads rfl .payloadMissing

theorem readTag_reads (tag : UInt8) : Reads (takeBytes 1 .dataMissing) [tag] [tag] :=
  takeBytes_reads (List.length_singleton) .dataMissing

theorem Reads.discard {α : Type} {r : Reader α} {bytes : List UInt8} {a : α}
    (h : Reads r bytes a) : Reads (Functor.discard r) bytes () := by
  rw [Functor.discard, map_const, Function.comp_apply, ← bind_pure_comp]
  exact h.map (.pure ())

theorem times_reads {r : Reader Unit} {items : List (List UInt8)}
    (h : ∀ item ∈ items, Reads r item ()) : Reads (times items.length r) items.flatten () := by
  induction items with
  | nil => exact .pure ()
  | cons item items ih =>
    exact (h item List.mem_cons_self).bind (ih fun x hx => h x (List.mem_cons_of_mem _ hx))

/-- Reading pairs of values is reading keys and values in turn. -/
theorem times_reads_pairs {r : Reader Unit} {entries : List (List UInt8 × List UInt8)}
    (hkeys : ∀ e ∈ entries, Reads r e.1 ()) (hvalues : ∀ e ∈ entries, Reads r e.2 ()) :
    Reads (times entries.length (do r; r)) (pairBytes entries) () := by
  have hpair : ∀ item ∈ entries.map fun e => e.1 ++ e.2, Reads (do r; r) item () := by
    intro item hitem
    obtain ⟨e, he, rfl⟩ := List.mem_map.1 hitem
    exact (hkeys e he).bind (hvalues e he)
  have hreads := times_reads hpair
  rwa [List.length_map, ← List.flatMap_def] at hreads

/-- A value is skipped as a whole, if there is room for its nesting. -/
theorem Value.reads_skip {room : Nat} {bytes : List UInt8} (h : Value room bytes) :
    Reads (skip room) bytes () := by
  induction h with
  | scalar h =>
    unfold skip
    exact h.reads.map (.pure ())
  | str h | bin h =>
    unfold skip
    exact h.reads.bind (readPayload_reads _).discard
  | ext h tag =>
    unfold skip
    exact h.reads.bind ((readTag_reads tag).discard.bind (readPayload_reads _).discard)
  | array h _ ih =>
    unfold skip
    exact h.reads.bind (times_reads ih)
  | map h _ _ ihkeys ihvalues =>
    unfold skip
    exact h.reads.bind (times_reads_pairs ihkeys ihvalues)

end BackupAcks.MessagePack
