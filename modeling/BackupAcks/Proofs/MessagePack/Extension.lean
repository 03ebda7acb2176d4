import BackupAcks.MessagePack.Record

/-!
# More bytes behind

What a reader makes of some bytes does not depend on those behind them: it finds the same value and
leaves the others, or fails in the same way. The one exception are bytes that end before the reader
is done, and then it says so (`Extends`). That holds of taking bytes and of reading a marker, and
every other reader is put together from these: one reader after another keeps the property, whatever
the second makes of the result of the first.

Results:
* `Extends.bind`, `Extends.lift`, `Extends.times`: ways to put readers together;
* `skip_extends`: one value of any kind, at any depth;
* `Fields.Extend.readInOrder`, `Fields.Extend.readEntries`, `readRecord_extends`: records in all
  their spellings;
* `Extends.ends_early`: a reader that takes some bytes whole finds that any beginning of them ends
  too early.
-/
namespace BackupAcks.MessagePack

/-- The error says that the bytes ended too early. -/
def DecodeError.EndsEarly : DecodeError → Prop
  | .markerMissing | .dataMissing | .payloadMissing => True
  | _ => False

/-- The bytes end before the reader is done, or more bytes behind make no difference: the result is
the same, and they are left as well. -/
def Extends {α : Type} (r : Reader α) : Prop :=
  ∀ b t, (∃ e, e.EndsEarly ∧ r.run b = .error e) ∨
    r.run (b ++ t) = (r.run b).map fun x => (x.1, x.2 ++ t)

section

variable {α β : Type} {r : Reader α} {f : α → Reader β}

/-- A value that was found is found with more bytes behind. -/
theorem Extends.run_append (hr : Extends r) {b rest : List UInt8} {a : α}
    (h : r.run b = .ok (a, rest)) (t : List UInt8) : r.run (b ++ t) = .ok (a, rest ++ t) := by
  rcases hr b t with ⟨e, -, he⟩ | ht
  · rw [h] at he
    cases he
  · rw [ht, h]
    rfl

/-- What is read from bytes that are taken whole is not read from a beginning of them. -/
theorem Extends.ends_early (hr : Extends r) {b t : List UInt8} {a : α}
    (h : r.run (b ++ t) = .ok (a, [])) (ht : t ≠ []) : ∃ e, e.EndsEarly ∧ r.run b = .error e := by
  refine (hr b t).resolve_right fun hbt => ?_
  rw [h] at hbt
  cases hb : r.run b with
  | error e =>
    rw [hb] at hbt
    cases hbt
  | ok x =>
    rw [hb] at hbt
    have hrest : x.2 ++ t = [] := (congrArg Prod.snd (Except.ok.inj hbt)).symm
    exact ht (List.append_eq_nil_iff.1 hrest).2

/-! ## Putting readers together -/

theorem Extends.pure (a : α) : Extends (Pure.pure a : Reader α) := fun _ _ => .inr rfl

theorem Extends.throw (e : DecodeError) : Extends (MonadExcept.throw e : Reader α) :=
  fun _ _ => .inr rfl

theorem Extends.ite {p : Prop} [Decidable p] {r' : Reader α} (hr : Extends r) (hr' : Extends r') :
    Extends (if p then r else r') := by
  split
  · exact hr
  · exact hr'

theorem Extends.bind (hr : Extends r) (hf : ∀ a, Extends (f a)) : Extends (r >>= f) := by
  intro b t
  rw [StateT.run_bind, StateT.run_bind]
  rcases hr b t with ⟨e, he, hb⟩ | hbt
  · exact .inl ⟨e, he, by rw [hb]; rfl⟩
  · rw [hbt]
    cases r.run b with
    | error e => exact .inr rfl
    | ok x => exact hf x.1 x.2 t

theorem Extends.lift (x : Except DecodeError α) : Extends (liftM x : Reader α) := by
  cases x with
  | error e => exact fun _ _ => .inr rfl
  | ok a => exact fun _ _ => .inr rfl

theorem Extends.discard (hr : Extends r) : Extends (Functor.discard r) := by
  rw [Functor.discard, map_const, Function.comp_apply, ← bind_pure_comp]
  exact hr.bind fun _ => .pure _

theorem Extends.times {r : Reader Unit} (hr : Extends r) (n : Nat) : Extends (times n r) := by
  induction n with
  | zero => exact .pure ()
  | succ n ih => exact hr.bind fun _ => ih

end

/-! ## Bytes -/

theorem takeBytes_extends (n : Nat) (missing : DecodeError) (hm : missing.EndsEarly) :
    Extends (takeBytes n missing) := by
  intro b t
  change (∃ e : DecodeError, e.EndsEarly ∧ (if (b.take n).length < n then _ else _) = _) ∨
    (if ((b ++ t).take n).length < n then _ else _) = Except.map _ (if _ then _ else _)
  by_cases hn : (b.take n).length < n
  · exact .inl ⟨missing, hm, if_pos hn⟩
  · have hle : n ≤ b.length := by
      rw [List.length_take] at hn
      omega
    rw [List.take_append_of_le_length hle, List.drop_append_of_le_length hle, if_neg hn, if_neg hn]
    exact .inr rfl

theorem readMarker_extends : Extends readMarker := by
  intro b t
  cases b with
  | nil => exact .inl ⟨.markerMissing, trivial, rfl⟩
  | cons x b => exact .inr rfl

theorem readNatural_extends (count : Nat) : Extends (readNatural count) :=
  (takeBytes_extends count .dataMissing trivial).bind fun _ => .pure _

theorem readSigned_extends (count : Nat) : Extends (readSigned count) :=
  (readNatural_extends count).bind fun _ => .pure _

theorem readPayload_extends (n : Nat) : Extends (readPayload n) :=
  takeBytes_extends n .payloadMissing trivial

/-! ## Heads -/

theorem markerHead_extends (m : Marker) : Extends m.readHead := by
  cases m with
  | u8 | u16 | u32 | u64 | f32 | f64 | str8 | str16 | str32 | bin8 | bin16 | bin32 | array16
  | array32 | map16 | map32 | ext8 | ext16 | ext32 =>
    exact (readNatural_extends _).bind fun _ => .pure _
  | i8 | i16 | i32 | i64 => exact (readSigned_extends _).bind fun _ => .pure _
  | reserved => exact .throw _
  | _ => exact .pure _

theorem readHead_extends : Extends readHead :=
  readMarker_extends.bind markerHead_extends

theorem readKind_extends (h : Head) : Extends h.readKind := by
  cases h with
  | str n =>
    refine (readPayload_extends n).bind fun bytes => ?_
    cases Utf8.decode bytes with
    | ok s => exact .pure _
    | error why => exact .throw _
  | bin n => exact (readPayload_extends n).bind fun _ => .pure _
  | _ => exact .pure _

theorem refuse_extends {α : Type} (h : Head) (expected : String) :
    Extends (h.refuse expected : Reader α) :=
  (readKind_extends h).bind fun _ => .throw _

/-! ## Whole values -/

theorem readBelow_extends (limit : Nat) (expected : String) :
    Extends (readBelow limit expected) := by
  refine readMarker_extends.bind fun m => ?_
  split
  · refine (markerHead_extends m).bind fun h => ?_
    cases h with
    | scalar s => exact .lift _
    | _ => exact refuse_extends _ expected
  · exact .throw _

theorem readWord32_extends : Extends readWord32 :=
  (readBelow_extends _ _).bind fun _ => .pure _

theorem readWord64_extends : Extends readWord64 :=
  (readBelow_extends _ _).bind fun _ => .pure _

theorem readText_extends : Extends readText := by
  refine readHead_extends.bind fun h => ?_
  cases h with
  | str n | bin n =>
    refine (readPayload_extends n).bind fun bytes => ?_
    cases Utf8.decode bytes with
    | ok s => exact .pure s
    | error why => exact .throw _
  | _ => exact refuse_extends _ _

theorem skip_extends (room : Nat) : Extends (skip room) := by
  induction room with
  | zero =>
    unfold skip
    refine readHead_extends.bind fun h => ?_
    cases h with
    | scalar s => exact .pure ()
    | str n | bin n => exact (readPayload_extends n).discard
    | ext n | array n | map n => exact .throw _
  | succ room ih =>
    unfold skip
    refine readHead_extends.bind fun h => ?_
    cases h with
    | scalar s => exact .pure ()
    | str n | bin n => exact (readPayload_extends n).discard
    | ext n =>
      exact (takeBytes_extends 1 .dataMissing trivial).discard.bind fun _ => (readPayload_extends n).discard
    | array n => exact ih.times n
    | map n => exact (ih.bind fun _ => ih).times n

/-! ## Records -/

namespace Fields

variable {ts : List Type} {fields : Fields ts}

/-- All fields are read by readers that do not mind more bytes behind. -/
def Extend : {ts : List Type} → Fields ts → Prop
  | _, .nil => True
  | _, .cons _ read _ rest => Extends read ∧ rest.Extend

theorem Extend.nil : Fields.nil.Extend := trivial

theorem Extend.cons {α : Type} {name : String} {read : Reader α}
    {ofByte : UInt8 → Except DecodeError α} (hr : Extends read) (h : fields.Extend) :
    (Fields.cons name read ofByte fields).Extend :=
  ⟨hr, h⟩

theorem Extend.readInOrder (h : fields.Extend) (expected : String) (index length : Nat) :
    Extends (fields.readInOrder expected index length) := by
  induction fields generalizing index length with
  | nil =>
    cases length with
    | zero => exact .pure _
    | succ length => exact .throw _
  | cons name read ofByte rest ih =>
    cases length with
    | zero => exact .throw _
    | succ length => exact h.1.bind fun _ => (ih h.2 _ _).bind fun _ => .pure _

theorem Extend.fill (h : fields.Extend) (i : Nat) (values : Partial ts) :
    Extends (fields.fill i values) := by
  induction fields generalizing i with
  | nil => cases i <;> exact .pure values
  | cons name read ofByte rest ih =>
    obtain ⟨value, values⟩ := values
    cases i with
    | zero =>
      cases value with
      | none => exact h.1.bind fun _ => .pure _
      | some v => exact .throw _
    | succ i => exact (ih h.2 i values).bind fun _ => .pure _

theorem readKey_extends (fields : Fields ts) : Extends fields.readKey := by
  refine readHead_extends.bind fun h => ?_
  cases h with
  | scalar s =>
    cases s with
    | unsigned n => exact .pure _
    | _ => exact refuse_extends _ _
  | str n | bin n => exact (readPayload_extends n).bind fun _ => .pure _
  | _ => exact refuse_extends _ _

theorem Extend.readEntries (h : fields.Extend) (room n : Nat) (values : Partial ts) :
    Extends (fields.readEntries room n values) := by
  induction n generalizing values with
  | zero => exact .pure _
  | succ n ih =>
    refine (readKey_extends fields).bind fun key => ?_
    cases key with
    | some i => exact (h.fill i values).bind fun _ => ih _
    | none => exact (skip_extends room).bind fun _ => ih _

end Fields

theorem readRecord_extends {ts : List Type} {fields : Fields ts} (h : fields.Extend) (room : Nat)
    (name shape : String) : Extends (readRecord room name shape fields) := by
  refine readHead_extends.bind fun head => ?_
  cases head with
  | array n => exact h.readInOrder _ 0 n
  | map n => exact (h.readEntries room n _).bind fun _ => .lift _
  | bin n => exact (readPayload_extends n).bind fun _ => .lift _
  | _ => exact refuse_extends _ name

end BackupAcks.MessagePack
