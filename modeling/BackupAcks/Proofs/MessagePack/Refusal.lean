import BackupAcks.Proofs.MessagePack.Spelling

/-!
# Records that are refused

A map in which a field comes twice or not at all is no record, whatever else is in it. To say so of
all maps, and not just of those whose values are what the fields expect, one has to know what a
reader does in front of a value that it does not expect: it fails, or it takes that value and no more
(`Takes`). So the entries behind are met where they stand, and a reader that gets to the end has
seen the key of each.

Results:
* `skip_takes`, `readWord32_takes`, `readText_takes`, `readRecord_takes`: readers take whole values;
* `readKey_ok`: a key is understood just as it is meant;
* `readEntries_gathers`: what it takes for the entries of a map to be read;
* `Faulty.refuses`: a map in which a field is repeated or missing is refused.
-/
namespace BackupAcks.MessagePack

/-- In front of these bytes, whatever stands behind, the reader fails, or takes just them. -/
def Takes {α : Type} (r : Reader α) (bytes : List UInt8) : Prop :=
  ∀ t a rest, r.run (bytes ++ t) = .ok (a, rest) → rest = t

/-- In front of these bytes, whatever stands behind, the reader fails. -/
def Refuses {α : Type} (r : Reader α) (bytes : List UInt8) : Prop :=
  ∀ t x, r.run (bytes ++ t) ≠ .ok x

section

variable {α β : Type} {r : Reader α} {f : α → Reader β} {bytes more t : List UInt8} {a : α}

/-! ## Putting readers together -/

theorem run_bind_ok_iff {x : β × List UInt8} :
    (r >>= f).run t = .ok x ↔ ∃ a rest, r.run t = .ok (a, rest) ∧ (f a).run rest = .ok x := by
  rw [StateT.run_bind]
  cases h : r.run t with
  | error e =>
    constructor
    · intro hx
      cases hx
    · rintro ⟨a, rest, hy, -⟩
      cases hy
  | ok y =>
    constructor
    · intro hx
      exact ⟨y.1, y.2, rfl, hx⟩
    · rintro ⟨a, rest, hy, hx⟩
      cases hy
      exact hx

theorem Reads.takes (h : Reads r bytes a) : Takes r bytes := by
  intro t x rest hx
  rw [h t] at hx
  cases hx
  rfl

theorem Refuses.takes (h : Refuses r bytes) : Takes r bytes :=
  fun t a rest hx => absurd hx (h t (a, rest))

theorem Refuses.throw (e : DecodeError) (bytes : List UInt8) :
    Refuses (MonadExcept.throw e : Reader α) bytes := by
  intro t x h
  cases h

theorem Takes.lift (x : Except DecodeError α) : Takes (liftM x : Reader α) [] := by
  cases x with
  | error e =>
    intro t a rest h
    cases h
  | ok a =>
    intro t a rest h
    cases h
    rfl

theorem Takes.bind (hr : Takes r bytes) (hf : ∀ a, Takes (f a) more) :
    Takes (r >>= f) (bytes ++ more) := by
  intro t b rest h
  rw [List.append_assoc] at h
  obtain ⟨a, rest', hfirst, hsecond⟩ := run_bind_ok_iff.1 h
  obtain rfl := hr _ a rest' hfirst
  exact hf a t b rest hsecond

theorem Takes.map (hr : Takes r bytes) (hf : ∀ a, Takes (f a) []) : Takes (r >>= f) bytes := by
  have h := hr.bind hf
  rwa [List.append_nil] at h

/-- Behind what is known to be read. -/
theorem Reads.bind_takes (hr : Reads r bytes a) (hf : Takes (f a) more) :
    Takes (r >>= f) (bytes ++ more) := by
  intro t b rest h
  rw [List.append_assoc, hr.run_bind] at h
  exact hf t b rest h

theorem Reads.bind_refuses (hr : Reads r bytes a) (hf : Refuses (f a) more) :
    Refuses (r >>= f) (bytes ++ more) := by
  intro t x h
  rw [List.append_assoc, hr.run_bind] at h
  exact hf t x h

/-- A value of which nothing can be made. -/
theorem Reads.map_refuses (hr : Reads r bytes a) (hf : Refuses (f a) []) :
    Refuses (r >>= f) bytes := by
  have h := hr.bind_refuses hf
  rwa [List.append_nil] at h

theorem Refuses.bind (hr : Refuses r bytes) : Refuses (r >>= f) bytes := by
  intro t x h
  obtain ⟨a, rest, hfirst, -⟩ := run_bind_ok_iff.1 h
  exact hr t _ hfirst

/-- Bytes behind those that are refused make no difference. -/
theorem Refuses.append (hr : Refuses r bytes) (more : List UInt8) :
    Refuses r (bytes ++ more) := by
  intro t x h
  rw [List.append_assoc] at h
  exact hr _ x h

theorem times_takes {r : Reader Unit} {items : List (List UInt8)}
    (h : ∀ item ∈ items, Takes r item) : Takes (times items.length r) items.flatten := by
  induction items with
  | nil => exact (Reads.pure ()).takes
  | cons item items ih =>
    exact (h item List.mem_cons_self).bind fun _ => ih fun x hx => h x (List.mem_cons_of_mem _ hx)

theorem times_takes_pairs {r : Reader Unit} {entries : List (List UInt8 × List UInt8)}
    (hkeys : ∀ e ∈ entries, Takes r e.1) (hvalues : ∀ e ∈ entries, Takes r e.2) :
    Takes (times entries.length (do r; r)) (pairBytes entries) := by
  have hpair : ∀ item ∈ entries.map fun e => e.1 ++ e.2, Takes (do r; r) item := by
    intro item hitem
    obtain ⟨e, he, rfl⟩ := List.mem_map.1 hitem
    exact (hkeys e he).bind fun _ => hvalues e he
  have htakes := times_takes hpair
  rwa [List.length_map, ← List.flatMap_def] at htakes

end

/-! ## Values in front of a reader -/

/-- The reader takes whole values. -/
def TakesWhole {α : Type} (r : Reader α) : Prop := ∀ bytes, WellFormed bytes → Takes r bytes

theorem refuse_refuses {α : Type} (h : Head) (expected : String) (bytes : List UInt8) :
    Refuses (h.refuse expected : Reader α) bytes := by
  intro t x hx
  obtain ⟨kind, rest, -, hthrow⟩ := run_bind_ok_iff.1 hx
  cases hthrow

theorem skip_takes (room : Nat) : TakesWhole (skip room) := by
  induction room with
  | zero =>
    rintro bytes ⟨k, hv⟩
    unfold skip
    cases hv with
    | scalar hf => exact (hf.reads.map (.pure ())).takes
    | str hf | bin hf => exact (hf.reads.bind (readPayload_reads _).discard).takes
    | ext hf tag => exact (hf.reads.bind_refuses (.bind (.throw _ _))).takes
    | array hf _ | map hf _ _ => exact (hf.reads.bind_refuses (.throw _ _)).takes
  | succ room ih =>
    rintro bytes ⟨k, hv⟩
    unfold skip
    cases hv with
    | scalar hf => exact (hf.reads.map (.pure ())).takes
    | str hf | bin hf => exact (hf.reads.bind (readPayload_reads _).discard).takes
    | ext hf tag =>
      exact (hf.reads.bind ((readTag_reads tag).discard.bind (readPayload_reads _).discard)).takes
    | array hf hitems =>
      exact hf.reads.bind_takes (times_takes fun item hitem => ih item ⟨_, hitems item hitem⟩)
    | map hf hkeys hvalues =>
      exact hf.reads.bind_takes (times_takes_pairs (fun e he => ih e.1 ⟨_, hkeys e he⟩)
        fun e he => ih e.2 ⟨_, hvalues e he⟩)

theorem readBelow_refuses {h : Head} {head : List UInt8} (hf : Form h head) (hs : ¬ h.IsScalar)
    (limit : Nat) (expected : String) : Refuses (readBelow limit expected) head := by
  obtain ⟨m, more, rfl, -, hscalar⟩ := hf.exists_marker
  refine (readMarker_toByte m).bind_refuses ?_
  rw [if_neg (mt hscalar.1 hs)]
  exact .throw _ _

theorem readBelow_takes (limit : Nat) (expected : String) :
    TakesWhole (readBelow limit expected) := by
  rintro bytes ⟨k, hv⟩
  cases hv with
  | scalar hf =>
    obtain ⟨m, more, rfl, hm, hscalar⟩ := hf.exists_marker
    refine (readMarker_toByte m).bind_takes ?_
    rw [if_pos (hscalar.2 trivial)]
    refine hm.takes.map fun h => ?_
    cases h with
    | scalar s => exact .lift _
    | _ => exact (refuse_refuses _ _ _).takes
  | str hf | bin hf | ext hf tag | array hf _ | map hf _ _ =>
    exact ((readBelow_refuses hf id limit expected).append _).takes

theorem readWord32_takes : TakesWhole readWord32 :=
  fun bytes hw => (readBelow_takes _ _ bytes hw).map fun _ => (Reads.pure _).takes

theorem readWord64_takes : TakesWhole readWord64 :=
  fun bytes hw => (readBelow_takes _ _ bytes hw).map fun _ => (Reads.pure _).takes

theorem readText_takes : TakesWhole readText := by
  rintro bytes ⟨k, hv⟩
  cases hv with
  | str hf | bin hf =>
    refine hf.reads.bind_takes ((readPayload_reads _).takes.map fun bytes => ?_)
    cases Utf8.decode bytes with
    | ok s => exact (Reads.pure s).takes
    | error why => exact (Refuses.throw _ _).takes
  | scalar hf => exact (hf.reads.map_refuses (refuse_refuses _ _ _)).takes
  | ext hf tag | array hf _ | map hf _ _ =>
    exact (hf.reads.bind_refuses (refuse_refuses _ _ _)).takes

/-! ## Keys -/

variable {ts : List Type} {fields : Fields ts}

theorem names_of_findIdx? {names : List String} {payload key : List UInt8} {i : Nat}
    (hb : Block payload key)
    (h : (names.findIdx? fun name => Utf8.encode name == payload) = some i) :
    Names names i key := by
  obtain ⟨hi, hname, -⟩ := List.findIdx?_eq_some_iff_getElem.1 h
  obtain rfl : Utf8.encode names[i] = payload := by simpa using hname
  exact .name (List.getElem?_eq_getElem hi) hb

/-- A field is understood only where it is named. -/
theorem names_of_readKey {key t rest : List UInt8} {k : Option Nat} (hw : WellFormed key)
    (h : fields.readKey.run (key ++ t) = .ok (k, rest)) :
    rest = t ∧ ∀ i, k = some i → Names fields.names i key := by
  obtain ⟨room, hv⟩ := hw
  have hblock : ∀ payload, Block payload key →
      rest = t ∧ ∀ i, k = some i → Names fields.names i key := by
    intro payload hb
    rw [Fields.readKey_block hb t] at h
    cases h
    exact ⟨rfl, fun i hi => names_of_findIdx? hb hi⟩
  cases hv with
  | scalar hf =>
    rename_i s
    cases s with
    | unsigned n =>
      rw [Fields.readKey_index hf t] at h
      cases h
      refine ⟨rfl, fun i hi => ?_⟩
      split at hi
      · rename_i hn
        cases hi
        exact .index hn hf
      · cases hi
    | _ => exact absurd h (hf.reads.map_refuses (refuse_refuses _ _ _) t _)
  | str hf => exact hblock _ (.str hf)
  | bin hf => exact hblock _ (.bin hf)
  | ext hf tag | array hf _ | map hf _ _ =>
    exact absurd h (hf.reads.bind_refuses (refuse_refuses _ _ _) t _)

/-- A key is understood just as it is meant. -/
theorem readKey_ok (hd : fields.names.Nodup) {key t rest : List UInt8} {k : Option Nat}
    (hw : WellFormed key) (h : fields.readKey.run (key ++ t) = .ok (k, rest)) :
    rest = t ∧ ∀ i, Names fields.names i key ↔ k = some i := by
  obtain ⟨hrest, hnames⟩ := names_of_readKey hw h
  refine ⟨hrest, fun i => ⟨fun hi => ?_, hnames i⟩⟩
  rw [hi.reads hd t] at h
  cases h
  rfl

/-! ## Maps of fields -/

theorem Names.lt_length {names : List String} {i : Nat} {key : List UInt8}
    (h : Names names i key) : i < names.length := by
  cases h with
  | name hi _ => exact (List.getElem?_eq_some_iff.1 hi).1
  | index hi _ => exact hi

/-- Whether field number `i` has a value. -/
def Partial.has : {ts : List Type} → Partial ts → (i : Nat) → Bool
  | [], _, _ => false
  | _ :: _, (value, _), 0 => value.isSome
  | _ :: _, (_, values), i + 1 => Partial.has values i

namespace Fields

/-- The readers of all fields take whole values. -/
def TakeWhole : {ts : List Type} → Fields ts → Prop
  | _, .nil => True
  | _, .cons _ read _ rest => TakesWhole read ∧ rest.TakeWhole

theorem TakeWhole.nil : Fields.nil.TakeWhole := trivial

theorem TakeWhole.cons {α : Type} {name : String} {read : Reader α}
    {ofByte : UInt8 → Except DecodeError α} (hr : TakesWhole read) (h : fields.TakeWhole) :
    (Fields.cons name read ofByte fields).TakeWhole :=
  ⟨hr, h⟩

/-- The reader of field number `i` fails in front of these bytes. -/
def RefusesAt : {ts : List Type} → Fields ts → (i : Nat) → List UInt8 → Prop
  | _, .nil, _, _ => False
  | _, .cons _ read _ _, 0, bytes => Refuses read bytes
  | _, .cons _ _ _ rest, i + 1, bytes => rest.RefusesAt i bytes

theorem has_blank (fields : Fields ts) (i : Nat) : fields.blank.has i = false := by
  induction fields generalizing i with
  | nil => rfl
  | cons name read ofByte rest ih =>
    cases i with
    | zero => rfl
    | succ i => exact ih i

theorem has_of_complete {values : Partial ts} {row : Row ts}
    (h : fields.complete values = .ok row) {i : Nat} (hi : i < ts.length) :
    values.has i = true := by
  induction fields generalizing i with
  | nil => cases hi
  | cons name read ofByte rest ih =>
    obtain ⟨value, values⟩ := values
    cases value with
    | none => cases h
    | some value =>
      cases i with
      | zero => rfl
      | succ i =>
        change (rest.complete values >>= fun others => pure (value, others)) = .ok row at h
        cases hrest : rest.complete values with
        | error e =>
          rw [hrest] at h
          cases h
        | ok row => exact ih hrest (Nat.lt_of_succ_lt_succ hi)

/-- What it takes to read the value of one more field, and what comes of it. -/
theorem fill_ok (hf : fields.TakeWhole) {i : Nat} (hi : i < ts.length) {value t rest : List UInt8}
    (hw : WellFormed value) {before after : Partial ts}
    (h : (fields.fill i before).run (value ++ t) = .ok (after, rest)) :
    rest = t ∧ before.has i = false ∧ (∀ j, after.has j = (j == i || before.has j)) ∧
      ¬ fields.RefusesAt i value := by
  induction fields generalizing i with
  | nil => cases hi
  | cons name read ofByte fields ih =>
    obtain ⟨first, others⟩ := before
    cases i with
    | zero =>
      cases first with
      | some x => cases h
      | none =>
        obtain ⟨x, rest', hread, hpure⟩ := run_bind_ok_iff.1 h
        cases hpure
        refine ⟨hf.1 _ hw t x _ hread, rfl, fun j => ?_, fun hrefuses => hrefuses t _ hread⟩
        cases j with
        | zero => rfl
        | succ j => simp [Partial.has]
    | succ i =>
      obtain ⟨x, rest', hread, hpure⟩ := run_bind_ok_iff.1 h
      cases hpure
      obtain ⟨hrest, hnew, hhas, haccepts⟩ := ih hf.2 (Nat.lt_of_succ_lt_succ hi) hread
      refine ⟨hrest, hnew, fun j => ?_, haccepts⟩
      cases j with
      | zero => simp [Partial.has]
      | succ j => simp [Partial.has, hhas]

/-- What holds when the entries of a map have been read, by which `before` became `after`. -/
structure Gathered (fields : Fields ts) (entries : List (List UInt8 × List UInt8))
    (before after : Partial ts) : Prop where
  kept : ∀ i, before.has i = true → after.has i = true
  named : ∀ i, after.has i = true → before.has i = true ∨ ∃ e ∈ entries, Names fields.names i e.1
  fresh : ∀ e ∈ entries, ∀ i, Names fields.names i e.1 → before.has i = false
  once : entries.Pairwise fun e e' => ∀ i, Names fields.names i e.1 → ¬ Names fields.names i e'.1
  accepted : ∀ e ∈ entries, ∀ i, Names fields.names i e.1 → ¬ fields.RefusesAt i e.2

variable {entries : List (List UInt8 × List UInt8)} {e : List UInt8 × List UInt8}
  {before middle after : Partial ts}

theorem Gathered.cons_foreign (h : fields.Gathered entries before after)
    (hk : ∀ i, ¬ Names fields.names i e.1) : fields.Gathered (e :: entries) before after := by
  refine
    { kept := h.kept
      named := fun i hi => ?_
      fresh := fun x hx i hi => ?_
      once := List.pairwise_cons.2 ⟨fun x _ i hi => absurd hi (hk i), h.once⟩
      accepted := fun x hx i hi => ?_ }
  · refine (h.named i hi).imp_right fun hx => ?_
    obtain ⟨x, hx, hxi⟩ := hx
    exact ⟨x, List.mem_cons_of_mem _ hx, hxi⟩
  · rcases List.mem_cons.1 hx with rfl | hx
    · exact absurd hi (hk i)
    · exact h.fresh x hx i hi
  · rcases List.mem_cons.1 hx with rfl | hx
    · exact absurd hi (hk i)
    · exact h.accepted x hx i hi

theorem Gathered.cons_field (h : fields.Gathered entries middle after) {i : Nat}
    (hk : ∀ j, Names fields.names j e.1 ↔ j = i) (hnew : before.has i = false)
    (hhas : ∀ j, middle.has j = (j == i || before.has j)) (haccepts : ¬ fields.RefusesAt i e.2) :
    fields.Gathered (e :: entries) before after := by
  have hi : middle.has i = true := by simp [hhas]
  have hmore : ∀ j, before.has j = true → middle.has j = true := fun j hj => by simp [hhas, hj]
  refine
    { kept := fun j hj => h.kept j (hmore j hj)
      named := fun j hj => ?_
      fresh := fun x hx j hj => ?_
      once := List.pairwise_cons.2 ⟨fun x hx j hj hxj => ?_, h.once⟩
      accepted := fun x hx j hj => ?_ }
  · rcases h.named j hj with hj | ⟨x, hx, hxj⟩
    · rw [hhas, Bool.or_eq_true, beq_iff_eq] at hj
      exact hj.symm.imp_right fun hji => ⟨e, List.mem_cons_self, (hk j).2 hji⟩
    · exact .inr ⟨x, List.mem_cons_of_mem _ hx, hxj⟩
  · rcases List.mem_cons.1 hx with rfl | hx
    · rw [(hk j).1 hj, hnew]
    · have hfresh := h.fresh x hx j hj
      rw [hhas, Bool.or_eq_false_iff] at hfresh
      exact hfresh.2
  · -- the field has its value by then
    have hfresh := h.fresh x hx j hxj
    rw [(hk j).1 hj, hi] at hfresh
    cases hfresh
  · rcases List.mem_cons.1 hx with rfl | hx
    · rw [(hk j).1 hj]
      exact haccepts
    · exact h.accepted x hx j hj

/-- The entries of a map are read only where each field is named at most once, and each reader
accepts what stands under its name. -/
theorem readEntries_gathers (hf : fields.TakeWhole) (hd : fields.names.Nodup) (room : Nat)
    (hw : ∀ e ∈ entries, WellFormed e.1 ∧ WellFormed e.2) {t rest : List UInt8}
    (h : (fields.readEntries room entries.length before).run (pairBytes entries ++ t) =
      .ok (after, rest)) : rest = t ∧ fields.Gathered entries before after := by
  induction entries generalizing before with
  | nil =>
    cases h
    exact ⟨rfl, fun i hi => hi, fun i hi => .inl hi, by simp, .nil, by simp⟩
  | cons e entries ih =>
    obtain ⟨hkey, hvalue⟩ := hw e List.mem_cons_self
    have hlater : ∀ e ∈ entries, WellFormed e.1 ∧ WellFormed e.2 :=
      fun x hx => hw x (List.mem_cons_of_mem _ hx)
    have hsplit : pairBytes (e :: entries) ++ t = e.1 ++ (e.2 ++ (pairBytes entries ++ t)) := by
      simp [pairBytes, List.append_assoc]
    rw [hsplit] at h
    obtain ⟨k, rest₁, hread, hnext⟩ := run_bind_ok_iff.1 h
    obtain ⟨rfl, hk⟩ := readKey_ok hd hkey hread
    cases k with
    | none =>
      obtain ⟨u, rest₂, hskip, hnext⟩ := run_bind_ok_iff.1 hnext
      obtain rfl := skip_takes room _ hvalue _ u rest₂ hskip
      obtain ⟨hrest, hgathered⟩ := ih hlater hnext
      exact ⟨hrest, hgathered.cons_foreign fun i hi => by cases (hk i).1 hi⟩
    | some i =>
      have hi : i < ts.length := by
        rw [← length_names fields]
        exact ((hk i).2 rfl).lt_length
      obtain ⟨middle, rest₂, hfill, hnext⟩ := run_bind_ok_iff.1 hnext
      obtain ⟨rfl, hnew, hhas, haccepts⟩ := fill_ok hf hi hvalue hfill
      obtain ⟨hrest, hgathered⟩ := ih hlater hnext
      refine ⟨hrest, hgathered.cons_field (i := i) (fun j => ?_) hnew hhas haccepts⟩
      rw [hk j, Option.some.injEq, eq_comm]

/-! ## Whole records -/

theorem readInOrder_takes (hf : fields.TakeWhole) (expected : String) (index : Nat)
    {items : List (List UInt8)} (hw : ∀ item ∈ items, WellFormed item) :
    Takes (fields.readInOrder expected index items.length) items.flatten := by
  induction fields generalizing index items with
  | nil =>
    cases items with
    | nil => exact (Reads.pure _).takes
    | cons item items => exact (Refuses.throw _ _).takes
  | cons name read ofByte fields ih =>
    cases items with
    | nil => exact (Refuses.throw _ _).takes
    | cons item items =>
      refine (hf.1 item (hw item List.mem_cons_self)).bind fun x => ?_
      exact (ih hf.2 _ fun y hy => hw y (List.mem_cons_of_mem _ hy)).map fun _ =>
        (Reads.pure _).takes

end Fields

variable {room : Nat} {name shape : String}

/-- What it takes to read a record from a map. -/
theorem readRecord_map (hf : fields.TakeWhole) (hd : fields.names.Nodup) {head : List UInt8}
    {entries : List (List UInt8 × List UInt8)} (hhead : Form (.map entries.length) head)
    (hw : ∀ e ∈ entries, WellFormed e.1 ∧ WellFormed e.2) {t rest : List UInt8} {row : Row ts}
    (h : (readRecord room name shape fields).run (head ++ pairBytes entries ++ t) =
      .ok (row, rest)) :
    rest = t ∧ ∃ after, fields.Gathered entries fields.blank after ∧
      ∀ i < ts.length, after.has i = true := by
  rw [List.append_assoc, readRecord, hhead.reads.run_bind] at h
  obtain ⟨after, rest₁, hread, hcomplete⟩ := run_bind_ok_iff.1 h
  obtain ⟨rfl, hgathered⟩ := Fields.readEntries_gathers hf hd room hw hread
  cases hall : fields.complete after with
  | error e =>
    rw [hall] at hcomplete
    cases hcomplete
  | ok values =>
    rw [hall] at hcomplete
    cases hcomplete
    exact ⟨rfl, after, hgathered, fun i hi => Fields.has_of_complete hall hi⟩

theorem readRecord_takes (hf : fields.TakeWhole) (hd : fields.names.Nodup) (room : Nat)
    (name shape : String) : TakesWhole (readRecord room name shape fields) := by
  rintro bytes ⟨k, hv⟩
  cases hv with
  | scalar h => exact (h.reads.map_refuses (refuse_refuses _ _ _)).takes
  | str h | ext h tag => exact (h.reads.bind_refuses (refuse_refuses _ _ _)).takes
  | bin h => exact h.reads.bind_takes ((readPayload_reads _).takes.map fun _ => .lift _)
  | array h hitems =>
    exact h.reads.bind_takes
      (Fields.readInOrder_takes hf _ 0 fun item hitem => ⟨_, hitems item hitem⟩)
  | map h hkeys hvalues =>
    intro t row rest hrun
    exact (readRecord_map hf hd h (fun e he => ⟨⟨_, hkeys e he⟩, ⟨_, hvalues e he⟩⟩) hrun).1

/-- A map of values under keys in which a field is named not at all, or twice. -/
inductive Faulty (names : List String) : List UInt8 → Prop
  | missing {head : List UInt8} {entries : List (List UInt8 × List UInt8)}
      (h : Form (.map entries.length) head) (hw : ∀ e ∈ entries, WellFormed e.1 ∧ WellFormed e.2)
      {i : Nat} (hi : i < names.length) (hmissing : ∀ e ∈ entries, ¬ Names names i e.1) :
      Faulty names (head ++ pairBytes entries)
  | repeated {head : List UInt8} {entries : List (List UInt8 × List UInt8)}
      (h : Form (.map entries.length) head) (hw : ∀ e ∈ entries, WellFormed e.1 ∧ WellFormed e.2)
      {i : Nat} {e e' : List UInt8 × List UInt8} (htwice : [e, e'].Sublist entries)
      (he : Names names i e.1) (he' : Names names i e'.1) :
      Faulty names (head ++ pairBytes entries)

/-- A map in which a field is repeated or missing is refused, whatever else it holds. -/
theorem Faulty.refuses (hf : fields.TakeWhole) (hd : fields.names.Nodup) {bytes : List UInt8}
    (h : Faulty fields.names bytes) : Refuses (readRecord room name shape fields) bytes := by
  intro t x hx
  cases h with
  | missing hhead hw hi hmissing =>
    rename_i i
    obtain ⟨-, after, hgathered, hall⟩ := readRecord_map hf hd hhead hw hx
    rw [Fields.length_names] at hi
    rcases hgathered.named i (hall i hi) with hblank | ⟨e, he, hei⟩
    · rw [Fields.has_blank] at hblank
      cases hblank
    · exact hmissing e he hei
  | repeated hhead hw htwice he he' =>
    obtain ⟨-, after, hgathered, -⟩ := readRecord_map hf hd hhead hw hx
    have hpair := hgathered.once.sublist htwice
    exact (List.pairwise_cons.1 hpair).1 _ (List.mem_singleton.2 rfl) _ he he'

/-- So is a map in which something that the field cannot be stands under its name. -/
theorem readRecord_refuses_of_field (hf : fields.TakeWhole) (hd : fields.names.Nodup)
    {head : List UInt8} {entries : List (List UInt8 × List UInt8)}
    (hhead : Form (.map entries.length) head)
    (hw : ∀ e ∈ entries, WellFormed e.1 ∧ WellFormed e.2) {e : List UInt8 × List UInt8}
    (he : e ∈ entries) {i : Nat} (hi : Names fields.names i e.1)
    (hrefuses : fields.RefusesAt i e.2) :
    Refuses (readRecord room name shape fields) (head ++ pairBytes entries) := by
  intro t x hx
  obtain ⟨-, after, hgathered, -⟩ := readRecord_map hf hd hhead hw hx
  exact hgathered.accepted e he i hi hrefuses

/-- An array of fields is refused whose first element the first field cannot be. -/
theorem readRecord_refuses_of_first {α : Type} {fieldName : String} {read : Reader α}
    {ofByte : UInt8 → Except DecodeError α} {n : Nat} {head first : List UInt8}
    (hhead : Form (.array n) head) (hfirst : Refuses read first) :
    Refuses (readRecord room name shape (.cons fieldName read ofByte fields)) (head ++ first) := by
  refine hhead.reads.bind_refuses ?_
  cases n with
  | zero => exact .throw _ _
  | succ n => exact hfirst.bind

end BackupAcks.MessagePack
