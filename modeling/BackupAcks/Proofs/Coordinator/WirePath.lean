import BackupAcks.Proofs.Coordinator.Redelivery
import BackupAcks.Proofs.Reply.Codec

/-!
# Bytes are calls

A coordinator can be told of a reply by a call or be handed the bytes that came over the network.
Bytes that can be read are the call for the reply that they start with, to the notice; bytes that
cannot are reported, and change nothing. So the bytes of a run may be read beforehand, and those
that are no reply left out, and nobody can tell: neither by what a later event returns nor by the
state that it leaves.

A reply is read to its last byte and no further, so nothing that is read could come from a beginning
of it: wherever it is cut, between two fields, inside a name, a number, a length or a character, the
reader runs out of bytes. The bytes that are left are no reply, neither the same nor a shorter one.

Results:
* `step_bytes_of_ok`, `step_bytes_of_error`: bytes that are a reply, and bytes that are none;
* `step_direct?`: an event does what its direct call does;
* `run_readsAhead`: a run over bytes is the run over the calls that they stand for;
* `truncated_dropped`: a coordinator that is handed the beginning of a reply changes nothing.
-/
namespace BackupAcks

def Reply.call (sender : NodeId) : Reply → Coordinator.Event
  | .ack id epoch => .ack id sender epoch
  | .segmentAck id epoch segment => .segmentAck id sender epoch segment
  | .errorAck id epoch cause => .error id sender epoch cause

namespace Coordinator

/-- The direct call in the place of an event: of bytes, the one for the reply that they start with,
if they do; everything else stands for itself. -/
def Event.direct? : Event → Option Event
  | .bytes sender data => (Reply.decode data).toOption.map (·.call sender)
  | e => some e

/-- A run whose bytes are read beforehand. -/
def readAhead (es : List Event) : List Event := es.filterMap Event.direct?

/-- Of the entries of a trace of `es`, those of events that have a direct call. -/
def ofCalls (es : List Event) (entries : List (Answer × Coordinator)) :
    List (Answer × Coordinator) :=
  ((es.zip entries).filter (·.1.direct?.isSome)).map Prod.snd

variable {c : Coordinator} {sender : NodeId} {bytes : List UInt8} {r : Reply}

/-! ## One event -/

theorem step_call (c : Coordinator) (sender : NodeId) (r : Reply) :
    c.step (r.call sender) = c.step (.reply sender r) := by
  cases r <;> rfl

/-- Bytes that can be read are the call for the reply that they start with, whatever else they are. -/
theorem step_bytes_of_ok (h : Reply.decode bytes = .ok r) :
    c.step (.bytes sender bytes) = c.step (r.call sender) := by
  rw [step_call]
  simp only [step, deliverBytes, h]

theorem step_bytes_of_error {reason : MessagePack.DecodeError}
    (h : Reply.decode bytes = .error reason) :
    c.step (.bytes sender bytes) = ⟨(.nothing, c), [.undecodable sender reason]⟩ := by
  simp only [step, deliverBytes, h]
  rfl

/-- An event does what its direct call does; one that has none returns nothing and leaves
everything as it is. -/
theorem step_direct? (c : Coordinator) (e : Event) :
    (c.step e).value = e.direct?.elim (.nothing, c) fun d => (c.step d).value := by
  cases e with
  | bytes sender bytes =>
    cases h : Reply.decode bytes with
    | ok r =>
      rw [step_bytes_of_ok h]
      simp only [Event.direct?, h]
      rfl
    | error reason =>
      rw [step_bytes_of_error h]
      simp only [Event.direct?, h]
      rfl
  | _ => rfl

/-! ## Runs -/

theorem readAhead_cons (e : Event) (es : List Event) :
    readAhead (e :: es) = e.direct?.toList ++ readAhead es := by
  unfold readAhead
  cases h : e.direct? with
  | none => rw [List.filterMap_cons_none h]; rfl
  | some d => rw [List.filterMap_cons_some h]; rfl

theorem ofCalls_cons (e : Event) (es : List Event) (x : Answer × Coordinator)
    (entries : List (Answer × Coordinator)) :
    ofCalls (e :: es) (x :: entries) =
      (e.direct?.map fun _ => x).toList ++ ofCalls es entries := by
  unfold ofCalls
  cases h : e.direct? with
  | none => simp [h]
  | some d => simp [h]

theorem readAhead_unnoticed (c : Coordinator) (es : List Event) :
    c.trace (readAhead es) = ofCalls es (c.trace es) ∧ c.run (readAhead es) = c.run es := by
  induction es generalizing c with
  | nil => exact ⟨rfl, rfl⟩
  | cons e es ih =>
    have hstep := step_direct? c e
    rw [readAhead_cons, trace, ofCalls_cons, run_cons]
    cases hd : e.direct? with
    | none =>
      rw [hd] at hstep
      rw [hstep]
      exact ih c
    | some d =>
      rw [hd] at hstep
      rw [hstep]
      obtain ⟨htrace, hrun⟩ := ih (c.step d).value.2
      exact ⟨congrArg ((c.step d).value :: ·) htrace, hrun⟩

/-- **The wire adds nothing.** Read the bytes of a run beforehand, put the calls that they stand for
in their place, and leave out the bytes that are no reply. All other events return what they return
over the bytes and leave the same state behind, and so does the whole run. In particular bytes that
cannot be read change nothing; and the bytes of a reply, with a text of less than `2 ^ 32` bytes, are
the call for it, whatever stands behind them. -/
theorem run_readsAhead (c : Coordinator) :
    (∀ es, c.trace (readAhead es) = ofCalls es (c.trace es) ∧ c.run (readAhead es) = c.run es) ∧
      (∀ sender bytes, (Reply.decode bytes).toOption = none →
        (c.step (.bytes sender bytes)).value = (.nothing, c)) ∧
      ∀ sender r, r.textSize < 2 ^ 32 → ∀ rest,
        c.step (.bytes sender (r.encode ++ rest)) = c.step (r.call sender) ∧
          c.step (.bytes sender (r.encode ++ rest)) = c.step (.reply sender r) := by
  refine ⟨readAhead_unnoticed c, fun sender bytes h => ?_, fun sender r hsize rest => ?_⟩
  · rw [step_direct?, Event.direct?, h]
    rfl
  · have hcall : c.step (.bytes sender (r.encode ++ rest)) = c.step (r.call sender) :=
      step_bytes_of_ok (Reply.decode_encode_append hsize rest)
    exact ⟨hcall, hcall.trans (step_call c sender r)⟩

/-- Bytes that are spelled unusually, bytes behind a reply, a reply that is cut short, and noise. -/
def wiredRun : List Event :=
  [.createSegmented (.ofList [(0, .ofList [1, 2]), (1, .ofList [2, 3])]) 5,
   .bytes 2 ((Reply.segmentAck ⟨0, 0⟩ 5 0).encode ++ [0xC1, 7]), .bytes 1 [0xC1],
   .bytes 1 ([0x81, 0, 0x82] ++ MessagePack.writeText "topology" ++ [5] ++
     MessagePack.writeText "op" ++ WriteId.encode ⟨0, 0⟩),
   .bytes 2 ((Reply.segmentAck ⟨0, 0⟩ 5 1).encode.take 6), .bytes 9 [], .restrict (.ofList [0, 2, 3]),
   .bytes 3 (Reply.errorAck ⟨0, 0⟩ 5 "disk é").encode, .stop]

theorem run_readsAhead_wiredRun :
    wiredRun.length = 9 ∧ (readAhead wiredRun).length = 6 ∧
      (new 0 5 .default).trace (readAhead wiredRun) =
        ofCalls wiredRun ((new 0 5 .default).trace wiredRun) ∧
      (new 0 5 .default).run (readAhead wiredRun) = (new 0 5 .default).run wiredRun ∧
      (Reply.decode [0xC1]).toOption = none ∧
      ((new 0 5 .default).step (.bytes 1 [0xC1])).value = (.nothing, new 0 5 .default) ∧
      (Reply.errorAck ⟨0, 0⟩ 5 "disk é").textSize < 2 ^ 32 ∧
      (new 0 5 .default).step (.bytes 3 ((Reply.errorAck ⟨0, 0⟩ 5 "disk é").encode ++ [7])) =
        (new 0 5 .default).step (.error ⟨0, 0⟩ 3 5 "disk é") := by
  have hcalls : (readAhead wiredRun).length = 6 := by decide +kernel
  have hnoise : (Reply.decode [0xC1]).toOption = none := by decide
  have hsize : (Reply.errorAck ⟨0, 0⟩ 5 "disk é").textSize < 2 ^ 32 := by decide
  obtain ⟨hruns, hdrop, hread⟩ := run_readsAhead (new 0 5 .default)
  exact ⟨rfl, hcalls, (hruns wiredRun).1, (hruns wiredRun).2, hnoise, hdrop 1 [0xC1] hnoise, hsize,
    (hread 3 _ hsize [7]).1⟩

end Coordinator

/-! ## Replies that are cut off -/

theorem Reply.decode_truncated {r : Reply} (h : r.textSize < 2 ^ 32) {bytes : List UInt8}
    (hb : bytes <+: r.encode) (hne : bytes ≠ r.encode) :
    ∃ e, e.EndsEarly ∧ decode bytes = .error e := by
  obtain ⟨t, ht⟩ := hb
  have hwhole : Reply.read.run (bytes ++ t) = .ok (r, []) := by
    rw [ht, ← List.append_nil r.encode]
    exact read_encode h []
  have hcut : t ≠ [] := by
    rintro rfl
    exact hne (by rwa [List.append_nil] at ht)
  obtain ⟨e, he, hread⟩ := read_extends.ends_early hwhole hcut
  exact ⟨e, he, by rw [decode, hread]; rfl⟩

namespace Coordinator

/-- **A reply that is cut off is no reply.** Of a reply, with a text of less than `2 ^ 32` bytes,
every beginning but the whole, and be it empty, is refused because it ends too early; a coordinator
that is handed it from anybody, at any time, reports that, ends no write, and goes on as if it had
not been handed anything. -/
theorem truncated_dropped (r : Reply) (h : r.textSize < 2 ^ 32) (bytes : List UInt8)
    (hb : bytes <+: r.encode) (hne : bytes ≠ r.encode) :
    ∃ e, e.EndsEarly ∧ Reply.decode bytes = .error e ∧
      ∀ (c : Coordinator) (sender : NodeId),
        c.deliverBytes sender bytes = ⟨(false, c), [.undecodable sender e]⟩ ∧
        ∀ es, c.run (.bytes sender bytes :: es) = c.run es := by
  obtain ⟨e, he, hdecode⟩ := Reply.decode_truncated h hb hne
  refine ⟨e, he, hdecode, fun c sender => ⟨?_, fun es => ?_⟩⟩
  · simp only [deliverBytes, hdecode]
    rfl
  · rw [run_cons, step_bytes_of_error hdecode]

/-- Cut inside the last character of its text. -/
theorem truncated_dropped_insideCharacter :
    (Reply.errorAck ⟨1, 300⟩ 70000 "disk é").textSize < 2 ^ 32 ∧
      (Reply.errorAck ⟨1, 300⟩ 70000 "disk é").encode.dropLast <+:
        (Reply.errorAck ⟨1, 300⟩ 70000 "disk é").encode ∧
      (Reply.errorAck ⟨1, 300⟩ 70000 "disk é").encode.dropLast ≠
        (Reply.errorAck ⟨1, 300⟩ 70000 "disk é").encode ∧
      ∃ e, e.EndsEarly ∧
        Reply.decode (Reply.errorAck ⟨1, 300⟩ 70000 "disk é").encode.dropLast = .error e := by
  have hsize : (Reply.errorAck ⟨1, 300⟩ 70000 "disk é").textSize < 2 ^ 32 := by decide
  have hcut : (Reply.errorAck ⟨1, 300⟩ 70000 "disk é").encode.dropLast ≠
      (Reply.errorAck ⟨1, 300⟩ 70000 "disk é").encode := by decide
  have hbefore := List.dropLast_prefix (Reply.errorAck ⟨1, 300⟩ 70000 "disk é").encode
  obtain ⟨e, he, hdecode, -⟩ := truncated_dropped _ hsize _ hbefore hcut
  exact ⟨hsize, hbefore, hcut, e, he, hdecode⟩

end Coordinator
end BackupAcks
