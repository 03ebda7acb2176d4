import BackupAcks.Coordinator
import BackupAcks.Simulation.Parameters

/-!
# What happens in a simulation, and when

Node 0 is primary of every segment, and the backups of a segment are consecutive among the other
nodes, starting further on for each segment and, by `shift`, for each new assignment. In a
handed-off assignment segment 0 belongs to its first backup instead.

The traffic of a simulation (§15) does not depend on how the coordinator rules: write `i` is issued
`i` intervals after the start, under the identifier with number `i`, and each of its backups replies
after a drawn delay, whatever became of the write meanwhile. So all that will happen can be laid
out beforehand, as a list of `Incident`s in the order of time.
-/
namespace BackupAcks.Simulation

/-! ## Assignments of the simulated cluster -/

/-- The node that issues the writes. -/
def primary : NodeId := 0

/-- The whole numbers below `n`, as words. -/
def wordsBelow (n : UInt32) : List UInt32 := (List.range n.toNat).map UInt32.ofNat

/-- The backups of a segment: consecutive nodes, from `s + shift` on, in a circle. -/
def backupsOf (p : Parameters) (shift : UInt32) (s : SegmentId) : List NodeId :=
  (wordsBelow p.copies).map fun c => 1 + (s + shift + c) % p.backups

/-- The first two nodes in each other's place. -/
def swapFirst : List NodeId → List NodeId
  | a :: b :: rest => b :: a :: rest
  | ns => ns

/-- The owners of a segment, primary first. -/
def ownersOf (p : Parameters) (shift : UInt32) (handedOff : Bool) (s : SegmentId) : List NodeId :=
  let owners := primary :: backupsOf p shift s
  if s = 0 ∧ handedOff = true then swapFirst owners else owners

def nodes (p : Parameters) : List NodeId := primary :: (wordsBelow p.backups).map (1 + ·)

/-- One version of the assignment. -/
def assignment (p : Parameters) (epoch : Epoch) (shift : UInt32) (handedOff : Bool) : Ownership :=
  .of epoch (nodes p)
    (.ofList ((wordsBelow p.segments).map fun s => (s, ownersOf p shift handedOff s)))

/-- The number of changes of the assignment before write `i`. -/
def turnOf (p : Parameters) (i : Nat) : Nat :=
  if p.rebalanceEvery = 0 then 0 else i / p.rebalanceEvery

/-- The assignment after the given number of changes: each raises the epoch, shifts the backups by
one and hands segment 0 off or back. -/
def assignmentAt (p : Parameters) (turn : Nat) : Ownership :=
  assignment p (1 + UInt32.ofNat turn) (UInt32.ofNat turn) (turn % 2 = 1)

/-! ## Random draws

A simulation draws the segments of each write, and for each forwarded write the delay and the fate
of its reply. The draws are numbers without bound, which their users bring into range. -/

/-- The draws, by the number of the write. -/
structure Chance where
  /-- For the segments of a write, one after the other. -/
  segment : (write : Nat) → (position : Nat) → Nat
  /-- For the delay of a backup's reply. -/
  delay : (write : Nat) → (backup : NodeId) → Nat
  /-- For what becomes of the reply. -/
  roll : (write : Nat) → (backup : NodeId) → Nat

namespace Chance

/-- Elements at drawn positions, none of them twice. -/
def sample {α : Type} (draw : Nat → Nat) : Nat → List α → List α
  | 0, _ => []
  | count + 1, xs =>
    let i := draw count % xs.length
    (xs[i]?).toList ++ sample draw count (xs.eraseIdx i)

/-- A drawn number as one of the `2 ^ 53` evenly spaced numbers from zero to below one. -/
def unit (n : Nat) : Binary64 :=
  .finite false (n % Nat.pow 2 53 * Nat.pow 2 (Binary64.places - 53))

/-- Spreads the bits of a word over the whole word. -/
def scatter (x : UInt64) : UInt64 :=
  let x := (x ^^^ (x >>> 30)) * 0xBF58476D1CE4E5B9
  let x := (x ^^^ (x >>> 27)) * 0x94D049BB133111EB
  x ^^^ (x >>> 31)

def drawn (seed : UInt64) (key : List Nat) : Nat :=
  (key.foldl (fun x n => scatter (x + 0x9E3779B97F4A7C15 * (UInt64.ofNat n + 1))) seed).toNat

/-- Draws that look random, all fixed by the seed. -/
def seeded (seed : UInt64) : Chance where
  segment write position := drawn seed [0, write, position]
  delay write backup := drawn seed [1, write, backup.toNat]
  roll write backup := drawn seed [2, write, backup.toNat]

end Chance

/-! ## Incidents -/

structure Incident where
  due : Instant
  event : Coordinator.Event

/-! ### Writes -/

/-- What a write asks for: the backups of its one segment, or of each of its segments. -/
inductive Request where
  | single (segment : SegmentId) (backups : NodeSet)
  | segmented (backups : SegmentMap NodeSet)
  deriving DecidableEq, Repr

/-- The segments that the primary may write to. -/
def candidates (p : Parameters) (v : Ownership) : List SegmentId :=
  (wordsBelow p.segments).filter fun s => v.primary? s == some primary

/-- The segments of write `i`, drawn among the candidates. -/
def chosen (p : Parameters) (chance : Chance) (among : List SegmentId) (i : Nat) :
    List SegmentId :=
  Chance.sample (chance.segment i) p.batch among

/-- The request for the given segments. A write that touches one segment only is a simple one. -/
def request? (p : Parameters) (v : Ownership) (segments : List SegmentId) : Option Request :=
  if p.batch = 1 then
    segments.head?.map fun s => .single s (.ofList (v.backups s))
  else
    some (.segmented (.ofList (segments.map fun s => (s, .ofList (v.backups s)))))

def Request.event (epoch : Epoch) : Request → Coordinator.Event
  | .single s backups => .create backups s epoch
  | .segmented backups => .createSegmented backups epoch

/-! ### Forwards and replies -/

/-- What the primary sends to one backup. -/
structure Forward where
  backup : NodeId
  id : WriteId
  epoch : Epoch
  /-- The segments that concern the backup; none for a simple write. -/
  segments : Option (List SegmentId)
  deriving DecidableEq, Repr

/-- One forward for each backup of the request, with the segments that list it. -/
def Request.forwards (id : WriteId) (epoch : Epoch) : Request → List Forward
  | .single _ backups => backups.toList.map fun n => ⟨n, id, epoch, none⟩
  | .segmented backups =>
    (NodeSet.ofList (backups.values.flatMap (·.toList))).toList.map fun n =>
      ⟨n, id, epoch, some ((backups.entries.filter fun e => decide (n ∈ e.2)).map Prod.fst)⟩

/-- The replies to a forward, by the drawn number: lost, a failure, or confirmations. -/
def Forward.replies (p : Parameters) (roll : Binary64) (f : Forward) : List Reply :=
  if roll.lt p.dropRate then []
  else if roll.lt (p.dropRate.add p.failRate) then
    [.errorAck f.id f.epoch s!"injected failure at backup {f.backup}"]
  else
    match f.segments with
    | none => [.ack f.id f.epoch]
    | some segments => segments.map fun s => .segmentAck f.id f.epoch s

/-! ### The agenda -/

/-- The instant of write `i`. -/
def issueTime (p : Parameters) (i : Nat) : Instant := Duration.ofMicros (i * p.intervalUs)

/-- Write `i` under the given assignment: its creation, then the replies to its forwards. -/
def writeIncidents (p : Parameters) (chance : Chance) (v : Ownership) (among : List SegmentId)
    (i : Nat) : List Incident :=
  let now := issueTime p i
  match request? p v (chosen p chance among i) with
  | none => []
  | some r =>
    ⟨now, r.event v.epoch⟩ ::
      (r.forwards ⟨primary, UInt64.ofNat i⟩ v.epoch).flatMap fun f =>
        let delay := Duration.ofMillis (chance.delay i f.backup % (p.maxDelayMs + 1))
        (f.replies p (Chance.unit (chance.roll i f.backup))).map fun r =>
          ⟨now + delay, .bytes f.backup r.encode⟩

/-- The writes from number `start` on that fall under one assignment, and its activation before
the first of them unless it is the initial one. -/
def turnIncidents (p : Parameters) (chance : Chance) (turn start count : Nat) : List Incident :=
  let v := assignmentAt p turn
  let among := candidates p v
  (if turn = 0 then [] else [⟨issueTime p start, .activate v⟩]) ++
    (List.range' start count).flatMap (writeIncidents p chance v among)

/-- The turns of the first `count` writes: number, first write, number of writes. -/
def turns (p : Parameters) (count : Nat) : List (Nat × Nat × Nat) :=
  let size := p.rebalanceEvery
  if size = 0 then [(0, 0, count)]
  else
    (List.range ((count + size - 1) / size)).map fun turn =>
      (turn, turn * size, min size (count - turn * size))

/-- All that happens on account of the first `count` writes, in the order of time; at one instant,
what belongs to an earlier write comes first. -/
def agenda (p : Parameters) (chance : Chance) (count : Nat) : List Incident :=
  ((turns p count).flatMap fun (turn, start, size) =>
    turnIncidents p chance turn start size).mergeSort fun a b => a.due ≤ b.due

def replyBytes (incidents : List Incident) : Nat :=
  incidents.foldl (fun total x =>
    match x.event with
    | .bytes _ bytes => total + bytes.length
    | _ => total) 0

end BackupAcks.Simulation
