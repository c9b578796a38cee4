import KvEngine.Durability.ActiveSyncWrite
import KvEngine.Lib.Monotonic
import Mathlib

/-!
# The PassiveDurabilityMonitor

`PassiveDurabilityMonitor` (`passive_durability_monitor.cc`) tracks the
Prepares a replica receives on its DCP stream. It moves its high prepared
seqno (HPS) over the Prepares it has locally satisfied, acks the HPS to the
active, and drops a Prepare once it is both completed and below the HPS.

- `PassiveDurabilityMonitor.State`: `PassiveDurabilityMonitor::State`: the
  tracked writes, the HPS and HCS positions, the queue of received snapshot
  ends and the dropped collections. `PassiveDurabilityMonitor` adds the
  `seqnoToAck` that its two notifications store under the state lock and send
  after releasing it.
- `ReplicaVBucket`: what the monitor reads from its vbucket: the persistence
  seqno and whether a disk snapshot is being received.
- The state's operations keep their names: `getIteratorNext`,
  `safeEraseSyncWrite`, `updateHighPreparedSeqno`,
  `checkForAndRemovePrepares`, `checkForAndRemoveDroppedCollections`,
  `processSnapshotEnd`; so do the monitor's `addSyncWrite`,
  `completeSyncWrite`, `eraseSyncWrite`, `notifyDroppedCollection`,
  `storeSeqnoAck` and `sendSeqnoAck`.
- `Op`, `lockedSection`, `step`, `run`: the public operations, the part of
  each that runs under the state lock, and a run of whole operations.

Iterators are seqnos (`ListIter`), with `none` for `end()`. The loops over
`trackedWrites` and `receivedSnapshotEnds` recurse on fuel: the length of the
container when the loop starts. `receivedSnapshotEnds` is a
`MonotonicQueue`; a push is modelled without its order check, which the
release build does not make. A `throwException` message keeps its fixed text
without the vbucket id.
-/

namespace KvEngine.Durability

/-- `CheckpointType`, as far as the monitor tells snapshots apart. -/
inductive CheckpointType where
  | disk
  | memory
  deriving DecidableEq, Repr

/-- `SnapshotEndInfo`: a received snapshot end, the type of its snapshot and
the HPS its marker carried. -/
structure SnapshotEndInfo where
  seqno : Nat
  type : CheckpointType
  hps : Option Nat
  deriving DecidableEq, Repr

/-- `PassiveDurabilityMonitor::State`. Dropped collections map a collection id
to the seqno of its drop. -/
structure PassiveDurabilityMonitor.State (Key : Type) where
  trackedWrites : List (SyncWrite Key)
  highPreparedSeqno : Position
  receivedSnapshotEnds : List SnapshotEndInfo
  highCompletedSeqno : Position
  droppedCollections : List (Nat × Nat)
  deriving DecidableEq, Repr

/-- The monitor: its state and the seqno ack waiting to be sent. -/
structure PassiveDurabilityMonitor (Key : Type) where
  state : PassiveDurabilityMonitor.State Key
  seqnoToAck : Nat
  deriving DecidableEq, Repr

/-- What the monitor reads from its vbucket when an operation runs. -/
structure ReplicaVBucket where
  persistenceSeqno : Nat
  isReceivingDiskSnapshot : Bool
  deriving DecidableEq, Repr

namespace PassiveDurabilityMonitor

/-- `PassiveDurabilityMonitor::Resolution`. -/
inductive Resolution where
  | commit
  | abort
  deriving DecidableEq, Repr

variable {Key : Type} [DecidableEq Key]

/-- The seqno of a write: the key of its iterator. -/
def seqnoOf (w : SyncWrite Key) : Nat := w.bySeqno

/-- `throwException<exception>(thrower, error)`: the message without the
vbucket id. -/
def exceptionText (thrower error : String) : String :=
  "PassiveDurabilityMonitor::" ++ thrower ++ " " ++ error

namespace State

/-- `getIteratorNext(it)`: from `end()` the first write. -/
def getIteratorNext (s : State Key) (it : Option Nat) : Option (SyncWrite Key) :=
  ListIter.next seqnoOf s.trackedWrites it

/-- `safeEraseSyncWrite(toErase)` for the write with seqno `k`: an iterator on
it moves back to the write before (or `end()`), then the write is erased. -/
def safeEraseSyncWrite (s : State Key) (k : Nat) : State Key :=
  let valid := ListIter.prev seqnoOf s.trackedWrites k
  { s with
    trackedWrites := ListIter.erase seqnoOf s.trackedWrites k
    highPreparedSeqno :=
      { s.highPreparedSeqno with it := ListIter.repoint s.highPreparedSeqno.it k valid }
    highCompletedSeqno :=
      { s.highCompletedSeqno with it := ListIter.repoint s.highCompletedSeqno.it k valid } }

/-- The loop of `checkForAndRemovePrepares` over the front of the tracked
writes: drop them while they are completed and not above `lastWriteSeqno`,
moving an iterator on a dropped write to `end()`. -/
def checkForAndRemovePreparesLoop (lastWriteSeqno : Nat) :
    List (SyncWrite Key) → Option Nat → Option Nat → List (SyncWrite Key) × Option Nat × Option Nat
  | [], hpsIt, hcsIt => ([], hpsIt, hcsIt)
  | w :: rest, hpsIt, hcsIt =>
    if w.bySeqno ≤ lastWriteSeqno ∧ w.isCompleted then
      checkForAndRemovePreparesLoop lastWriteSeqno rest
        (ListIter.repoint hpsIt w.bySeqno none) (ListIter.repoint hcsIt w.bySeqno none)
    else (w :: rest, hpsIt, hcsIt)

/-- `checkForAndRemovePrepares()`: drop the completed Prepares up to the HPS. -/
def checkForAndRemovePrepares (s : State Key) : State Key :=
  if s.trackedWrites.isEmpty then s
  else
    let (trackedWrites, hpsIt, hcsIt) :=
      checkForAndRemovePreparesLoop s.highPreparedSeqno.lastWriteSeqno s.trackedWrites
        s.highPreparedSeqno.it s.highCompletedSeqno.it
    { s with
      trackedWrites
      highPreparedSeqno := { s.highPreparedSeqno with it := hpsIt }
      highCompletedSeqno := { s.highCompletedSeqno with it := hcsIt } }

/-- `checkForAndRemoveDroppedCollections()`: forget the drops older than the
first tracked write, or all of them when nothing is tracked. -/
def checkForAndRemoveDroppedCollections (s : State Key) : State Key :=
  if s.droppedCollections.isEmpty then s
  else
    match s.trackedWrites with
    | [] => { s with droppedCollections := [] }
    | first :: _ =>
      { s with droppedCollections := s.droppedCollections.filter (fun d => ¬ d.2 < first.bySeqno) }

/-- The level `updateHighPreparedSeqno` lets the HPS pass in a snapshot:
everything once the snapshot is persisted, up to
`MajorityAndPersistOnMaster` in an unpersisted memory snapshot, nothing in
an unpersisted disk snapshot. -/
def maxLevelCanAdvanceOver (snapshotFullyPersisted isDiskSnapshot : Bool) : Level :=
  if snapshotFullyPersisted then .persistToMajority
  else if !isDiskSnapshot then .majorityAndPersistOnMaster
  else .none

/-- `inSnapshot(snapshotEndSeqno, prepareItr)`. -/
def inSnapshot (snapshotEndSeqno : Nat) : Option (SyncWrite Key) → Bool
  | some w => decide (w.bySeqno ≤ snapshotEndSeqno)
  | none => false

/-- The `for` loop of `updateHighPreparedSeqno`: move the HPS over the
following writes of the snapshot whose level is at most `maxLevel`. The
store of `lastWriteSeqno` is a throwing `WeaklyMonotonic`. -/
def advanceHighPreparedSeqno (snapshotEndSeqno : Nat) (maxLevel : Level) :
    Nat → State Key → Except Failure (State Key)
  | 0, s => .ok s
  | fuel + 1, s =>
    match s.getIteratorNext s.highPreparedSeqno.it with
    | some next =>
      if next.bySeqno ≤ snapshotEndSeqno ∧ next.level ≤ maxLevel then do
        let lastWriteSeqno ← Monotonic.store (.nonMonotonic .lastWriteSeqno) .greaterEqual
          s.highPreparedSeqno.lastWriteSeqno next.bySeqno
        advanceHighPreparedSeqno snapshotEndSeqno maxLevel fuel
          { s with highPreparedSeqno := { s.highPreparedSeqno with lastWriteSeqno, it := some next.bySeqno } }
      else .ok s
    | none => .ok s

/-- The special case of `updateHighPreparedSeqno` for a fully persisted disk
snapshot: the HPS moves to the HPS the snapshot's marker carried, or to the
snapshot end, since its Prepares may have been deduplicated. -/
def moveHpsToSnapshotEnd (snapshotEnd : SnapshotEndInfo) (s : State Key) :
    Except Failure (State Key) := do
  let lastWriteSeqno ← Monotonic.store (.nonMonotonic .lastWriteSeqno) .greaterEqual
    s.highPreparedSeqno.lastWriteSeqno (snapshotEnd.hps.getD snapshotEnd.seqno)
  pure { s with highPreparedSeqno := { s.highPreparedSeqno with lastWriteSeqno } }

/-- One turn of the `while` loop of `updateHighPreparedSeqno` on the first
queued snapshot end: the HPS after the turn, and whether the loop goes on
with the next snapshot end. -/
def processSnapshotEndTurn (persistenceSeqno : Nat) (snapshotEnd : SnapshotEndInfo)
    (s : State Key) : Except Failure (State Key × Bool) := do
  let snapshotFullyPersisted := decide (snapshotEnd.seqno ≤ persistenceSeqno)
  let isDiskSnapshot := snapshotEnd.type == .disk
  let maxLevel := maxLevelCanAdvanceOver snapshotFullyPersisted isDiskSnapshot
  let s ← (if s.trackedWrites.isEmpty then pure s
    else advanceHighPreparedSeqno snapshotEnd.seqno maxLevel s.trackedWrites.length s :
      Except Failure (State Key))
  let s ← (if isDiskSnapshot && snapshotFullyPersisted then moveHpsToSnapshotEnd snapshotEnd s
    else pure s : Except Failure (State Key))
  let stop := (isDiskSnapshot && !snapshotFullyPersisted) ||
    inSnapshot snapshotEnd.seqno (s.getIteratorNext s.highPreparedSeqno.it)
  pure (s, !stop)

/-- The `while` loop of `updateHighPreparedSeqno` over the queued snapshot
ends: a snapshot end is popped once the HPS has gone through its snapshot. -/
def updateHighPreparedSeqnoLoop (persistenceSeqno : Nat) :
    Nat → State Key → Except Failure (State Key)
  | 0, s => .ok s
  | fuel + 1, s =>
    match s.receivedSnapshotEnds with
    | [] => .ok s
    | snapshotEnd :: rest => do
      let (s, continue_) ← processSnapshotEndTurn persistenceSeqno snapshotEnd s
      if continue_ then
        updateHighPreparedSeqnoLoop persistenceSeqno fuel { s with receivedSnapshotEnds := rest }
      else pure s

/-- `updateHighPreparedSeqno()`. -/
def updateHighPreparedSeqno (persistenceSeqno : Nat) (s : State Key) :
    Except Failure (State Key) := do
  let prevHPS := s.highPreparedSeqno.lastWriteSeqno
  let s ← updateHighPreparedSeqnoLoop persistenceSeqno s.receivedSnapshotEnds.length s
  if s.highPreparedSeqno.lastWriteSeqno = prevHPS then pure s
  else if prevHPS < s.highPreparedSeqno.lastWriteSeqno then pure s.checkForAndRemovePrepares
  else throw .expects

/-- `highCompletedSeqno.lastWriteSeqno = hcs` at a snapshot end whose marker
carried an HCS: the store of a throwing `WeaklyMonotonic`. -/
def storeHighCompletedSeqno (s : State Key) (hcs : Nat) : Except Failure (State Key) := do
  let lastWriteSeqno ← Monotonic.store (.nonMonotonic .lastWriteSeqno) .greaterEqual
    s.highCompletedSeqno.lastWriteSeqno hcs
  pure { s with highCompletedSeqno := { s.highCompletedSeqno with lastWriteSeqno } }

/-- `processSnapshotEnd(type, snapEnd, hps)`. -/
def processSnapshotEnd (persistenceSeqno : Nat) (type : CheckpointType) (snapEnd : Nat)
    (hps : Option Nat) (s : State Key) : Except Failure (State Key) := do
  let snapshotEnd : SnapshotEndInfo := { seqno := snapEnd, type, hps }
  let s := { s with receivedSnapshotEnds := s.receivedSnapshotEnds ++ [snapshotEnd] }
  let s ← s.updateHighPreparedSeqno persistenceSeqno
  pure s.checkForAndRemoveDroppedCollections

/-- The loop of `completeSyncWrite` that erases, from `next` on, the writes of
dropped collections. -/
def eraseDroppedFrom (collectionOf : Key → Nat) (dropped : List (Nat × Nat)) :
    Nat → State Key → Option (SyncWrite Key) → State Key × Option (SyncWrite Key)
  | 0, s, next => (s, next)
  | _ + 1, s, none => (s, none)
  | fuel + 1, s, some w =>
    if dropped.any (fun d => d.1 = collectionOf w.key) then
      eraseDroppedFrom collectionOf dropped fuel (s.safeEraseSyncWrite w.bySeqno)
        (ListIter.nextAfter seqnoOf w.bySeqno s.trackedWrites)
    else (s, some w)

end State

/-- The overwrite path of `addSyncWrite`: erase the in-flight write for the
item's key, which must be the Prepare being overwritten. -/
def eraseOverwrittenPrepare (item : Prepare Key) (overwritingPrepareSeqno : Nat)
    (s : State Key) : Except Failure (State Key) :=
  match s.trackedWrites.find? (fun w => w.key = item.key ∧ ¬ w.isCompleted) with
  | none => .ok s
  | some w =>
    if w.bySeqno = overwritingPrepareSeqno then .ok (s.safeEraseSyncWrite w.bySeqno)
    else .error .expects

/-- `addSyncWrite(item, overwritingPrepareSeqno)`: a Prepare overwriting an
in-flight one (a disk snapshot's mutation) first erases it. -/
def addSyncWrite (item : Prepare Key) (overwritingPrepareSeqno : Option Nat) (s : State Key) :
    Except Failure (State Key) :=
  if item.level = .none then
    throw (.invalidArgument (exceptionText "addSyncWrite" "Level::None"))
  else if !item.timeout.isInfinite then
    throw (.invalidArgument (exceptionText "addSyncWrite"
      "timeout is not infinite (PassiveDM cannot safely timeout SyncWrites)"))
  else do
    let s := s.checkForAndRemoveDroppedCollections
    let s ← (match overwritingPrepareSeqno with
      | none => pure s
      | some ow => eraseOverwrittenPrepare item ow s : Except Failure (State Key))
    pure { s with trackedWrites := s.trackedWrites ++ [SyncWrite.ofPrepare item] }

/-- The end of `completeSyncWrite` once it has found the write `w` to
complete: the sanity checks on its key and seqno, the HCS store, the
completion, and the removal of what is now removable. -/
def completeWrite (isReceivingDiskSnapshot : Bool) (key : Key) (res : Resolution)
    (prepareSeqno : Option Nat) (w : SyncWrite Key) (s : State Key) :
    Except Failure (State Key) :=
  let enforceOrderedCompletion := !isReceivingDiskSnapshot
  if w.key ≠ key ∨ prepareSeqno.any (fun p => w.bySeqno ≠ p) then
    throw (.logicError (exceptionText "completeSyncWrite" "Pending resolution for '"))
  else do
    -- The HCS does not move back for a Prepare below it that a disk snapshot
    -- completes (a deduplicated commit).
    let s ← (if enforceOrderedCompletion || decide (s.highCompletedSeqno.lastWriteSeqno < w.bySeqno)
      then do
        let lastWriteSeqno ← Monotonic.store (.nonMonotonic .lastWriteSeqno) .greaterEqual
          s.highCompletedSeqno.lastWriteSeqno w.bySeqno
        pure { s with
          highCompletedSeqno := { s.highCompletedSeqno with lastWriteSeqno, it := some w.bySeqno } }
      else pure s : Except Failure (State Key))
    -- MB-36735: a completed write is completed again only by an abort in a
    -- disk snapshot, for a PersistToMajority Prepare not yet below the HPS.
    let s ← (if w.isCompleted then
        if w.level ≠ .persistToMajority ∨ ¬ s.highPreparedSeqno.lastWriteSeqno < w.bySeqno ∨
            !isReceivingDiskSnapshot ∨ res ≠ .abort then throw .expects
        else pure s
      else pure { s with
        trackedWrites := ListIter.modify seqnoOf s.trackedWrites w.bySeqno
          (fun w => { w with status := .completed }) } : Except Failure (State Key))
    pure s.checkForAndRemovePrepares.checkForAndRemoveDroppedCollections

/-- The part of `completeSyncWrite` that finds the write to complete. Outside
a disk snapshot it is the one after the HCS, past the writes of dropped
collections in the way, which are erased; in a disk snapshot, where
deduplication reorders completions, it is the first in-flight write for the
key. -/
def findWriteToComplete (collectionOf : Key → Nat) (isReceivingDiskSnapshot : Bool) (key : Key)
    (s : State Key) : State Key × Option (SyncWrite Key) :=
  let enforceOrderedCompletion := !isReceivingDiskSnapshot
  let next := if enforceOrderedCompletion then s.getIteratorNext s.highCompletedSeqno.it
    else s.trackedWrites.find? (fun w => w.key = key ∧ ¬ w.isCompleted)
  if enforceOrderedCompletion && !s.droppedCollections.isEmpty &&
      next.any (fun w => w.key ≠ key) then
    s.eraseDroppedFrom collectionOf s.droppedCollections s.trackedWrites.length next
  else (s, next)

/-- `completeSyncWrite(key, res, prepareSeqno)`. In a disk snapshot an abort
without a write to complete is ignored. -/
def completeSyncWrite (collectionOf : Key → Nat) (isReceivingDiskSnapshot : Bool) (key : Key)
    (res : Resolution) (prepareSeqno : Option Nat) (s : State Key) :
    Except Failure (State Key) :=
  let enforceOrderedCompletion := !isReceivingDiskSnapshot
  if s.trackedWrites.isEmpty then
    if !enforceOrderedCompletion && res == .abort then pure s
    else throw (.logicError (exceptionText "completeSyncWrite" "No tracked, but received "))
  else
    match findWriteToComplete collectionOf isReceivingDiskSnapshot key s with
    | (s, none) =>
      if !enforceOrderedCompletion && res == .abort then pure s
      else throw (.logicError (exceptionText "completeSyncWrite"
        "No Prepare waiting for completion, but received "))
    | (s, some w) => completeWrite isReceivingDiskSnapshot key res prepareSeqno w s

/-- `eraseSyncWrite(key, seqno)`: erase the first write for `key`, which must
have seqno `seqno`; no write for `key` is not an error. -/
def eraseSyncWrite (key : Key) (seqno : Nat) (s : State Key) : Except Failure (State Key) :=
  match s.trackedWrites.find? (fun w => w.key = key) with
  | none => .ok s
  | some w =>
    if w.bySeqno ≠ seqno then
      .error (.logicError (exceptionText "eraseSyncWrite"
        "Attempting to drop prepare for '"))
    else .ok (s.safeEraseSyncWrite w.bySeqno)

/-- `notifyDroppedCollection(cid, seqno)`: `droppedCollections[cid] = seqno`. -/
def notifyDroppedCollection (cid seqno : Nat) (s : State Key) : State Key :=
  { s with droppedCollections := (cid, seqno) :: s.droppedCollections.filter (fun d => d.1 ≠ cid) }

/-- `storeSeqnoAck(prevHps, newHps)`: a moved HPS raises `seqnoToAck`. -/
def storeSeqnoAck (prevHps newHps seqnoToAck : Nat) : Nat :=
  if prevHps ≠ newHps then (if seqnoToAck < newHps then newHps else seqnoToAck) else seqnoToAck

/-- `sendSeqnoAck()`: the seqno acked to the active, if any, and the reset. -/
def sendSeqnoAck (m : PassiveDurabilityMonitor Key) : PassiveDurabilityMonitor Key × Option Nat :=
  ({ m with seqnoToAck := 0 }, if m.seqnoToAck ≠ 0 then some m.seqnoToAck else none)

/-- `PassiveDurabilityMonitor(vb)`. -/
def empty : PassiveDurabilityMonitor Key :=
  { state :=
      { trackedWrites := []
        highPreparedSeqno := Position.atEnd
        receivedSnapshotEnds := []
        highCompletedSeqno := Position.atEnd
        droppedCollections := [] }
    seqnoToAck := 0 }

/-- `PassiveDurabilityMonitor(vb, highPreparedSeqno, highCompletedSeqno)`. -/
def ofSeqnos (highPreparedSeqno highCompletedSeqno : Nat) : PassiveDurabilityMonitor Key :=
  { (empty : PassiveDurabilityMonitor Key) with
    state :=
      { (empty : PassiveDurabilityMonitor Key).state with
        highPreparedSeqno := { Position.atEnd with lastWriteSeqno := highPreparedSeqno }
        highCompletedSeqno := { Position.atEnd with lastWriteSeqno := highCompletedSeqno } } }

/-- The loop of the warmup constructor: track the outstanding Prepares, which
must come in increasing seqno order, moving the HPS and HCS iterators to the
last one at or below their seqnos. -/
def trackOutstandingPrepares (highPreparedSeqno highCompletedSeqno : Nat) :
    Option Nat → List (Prepare Key) → State Key → Except Failure (State Key)
  | _, [], s => .ok s
  | highest, prepare :: rest, s => do
    if ¬ highest.all (· < prepare.bySeqno) then throw .expects
    let hpsIt := if prepare.bySeqno ≤ highPreparedSeqno then some prepare.bySeqno
      else s.highPreparedSeqno.it
    let hcsIt := if prepare.bySeqno ≤ highCompletedSeqno then some prepare.bySeqno
      else s.highCompletedSeqno.it
    trackOutstandingPrepares highPreparedSeqno highCompletedSeqno (some prepare.bySeqno) rest
      { s with
        trackedWrites := s.trackedWrites ++ [SyncWrite.ofPrepare prepare]
        highPreparedSeqno := { s.highPreparedSeqno with it := hpsIt }
        highCompletedSeqno := { s.highCompletedSeqno with it := hcsIt } }

/-- `PassiveDurabilityMonitor(vb, hps, hcs, outstandingPrepares)`, used by
warmup. -/
def ofOutstandingPrepares (highPreparedSeqno highCompletedSeqno : Nat)
    (outstandingPrepares : List (Prepare Key)) : Except Failure (PassiveDurabilityMonitor Key) := do
  let m : PassiveDurabilityMonitor Key := ofSeqnos highPreparedSeqno highCompletedSeqno
  let s ← trackOutstandingPrepares highPreparedSeqno highCompletedSeqno none outstandingPrepares
    m.state
  pure { m with state := s }

/-- A public operation of the monitor. -/
inductive Op (Key : Type) where
  | addSyncWrite (item : Prepare Key) (overwritingPrepareSeqno : Option Nat)
  | notifySnapshotEndReceived (snapEnd : Nat) (hps hcs : Option Nat)
  | notifyLocalPersistence
  | completeSyncWrite (key : Key) (res : Resolution) (prepareSeqno : Option Nat)
  | eraseSyncWrite (key : Key) (seqno : Nat)
  | notifyDroppedCollection (cid seqno : Nat)
  deriving DecidableEq, Repr

/-- Whether an operation sends a seqno ack after its locked section: the two
notifications. -/
def Op.sendsSeqnoAck : Op Key → Bool
  | .notifySnapshotEndReceived .. | .notifyLocalPersistence => true
  | _ => false

variable (collectionOf : Key → Nat)

/-- The part of an operation that runs under the state lock. The two
notifications also store the seqno to ack, under its own lock taken inside
the state lock. -/
def lockedSection (vb : ReplicaVBucket) :
    Op Key → PassiveDurabilityMonitor Key → Except Failure (PassiveDurabilityMonitor Key)
  | .addSyncWrite item ow, m => do
    let s ← addSyncWrite item ow m.state
    pure { m with state := s }
  | .notifySnapshotEndReceived snapEnd hps hcs, m => do
    let prevHps := m.state.highPreparedSeqno.lastWriteSeqno
    let s ← m.state.processSnapshotEnd vb.persistenceSeqno
      (if vb.isReceivingDiskSnapshot then .disk else .memory) snapEnd hps
    let s ← (match hcs with
      | some hcs => s.storeHighCompletedSeqno hcs
      | none => pure s : Except Failure (State Key))
    pure { state := s,
           seqnoToAck := storeSeqnoAck prevHps s.highPreparedSeqno.lastWriteSeqno m.seqnoToAck }
  | .notifyLocalPersistence, m => do
    let prevHps := m.state.highPreparedSeqno.lastWriteSeqno
    let s ← m.state.updateHighPreparedSeqno vb.persistenceSeqno
    let s := s.checkForAndRemoveDroppedCollections
    pure { state := s,
           seqnoToAck := storeSeqnoAck prevHps s.highPreparedSeqno.lastWriteSeqno m.seqnoToAck }
  | .completeSyncWrite key res prepareSeqno, m => do
    let s ← completeSyncWrite collectionOf vb.isReceivingDiskSnapshot key res prepareSeqno m.state
    pure { m with state := s }
  | .eraseSyncWrite key seqno, m => do
    let s ← eraseSyncWrite key seqno m.state
    pure { m with state := s }
  | .notifyDroppedCollection cid seqno, m =>
    pure { m with state := notifyDroppedCollection cid seqno m.state }

/-- A whole operation: its locked section, then, for the notifications,
`sendSeqnoAck`. Returns the seqno acked to the active, if any. -/
def step (vb : ReplicaVBucket) (op : Op Key) (m : PassiveDurabilityMonitor Key) :
    Except Failure (PassiveDurabilityMonitor Key × Option Nat) := do
  let m ← lockedSection collectionOf vb op m
  if op.sendsSeqnoAck then pure (sendSeqnoAck m) else pure (m, none)

/-- A run of whole operations, one after another, each with the vbucket it
reads; returns the monitor and the seqno acks sent. -/
def run : List (ReplicaVBucket × Op Key) → PassiveDurabilityMonitor Key →
    Except Failure (PassiveDurabilityMonitor Key × List Nat)
  | [], m => .ok (m, [])
  | (vb, op) :: ops, m => do
    let (m, ack) ← step collectionOf vb op m
    let (m, acks) ← run ops m
    pure (m, ack.toList ++ acks)

end PassiveDurabilityMonitor

end KvEngine.Durability
