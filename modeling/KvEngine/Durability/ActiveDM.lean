import KvEngine.Durability.ActiveSyncWrite
import KvEngine.Lib.Monotonic
import Mathlib

/-!
# The ActiveDurabilityMonitor

`ActiveDurabilityMonitor` (`active_durability_monitor.cc`) tracks the
Prepares of an active vbucket until the nodes of its replication chains have
acked them, and moves the satisfied ones, in seqno order, to the
`ResolvedQueue` from which they are committed or aborted.

- `ActiveDurabilityMonitor.State`: `ActiveDurabilityMonitor::State`: the
  tracked writes, the chains, the seqnos it keeps in monotonic fields and the
  seqno acks queued for nodes not yet in a chain.
- `ResolvedQueue`: the queue and its `highEnqueuedSeqno`.
- `AdmM`: an operation reads and updates the monitor (state and queue) and can
  throw a `Failure`. A throw ends the run: the model does not continue from
  the half-updated state the source leaves behind.
- The state's operations keep their names: `getNodeNext`,
  `advanceNodePosition`, `removeSyncWrite`, `processSeqnoAck`,
  `updateHighPreparedSeqno`, `setReplicationTopology` with `makeChain`,
  `transitionFromNullTopology`, `abortNoLongerPossibleSyncWrites`,
  `copyChainPositions`, `performQueuedAckForChain` and
  `cleanUpTrackedWritesPostTopologyChange`, `removeExpired`, and the
  monitor's `addSyncWrite`, `commit`, `abort`,
  `processCompletedSyncWriteQueue`, `eraseSyncWrite` and
  `unresolveCompletedSyncWriteQueue`.
- `VBucket`: what the monitor reads from its vbucket: the persistence seqno,
  `maxAllowedReplicasForSyncWrites` and the clock.
- `Op`, `step`, `run`: the public operations and a run of them.

A loop over `trackedWrites` is a recursion with fuel: the number of writes
when the loop starts bounds the turns it takes (each turn moves one position
past one write).
-/

namespace KvEngine.Durability

/-- `ActiveDurabilityMonitor::ResolvedQueue`: the SyncWrites resolved for
commit or abort, in the order they were resolved. -/
structure ResolvedQueue (Key : Type) where
  queue : List (ActiveSyncWrite Key)
  highEnqueuedSeqno : Nat
  deriving DecidableEq, Repr

/-- `ActiveDurabilityMonitor::State`. -/
structure ActiveDurabilityMonitor.State (Node Key : Type) where
  trackedWrites : List (ActiveSyncWrite Key)
  commitStrategy : CommitStrategy
  firstChain : Option (ReplicationChain Node)
  secondChain : Option (ReplicationChain Node)
  lastTrackedSeqno : Nat
  lastCommittedSeqno : Nat
  lastAbortedSeqno : Nat
  highPreparedSeqno : Nat
  highCompletedSeqno : Nat
  queuedSeqnoAcks : List (Node × Nat)

/-- The monitor: its state and its resolved queue. -/
structure ActiveDurabilityMonitor (Node Key : Type) where
  state : ActiveDurabilityMonitor.State Node Key
  resolvedQueue : ResolvedQueue Key

/-- What the monitor reads from its vbucket when an operation runs. -/
structure VBucket where
  persistenceSeqno : Nat
  maxAllowedReplicasForSyncWrites : Nat
  now : Nat
  deriving DecidableEq, Repr

/-- An operation of the monitor. -/
abbrev AdmM (Node Key : Type) := StateT (ActiveDurabilityMonitor Node Key) (Except Failure)

namespace ActiveDurabilityMonitor

variable {Node Key : Type} [DecidableEq Node] [DecidableEq Key]

/-- `ActiveDurabilityMonitor::maxReplicas`. -/
def maxReplicas : Nat := 3

/-- The key `trackedWrites` iterators are kept by: the write's seqno. -/
def seqnoOf (w : ActiveSyncWrite Key) : Nat := w.bySeqno

namespace State

/-- The chain named `name`. -/
def chain (s : State Node Key) : ReplicationChainName → Option (ReplicationChain Node)
  | .first => s.firstChain
  | .second => s.secondChain

/-- Install `c` as the chain named `name`. -/
def setChain (s : State Node Key) : ReplicationChainName → ReplicationChain Node → State Node Key
  | .first, c => { s with firstChain := some c }
  | .second, c => { s with secondChain := some c }

/-- `*it` for the iterator to the write with seqno `k`. -/
def findWrite (s : State Node Key) (k : Nat) : Option (ActiveSyncWrite Key) :=
  ListIter.find seqnoOf s.trackedWrites k

/-- Replace the write with seqno `k`. -/
def setWrite (s : State Node Key) (k : Nat) (w : ActiveSyncWrite Key) : State Node Key :=
  { s with trackedWrites := ListIter.modify seqnoOf s.trackedWrites k (fun _ => w) }

/-- `checkDurabilityPossible() == success`: a first chain, and every chain
can reach its majority. -/
def isDurabilityPossible (s : State Node Key) : Bool :=
  match s.firstChain with
  | none => false
  | some fc => fc.isDurabilityPossible && s.secondChain.all (·.isDurabilityPossible)

end State

/-! ## Monitor access -/

/-- The monitor's state. -/
def getState : AdmM Node Key (State Node Key) := do
  return (← get).state

/-- Replace the monitor's state. -/
def setState (s : State Node Key) : AdmM Node Key Unit :=
  modify fun m => { m with state := s }

/-- Run a computation that may throw. -/
def liftExcept {α : Type} (x : Except Failure α) : AdmM Node Key α :=
  StateT.lift x

/-- `Expects(c)`. -/
def expects (c : Bool) : AdmM Node Key Unit :=
  if c then pure () else throw .expects

/-- `ResolvedQueue::enqueue`: `highEnqueuedSeqno` is a throwing `Monotonic`
field, so a write enqueued after one with a higher seqno throws. -/
def enqueue (sw : ActiveSyncWrite Key) : AdmM Node Key Unit := do
  let m ← get
  let h ← liftExcept (Monotonic.store (.nonMonotonic .highEnqueuedSeqno) .greater
    m.resolvedQueue.highEnqueuedSeqno sw.bySeqno)
  set { m with resolvedQueue := { queue := m.resolvedQueue.queue ++ [sw], highEnqueuedSeqno := h } }

/-- A store into the `WeaklyMonotonic` `highPreparedSeqno`. -/
def storeHighPreparedSeqno (v : Nat) : AdmM Node Key Unit := do
  let s ← getState
  let hps ← liftExcept (Monotonic.store (.nonMonotonic .highPreparedSeqno) .greaterEqual
    s.highPreparedSeqno v)
  setState { s with highPreparedSeqno := hps }

/-! ## Node positions -/

/-- `State::getNodeNext(node)`: the write after the node's position, in the
first chain if the node is there, else in the second. -/
def getNodeNext (node : Node) : AdmM Node Key (Option (ActiveSyncWrite Key)) := do
  let s ← getState
  let some fc := s.firstChain | throw .expects
  match fc.position? node with
  | some pos => return ListIter.next seqnoOf s.trackedWrites pos.it
  | none =>
    match s.secondChain.bind (·.position? node) with
    | some pos => return ListIter.next seqnoOf s.trackedWrites pos.it
    | none => return none

/-- `State::advanceAndAckForPosition(pos, node, shouldAck)` for the position
of `node` in the chain named `name`; returns the seqno it now points at. -/
def advanceAndAckForPosition (name : ReplicationChainName) (node : Node) (shouldAck : Bool) :
    AdmM Node Key Nat := do
  let s ← getState
  let some c := s.chain name | throw .expects
  let some pos := c.position? node | throw .expects
  -- `pos.it` moves to the next write; `Expects(pos.it != trackedWrites.end())`
  let some w := ListIter.next seqnoOf s.trackedWrites pos.it | throw .expects
  let lastWriteSeqno ← liftExcept (Monotonic.store (.nonMonotonic .lastWriteSeqno) .greaterEqual
    pos.lastWriteSeqno w.bySeqno)
  let s := s.setChain name (c.setPosition node { pos with it := some w.bySeqno, lastWriteSeqno })
  if shouldAck then
    let w' ← liftExcept (w.ack s.firstChain s.secondChain node)
    setState (s.setWrite w.bySeqno w')
  else
    setState s
  return w.bySeqno

/-- `State::advanceNodePosition(node)`: advance the node in each chain it is
in, acking the write once; returns the second chain's position if the node
is there, else the first's. -/
def advanceNodePosition (node : Node) : AdmM Node Key Nat := do
  let s ← getState
  let some fc := s.firstChain | throw .expects
  let firstChainFound := fc.contains node
  if !firstChainFound && s.secondChain.isNone then
    throw (.logicError "Attempting to advance positions for an invalid node ")
  let secondChainFound := s.secondChain.any (·.contains node)
  if s.secondChain.isSome && !firstChainFound && !secondChainFound then
    throw (.logicError "Attempting to advance positions for an invalid node . Node is not in firstChain or secondChain")
  if firstChainFound then
    let it ← advanceAndAckForPosition .first node (!secondChainFound)
    if !secondChainFound then
      return it
  advanceAndAckForPosition .second node true

/-- `State::removeSyncWrite(it, status)`: set the status, drop the chains,
move the positions at `it` to the previous write (or `end()`) in both chains,
and take the write out of `trackedWrites`. -/
def removeSyncWrite (it : Option Nat) (status : SyncWriteStatus) :
    AdmM Node Key (ActiveSyncWrite Key) := do
  let s ← getState
  let some k := it | throw (.logicError "Position points to end")
  let some w := s.findWrite k | throw .danglingIterator
  let prev := ListIter.prev seqnoOf s.trackedWrites k
  let some fc := s.firstChain | throw .expects
  setState { s with
    trackedWrites := ListIter.erase seqnoOf s.trackedWrites k
    firstChain := some (fc.repoint k prev)
    secondChain := s.secondChain.map (·.repoint k prev) }
  return ActiveSyncWrite.resetChains { w with status }

/-- `if (it->isSatisfied()) toCommit.enqueue(*this, removeSyncWrite(it,
it->getStatusForCommit()))`, with the source's `Expects` that the write is
`Pending` where `expectPending` is set (`processSeqnoAck`). -/
def commitIfSatisfied (k : Nat) (expectPending : Bool) : AdmM Node Key Unit := do
  let s ← getState
  let some w := s.findWrite k | throw .danglingIterator
  if ← liftExcept (w.isSatisfied s.firstChain s.secondChain) then
    if expectPending then
      expects (w.status == .pending)
    let status ← liftExcept (w.getStatusForCommit s.firstChain s.secondChain)
    enqueue (← removeSyncWrite (some k) status)

/-! ## Seqno acks -/

/-- `State::queueSeqnoAck(node, seqno)`: `unordered_map::insert`, which keeps
an ack already queued for the node. -/
def queueSeqnoAck (node : Node) (seqno : Nat) : AdmM Node Key Unit := do
  let s ← getState
  if (s.queuedSeqnoAcks.lookup node).isNone then
    setState { s with queuedSeqnoAcks := s.queuedSeqnoAcks ++ [(node, seqno)] }

/-- `State::updateNodeAck(node, seqno)`: record the acked seqno in each chain
the node is in (an ack below the last one is only logged), and queue it if
the node is in neither chain. -/
def updateNodeAck (node : Node) (seqno : Nat) : AdmM Node Key Unit := do
  let s ← getState
  let some fc := s.firstChain | throw .expects
  let ackIn (c : ReplicationChain Node) : ReplicationChain Node :=
    match c.position? node with
    | some pos =>
      if seqno < pos.lastAckSeqno then c
      else c.setPosition node { pos with lastAckSeqno := seqno }
    | none => c
  setState { s with firstChain := some (ackIn fc), secondChain := s.secondChain.map ackIn }
  if !fc.contains node && !s.secondChain.any (·.contains node) then
    queueSeqnoAck node seqno

/-- The loop of `State::processSeqnoAck`: advance the node over every write up
to the acked seqno, committing each write its ack satisfies. -/
def processSeqnoAckLoop (node : Node) (seqno : Nat) : Nat → AdmM Node Key Unit
  | 0 => pure ()
  | fuel + 1 => do
    let some next ← getNodeNext node | return
    if seqno < next.bySeqno then return
    let posIt ← advanceNodePosition node
    commitIfSatisfied posIt true
    processSeqnoAckLoop node seqno fuel

/-- `State::processSeqnoAck(node, seqno, toCommit)`. Without a topology the ack
is queued (MB-37188). -/
def processSeqnoAck (node : Node) (seqno : Nat) : AdmM Node Key Unit := do
  let s ← getState
  match s.firstChain with
  | none => queueSeqnoAck node seqno
  | some fc =>
    expects (decide (fc.active ≠ node))
    processSeqnoAckLoop node seqno s.trackedWrites.length
    updateNodeAck node seqno

/-! ## The high prepared seqno -/

/-- The loop of `State::updateHighPreparedSeqno` without a topology: move the
HPS over completed writes at the front and drop them. -/
def updateHighPreparedSeqnoNullTopology (persistenceSeqno : Nat) : Nat → AdmM Node Key Unit
  | 0 => pure ()
  | fuel + 1 => do
    let s ← getState
    let some w := s.trackedWrites.head? | return
    if !w.isCompleted then return
    -- "Don't advance past anything not persisted."
    if w.level.needsPersistence && decide (w.bySeqno < persistenceSeqno) then return
    storeHighPreparedSeqno w.bySeqno
    let s ← getState
    setState { s with trackedWrites := s.trackedWrites.tail }
    updateHighPreparedSeqnoNullTopology persistenceSeqno fuel

/-- The `removeForCommitIfSatisfied` lambda: check the write at the active's
first-chain position. -/
def removeForCommitIfSatisfied (active : Node) : AdmM Node Key Unit := do
  let s ← getState
  let some fc := s.firstChain | throw .expects
  let some pos := fc.position? active | throw .outOfRange
  let some k := pos.it | throw .expects
  commitIfSatisfied k false

/-- The first loop of `State::updateHighPreparedSeqno`: move the HPS over
every write up to the persistence seqno. -/
def moveHighPreparedSeqnoToPersisted (active : Node) (persistenceSeqno : Nat) :
    Nat → AdmM Node Key Unit
  | 0 => pure ()
  | fuel + 1 => do
    let some next ← getNodeNext active | return
    if persistenceSeqno < next.bySeqno then return
    storeHighPreparedSeqno next.bySeqno
    let _ ← advanceNodePosition active
    removeForCommitIfSatisfied active
    moveHighPreparedSeqnoToPersisted active persistenceSeqno fuel

/-- The second loop of `State::updateHighPreparedSeqno`: move the HPS over the
`Majority` writes before the durability fence. -/
def moveHighPreparedSeqnoOverMajority (active : Node) : Nat → AdmM Node Key Unit
  | 0 => pure ()
  | fuel + 1 => do
    let some next ← getNodeNext active | return
    expects (next.level != .none)
    if next.level.needsPersistence then return
    storeHighPreparedSeqno next.bySeqno
    let _ ← advanceNodePosition active
    removeForCommitIfSatisfied active
    moveHighPreparedSeqnoOverMajority active fuel

/-- `State::updateHighPreparedSeqno(completed)`. -/
def updateHighPreparedSeqno (persistenceSeqno : Nat) : AdmM Node Key Unit := do
  let s ← getState
  if s.trackedWrites.isEmpty then return
  match s.firstChain with
  | none => updateHighPreparedSeqnoNullTopology persistenceSeqno s.trackedWrites.length
  | some fc =>
    moveHighPreparedSeqnoToPersisted fc.active persistenceSeqno s.trackedWrites.length
    let s ← getState
    moveHighPreparedSeqnoOverMajority fc.active s.trackedWrites.length

/-! ## Topology -/

/-- The name `to_string(chainName)` prints. -/
def chainNameText : ReplicationChainName → String
  | .first => "First"
  | .second => "Second"

/-- `ActiveDurabilityMonitor::validateChain(chain, chainName)`. -/
def validateChain (chain : List (Option Node)) (name : ReplicationChainName) :
    Except Failure Unit :=
  if chain.isEmpty then
    .error (.invalidArgument ("ActiveDurabilityMonitor::validateChain: " ++ chainNameText name ++
      " chain cannot be empty"))
  else if 1 + maxReplicas < chain.length then
    .error (.invalidArgument ("ActiveDurabilityMonitor::validateChain: Too many nodes in " ++
      chainNameText name ++ " chain: "))
  else
    match chain.head? with
    | some (some _) => .ok ()
    | _ => .error (.invalidArgument ("ActiveDurabilityMonitor::validateChain: first node in " ++
      chainNameText name ++ " chain (active) cannot be undefined"))

/-- `State::makeChain(name, chain, commitStrategy)`: a new first chain takes
over the HPS as the lastWriteSeqno of its active (MB-34318). -/
def makeChain (name : ReplicationChainName) (chain : List (Option Node))
    (commitStrategy : CommitStrategy) (maxAllowedReplicas : Nat) :
    AdmM Node Key (ReplicationChain Node) := do
  let ptr ← liftExcept (ReplicationChain.make name chain maxAllowedReplicas commitStrategy)
  let s ← getState
  match name, s.firstChain with
  | .first, some fc =>
    let some old := fc.position? fc.active |
      throw (.logicError "did not find the active node for the first chain in the first chain.")
    let some new := ptr.position? ptr.active |
      throw (.logicError "did not find the active node for the first chain in the new chain.")
    let lastWriteSeqno ← liftExcept (Monotonic.store (.nonMonotonic .lastWriteSeqno)
      .greaterEqual new.lastWriteSeqno old.lastWriteSeqno)
    return ptr.setPosition ptr.active { new with lastWriteSeqno }
  | _, _ => return ptr

/-- The loop of `State::transitionFromNullTopology`: ack, for the new active,
the writes at the front up to the fence; returns the writes and the last one
acked. -/
def ackUpTo (first : ReplicationChain Node) (second : Option (ReplicationChain Node)) (fence : Nat) :
    List (ActiveSyncWrite Key) → Except Failure (List (ActiveSyncWrite Key) × Option Nat)
  | [] => .ok ([], none)
  | w :: ws =>
    if w.bySeqno ≤ fence then do
      let w' ← w.ack (some first) second first.active
      let (ws', last) ← ackUpTo first second fence ws
      pure (w' :: ws', some (last.getD w.bySeqno))
    else .ok (w :: ws, none)

/-- `State::transitionFromNullTopology(newFirstChain)`: place the new active
at the last write up to `max(HPS, persistence seqno)`, acking the writes it
passes, and raise the HPS to that fence. The writes already point at the new
chains. -/
def transitionFromNullTopology (newFirst : ReplicationChain Node)
    (newSecond : Option (ReplicationChain Node)) (persistenceSeqno : Nat) :
    AdmM Node Key (ReplicationChain Node) := do
  let s ← getState
  if s.trackedWrites.isEmpty then return newFirst
  let fence := max s.highPreparedSeqno persistenceSeqno
  let some activePos := newFirst.position? newFirst.active | throw .outOfRange
  let (writes, last) ← liftExcept (ackUpTo newFirst newSecond fence s.trackedWrites)
  let lastWriteSeqno ← liftExcept (Monotonic.store (.nonMonotonic .lastWriteSeqno) .greaterEqual
    activePos.lastWriteSeqno fence)
  setState { s with trackedWrites := writes }
  storeHighPreparedSeqno fence
  return newFirst.setPosition newFirst.active
    { activePos with it := last.or activePos.it, lastWriteSeqno }

/-- The loop of `State::abortNoLongerPossibleSyncWrites` over the writes, in
the order they were tracked: for each write without an infinite timeout, the
write at `trackedWrites.begin()` is removed and enqueued for abort. -/
def abortNoLongerPossibleLoop : List Nat → AdmM Node Key Unit
  | [] => pure ()
  | k :: ks => do
    let s ← getState
    let some w := s.findWrite k | throw .danglingIterator
    if !w.timeout.isInfinite then
      let some front := s.trackedWrites.head? | throw .danglingIterator
      enqueue (← removeSyncWrite (some front.bySeqno) .toAbort)
    abortNoLongerPossibleLoop ks

/-- `State::abortNoLongerPossibleSyncWrites(newFirstChain, newSecondChain)`. -/
def abortNoLongerPossibleSyncWrites (newFirst : ReplicationChain Node)
    (newSecond : Option (ReplicationChain Node)) : AdmM Node Key Unit := do
  if newFirst.isDurabilityPossible && newSecond.all (·.isDurabilityPossible) then return
  let s ← getState
  abortNoLongerPossibleLoop (s.trackedWrites.map seqnoOf)

/-- `State::copyChainPositionsInner(oldChain, newChain)`: each node of the old
chain that is in the new one gets its old position. `Position`'s copy
assignment copies the iterator and stores the two `WeaklyMonotonic` seqnos. -/
def copyChainPositionsInner :
    List (Node × Position) → ReplicationChain Node → Except Failure (ReplicationChain Node)
  | [], newChain => .ok newChain
  | (node, pos) :: rest, newChain =>
    match newChain.position? node with
    | none => copyChainPositionsInner rest newChain
    | some cur => do
      let lastWriteSeqno ← Monotonic.store (.nonMonotonic .lastWriteSeqno) .greaterEqual
        cur.lastWriteSeqno pos.lastWriteSeqno
      let lastAckSeqno ← Monotonic.store (.nonMonotonic .lastAckSeqno) .greaterEqual
        cur.lastAckSeqno pos.lastAckSeqno
      copyChainPositionsInner rest
        (newChain.setPosition node { it := pos.it, lastWriteSeqno, lastAckSeqno })

/-- `State::copyChainPositions(oldFirst, newFirst, oldSecond, newSecond)`:
the old first chain's positions, then the old second chain's, into both new
chains. -/
def copyChainPositions (oldFirst : Option (ReplicationChain Node)) (newFirst : ReplicationChain Node)
    (oldSecond newSecond : Option (ReplicationChain Node)) :
    Except Failure (ReplicationChain Node × Option (ReplicationChain Node)) := do
  let copyFrom (old : ReplicationChain Node)
      (chains : ReplicationChain Node × Option (ReplicationChain Node)) :
      Except Failure (ReplicationChain Node × Option (ReplicationChain Node)) := do
    let f ← copyChainPositionsInner old.positions chains.1
    match chains.2 with
    | none => pure (f, none)
    | some sc => pure (f, some (← copyChainPositionsInner old.positions sc))
  let afterFirst ← match oldFirst with
    | some of => copyFrom of (newFirst, newSecond)
    | none => pure (newFirst, newSecond)
  match oldSecond with
  | some os => copyFrom os afterFirst
  | none => pure afterFirst

/-- `State::performQueuedAckForChain(chain)`: process, and forget, the acks
queued for the chain's nodes. -/
def performQueuedAckForChain : List Node → AdmM Node Key Unit
  | [] => pure ()
  | node :: nodes => do
    let s ← getState
    match s.queuedSeqnoAcks.lookup node with
    | some seqno =>
      processSeqnoAck node seqno
      let s ← getState
      setState { s with queuedSeqnoAcks := s.queuedSeqnoAcks.filter (·.1 ≠ node) }
    | none => pure ()
    performQueuedAckForChain nodes

/-- The loop of `State::cleanUpTrackedWritesPostTopologyChange` over the
writes, in order: drop the completed ones and commit the satisfied ones. -/
def cleanUpLoop : List Nat → AdmM Node Key Unit
  | [] => pure ()
  | k :: ks => do
    let s ← getState
    let some w := s.findWrite k | throw .danglingIterator
    if w.isCompleted then
      let _ ← removeSyncWrite (some k) .completed
    else
      commitIfSatisfied k false
    cleanUpLoop ks

/-- `State::cleanUpTrackedWritesPostTopologyChange(toCommit)`. -/
def cleanUpTrackedWritesPostTopologyChange : AdmM Node Key Unit := do
  cleanUpLoop ((← getState).trackedWrites.map seqnoOf)

/-- `State::setReplicationTopology(topology, toComplete)`. -/
def setReplicationTopology (topology : List (List (Option Node))) (vb : VBucket) :
    AdmM Node Key Unit := do
  let some fChain := topology.head? | throw .outOfRange
  liftExcept (validateChain fChain .first)
  let s ← getState
  let newSecondChain ← match topology with
    | [_] => pure none
    | [_, sChain] => do
      liftExcept (validateChain sChain .second)
      some <$> makeChain .second sChain s.commitStrategy vb.maxAllowedReplicasForSyncWrites
    | _ => throw (.invalidArgument "Too many chains specified")
  let newFirstChain ← makeChain .first fChain s.commitStrategy vb.maxAllowedReplicasForSyncWrites
  -- the writes are reset against the new chains; their counts come from the
  -- chains they pointed at until now
  let reset := s.trackedWrites.map
    (·.resetTopology s.firstChain s.secondChain newFirstChain newSecondChain)
  setState { s with trackedWrites := reset }
  let newFirstChain ← match s.firstChain with
    | none => transitionFromNullTopology newFirstChain newSecondChain vb.persistenceSeqno
    | some _ => pure newFirstChain
  abortNoLongerPossibleSyncWrites newFirstChain newSecondChain
  let s ← getState
  let (firstChain, secondChain) ← liftExcept
    (copyChainPositions s.firstChain newFirstChain s.secondChain newSecondChain)
  setState { s with firstChain := some firstChain, secondChain }
  performQueuedAckForChain firstChain.nodes
  match secondChain with
  | some sc => performQueuedAckForChain sc.nodes
  | none => pure ()
  cleanUpTrackedWritesPostTopologyChange

/-- `State::setAndProcessCommitStrategy(newStrategy, toComplete)`. -/
def setAndProcessCommitStrategy (newStrategy : CommitStrategy) : AdmM Node Key Unit := do
  let s ← getState
  if s.commitStrategy = newStrategy then return
  let some fc := s.firstChain | setState { s with commitStrategy := newStrategy }
  let fc := fc.setCommitStrategy newStrategy
  let sc := s.secondChain.map (·.setCommitStrategy newStrategy)
  setState { s with commitStrategy := newStrategy, firstChain := some fc, secondChain := sc }
  abortNoLongerPossibleSyncWrites fc sc
  cleanUpTrackedWritesPostTopologyChange

/-! ## Adding, timing out and completing writes -/

/-- `ActiveDurabilityMonitor::addSyncWrite(cookie, item)` with
`State::addSyncWrite`: the write starts with no acks against the current
chains, and its seqno must exceed `lastTrackedSeqno`. -/
def addSyncWrite (item : Prepare Key) (now : Nat) : AdmM Node Key Unit := do
  if item.level = .none then throw (.invalidArgument "Level::None")
  let s ← getState
  if !s.isDurabilityPossible then throw (.logicError "Impossible")
  let some fc := s.firstChain | throw .expects
  -- `initialiseChains` → `checkDurabilityPossibleAndResetTopology`
  expects fc.isDurabilityPossible
  expects (s.secondChain.all (·.isDurabilityPossible))
  let w := (ActiveSyncWrite.ofPrepare item (ActiveSyncWrite.expiryFromDurabiltyReqs item.timeout
    ActiveSyncWrite.defaultTimeout now)).resetTopology none none fc s.secondChain
  let lastTrackedSeqno ← liftExcept (Monotonic.store (.nonMonotonic .lastTrackedSeqno) .greater
    s.lastTrackedSeqno item.bySeqno)
  setState { s with trackedWrites := s.trackedWrites ++ [w], lastTrackedSeqno }

/-- The loop of `State::removeExpired(asOf, expired)`: abort expired writes
from the front, stopping at the first unexpired one. -/
def removeExpiredLoop (asOf : Nat) : Nat → AdmM Node Key Unit
  | 0 => pure ()
  | fuel + 1 => do
    let s ← getState
    let some w := s.trackedWrites.head? | return
    if !w.isExpired asOf then return
    enqueue (← removeSyncWrite (some w.bySeqno) .toAbort)
    removeExpiredLoop asOf fuel

/-- `State::removeExpired(asOf, expired)`. -/
def removeExpired (asOf : Nat) : AdmM Node Key Unit := do
  removeExpiredLoop asOf (← getState).trackedWrites.length

/-- `State::updateHighCompletedSeqno()`: `highCompletedSeqno` is a
non-throwing `Monotonic` (a stat), so a store that is not higher is ignored. -/
def updateHighCompletedSeqno : AdmM Node Key Unit := do
  let s ← getState
  let hcs := Monotonic.storeOrKeep .greater s.highCompletedSeqno
    (max s.lastCommittedSeqno s.lastAbortedSeqno)
  setState { s with highCompletedSeqno := hcs }

/-- `ActiveDurabilityMonitor::commit(sw)`, for a write whose collection exists
and which `VBucket::commit` accepts: `lastCommittedSeqno` is a throwing
`Monotonic`, and the commit `Ensures` that it has not passed the HPS. -/
def commit (sw : ActiveSyncWrite Key) : AdmM Node Key Unit := do
  let s ← getState
  let lastCommittedSeqno ← liftExcept (Monotonic.store (.nonMonotonic .lastCommittedSeqno)
    .greater s.lastCommittedSeqno sw.bySeqno)
  setState { s with lastCommittedSeqno }
  updateHighCompletedSeqno
  let s ← getState
  expects (decide (s.lastCommittedSeqno ≤ s.highPreparedSeqno))

/-- `ActiveDurabilityMonitor::abort(sw)`, for a write whose collection exists
and which `VBucket::abort` accepts. -/
def abort (sw : ActiveSyncWrite Key) : AdmM Node Key Unit := do
  let s ← getState
  let lastAbortedSeqno ← liftExcept (Monotonic.store (.nonMonotonic .lastAbortedSeqno)
    .greater s.lastAbortedSeqno sw.bySeqno)
  setState { s with lastAbortedSeqno }
  updateHighCompletedSeqno

/-- The loop of `ActiveDurabilityMonitor::processCompletedSyncWriteQueue`:
dequeue and complete each write. -/
def processCompletedSyncWriteQueueLoop : Nat → AdmM Node Key Unit
  | 0 => pure ()
  | fuel + 1 => do
    let m ← get
    match m.resolvedQueue.queue with
    | [] => pure ()
    | sw :: rest =>
      set { m with resolvedQueue := { m.resolvedQueue with queue := rest } }
      match sw.status with
      | .pending | .completed =>
        throw (.logicError "ActiveDurabilityMonitor::processCompletedSyncWriteQueue found a SyncWrite with unexpected state: ")
      | .toCommit | .toCommitNotDurable => commit sw
      | .toAbort => abort sw
      processCompletedSyncWriteQueueLoop fuel

/-- `ActiveDurabilityMonitor::processCompletedSyncWriteQueue()`. -/
def processCompletedSyncWriteQueue : AdmM Node Key Unit := do
  processCompletedSyncWriteQueueLoop (← get).resolvedQueue.queue.length

/-- `ActiveDurabilityMonitor::eraseSyncWrite(key, seqno)`: drop the first
tracked write for `key`, moving the positions at it back. -/
def eraseSyncWrite (key : Key) (seqno : Nat) : AdmM Node Key Unit := do
  let s ← getState
  let some w := s.trackedWrites.find? (·.key = key) | return
  if w.bySeqno ≠ seqno then
    throw (.logicError "Attempting to drop prepare for '' but seqno does not match.")
  let valid := ListIter.prev seqnoOf s.trackedWrites w.bySeqno
  setState { s with
    firstChain := s.firstChain.map (·.repoint w.bySeqno valid)
    secondChain := s.secondChain.map (·.repoint w.bySeqno valid)
    trackedWrites := s.trackedWrites.eraseP (·.key = key) }

/-- The dequeue loop of `unresolveCompletedSyncWriteQueue`: the writes must be
in increasing seqno order (`last` is the previous seqno) and resolved. -/
def collectUnresolved :
    Option Nat → List (ActiveSyncWrite Key) → Except Failure (List (ActiveSyncWrite Key))
  | _, [] => .ok []
  | last, sw :: rest =>
    if last.any (sw.bySeqno ≤ ·) then
      .error (.logicError "ActiveDurabilityMonitor::unresolveCompletedSyncWriteQueue(): lastSeqno > w.getBySeqno()")
    else
      match sw.status with
      | .pending | .completed =>
        .error (.logicError "ActiveDurabilityMonitor::unresolveCompletedSyncWriteQueue found a SyncWrite with unexpected state: ")
      | _ => (sw :: ·) <$> collectUnresolved (some sw.bySeqno) rest

/-- `ActiveDurabilityMonitor::unresolveCompletedSyncWriteQueue()`: put the
resolved writes back at the front of `trackedWrites` and reset the queue. -/
def unresolveCompletedSyncWriteQueue : AdmM Node Key Unit := do
  let m ← get
  let writesToTrack ← liftExcept (collectUnresolved none m.resolvedQueue.queue)
  set { m with resolvedQueue := { queue := [], highEnqueuedSeqno := 0 } }
  if writesToTrack.isEmpty then return
  let s ← getState
  setState { s with trackedWrites := writesToTrack ++ s.trackedWrites }

/-! ## Construction and runs -/

/-- `ActiveDurabilityMonitor(stats, vb)`: no topology and nothing tracked. -/
def empty : ActiveDurabilityMonitor Node Key where
  state :=
    { trackedWrites := [], commitStrategy := .majorityAck, firstChain := none,
      secondChain := none, lastTrackedSeqno := 0, lastCommittedSeqno := 0,
      lastAbortedSeqno := 0, highPreparedSeqno := 0, highCompletedSeqno := 0,
      queuedSeqnoAcks := [] }
  resolvedQueue := { queue := [], highEnqueuedSeqno := 0 }

/-- The `Expects(write.getBySeqno() > lastSeqno)` of the `DM&&` constructor:
the writes taken over have increasing seqnos. -/
def seqnosIncreasing : Nat → List (SyncWrite Key) → Bool
  | _, [] => true
  | last, w :: ws => decide (last < w.bySeqno) && seqnosIncreasing w.bySeqno ws

/-- `ActiveDurabilityMonitor(stats, vb, DurabilityMonitor&& dm)`: take over the
tracked writes, HPS and HCS of the monitor `dm` (a `PassiveDurabilityMonitor`
on promotion). The writes get no chains and no expiry. -/
def ofDurabilityMonitor (writes : List (SyncWrite Key)) (hps hcs : Nat) :
    Except Failure (ActiveDurabilityMonitor Node Key) :=
  if !seqnosIncreasing 0 writes then .error .expects
  else
    .ok { (empty : ActiveDurabilityMonitor Node Key) with
      state := { (empty : ActiveDurabilityMonitor Node Key).state with
        trackedWrites := writes.map ActiveSyncWrite.ofSyncWrite
        lastTrackedSeqno := (writes.getLast?.map (·.bySeqno)).getD hcs
        highPreparedSeqno := hps
        highCompletedSeqno := hcs } }

/-- The public operations of the monitor. -/
inductive Op (Node Key : Type) where
  | addSyncWrite (item : Prepare Key)
  | seqnoAckReceived (replica : Node) (preparedSeqno : Nat)
  | processTimeout (asOf : Nat)
  | notifyLocalPersistence
  | setReplicationTopology (topology : List (List (Option Node)))
  | setAndProcessCommitStrategy (strategy : CommitStrategy)
  | processCompletedSyncWriteQueue
  | eraseSyncWrite (key : Key) (seqno : Nat)
  | unresolveCompletedSyncWriteQueue

/-- One public operation, against the vbucket `vb`. `setReplicationTopology`
refuses an empty topology before the state's checks. -/
def step (vb : VBucket) : Op Node Key → AdmM Node Key Unit
  | .addSyncWrite item => addSyncWrite item vb.now
  | .seqnoAckReceived replica seqno => processSeqnoAck replica seqno
  | .processTimeout asOf => removeExpired asOf
  | .notifyLocalPersistence => updateHighPreparedSeqno vb.persistenceSeqno
  | .setReplicationTopology [] => throw (.invalidArgument "Topology is empty")
  | .setReplicationTopology topology => setReplicationTopology topology vb
  | .setAndProcessCommitStrategy strategy => setAndProcessCommitStrategy strategy
  | .processCompletedSyncWriteQueue => processCompletedSyncWriteQueue
  | .eraseSyncWrite key seqno => eraseSyncWrite key seqno
  | .unresolveCompletedSyncWriteQueue => unresolveCompletedSyncWriteQueue

/-- A run: each operation against the vbucket as it is when the operation
runs. -/
def run : List (VBucket × Op Node Key) → AdmM Node Key Unit
  | [] => pure ()
  | (vb, op) :: ops => do
    step vb op
    run ops

end ActiveDurabilityMonitor

end KvEngine.Durability
