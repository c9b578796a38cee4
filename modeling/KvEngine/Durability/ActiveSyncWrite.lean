import KvEngine.Durability.Types
import KvEngine.Lib.ListIter
import Mathlib

/-!
# Replication chains and active SyncWrites

The data the `ActiveDurabilityMonitor` keeps per node and per Prepare
(`durability_monitor_impl.h/.cc`):

- `Position`: a node's tracking in `trackedWrites`: an iterator (the seqno of
  the SyncWrite it points at, `none` for `end()`, see `ListIter`), the seqno
  of the last SyncWrite the node acked and the last seqno it acked.
- `ReplicationChain`: a chain's positions (the `unordered_map`, as an
  association list in the order the chain lists its nodes), its majority, its
  active node and its commit strategy. The structure carries that the keys are
  distinct and that the active has a position, which the constructor
  establishes; so `isDurabilityPossible`'s two `Expects` hold for every chain.
- `ActiveSyncWrite`: a Prepare with its expiry time and, per chain, the
  `ChainStatus`: `none` while the chain pointer is null, else the ack count.
  The pointer itself is not stored: every method takes the chains the
  pointers refer to (the monitor's chains, or the new ones while a topology is
  being installed).

`ack`, `isSatisfied`, `getStatusForCommit` and `resetTopology` are the
methods of `ActiveSyncWrite` with those names.
-/

namespace KvEngine.Durability

/-- `DurabilityMonitor::ReplicationChainName`. -/
inductive ReplicationChainName where
  | first
  | second
  deriving DecidableEq, Repr

/-- `DurabilityMonitor::Position`. -/
structure Position where
  it : Option Nat
  lastWriteSeqno : Nat
  lastAckSeqno : Nat
  deriving DecidableEq, Repr

/-- `Position(trackedWrites.end())`, the position the chain constructor
registers. -/
def Position.atEnd : Position := ⟨none, 0, 0⟩

/-- `ActiveDurabilityMonitor::ReplicationChain`. -/
structure ReplicationChain (Node : Type) where
  name : ReplicationChainName
  positions : List (Node × Position)
  majority : Nat
  active : Node
  maxAllowedReplicas : Nat
  commitStrategy : CommitStrategy
  nodup : (positions.map Prod.fst).Nodup
  active_mem : active ∈ positions.map Prod.fst
  majority_pos : 0 < majority

namespace ReplicationChain

variable {Node : Type} [DecidableEq Node]

/-- The constructor's loop over the nodes: an undefined node gets no
position, a defined one a position at `end()`, and a node listed twice is
refused. -/
def registerPositions :
    List (Option Node) → List (Node × Position) → Except Failure (List (Node × Position))
  | [], ps => .ok ps
  | none :: ns, ps => registerPositions ns ps
  | some n :: ns, ps =>
    if (ps.lookup n).isSome then
      .error (.invalidArgument "ReplicationChain::ReplicationChain: Duplicate node: ")
    else registerPositions ns (ps ++ [(n, Position.atEnd)])

theorem registerPositions_spec {ns : List (Option Node)} :
    ∀ {ps qs : List (Node × Position)},
      registerPositions ns ps = .ok qs → (ps.map Prod.fst).Nodup →
        (qs.map Prod.fst).Nodup ∧ ps.map Prod.fst ⊆ qs.map Prod.fst := by
  induction ns with
  | nil =>
    intro ps qs h hnd
    cases h
    exact ⟨hnd, List.Subset.refl _⟩
  | cons n ns ih =>
    intro ps qs h hnd
    cases n with
    | none => exact ih h hnd
    | some n =>
      simp only [registerPositions] at h
      split at h
      · cases h
      · rename_i hfresh
        -- the constructor's `emplace` succeeded: `n` had no position yet
        have hn : n ∉ ps.map Prod.fst := by
          simp only [List.lookup_isSome_iff, beq_iff_eq, not_exists, not_and] at hfresh
          simp only [List.mem_map, not_exists, not_and]
          intro p hp hpn
          exact hfresh p hp hpn.symm
        have hnd' : ((ps ++ [(n, Position.atEnd)]).map Prod.fst).Nodup := by
          rw [List.map_append, List.nodup_append]
          refine ⟨hnd, List.nodup_singleton _, ?_⟩
          intro a ha b hb hab
          simp only [List.map_cons, List.map_nil, List.mem_singleton] at hb
          exact hn (by rw [← hb, ← hab]; exact ha)
        obtain ⟨hq, hsub⟩ := ih h hnd'
        refine ⟨hq, fun x hx => hsub ?_⟩
        simp only [List.map_append, List.mem_append]
        exact Or.inl hx

/-- `ReplicationChain(name, nodes, trackedWrites.end(), maxAllowedReplicas,
commitStrategy, vbid)`. An undefined node is `none`; the first node is the
active and must be defined. -/
def make (name : ReplicationChainName) (nodes : List (Option Node))
    (maxAllowedReplicas : Nat) (commitStrategy : CommitStrategy) :
    Except Failure (ReplicationChain Node) :=
  match nodes with
  | [] => .error .outOfRange
  | none :: _ => .error (.invalidArgument "ReplicationChain::ReplicationChain: Active node cannot be undefined")
  | some a :: rest =>
    -- the first turn of the constructor's loop registers the active
    match h : registerPositions rest [(a, Position.atEnd)] with
    | .error e => .error e
    | .ok ps =>
      .ok { name, positions := ps, majority := nodes.length / 2 + 1, active := a,
            maxAllowedReplicas, commitStrategy,
            nodup := (registerPositions_spec h (by simp)).1
            active_mem := (registerPositions_spec h (by simp)).2 (by simp)
            majority_pos := Nat.succ_pos _ }

/-- `positions.find(node)`. -/
def position? (c : ReplicationChain Node) (node : Node) : Option Position :=
  c.positions.lookup node

/-- `positions.contains(node)`. -/
def contains (c : ReplicationChain Node) (node : Node) : Bool :=
  (c.position? node).isSome

/-- `size()`. -/
def size (c : ReplicationChain Node) : Nat :=
  c.positions.length

/-- `hasAcked(node, bySeqno)`: the node has a position in this chain and its
last acked SyncWrite is at or after `bySeqno`. -/
def hasAcked (c : ReplicationChain Node) (node : Node) (bySeqno : Nat) : Bool :=
  match c.position? node with
  | none => false
  | some pos => decide (bySeqno ≤ pos.lastWriteSeqno)

/-- `isDurabilityPossible()`. -/
def isDurabilityPossible (c : ReplicationChain Node) : Bool :=
  if c.size > c.maxAllowedReplicas + 1 then false
  else
    match c.commitStrategy with
    | .majorityAck => decide (c.majority ≤ c.size)
    | .majorityAckFallbackToMasterAckOnly => true

/-- The nodes of the chain, in the order of `positions`. -/
def nodes (c : ReplicationChain Node) : List Node :=
  c.positions.map Prod.fst

/-- Apply `f` to the position of `node`, keeping every key. -/
def mapPositions (c : ReplicationChain Node) (f : Node → Position → Position) :
    ReplicationChain Node :=
  { c with
    positions := c.positions.map (fun q => (q.1, f q.1 q.2))
    nodup := by simpa [Function.comp_def] using c.nodup
    active_mem := by simpa [Function.comp_def] using c.active_mem }

/-- Overwrite the position of `node`. -/
def setPosition (c : ReplicationChain Node) (node : Node) (p : Position) :
    ReplicationChain Node :=
  c.mapPositions (fun n q => if n = node then p else q)

/-- Move every position pointing at the SyncWrite `k` to `dest`. -/
def repoint (c : ReplicationChain Node) (k : Nat) (dest : Option Nat) :
    ReplicationChain Node :=
  c.mapPositions (fun _ q => { q with it := ListIter.repoint q.it k dest })

/-- Set the chain's commit strategy. -/
def setCommitStrategy (c : ReplicationChain Node) (s : CommitStrategy) :
    ReplicationChain Node :=
  { c with commitStrategy := s }

omit [DecidableEq Node] in
@[simp] theorem nodes_mapPositions (c : ReplicationChain Node) (f : Node → Position → Position) :
    (c.mapPositions f).nodes = c.nodes := by
  simp [mapPositions, nodes, Function.comp_def]

omit [DecidableEq Node] in
@[simp] theorem active_mapPositions (c : ReplicationChain Node) (f : Node → Position → Position) :
    (c.mapPositions f).active = c.active := rfl

theorem lookup_map_snd (ps : List (Node × Position)) (g : Node → Position → Position)
    (n : Node) : (ps.map (fun q => (q.1, g q.1 q.2))).lookup n = (ps.lookup n).map (g n) := by
  induction ps with
  | nil => rfl
  | cons q qs ih =>
    by_cases h : n = q.1
    · subst h
      simp [List.lookup]
    · have h' : (n == q.1) = false := by simpa using h
      simp [List.lookup, h', ih]

theorem position?_mapPositions (c : ReplicationChain Node) (f : Node → Position → Position)
    (n : Node) : (c.mapPositions f).position? n = (c.position? n).map (f n) :=
  lookup_map_snd c.positions f n

end ReplicationChain

/-- `DurabilityMonitor::ActiveSyncWrite`. -/
structure ActiveSyncWrite (Key : Type) extends SyncWrite Key where
  expiryTime : Option Nat
  firstChain : Option Nat
  secondChain : Option Nat
  deriving DecidableEq, Repr

namespace ActiveSyncWrite

variable {Node Key : Type} [DecidableEq Node]

/-- The durability timeout used when a SyncWrite asks for the bucket
default: `State::defaultTimeout`, 30 s, in milliseconds. -/
def defaultTimeout : Nat := 30000

/-- `expiryFromDurabiltyReqs(reqs, defaultTimeout)` at time `now`. -/
def expiryFromDurabiltyReqs (timeout : Timeout) (dflt now : Nat) : Option Nat :=
  if timeout.isInfinite then none
  else if timeout.isDefault then some (now + dflt)
  else some (now + timeout.value.toNat)

/-- `ActiveSyncWrite(SyncWrite&&)`: a Prepare taken over from another monitor,
with no chains and no expiry. -/
def ofSyncWrite (w : SyncWrite Key) : ActiveSyncWrite Key :=
  { w with expiryTime := none, firstChain := none, secondChain := none }

/-- A new `ActiveSyncWrite` for `item`, `Pending`, expiring at `expiryTime`,
its chain pointers not yet set. -/
def ofPrepare (item : Prepare Key) (expiryTime : Option Nat) : ActiveSyncWrite Key :=
  { SyncWrite.ofPrepare item with expiryTime, firstChain := none, secondChain := none }

/-- Whether a chain status counts an ack of `node` for `bySeqno`: its pointer
is set and the chain it points at has the node at or after `bySeqno`. -/
def ackedIn (status : Option Nat) (chain : Option (ReplicationChain Node)) (node : Node)
    (bySeqno : Nat) : Bool :=
  match status, chain with
  | some _, some c => c.hasAcked node bySeqno
  | _, _ => false

/-- `ack(node)`, with `first`/`second` the chains the write's pointers refer to. -/
def ack (w : ActiveSyncWrite Key) (first second : Option (ReplicationChain Node)) (node : Node) :
    Except Failure (ActiveSyncWrite Key) :=
  match w.firstChain, first with
  | some n1, some c1 =>
    let inFirst := c1.contains node
    let inSecond := match w.secondChain, second with
      | some _, some c2 => c2.contains node
      | _, _ => false
    if inFirst || inSecond then
      .ok { w with
        firstChain := some (if inFirst then n1 + 1 else n1)
        secondChain := if inSecond then w.secondChain.map (· + 1) else w.secondChain }
    else .error (.logicError "SyncWrite::ack: Node not valid: ")
  | _, _ => .error (.logicError "SyncWrite::ack: Acking without a ReplicationChain")

/-- `ChainStatus::isSatisfied()`: a majority of acks, or the fallback to the
active's ack when the chain has fewer nodes than its majority. -/
def chainSatisfied (ackCount : Nat) (c : ReplicationChain Node) : Bool :=
  decide (c.majority ≤ ackCount) ||
    (decide (c.size < c.majority) && c.commitStrategy == .majorityAckFallbackToMasterAckOnly)

/-- `isSatisfied()`: both chains satisfied, and the active of each chain has
acked the write (MB-35190). -/
def isSatisfied (w : ActiveSyncWrite Key) (first second : Option (ReplicationChain Node)) :
    Except Failure Bool :=
  match w.firstChain, first with
  | some n1, some c1 =>
    let firstChainSatisfied := chainSatisfied n1 c1
    let firstChainActiveSatisfied := c1.hasAcked c1.active w.bySeqno
    let secondChainSatisfied := match w.secondChain, second with
      | some n2, some c2 => chainSatisfied n2 c2
      | _, _ => true
    let secondChainActiveSatisfied := match w.secondChain, second with
      | some _, some c2 => decide (c2.active = c1.active) || c2.hasAcked c2.active w.bySeqno
      | _, _ => true
    .ok (firstChainSatisfied && firstChainActiveSatisfied && secondChainSatisfied &&
      secondChainActiveSatisfied)
  | _, _ => .error (.logicError "SyncWrite::isSatisfied: Attmpting to check durability requirements are met without the first replication chain")

/-- `getStatusForCommit()`. -/
def getStatusForCommit (w : ActiveSyncWrite Key) (first second : Option (ReplicationChain Node)) :
    Except Failure SyncWriteStatus :=
  match w.firstChain, first with
  | some n1, some c1 =>
    let isDurable := decide (c1.majority ≤ n1) &&
      (match w.secondChain, second with
        | some n2, some _ => decide (c1.majority < n2)
        | _, _ => true)
    .ok (if isDurable then .toCommit else .toCommitNotDurable)
  | _, _ => .error (.logicError "SyncWrite::isSatisfied: Attmpting to check replica acks without the first replication chain")

/-- `isExpired(asOf)`. -/
def isExpired (w : ActiveSyncWrite Key) (asOf : Nat) : Bool :=
  match w.expiryTime with
  | none => false
  | some t => decide (t < asOf)

/-- `getAckCountForNewChain(chain)`: the nodes of `chain` that acked the write
in the chains its pointers refer to (`oldFirst`, `oldSecond`). -/
def getAckCountForNewChain (w : ActiveSyncWrite Key) (oldFirst oldSecond : Option (ReplicationChain Node))
    (chain : ReplicationChain Node) : Nat :=
  (chain.nodes.filter (fun n =>
    ackedIn w.firstChain oldFirst n w.bySeqno || ackedIn w.secondChain oldSecond n w.bySeqno)).length

/-- `resetTopology(firstChain, secondChain)`: recount the acks against the new
chains, then point the write at them. -/
def resetTopology (w : ActiveSyncWrite Key) (oldFirst oldSecond : Option (ReplicationChain Node))
    (newFirst : ReplicationChain Node) (newSecond : Option (ReplicationChain Node)) :
    ActiveSyncWrite Key :=
  let ackedFirstChain := w.getAckCountForNewChain oldFirst oldSecond newFirst
  let ackedSecondChain := match newSecond with
    | some c2 => w.getAckCountForNewChain oldFirst oldSecond c2
    | none => 0
  { w with
    firstChain := some ackedFirstChain
    secondChain := newSecond.map (fun _ => ackedSecondChain) }

/-- `resetChains()`. -/
def resetChains (w : ActiveSyncWrite Key) : ActiveSyncWrite Key :=
  { w with firstChain := none, secondChain := none }

end ActiveSyncWrite

end KvEngine.Durability
