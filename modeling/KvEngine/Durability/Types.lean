import Mathlib

/-!
# Durability: shared types

The types both durability monitors use (`durability_spec.h`, `sync_write.h`,
`durability_monitor.h`):

- `Level`: `cb::durability::Level`, ordered by its `uint8_t` value.
- `Timeout`: `cb::durability::Timeout`, a `uint16_t` whose value `0` asks for
  the bucket default and `0xffff` for no timeout.
- `SyncWriteStatus`, `CommitStrategy`.
- `Prepare`, `SyncWrite`: the Prepare's key, seqno and durability
  requirements, and `DurabilityMonitor::SyncWrite`, a tracked Prepare with its
  status. Seqnos are natural numbers (the vbucket assigns positive seqnos, and
  the monitors start their fields at 0).
- `Failure`: what an operation throws. A `gsl` contract (`Expects`,
  `Ensures`) that fails is `expects`; `std::logic_error` and
  `std::invalid_argument` keep the fixed part of their message; a
  `Monotonic<.., ThrowExceptionPolicy>` store out of order names its field;
  `std::out_of_range` is `outOfRange`. Dereferencing an iterator whose
  element was erased is undefined behaviour in the source; the model stops
  there with `danglingIterator`.
-/

namespace KvEngine.Durability

/-- `cb::durability::Level`. -/
inductive Level where
  | none
  | majority
  | majorityAndPersistOnMaster
  | persistToMajority
  deriving DecidableEq, Repr

/-- The `uint8_t` value of a level, which `operator<` compares. -/
def Level.toNat : Level → Nat
  | .none => 0
  | .majority => 1
  | .majorityAndPersistOnMaster => 2
  | .persistToMajority => 3

instance : LE Level := ⟨fun a b => a.toNat ≤ b.toNat⟩

instance (a b : Level) : Decidable (a ≤ b) := inferInstanceAs (Decidable (a.toNat ≤ b.toNat))

/-- The levels that need the Prepare persisted on the active before it is
locally satisfied there. -/
def Level.needsPersistence : Level → Bool
  | .persistToMajority | .majorityAndPersistOnMaster => true
  | _ => false

/-- `cb::durability::Timeout`. -/
structure Timeout where
  value : UInt16
  deriving DecidableEq, Repr

namespace Timeout

/-- `Timeout::Infinity()`. -/
def infinity : Timeout := ⟨0xffff⟩

/-- `isDefault()`: use the bucket's default timeout. -/
def isDefault (t : Timeout) : Bool := t.value == 0

/-- `isInfinite()`. -/
def isInfinite (t : Timeout) : Bool := t.value == 0xffff

end Timeout

/-- `SyncWriteStatus`. -/
inductive SyncWriteStatus where
  | pending
  | toCommit
  | toCommitNotDurable
  | toAbort
  | completed
  deriving DecidableEq, Repr

/-- `DurabilityMonitor::CommitStrategy`. -/
inductive CommitStrategy where
  | majorityAck
  | majorityAckFallbackToMasterAckOnly
  deriving DecidableEq, Repr

/-- The Prepare a SyncWrite tracks (`queued_item`): its key, seqno and
durability requirements. -/
structure Prepare (Key : Type) where
  key : Key
  bySeqno : Nat
  level : Level
  timeout : Timeout
  deriving DecidableEq, Repr

/-- `DurabilityMonitor::SyncWrite`: a tracked Prepare and its status. -/
structure SyncWrite (Key : Type) extends Prepare Key where
  status : SyncWriteStatus
  deriving DecidableEq, Repr

/-- `SyncWrite(item)`: a new SyncWrite is `Pending`. -/
def SyncWrite.ofPrepare {Key : Type} (p : Prepare Key) : SyncWrite Key :=
  { p with status := .pending }

/-- `SyncWrite::isCompleted()`. -/
def SyncWrite.isCompleted {Key : Type} (w : SyncWrite Key) : Bool :=
  w.status == .completed

/-- The fields kept in `Monotonic<.., ThrowExceptionPolicy>` members, named as
in their labels. -/
inductive MonotonicField where
  | lastTrackedSeqno
  | lastCommittedSeqno
  | lastAbortedSeqno
  | highPreparedSeqno
  | highEnqueuedSeqno
  | lastWriteSeqno
  | lastAckSeqno
  deriving DecidableEq, Repr

/-- What a durability-monitor operation throws. -/
inductive Failure where
  | expects
  | logicError (what : String)
  | invalidArgument (what : String)
  | nonMonotonic (field : MonotonicField)
  | outOfRange
  | danglingIterator
  deriving DecidableEq, Repr

end KvEngine.Durability
