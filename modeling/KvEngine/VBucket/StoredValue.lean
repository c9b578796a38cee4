import Mathlib

/-!
# Stored values and items (`engines/ep/src/stored-value.h`, `stored-value.cc`, `item.h`)

A document of a vbucket lives in the hash table as a `StoredValue`; a request
carries it as an `Item`. The front-end write paths (`KvEngine.VBucket.FrontEnd`)
decide what to do by the flags of the `StoredValue`s found for the key, and
change them through the few mutators modelled here.

- `StoredValue` with the fields the write paths read or write, and its
  predicates: the temporary states encoded in `bySeqno`, `isDeleted`,
  `isExpired`, `isLocked`, `getCasForWrite`, the committed states.
- The mutators `unlock`, `setValue` (`setValueImpl`), `del` (`deleteImpl`),
  `setRevSeqno`, the constructor `ofItem`, `toItem`, and
  `HashTable::unlocked_createSyncDeletePrepare`.
- `queueDirty`: what `VBucket::queueDirty` writes back into the value it
  queued, with the CAS, seqno and delete time the checkpoint manager assigned.

Each mutator comes with the lemmas saying which fields it keeps, so that the
proofs about the write paths never unfold it.
-/

namespace KvEngine.VBucket

/-- `CommittedState`. -/
inductive CommittedState where
  | committedViaMutation
  | committedViaPrepare
  | pending
  | preparedMaybeVisible
  | prepareAborted
  | prepareCommitted
  deriving DecidableEq, Repr

/-- `StoredValue::state_pending_seqno`: a deleted value whose seqno is not
yet assigned. -/
def statePendingSeqno : Int := -2
/-- `StoredValue::state_deleted_key`: a temporary value for a deleted key. -/
def stateDeletedKey : Int := -3
/-- `StoredValue::state_non_existent_key`: a temporary value for a key that
does not exist. -/
def stateNonExistentKey : Int := -4
/-- `StoredValue::state_temp_init`: a temporary value waiting for a
background fetch. -/
def stateTempInit : Int := -5

/-- `Item`, with the fields the write paths read or set. The committed state
stands for the item's `queue_op`. -/
structure Item where
  value : Option (List UInt8)
  flags : Nat
  exptime : Nat
  cas : Nat
  revSeqno : Nat
  bySeqno : Int
  datatype : Nat
  deleted : Bool
  committed : CommittedState
  preserveTtl : Bool
  deriving DecidableEq, Repr

namespace Item

/-- `Item::isPending()`. -/
def isPending (itm : Item) : Bool :=
  itm.committed == .pending || itm.committed == .preparedMaybeVisible

/-- `Item::isCommitted()`. -/
def isCommitted (itm : Item) : Bool :=
  itm.committed == .committedViaMutation || itm.committed == .committedViaPrepare

end Item

/-- `StoredValue`. The union `lock_expiry_or_delete_or_complete_time` is
`lockExpiry`: it is only read as a lock expiry by values that are neither
deleted nor completed prepares. -/
structure StoredValue where
  value : Option (List UInt8)
  cas : Nat
  lockedCas : Nat
  lockExpiry : Nat
  flags : Nat
  exptime : Nat
  revSeqno : Nat
  bySeqno : Int
  datatype : Nat
  deleted : Bool
  committed : CommittedState
  dirty : Bool
  deriving DecidableEq, Repr

namespace StoredValue

/-- `isTempInitialItem()`. -/
def isTempInitialItem (v : StoredValue) : Bool := v.bySeqno == stateTempInit

/-- `isTempNonExistentItem()`. -/
def isTempNonExistentItem (v : StoredValue) : Bool := v.bySeqno == stateNonExistentKey

/-- `isTempDeletedItem()`. -/
def isTempDeletedItem (v : StoredValue) : Bool := v.bySeqno == stateDeletedKey

/-- `isTempItem()`. -/
def isTempItem (v : StoredValue) : Bool :=
  v.isTempNonExistentItem || v.isTempDeletedItem || v.isTempInitialItem

/-- `isDeleted()`. -/
def isDeleted (v : StoredValue) : Bool := v.deleted

/-- `isPending()`: an in-flight prepare. -/
def isPending (v : StoredValue) : Bool :=
  v.committed == .pending || v.committed == .preparedMaybeVisible

/-- `isCommitted()`. -/
def isCommitted (v : StoredValue) : Bool := !v.isPending

/-- `isPrepareCompleted()`: a prepare that was committed or aborted. -/
def isPrepareCompleted (v : StoredValue) : Bool :=
  v.committed == .prepareAborted || v.committed == .prepareCommitted

/-- `isExpired(asOf)`: temporary values never expire. -/
def isExpired (v : StoredValue) (asOf : Nat) : Bool :=
  v.exptime != 0 && v.exptime < asOf && !v.isTempItem

/-- `isLocked(curtime)`: deleted values and completed prepares are never
locked. -/
def isLocked (v : StoredValue) (curtime : Nat) : Bool :=
  if v.isDeleted || v.isPrepareCompleted then false
  else !(v.lockExpiry == 0 || curtime > v.lockExpiry)

/-- `getCasForWrite(curtime)`: the locked CAS while the lock holds. -/
def getCasForWrite (v : StoredValue) (curtime : Nat) : Nat :=
  if v.isLocked curtime then v.lockedCas else v.cas

/-- `unlock()`: a deleted value is skipped. -/
def unlock (v : StoredValue) : StoredValue :=
  if v.isDeleted then v else { v with lockedCas := 0, lockExpiry := 0 }

/-- `setRevSeqno(rev)`. -/
def setRevSeqno (v : StoredValue) (rev : Nat) : StoredValue := { v with revSeqno := rev }

/-- `setValueImpl(itm)`: the item's fields and committed state, the lock
released, dirty unless it became a temporary initial value; a temporary value
keeps its (non-resident) blob. -/
def setValue (v : StoredValue) (itm : Item) : StoredValue :=
  let v' : StoredValue := { v with
    deleted := itm.deleted
    flags := itm.flags
    datatype := itm.datatype
    bySeqno := itm.bySeqno
    cas := itm.cas
    lockExpiry := 0
    exptime := itm.exptime
    revSeqno := itm.revSeqno
    committed := itm.committed }
  { v' with
    dirty := !v'.isTempInitialItem
    value := if v'.isTempItem then v.value else itm.value }

/-- The raw datatype `PROTOCOL_BINARY_RAW_BYTES`. -/
def rawBytes : Nat := 0

/-- `deleteImpl`: a deleted value without a body cannot be deleted again;
otherwise the body goes, the seqno is pending and the value is dirty. -/
def del (v : StoredValue) : StoredValue :=
  if v.isDeleted && v.value.isNone then v
  else { v with value := none, datatype := rawBytes, bySeqno := statePendingSeqno, deleted := true, dirty := true }

/-- The constructor `StoredValue(itm, ...)`: clean for a temporary initial
value, and without a body for any temporary value. -/
def ofItem (itm : Item) : StoredValue :=
  let v : StoredValue :=
    { value := itm.value, cas := itm.cas, lockedCas := 0, lockExpiry := 0, flags := itm.flags,
      exptime := itm.exptime, revSeqno := itm.revSeqno, bySeqno := itm.bySeqno,
      datatype := itm.datatype, deleted := itm.deleted, committed := itm.committed, dirty := true }
  { v with
    dirty := !v.isTempInitialItem
    value := if v.isTempItem then none else v.value }

/-- `toItem(..., IncludeValue, durabilityReqs)` with the requirements given:
a prepare or committed prepare becomes a pending item. -/
def toItem (v : StoredValue) (includeValue : Bool) : Item :=
  { value := if includeValue then v.value else none
    flags := v.flags
    exptime := v.exptime
    cas := v.cas
    revSeqno := v.revSeqno
    bySeqno := v.bySeqno
    datatype := if includeValue then v.datatype else rawBytes
    deleted := v.deleted
    committed :=
      match v.committed with
      | .pending | .prepareCommitted => .pending
      | .preparedMaybeVisible => .preparedMaybeVisible
      | .committedViaPrepare => .committedViaPrepare
      | .committedViaMutation => .committedViaMutation
      | .prepareAborted => .prepareAborted
    preserveTtl := false }

/-- `HashTable::unlocked_createSyncDeletePrepare`: a pending, deleted copy. -/
def createSyncDeletePrepare (v : StoredValue) : StoredValue :=
  ({ v with committed := .pending } : StoredValue).del

/-- What the checkpoint manager assigned to a queued item: its CAS, its seqno
and, for a deletion, its delete time. -/
structure Queued where
  cas : Nat
  bySeqno : Int
  deleteTime : Nat
  deriving DecidableEq, Repr

/-- `VBucket::queueDirty` with the default context (generated seqno, CAS and
delete time): a deletion takes the delete time as its expiry. -/
def queueDirty (q : Queued) (v : StoredValue) : StoredValue :=
  { v with
    exptime := if v.deleted then q.deleteTime else v.exptime
    cas := q.cas
    bySeqno := q.bySeqno }

/-! ## What the mutators keep -/

@[simp] theorem unlock_revSeqno (v : StoredValue) : v.unlock.revSeqno = v.revSeqno := by
  unfold unlock; split <;> rfl

@[simp] theorem unlock_cas (v : StoredValue) : v.unlock.cas = v.cas := by
  unfold unlock; split <;> rfl

@[simp] theorem unlock_deleted (v : StoredValue) : v.unlock.deleted = v.deleted := by
  unfold unlock; split <;> rfl

@[simp] theorem unlock_bySeqno (v : StoredValue) : v.unlock.bySeqno = v.bySeqno := by
  unfold unlock; split <;> rfl

@[simp] theorem unlock_committed (v : StoredValue) : v.unlock.committed = v.committed := by
  unfold unlock; split <;> rfl

@[simp] theorem unlock_exptime (v : StoredValue) : v.unlock.exptime = v.exptime := by
  unfold unlock; split <;> rfl

@[simp] theorem unlock_dirty (v : StoredValue) : v.unlock.dirty = v.dirty := by
  unfold unlock; split <;> rfl

/-- An unlocked value is no longer locked. -/
theorem isLocked_unlock (v : StoredValue) (curtime : Nat) : v.unlock.isLocked curtime = false := by
  unfold unlock isLocked
  split <;> simp_all [isDeleted]

/-- Unlocking only touches the lock: the value, CAS, revision, flags, expiry,
datatype, deletion and committed state are those of the value before. -/
theorem unlock_eq (v : StoredValue) :
    ∃ lockedCas lockExpiry, v.unlock = { v with lockedCas := lockedCas, lockExpiry := lockExpiry } := by
  unfold unlock
  split
  · exact ⟨v.lockedCas, v.lockExpiry, rfl⟩
  · exact ⟨0, 0, rfl⟩

@[simp] theorem setValue_revSeqno (v : StoredValue) (itm : Item) : (v.setValue itm).revSeqno = itm.revSeqno := rfl

@[simp] theorem setValue_committed (v : StoredValue) (itm : Item) : (v.setValue itm).committed = itm.committed := rfl

@[simp] theorem ofItem_revSeqno (itm : Item) : (ofItem itm).revSeqno = itm.revSeqno := rfl

@[simp] theorem ofItem_committed (itm : Item) : (ofItem itm).committed = itm.committed := rfl

@[simp] theorem queueDirty_revSeqno (q : Queued) (v : StoredValue) : (queueDirty q v).revSeqno = v.revSeqno := rfl

@[simp] theorem queueDirty_committed (q : Queued) (v : StoredValue) :
    (queueDirty q v).committed = v.committed := rfl

@[simp] theorem isPending_queueDirty (q : Queued) (v : StoredValue) : (queueDirty q v).isPending = v.isPending := rfl

@[simp] theorem isPending_setRevSeqno (v : StoredValue) (rev : Nat) : (v.setRevSeqno rev).isPending = v.isPending :=
  rfl

@[simp] theorem setRevSeqno_revSeqno (v : StoredValue) (rev : Nat) : (v.setRevSeqno rev).revSeqno = rev := rfl

@[simp] theorem del_revSeqno (v : StoredValue) : v.del.revSeqno = v.revSeqno := by
  unfold del; split <;> rfl

@[simp] theorem createSyncDeletePrepare_revSeqno (v : StoredValue) :
    v.createSyncDeletePrepare.revSeqno = v.revSeqno := by
  simp [createSyncDeletePrepare]

@[simp] theorem toItem_revSeqno (v : StoredValue) (includeValue : Bool) :
    (v.toItem includeValue).revSeqno = v.revSeqno := rfl

end StoredValue

end KvEngine.VBucket
