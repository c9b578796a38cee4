import KvEngine.VBucket.StoredValue

/-!
# The front-end write paths of a vbucket (`engines/ep/src/vbucket.cc`, `hash_table.cc`)

A set, an add or a delete of a key finds, under the hash bucket lock, the
key's committed value and its prepare (`HashTable::findForUpdate`), picks the
value to modify (`selectSVToModify`), and then runs one of the write paths:

- `processSetInner` (behind `processSet`) for set and replace,
- `processAdd` for add,
- `processSoftDelete` / `processSoftDeleteInner` behind `deleteItem`, with
  `processExpiredItem` for a committed value found expired.

The state they act on is a `KeySlot`: the committed value and the prepare of
one key, and the hash table's `maxDeletedRevSeqno`. A `SvRef` is the
`StoredValue*` a path holds, one of the two. Everything a call reads from
outside the bucket (the clocks, the memory checks, the bloom filter, the
collection's drop point and what the checkpoint manager assigns to a queued
value) is a `CallEnv`.

`HashTable::unlocked_updateStoredValue`, `unlocked_addNewStoredValue` and
`unlocked_softDelete` are the hash table's side of `updateStoredValue`,
`addNewStoredValue` and `softDeleteStoredValue`, which both bucket kinds
share; an ephemeral range read that makes them append a copy instead leaves
the same fields behind.
-/

namespace KvEngine.VBucket

open StoredValue

/-- `EPVBucket` or `EphemeralVBucket`. -/
inductive BucketKind where
  | persistent
  | ephemeral
  deriving DecidableEq, Repr

/-- `EvictionPolicy`. -/
inductive EvictionPolicy where
  | value
  | full
  deriving DecidableEq, Repr

/-- `vbucket_state_t`. -/
inductive VBucketState where
  | active
  | replica
  | pending
  | dead
  deriving DecidableEq, Repr

/-- What the write paths read of the vbucket. -/
structure VBucketConfig where
  kind : BucketKind
  eviction : EvictionPolicy
  state : VBucketState
  receivingDiskSnapshot : Bool
  deriving DecidableEq, Repr

/-- `areDeletedItemsAlwaysResident()`: only an ephemeral bucket keeps every
tombstone in memory. -/
def VBucketConfig.areDeletedItemsAlwaysResident (cfg : VBucketConfig) : Bool :=
  cfg.kind == .ephemeral

/-- What one call reads from outside the key's hash bucket. -/
structure CallEnv where
  /-- `ep_current_time()`, against which locks are checked. -/
  now : Nat
  /-- `ep_real_time()`, against which expiry is checked. -/
  realNow : Nat
  /-- The checkpoint memory state is full, or there is no memory for the value. -/
  memoryFull : Bool
  /-- `maybeKeyExistsInFilter`: the bloom filter's answer. -/
  maybeKeyExists : Bool
  /-- `CachingReadHandle::isLogicallyDeleted`: the seqno is in a dropped collection. -/
  isLogicallyDeleted : Int → Bool
  /-- `HashTable::hasTooManyTempItems()`. -/
  tooManyTempItems : Bool
  /-- What `queueDirty` gets from the checkpoint manager. -/
  queued : Queued

/-- `MutationStatus`. -/
inductive MutationStatus where
  | notFound
  | invalidCas
  | wasClean
  | wasDirty
  | isLocked
  | noMem
  | needBgFetch
  | isPendingSyncWrite
  deriving DecidableEq, Repr

/-- `AddStatus`. -/
inductive AddStatus where
  | success
  | noMem
  | exists
  | unDel
  | addTmpAndBgFetch
  | bgFetch
  deriving DecidableEq, Repr

/-- The committed value and the prepare of one key, and the hash table's
`maxDeletedRevSeqno`. -/
structure KeySlot where
  committed : Option StoredValue
  pending : Option StoredValue
  maxDeletedRevSeqno : Nat
  deriving DecidableEq, Repr

/-- What `HashTable::unlocked_find` guarantees of the values it returns: the
committed value is in a committed state, the prepare is in-flight or
completed. -/
def KeySlot.WellFormed (s : KeySlot) : Prop :=
  (∀ c, s.committed = some c → c.isPending = false ∧ c.isPrepareCompleted = false) ∧
    ∀ p, s.pending = some p → p.isPending = true ∨ p.isPrepareCompleted = true

/-- The `StoredValue*` a path holds: the key's committed value or its prepare. -/
inductive SvRef where
  | committed
  | pending
  deriving DecidableEq, Repr

namespace KeySlot

/-- The value a reference points at. -/
def get (s : KeySlot) : SvRef → Option StoredValue
  | .committed => s.committed
  | .pending => s.pending

/-- A write through a reference. -/
def set (s : KeySlot) : SvRef → StoredValue → KeySlot
  | .committed, v => { s with committed := some v }
  | .pending, v => { s with pending := some v }

/-- A possibly null `StoredValue*`, dereferenced. -/
def find (s : KeySlot) (v : Option SvRef) : Option (SvRef × StoredValue) :=
  v.bind fun r => (s.get r).map fun sv => (r, sv)

/-- `FindUpdateResult::selectSVToModify(durability)`: a SyncWrite modifies the
prepare if there is one; a plain write modifies an in-flight prepare, and
otherwise the committed value. -/
def selectSVToModify (s : KeySlot) (durability : Bool) : Option SvRef :=
  let committed := s.committed.map fun _ => SvRef.committed
  match s.pending with
  | some p => if durability || !p.isPrepareCompleted then some .pending else committed
  | none => committed

/-- A value written into the bucket: the key's values after it, where it is
and what it is. -/
structure Stored where
  slot : KeySlot
  ref : SvRef
  sv : StoredValue

/-- Linking a new value into the bucket: `findForUpdate` finds it as the
key's prepare or as its committed value, by its committed state. -/
def link (s : KeySlot) (sv : StoredValue) : Stored :=
  if sv.isPending || sv.isPrepareCompleted then ⟨s.set .pending sv, .pending, sv⟩
  else ⟨s.set .committed sv, .committed, sv⟩

/-- `VBucket::updateRevSeqNoOfNewStoredValue`: past every deleted revision. -/
def updateRevSeqNoOfNewStoredValue (s : KeySlot) (sv : StoredValue) : StoredValue :=
  sv.setRevSeqno (if sv.isTempItem then s.maxDeletedRevSeqno else s.maxDeletedRevSeqno + 1)

/-- `addNewStoredValue(hbl, itm, queueItmCtx, genRevSeqno)`: a new value
for the item, queued. -/
def addNewStoredValue (q : Queued) (s : KeySlot) (itm : Item) (genRevSeqno : Bool) : Stored :=
  let sv := ofItem itm
  s.link (queueDirty q (if genRevSeqno then s.updateRevSeqNoOfNewStoredValue sv else sv))

/-- `updateStoredValue(hbl, v, itm, queueItmCtx)`: the item written over the
value in place, queued. -/
def updateStoredValue (q : Queued) (s : KeySlot) (r : SvRef) (sv : StoredValue) (itm : Item) : Stored :=
  let sv' := queueDirty q (sv.setValue itm)
  ⟨s.set r sv', r, sv'⟩

/-- `softDeleteStoredValue(hbl, v, onlyMarkDeleted, ...)` with a generated
seqno: `HashTable::unlocked_softDelete` refuses a completed prepare, and
otherwise deletes the value (or only marks it deleted) as a committed one. -/
def softDeleteStoredValue (q : Queued) (s : KeySlot) (r : SvRef) (sv : StoredValue) (onlyMarkDeleted : Bool) :
    Except String (KeySlot × StoredValue) :=
  if sv.isPrepareCompleted then .error "HashTable::unlocked_softDelete attempting to delete a completed prepare"
  else
    let sv := if onlyMarkDeleted then { sv with deleted := true, dirty := true } else sv.del
    let sv := queueDirty q { sv with committed := .committedViaMutation }
    .ok (s.set r sv, sv)

/-- `HashTable::updateMaxDeletedRevSeqno`. -/
def updateMaxDeletedRevSeqno (s : KeySlot) (rev : Nat) : KeySlot :=
  { s with maxDeletedRevSeqno := max s.maxDeletedRevSeqno rev }

/-- `processImplicitlyCompletedPrepare`: a persistent bucket drops the
prepare, an ephemeral one keeps it as committed. -/
def processImplicitlyCompletedPrepare (kind : BucketKind) (s : KeySlot) : KeySlot :=
  match kind with
  | .persistent => { s with pending := none }
  | .ephemeral => { s with pending := s.pending.map fun p => { p with committed := .prepareCommitted } }

/-- `abortStoredValue` of the key's prepare: a persistent bucket drops it, an
ephemeral one keeps it as aborted. -/
def abortStoredValue (kind : BucketKind) (s : KeySlot) : KeySlot :=
  match kind with
  | .persistent => { s with pending := none }
  | .ephemeral => { s with pending := s.pending.map fun p => { p with committed := .prepareAborted } }

end KeySlot

/-- `VBucket::checkCasForWrite`: `none` lets the write through. A locked value
takes only its locked CAS; an unlocked one takes no CAS or its own. -/
def checkCasForWrite (now : Nat) (v : StoredValue) (cas : Nat) (isDelete : Bool) : Option MutationStatus :=
  if v.isLocked now then
    if cas != v.getCasForWrite now then some .isLocked else none
  else if cas == 0 || cas == v.cas then none
  else if v.isTempNonExistentItem then some .notFound
  else if (v.isTempDeletedItem || v.isDeleted) && !isDelete then some .notFound
  else some .invalidCas

/-- What a set returns: its status, the key's values after it, the value it
stored (the `StoredValue*&` it returns through) and the item as it updated it. -/
structure SetResult where
  status : MutationStatus
  slot : KeySlot
  v : Option SvRef
  itm : Item

/-- An item that asks to preserve its TTL takes the expiry of a live,
non-temporary value. -/
def Item.preserveTtlOf (itm : Item) (sv : StoredValue) : Item :=
  if itm.preserveTtl && !sv.isDeleted && !sv.isTempNonExistentItem then { itm with exptime := sv.exptime } else itm

/-- The status `HashTable::unlocked_updateStoredValue` reports. -/
def updateStatus (sv : StoredValue) : MutationStatus := if sv.dirty then .wasDirty else .wasClean

/-- The store at the end of `processSetInner`: a new prepare beside a
committed value, the item over the value found, or a new value; the item
then takes the stored value's CAS. -/
def setStore (q : Queued) (s : KeySlot) (v : Option SvRef) (itm : Item) (hasMetaData : Bool) : SetResult :=
  match s.find v with
  | some (r, sv) =>
    let itm := itm.preserveTtlOf sv
    if sv.isCommitted && !sv.isPrepareCompleted && itm.isPending then
      let a := s.addNewStoredValue q itm false
      ⟨.wasClean, a.slot, some a.ref, { itm with cas := a.sv.cas }⟩
    else
      let u := s.updateStoredValue q r sv itm
      ⟨updateStatus sv, u.slot, some r, { itm with cas := u.sv.cas }⟩
  | none =>
    let a := s.addNewStoredValue q itm (!hasMetaData)
    ⟨.wasClean, a.slot, some a.ref, { itm with revSeqno := a.sv.revSeqno, cas := a.sv.cas }⟩

/-- Whether the expiry check of `processSetInner` (MB-3252) applies: a write
of a live item without metadata over an expired committed value. -/
def setExpires (env : CallEnv) (c : StoredValue) (itm : Item) (hasMetaData : Bool) : Bool :=
  c.isExpired env.realNow && !hasMetaData && !itm.deleted

/-- The committed value after the expiry check: unlocked if it applies. -/
def setExpiryUnlock (env : CallEnv) (c : StoredValue) (itm : Item) (hasMetaData : Bool) : StoredValue :=
  if setExpires env c itm hasMetaData && c.isLocked env.now then c.unlock else c

/-- `VBucket::processSetInner`. The checks of CAS and lock are made against the
committed value, which `v` (a completed prepare, in an ephemeral bucket) need
not be. -/
def processSetInner (cfg : VBucketConfig) (env : CallEnv) (s : KeySlot) (v : Option SvRef) (itm : Item)
    (cas : Nat) (allowExisting hasMetaData storeIfGetItemInfo maybeKeyExists enforceMemCheck : Bool) :
    SetResult :=
  if enforceMemCheck && env.memoryFull then ⟨.noMem, s, v, itm⟩
  else if (s.find v).isNone && itm.deleted && cas != 0 && !cfg.areDeletedItemsAlwaysResident then
    ⟨.needBgFetch, s, v, itm⟩
  else if cfg.eviction == .full && maybeKeyExists && (cas != 0 || storeIfGetItemInfo || itm.preserveTtl) &&
      (s.find v).all (fun (_, sv) => sv.isTempInitialItem) then
    ⟨.needBgFetch, s, v, itm⟩
  else
    match s.committed with
    | some c =>
      -- the expiry check (MB-3252) comes before the lock check: an expired
      -- committed value is unlocked, and a write with a CAS to it is refused
      let expired := setExpires env c itm hasMetaData
      let c := setExpiryUnlock env c itm hasMetaData
      let s := { s with committed := some c }
      if expired && cas != 0 then ⟨.notFound, s, v, itm⟩
      else if !allowExisting && !c.isTempItem && !c.isDeleted then ⟨.invalidCas, s, v, itm⟩
      else
        match checkCasForWrite env.now c cas itm.deleted with
        | some status => ⟨status, s, v, itm⟩
        | none =>
          let s := { s with committed := some c.unlock }
          if hasMetaData then setStore env.queued s v itm hasMetaData
          else
            let itm := { itm with revSeqno := c.revSeqno + 1 }
            -- MB-23530: a replace of a deleted value fails, a delete of it does not
            if cas != 0 && (c.isDeleted || c.isTempDeletedItem) && !itm.deleted then ⟨.notFound, s, v, itm⟩
            else setStore env.queued s v itm hasMetaData
    | none => if cas != 0 then ⟨.notFound, s, v, itm⟩ else setStore env.queued s v itm hasMetaData

/-- `VBucket::processSet`: an in-flight prepare blocks the write, unless a
replica receiving a disk snapshot is told to overwrite it. The passive
durability monitor's `completeSyncWrite` on that path is not modelled. -/
def processSet (cfg : VBucketConfig) (env : CallEnv) (s : KeySlot) (v : Option SvRef) (itm : Item)
    (cas : Nat) (allowExisting hasMetaData storeIfGetItemInfo maybeKeyExists : Bool) : Except String SetResult :=
  match s.find v with
  | some (_, sv) =>
    if sv.isPending then
      if cfg.state == .active || !cfg.receivingDiskSnapshot then .ok ⟨.isPendingSyncWrite, s, v, itm⟩
      else if !itm.isCommitted then
        .error "VBucket::processSet: expected a complete item but the item is a prepare"
      else
        let s := s.processImplicitlyCompletedPrepare cfg.kind
        .ok (processSetInner cfg env s (s.committed.map fun _ => .committed) itm cas allowExisting hasMetaData
          storeIfGetItemInfo maybeKeyExists true)
    else
      .ok (processSetInner cfg env s v itm cas allowExisting hasMetaData storeIfGetItemInfo maybeKeyExists true)
  | none =>
    .ok (processSetInner cfg env s v itm cas allowExisting hasMetaData storeIfGetItemInfo maybeKeyExists true)

/-- What an add returns: its status, the key's values after it, the value it
stored and the item as it updated it. -/
structure AddResult where
  status : AddStatus
  slot : KeySlot
  v : Option SvRef
  itm : Item

/-- The end of `processAdd` when no value is overwritten: a temporary initial
value goes into the table alone, anything else is added and queued with a
generated revision. -/
def addFresh (cfg : VBucketConfig) (env : CallEnv) (s : KeySlot) (v : Option SvRef) (itm : Item)
    (maybeKeyExists replacing : Bool) : AddResult :=
  if itm.bySeqno != stateTempInit && !replacing && cfg.eviction == .full && maybeKeyExists then
    ⟨.addTmpAndBgFetch, s, v, itm⟩
  else
    let a :=
      if itm.bySeqno == stateTempInit then s.link (s.updateRevSeqNoOfNewStoredValue (ofItem itm))
      else s.addNewStoredValue env.queued itm true
    let status := if a.sv.isTempItem then AddStatus.bgFetch else if replacing then .unDel else .success
    ⟨status, a.slot, some a.ref, { itm with revSeqno := a.sv.revSeqno }⟩

/-- The revision `processAdd` gives an item that overwrites a value: one past
the committed value, or, when that is absent or a temporary non-existent or
initial value, one past every delete. -/
def KeySlot.addRevSeqno (s : KeySlot) : Nat :=
  match s.committed with
  | some c => if !(c.isTempNonExistentItem || c.isTempInitialItem) then c.revSeqno + 1 else s.maxDeletedRevSeqno + 1
  | none => s.maxDeletedRevSeqno + 1

/-- `VBucket::processAdd`. A live committed value makes the add fail; a
SyncWrite never replaces the committed value, it adds a prepare beside it. -/
def processAdd (cfg : VBucketConfig) (env : CallEnv) (s : KeySlot) (v : Option SvRef) (itm : Item)
    (maybeKeyExists : Bool) : AddResult :=
  if s.committed.any (fun c => !c.isDeleted && !c.isExpired env.realNow && !c.isTempItem &&
      !env.isLogicallyDeleted c.bySeqno) then ⟨.exists, s, v, itm⟩
  -- an add of a deleted item needs there to be no value at all, not even a tombstone
  else if itm.deleted && s.committed.isNone && !cfg.areDeletedItemsAlwaysResident then
    ⟨.addTmpAndBgFetch, s, v, itm⟩
  else if itm.deleted && s.committed.any (·.isTempInitialItem) then ⟨.bgFetch, s, v, itm⟩
  else if itm.deleted && s.committed.any (fun c => !c.isTempNonExistentItem) then ⟨.exists, s, v, itm⟩
  else if env.memoryFull then ⟨.noMem, s, v, itm⟩
  else
    match s.find v with
    | some (r, sv) =>
      if r == .committed && itm.isPending then addFresh cfg env s v itm maybeKeyExists true
      else if sv.isTempInitialItem && cfg.eviction == .full && maybeKeyExists then ⟨.bgFetch, s, v, itm⟩
      else
        let status := if sv.isDeleted || sv.isExpired env.realNow then AddStatus.unDel else .success
        let itm := { itm with revSeqno := s.addRevSeqno }
        ⟨status, (s.updateStoredValue env.queued r sv itm).slot, some r, itm⟩
    | none => addFresh cfg env s v itm maybeKeyExists false

/-- `ItemMetaData`, with the fields the delete paths use. -/
structure ItemMetaData where
  cas : Nat
  revSeqno : Nat
  flags : Nat
  exptime : Nat
  deriving DecidableEq, Repr

/-- What a delete path returns: its status, the key's values after it and
the value it left (the `StoredValue*` it returns). -/
structure DeleteResult where
  status : MutationStatus
  slot : KeySlot
  v : Option SvRef

/-- The value `processSoftDeleteInner` deletes: `v` unlocked, with the
delete's metadata written into it. -/
def deleteTarget (v : StoredValue) (metadata : ItemMetaData) (useMeta : Bool) : StoredValue :=
  let v := v.unlock
  let v := if useMeta then { v with cas := metadata.cas, flags := metadata.flags, exptime := metadata.exptime } else v
  v.setRevSeqno metadata.revSeqno

/-- `VBucket::processSoftDeleteInner` on the value `v` at `r`, with a
generated seqno. The delete's metadata is written into `v` before a SyncDelete
copies it into a prepare. -/
def processSoftDeleteInner (cfg : VBucketConfig) (env : CallEnv) (s : KeySlot) (r : SvRef) (v : StoredValue)
    (cas : Nat) (metadata : ItemMetaData) (durability useMeta : Bool) : Except String DeleteResult :=
  if v.isTempInitialItem && cfg.eviction == .full then .ok ⟨.needBgFetch, s, some r⟩
  else
    match checkCasForWrite env.now v cas true with
    | some status => .ok ⟨status, s, some r⟩
    | none =>
      let rv := updateStatus v.unlock
      let v := deleteTarget v metadata useMeta
      let s := s.set r v
      if durability then
        if v.isPrepareCompleted then
          -- the completed prepare is overwritten by the pending delete
          let itm := { v.toItem false with deleted := true, committed := .pending }
          .ok ⟨rv, (s.updateStoredValue env.queued r v itm).slot, some r⟩
        else
          let a := s.addNewStoredValue env.queued (v.createSyncDeletePrepare.toItem true) false
          .ok ⟨rv, a.slot, some a.ref⟩
      else
        match s.softDeleteStoredValue env.queued r v false with
        | .error e => .error e
        | .ok (s, _) => .ok ⟨rv, s.updateMaxDeletedRevSeqno metadata.revSeqno, some r⟩

/-- `VBucket::processSoftDelete`: an in-flight prepare blocks the delete,
unless a replica receiving a disk snapshot is told to overwrite it. -/
def processSoftDelete (cfg : VBucketConfig) (env : CallEnv) (s : KeySlot) (r : SvRef) (v : StoredValue)
    (cas : Nat) (metadata : ItemMetaData) (durability useMeta : Bool) : Except String DeleteResult :=
  if v.isPending then
    if cfg.state == .active || !cfg.receivingDiskSnapshot then .ok ⟨.isPendingSyncWrite, s, some r⟩
    else
      match s.committed with
      | some c =>
        processSoftDeleteInner cfg env (s.processImplicitlyCompletedPrepare cfg.kind) .committed c cas metadata
          durability useMeta
      | none => processSoftDeleteInner cfg env s r v cas metadata durability useMeta
  else processSoftDeleteInner cfg env s r v cas metadata durability useMeta

/-- `is_xattr(datatype)`. -/
def isXattr (datatype : Nat) : Bool := datatype &&& 4 == 4

/-- `VBucket::processExpiredItem` for the committed value `c`, found expired: it is
deleted by TTL with the next revision, a body with extended attributes is only
marked deleted, and the delete is reported as `NotFound`. -/
def processExpiredItem (cfg : VBucketConfig) (env : CallEnv) (s : KeySlot) (c : StoredValue) :
    Except String DeleteResult :=
  if s.pending.any (fun p => !p.isPrepareCompleted) then .ok ⟨.isPendingSyncWrite, s, some .committed⟩
  else if env.isLogicallyDeleted c.bySeqno then .ok ⟨.notFound, s, none⟩
  else if c.isTempInitialItem && cfg.eviction == .full then
    .ok ⟨.needBgFetch, s.set .committed (queueDirty env.queued c), some .committed⟩
  else
    let onlyMarkDeleted := c.value.isSome && isXattr c.datatype
    let c := c.setRevSeqno (c.revSeqno + 1)
    match s.softDeleteStoredValue env.queued .committed c onlyMarkDeleted with
    | .error e => .error e
    | .ok (s, sv) => .ok ⟨.notFound, s.updateMaxDeletedRevSeqno (sv.revSeqno + 1), some .committed⟩

/-- `VBucket::isLogicallyNonExistent`. -/
def isLogicallyNonExistent (env : CallEnv) (v : StoredValue) : Bool :=
  v.isDeleted || v.isTempDeletedItem || v.isTempNonExistentItem || env.isLogicallyDeleted v.bySeqno

/-- The result of a request (`cb::engine_errc`), as `deleteItem` returns it. -/
inductive EngineErrc where
  | success
  | syncWritePending
  | syncWriteInProgress
  | noSuchKey
  | wouldBlock
  | noMemory
  | keyAlreadyExists
  | lockedTmpfail
  deriving DecidableEq, Repr

/-- The `switch` at the end of `deleteItem`. -/
def deleteStatusErrc (durability : Bool) : MutationStatus → Except String EngineErrc
  | .noMem => .ok .noMemory
  | .invalidCas => .ok .keyAlreadyExists
  | .isLocked => .ok .lockedTmpfail
  | .notFound => .ok .noSuchKey
  | .wasClean | .wasDirty => .ok (if durability then .syncWritePending else .success)
  | .needBgFetch => .error "VBucket::deleteItem: Unexpected NEEDS_BG_FETCH from processSoftDelete"
  | .isPendingSyncWrite => .ok .syncWriteInProgress

/-- The committed value as `deleteItem` goes on with it: a replica or
pending vbucket ignores the lock. -/
def lockForState (cfg : VBucketConfig) (env : CallEnv) (c : StoredValue) : StoredValue :=
  if c.isLocked env.now && (cfg.state == .replica || cfg.state == .pending) then c.unlock else c

/-- `VBucket::deleteItem` for a request with CAS `cas`, a SyncDelete when
`durability`. The background fetches of a full-eviction bucket are reported
as `wouldBlock`; the temporary value `addTempItemAndBGFetch` inserts is not
modelled. -/
def deleteItem (cfg : VBucketConfig) (env : CallEnv) (s : KeySlot) (cas : Nat) (durability : Bool) :
    Except String (EngineErrc × KeySlot) :=
  if s.pending.any (·.isPending) then .ok (.syncWriteInProgress, s)
  else
    match s.committed with
    | none =>
      if cfg.eviction == .value then .ok (.noSuchKey, s)
      else if env.maybeKeyExists then .ok (if env.memoryFull then .noMemory else .wouldBlock, s)
      else .ok (.noSuchKey, s)
    | some c =>
      if c.isTempInitialItem || isLogicallyNonExistent env c then
        if cfg.eviction == .value then .ok (.noSuchKey, s)
        else if c.isTempInitialItem then .ok (.wouldBlock, s)
        else if (c.isTempNonExistentItem || c.isTempDeletedItem) && env.tooManyTempItems then
          .ok (.noSuchKey, { s with committed := none })
        else .ok (.noSuchKey, s)
      else
        let c := lockForState cfg env c
        let s := { s with committed := some c }
        let result :=
          if c.isExpired env.realNow then processExpiredItem cfg env s c
          else
            -- with a committed value the selection is never null
            let sel := (s.find (s.selectSVToModify durability)).getD (.committed, c)
            processSoftDelete cfg env s sel.1 sel.2 cas ⟨0, c.revSeqno + 1, 0, 0⟩ durability false
        match result with
        | .error e => .error e
        | .ok res =>
          match deleteStatusErrc durability res.status with
          | .error e => .error e
          | .ok errc => .ok (errc, res.slot)

end KvEngine.VBucket
