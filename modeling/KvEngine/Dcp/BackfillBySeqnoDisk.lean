import KvEngine.FailoverTable.Rollback
import KvEngine.VBucket.FrontEnd
import KvEngine.Mcbp.DocKey
import KvEngine.Lib.Except

/-!
# Disk backfills and the purge seqno (`DCPBackfillBySeqnoDisk::create`)

A stream that asks for seqnos the vbucket no longer has in memory is first
fed from disk. `DCPBackfillBySeqnoDisk::create` opens a by-seqno scan of the
data file from the backfill's `startSeqno` and decides, before anything is
sent, whether the client could miss purged tombstones: if the file's purge
seqno has passed the start, the stream is ended with `Rollback` unless one of
the exemptions holds (the client already saw this purge, the filtered
collections hold nothing the purge could have touched, the backfill starts at
the collection's start, or the client ignores purged tombstones). Past that
check it either hands the whole scan to the history scan, or sends the disk
snapshot marker through `ActiveStream::markDiskSnapshot` (for a legacy
stream, through `markLegacyDiskSnapshot`, which picks the marker's end from
the default collection).

The same rule is applied once before, at the stream request, by
`FailoverTable::needsRollback` in the coordinates of the client's high seqno
`s` (the backfill starts at `s + 1`), with the collections' in-memory high
seqnos in place of the on-disk ones.

The model: the parts of the stream, the vbucket and the KVStore that these
functions read are records (`ActiveStream`, `VBucketView`, `KVStore`,
`ScanContext`); the KVStore's answers are fields, and the data file is its
list of items. What the storage layer guarantees of a data file (its header
agrees with its items) is `FileFacts`.

Results:
- `create_rollback_of_purgeSeqnoCheckFails`: a failed purge check ends the
  stream with `Rollback` (or the backfill snoozes before opening the scan);
- `create_passed_purge_check`: a backfill that goes on with a live stream
  passed the purge check or skipped a scan of collections with nothing past
  the start;
- `markDiskSnapshot_spec`, `create_marker_spec`: the marker a backfill sends
  starts at or below its start, carries a purge seqno at most its end, and
  ends at or above every seqno of the file from the start that the stream
  sends; `create_ne_error`: under `FileFacts`, the `Expects` on the purge
  seqno never fails;
- `purgeSeqnoCheckFails_iff`: the checks at the stream request and at the
  backfill agree for equal purge seqno and equal collection high seqnos, but
  for the backfill's collection-start exemption; they agree only for filters
  that are neither user-visible nor empty, since the backfill gives those no
  collection high seqno while the stream request does.
-/

namespace KvEngine.Dcp

open KvEngine.VBucket (VBucketState)
open KvEngine.FailoverTable (allowNonRollBackCollectionStream CollectionStreamExempt PurgeCheckFails RollbackDetails)

/-! ## The stream -/

/-- `cb::mcbp::DcpStreamEndStatus`. -/
inductive DcpStreamEndStatus where
  | ok
  | closed
  | stateChanged
  | disconnected
  | slow
  | backfillFail
  | rollback
  | filterEmpty
  | lostPrivileges
  deriving DecidableEq, Repr

/-- `SnapshotType`: where a disk snapshot sits relative to the history
window. -/
inductive SnapshotType where
  | history
  | noHistory
  | noHistoryPrecedingHistory
  | historyFollowingNoHistory
  deriving DecidableEq, Repr

/-- `Collections::VB::Filter::FilterType`. -/
inductive FilterType where
  | passthrough
  | legacy
  | collection
  | scope
  | userVisible
  deriving DecidableEq, Repr

/-- What the backfill reads of a stream's `Collections::VB::Filter`: its type,
the collections of its set in iteration order, whether the default collection
is allowed, and the purge seqno the client sent with its request. A legacy
filter only ever holds the default collection: it is built with it, and its
system-event handling returns before it could insert another. -/
structure Filter where
  filterType : FilterType
  collections : List Nat
  defaultAllowed : Bool
  remotePurgeSeqno : UInt64
  legacy_collections : filterType = .legacy → ∀ c ∈ collections, c = Mcbp.CollectionID.default
  deriving DecidableEq

namespace Filter

/-- `Filter::isPassThroughFilter`. -/
def isPassThroughFilter (f : Filter) : Bool := f.filterType == .passthrough

/-- `Filter::isLegacyFilter`. -/
def isLegacyFilter (f : Filter) : Bool := f.filterType == .legacy

/-- `Filter::isCollectionFilter`. -/
def isCollectionFilter (f : Filter) : Bool := f.filterType == .collection

/-- `Filter::isUserVisibleFilter`. -/
def isUserVisibleFilter (f : Filter) : Bool := f.filterType == .userVisible

end Filter

/-- `SyncReplication`: what the client negotiated. -/
inductive SyncReplication where
  | no
  | syncWrites
  | syncReplication
  deriving DecidableEq, Repr

/-- `ActiveStream::StreamState`. -/
inductive StreamState where
  | pending
  | backfilling
  | inMemory
  | takeoverSend
  | takeoverWait
  | dead
  deriving DecidableEq, Repr

/-- A disk `SnapshotMarker`; `history` stands for the `History` and
`MayContainDuplicates` flags (`Disk` and `Checkpoint` are always set). -/
structure SnapshotMarker where
  startSeqno : UInt64
  endSeqno : UInt64
  history : Bool
  highCompletedSeqno : Option UInt64
  highPreparedSeqno : Option UInt64
  maxVisibleSeqno : Option UInt64
  purgeSeqno : Option UInt64
  deriving DecidableEq, Repr

/-- What a stream queues for its client here: a snapshot marker or the end of
the stream. -/
inductive DcpResponse where
  | snapshotMarker (marker : SnapshotMarker)
  | streamEnd (status : DcpStreamEndStatus)
  deriving DecidableEq, Repr

/-- What the backfill reads and writes of the `ActiveStream`. `startSeqno` is
the start of the stream request (`getStartSeqno()`); `backfillCompleted`
records the backfill's `complete(stream)`. -/
structure ActiveStream where
  state : StreamState
  startSeqno : UInt64
  endSeqno : UInt64
  snapStartSeqno : UInt64
  filter : Filter
  collectionStartSeqno : Option UInt64
  ignoringPurgedTombstones : Bool
  syncReplication : SyncReplication
  snapshotMarkerHPSEnabled : Bool
  snapshotMarkerPurgeSeqnoEnabled : Bool
  markerVersion22 : Bool
  changeStreamsEnabled : Bool
  firstMarkerSent : Bool
  readyQ : List DcpResponse
  pendingDiskMarker : Option SnapshotMarker
  backfillCompleted : Bool
  deriving DecidableEq

/-- What `markDiskSnapshot` reads of the vbucket: its state, the end of the
checkpoint manager's snapshot, and the default collection's high seqno in the
manifest (none when it cannot be locked). -/
structure VBucketView where
  state : VBucketState
  snapshotEnd : UInt64
  defaultCollectionHighSeqno : Option UInt64
  deriving DecidableEq, Repr

/-- `std::optional`'s `<`: nothing is below everything present. -/
def optionLt : Option UInt64 → Option UInt64 → Bool
  | _, none => false
  | none, some _ => true
  | some a, some b => decide (a < b)

namespace ActiveStream

/-- `supportSyncWrites()`. -/
def supportSyncWrites (s : ActiveStream) : Bool := s.syncReplication != .no

/-- `supportSyncReplication()`. -/
def supportSyncReplication (s : ActiveStream) : Bool := s.syncReplication == .syncReplication

/-- `supportHPSInSnapshot()`. -/
def supportHPSInSnapshot (s : ActiveStream) : Bool :=
  s.snapshotMarkerHPSEnabled && s.supportSyncReplication && s.markerVersion22

/-- `supportPurgeSeqnoInSnapshot()`. -/
def supportPurgeSeqnoInSnapshot (s : ActiveStream) : Bool :=
  s.snapshotMarkerPurgeSeqnoEnabled && s.markerVersion22

/-- `isCollectionEnabledStream()`. -/
def isCollectionEnabledStream (s : ActiveStream) : Bool := !s.filter.isLegacyFilter

/-- `isBackfilling()`. -/
def isBackfilling (s : ActiveStream) : Bool := s.state == .backfilling

/-- `endStream(reason)`, as `setDead` runs it: a live stream drops what a
backfill queued, becomes dead and queues the end of the stream (not for a
disconnect). -/
def setDead (status : DcpStreamEndStatus) (s : ActiveStream) : ActiveStream :=
  if s.state = .dead then s
  else
    { s with
      state := .dead
      readyQ := (if s.state = .backfilling then [] else s.readyQ) ++
        (if status = .disconnected then [] else [.streamEnd status]) }

/-- `adjustStartIfFirstSnapshot`: the first marker starts at the requested
snapshot start when that is lower. -/
def adjustStartIfFirstSnapshot (start : UInt64) (isCompleteSnapshot : Bool) (s : ActiveStream) :
    UInt64 × ActiveStream :=
  if !s.firstMarkerSent then
    (min s.snapStartSeqno start, if isCompleteSnapshot then { s with firstMarkerSent := true } else s)
  else (start, s)

/-- The marker `markDiskSnapshot` builds from its arguments once the end is
settled. -/
def diskMarker (s : ActiveStream) (diskStartSeqno diskEndSeqno : UInt64)
    (highCompletedSeqno highPreparedSeqno persistedPreparedSeqno : Option UInt64)
    (maxVisibleSeqno purgeSeqno : UInt64) (snapshotType : SnapshotType) : SnapshotMarker where
  startSeqno := diskStartSeqno
  endSeqno := diskEndSeqno
  history := snapshotType == .history || snapshotType == .historyFollowingNoHistory
  highCompletedSeqno := if s.supportSyncReplication then highCompletedSeqno else none
  -- a promoted replica may have persisted prepares past the snapshot's HPS
  highPreparedSeqno :=
    if s.supportHPSInSnapshot then
      (if optionLt highPreparedSeqno persistedPreparedSeqno then persistedPreparedSeqno else highPreparedSeqno)
    else none
  maxVisibleSeqno := if s.supportSyncReplication then some maxVisibleSeqno else none
  purgeSeqno := if s.supportPurgeSeqnoInSnapshot then some purgeSeqno else none

/-- The end `markDiskSnapshot` starts from: a client without sync writes or
collections cannot be told of items past the max visible seqno. -/
def visibleEnd (s : ActiveStream) (diskEndSeqno maxVisibleSeqno : UInt64) : UInt64 :=
  if !s.supportSyncWrites && !s.isCollectionEnabledStream then maxVisibleSeqno else diskEndSeqno

/-- The end of a marker on a replica: stretched to the checkpoint manager's
snapshot when the stream goes past the disk snapshot, which may hold the
start of an incomplete snapshot. -/
def replicaEnd (vb : VBucketView) (diskEndSeqno : UInt64) (s : ActiveStream) : UInt64 :=
  if vb.state = .replica ∧ diskEndSeqno < s.endSeqno then vb.snapshotEnd else diskEndSeqno

/-- `ActiveStream::markDiskSnapshot`: whether a marker was sent, and the
stream after. With nothing visible left for a client without sync writes no
marker is sent; the `Expects` on the purge seqno is the error. The marker of a
non-history prologue is kept pending, the others are queued. -/
def markDiskSnapshot (vb : Option VBucketView) (diskStartSeqno diskEndSeqno : UInt64)
    (highCompletedSeqno highPreparedSeqno persistedPreparedSeqno : Option UInt64)
    (maxVisibleSeqno purgeSeqno : UInt64) (snapshotType : SnapshotType) (s : ActiveStream) :
    Except String (Bool × ActiveStream) :=
  if !s.isBackfilling then .ok (false, s)
  else
    let diskEndSeqno := s.visibleEnd diskEndSeqno maxVisibleSeqno
    if !s.supportSyncWrites && diskEndSeqno < diskStartSeqno then .ok (false, s)
    else
      let (diskStartSeqno, s) :=
        s.adjustStartIfFirstSnapshot diskStartSeqno (snapshotType != .noHistoryPrecedingHistory)
      match vb with
      | none => .ok (false, s)
      | some vb =>
        let diskEndSeqno := s.replicaEnd vb diskEndSeqno
        if purgeSeqno ≤ diskEndSeqno then
          let marker := s.diskMarker diskStartSeqno diskEndSeqno highCompletedSeqno highPreparedSeqno
            persistedPreparedSeqno maxVisibleSeqno purgeSeqno snapshotType
          if snapshotType = .noHistoryPrecedingHistory then
            .ok (true, { s with pendingDiskMarker := some marker })
          else
            .ok (true, { s with pendingDiskMarker := none, readyQ := s.readyQ ++ [.snapshotMarker marker] })
        else .error "Expects(purgeSeqno <= diskEndSeqno)"

/-- `seqnoScanComplete` reaching the stream. -/
def completeBackfill (s : ActiveStream) : ActiveStream := { s with backfillCompleted := true }

end ActiveStream

/-! ## The data file and the KVStore -/

/-- `queue_op` of an item on disk. -/
inductive QueueOp where
  | mutation
  | commitSyncWrite
  | pendingSyncWrite
  | abortSyncWrite
  | systemEvent
  deriving DecidableEq, Repr

/-- An item as a by-seqno scan returns it: its seqno, the collection of its
key and its operation. -/
structure DiskItem where
  bySeqno : UInt64
  collection : Nat
  op : QueueOp
  deriving DecidableEq, Repr

namespace DiskItem

/-- `Item::isCommitted`. -/
def isCommitted (i : DiskItem) : Bool := i.op == .mutation || i.op == .commitSyncWrite

/-- `Item::isVisible`. -/
def isVisible (i : DiskItem) : Bool := i.op == .systemEvent || i.isCommitted

/-- `Item::shouldReplicate`: no item on disk is a checkpoint meta item. -/
def shouldReplicate (supportsSyncReplication : Bool) (i : DiskItem) : Bool :=
  supportsSyncReplication || (i.op != .pendingSyncWrite && i.op != .abortSyncWrite)

end DiskItem

/-- What a backfill of `stream` passes on to the client of the items the scan
returns: `shouldProcessItem` and `Filter::checkAndUpdate`. What a system
event's own data decides (its event type, its scope, its visibility) is
`systemEventAllowed`; a legacy filter takes none. -/
def backfillSends (systemEventAllowed : DiskItem → Bool) (s : ActiveStream) (i : DiskItem) : Bool :=
  i.shouldReplicate s.supportSyncWrites &&
    (if s.filter.isPassThroughFilter then true
    else if i.collection = Mcbp.CollectionID.default && s.filter.defaultAllowed then true
    else if i.collection = Mcbp.CollectionID.systemEvent then !s.filter.isLegacyFilter && systemEventAllowed i
    else s.filter.collections.contains i.collection)

/-- The values of the data file's header that a `BySeqnoScanContext` carries,
and whether it holds a file handle. -/
structure ScanContext where
  maxSeqno : UInt64
  purgeSeqno : UInt64
  maxVisibleSeqno : UInt64
  persistedCompletedSeqno : UInt64
  highPreparedSeqno : UInt64
  persistedPreparedSeqno : UInt64
  historyStartSeqno : UInt64
  handle : Bool
  deriving DecidableEq, Repr

/-- `KVStore::GetCollectionStatsStatus`. -/
inductive GetCollectionStatsStatus where
  | success
  | notFound
  | failed
  deriving DecidableEq, Repr

/-- The answer of `getBySeqno`: the item, `no_such_key`, or another error. -/
inductive GetValue where
  | success (item : DiskItem)
  | noSuchKey
  | failed
  deriving DecidableEq, Repr

/-- What the backfill asks of the KVStore, as its answers: the scan context
opened at the backfill's start (none when it cannot be opened), each
collection's persisted stats (status and high seqno), the persisted manifest
uid, `getBySeqno`, whether the scan for the highest committed item fails, and
the data file's items in seqno order. -/
structure KVStore where
  initBySeqnoScanContext : Option ScanContext
  getCollectionStats : Nat → GetCollectionStatsStatus × UInt64
  getCollectionsManifestUid : Option UInt64
  getBySeqno : UInt64 → GetValue
  scanFailed : Bool
  items : List DiskItem

/-- The items a scan of `[startSeqno, maxSeqno]` returns. -/
def scanItems (items : List DiskItem) (startSeqno maxSeqno : UInt64) : List DiskItem :=
  items.filter fun i => startSeqno ≤ i.bySeqno && i.bySeqno ≤ maxSeqno

/-- What the storage layer guarantees of the data file a scan context is
opened on: its header bounds its items (`maxSeqno` every item,
`maxVisibleSeqno` every visible one, the purge seqno is one of its seqnos, a
collection's stats the collection's items) and a system event's key is in the
system-event collection. -/
structure FileFacts (kvs : KVStore) (ctx : ScanContext) : Prop where
  purgeSeqno_le_maxSeqno : ctx.purgeSeqno ≤ ctx.maxSeqno
  bySeqno_le_maxSeqno : ∀ i ∈ kvs.items, i.bySeqno ≤ ctx.maxSeqno
  bySeqno_le_maxVisibleSeqno : ∀ i ∈ kvs.items, i.isVisible = true → i.bySeqno ≤ ctx.maxVisibleSeqno
  bySeqno_le_collectionHigh : ∀ i ∈ kvs.items, (kvs.getCollectionStats i.collection).1 = .success →
    i.bySeqno ≤ (kvs.getCollectionStats i.collection).2
  systemEvent_collection : ∀ i ∈ kvs.items, i.op = .systemEvent → i.collection = Mcbp.CollectionID.systemEvent

/-! ## The backfill -/

/-- `DCPBackfillBySeqnoDisk`: the seqno range to backfill. -/
structure DCPBackfillBySeqnoDisk where
  startSeqno : UInt64
  endSeqno : UInt64
  deriving DecidableEq, Repr

/-- What `create` reads of the bucket: the last persisted seqno, the KVStore
and the vbucket (none once it is gone). -/
structure Bucket where
  lastPersistedSeqno : UInt64
  kvstore : KVStore
  vbucket : Option VBucketView

/-- `HistoryScanCtx`: the history window's start and the snapshot the history
scan will mark. -/
structure HistoryScanCtx where
  historyStartSeqno : UInt64
  snapshotStart : UInt64
  rangeStart : UInt64
  rangeEnd : UInt64
  snapshotType : SnapshotType
  deriving DecidableEq, Repr

/-- The loop of `getHighSeqnoOfCollections` over the filter's collections:
the largest persisted high seqno, and failure as soon as one collection's
stats cannot be read. -/
def collectionsHighSeqno (getCollectionStats : Nat → GetCollectionStatsStatus × UInt64) :
    List Nat → Option UInt64 → Bool × Option UInt64
  | [], collHigh => (true, collHigh)
  | cid :: rest, collHigh =>
    if (getCollectionStats cid).1 = .failed then (false, none)
    else collectionsHighSeqno getCollectionStats rest (some (max (collHigh.getD 0) (getCollectionStats cid).2))

/-- `DCPBackfillBySeqnoDisk::getHighSeqnoOfCollections`: no high seqno for a
pass-through or user-visible filter. -/
def getHighSeqnoOfCollections (kvs : KVStore) (scanCtx : ScanContext) (filter : Filter) :
    Bool × Option UInt64 :=
  if !scanCtx.handle then (false, none)
  else if filter.isPassThroughFilter || filter.isUserVisibleFilter then (true, none)
  else collectionsHighSeqno kvs.getCollectionStats filter.collections none

/-- `DCPBackfillDiskToStream::setupForHistoryScan`: `true` when the whole scan
is in the history window; a scan that crosses into it is cut before it. -/
def setupForHistoryScan (s : ActiveStream) (scanCtx : ScanContext) (startSeqno : UInt64) :
    Bool × Option HistoryScanCtx × ScanContext :=
  if !s.changeStreamsEnabled then (false, none, scanCtx)
  else if scanCtx.historyStartSeqno = 0 then (false, none, scanCtx)
  else if scanCtx.historyStartSeqno ≤ startSeqno then
    (true, some ⟨scanCtx.historyStartSeqno, startSeqno, startSeqno, scanCtx.maxSeqno, .history⟩, scanCtx)
  else
    (false, some ⟨scanCtx.historyStartSeqno, scanCtx.historyStartSeqno, startSeqno, scanCtx.maxSeqno,
        .historyFollowingNoHistory⟩,
      { scanCtx with maxSeqno := scanCtx.historyStartSeqno - 1 })

/-- The callback `FindMaxCommittedItem` over the items a scan returns: the
highest committed item of the default collection; past `maxSeqno` the scan
yields, after the item in hand. -/
def findMaxCommittedItem (maxSeqno : UInt64) : List DiskItem → UInt64 → UInt64
  | [], maxVisibleSeqno => maxVisibleSeqno
  | i :: rest, maxVisibleSeqno =>
    let maxVisibleSeqno :=
      if i.collection = Mcbp.CollectionID.default ∧ i.isCommitted then max maxVisibleSeqno i.bySeqno
      else maxVisibleSeqno
    if maxSeqno < i.bySeqno then maxVisibleSeqno else findMaxCommittedItem maxSeqno rest maxVisibleSeqno

namespace DCPBackfillBySeqnoDisk

variable (b : DCPBackfillBySeqnoDisk) (bucket : Bucket)

/-- The lambda `endStreamIfNeeded` of `markLegacyDiskSnapshot`: end the
stream when its end and the default collection are within the backfill. -/
def endStreamIfNeeded (s : ActiveStream) : ActiveStream :=
  if s.endSeqno = UInt64.ofNat (2 ^ 64 - 1) then s
  else
    match bucket.vbucket with
    | none => s.setDead .backfillFail
    | some vb =>
      match vb.defaultCollectionHighSeqno with
      | none => s
      | some highSeqno => if s.endSeqno ≤ b.endSeqno ∧ highSeqno ≤ b.endSeqno then s.setDead .ok else s

/-- Step 4 of `markLegacyDiskSnapshot`, the slow path: scan the file up to
the lower of the max visible seqno and the default collection's high seqno
for the default collection's highest committed item, and mark the snapshot
there. -/
def markLegacyFromScan (scanCtx : ScanContext) (highSeqno : UInt64) (s : ActiveStream) :
    Except String (Bool × ActiveStream) :=
  let endSeqnoForScan := min scanCtx.maxVisibleSeqno highSeqno
  if bucket.kvstore.scanFailed then .ok (false, s.setDead .backfillFail)
  else
    let maxVisibleSeqno :=
      findMaxCommittedItem endSeqnoForScan (scanItems bucket.kvstore.items b.startSeqno endSeqnoForScan) 0
    if 0 < maxVisibleSeqno then
      -- nothing of the stream's range is left past the last visible item
      let s := if b.endSeqno = s.endSeqno ∧ maxVisibleSeqno < b.endSeqno then
        { s with endSeqno := maxVisibleSeqno } else s
      s.markDiskSnapshot bucket.vbucket b.startSeqno maxVisibleSeqno none none none maxVisibleSeqno 0 .noHistory
    else .ok (false, b.endStreamIfNeeded bucket s)

/-- `DCPBackfillBySeqnoDisk::markLegacyDiskSnapshot`: with manifest uid 0
only the default collection exists and the scan's values are the
snapshot's; otherwise (never for sync writes) the end is the default
collection's high seqno if that item is committed, else the slow path. -/
def markLegacyDiskSnapshot (scanCtx : ScanContext) (s : ActiveStream) :
    Except String (Bool × ActiveStream) :=
  match bucket.kvstore.getCollectionsManifestUid with
  | none => .ok (false, s.setDead .backfillFail)
  | some uid =>
    if s.supportSyncWrites && uid != 0 then .ok (false, s.setDead .backfillFail)
    else if uid = 0 then
      s.markDiskSnapshot bucket.vbucket b.startSeqno scanCtx.maxSeqno (some scanCtx.persistedCompletedSeqno)
        (some scanCtx.highPreparedSeqno) (some scanCtx.persistedPreparedSeqno) scanCtx.maxVisibleSeqno 0
        .noHistory
    else
      match bucket.kvstore.getCollectionStats Mcbp.CollectionID.default with
      | (.failed, _) => .ok (false, s.setDead .backfillFail)
      | (.notFound, _) => .ok (false, s)
      | (.success, highSeqno) =>
        match bucket.kvstore.getBySeqno highSeqno with
        | .success item =>
          if item.isCommitted then
            s.markDiskSnapshot bucket.vbucket b.startSeqno highSeqno none none none highSeqno 0 .noHistory
          else b.markLegacyFromScan bucket scanCtx highSeqno s
        | .noSuchKey => b.markLegacyFromScan bucket scanCtx highSeqno s
        | .failed => .ok (false, s.setDead .backfillFail)

/-- `DCPBackfillBySeqnoDisk::markDiskSnapshot`: a marker of the whole disk
snapshot, also when it is cut before the history window. -/
def markDiskSnapshot (historyScan : Option HistoryScanCtx) (scanCtx : ScanContext) (s : ActiveStream) :
    Except String (Bool × ActiveStream) :=
  if s.filter.isLegacyFilter then b.markLegacyDiskSnapshot bucket scanCtx s
  else
    s.markDiskSnapshot bucket.vbucket b.startSeqno ((historyScan.map (·.rangeEnd)).getD scanCtx.maxSeqno)
      (some scanCtx.persistedCompletedSeqno) (some scanCtx.highPreparedSeqno)
      (some scanCtx.persistedPreparedSeqno) scanCtx.maxVisibleSeqno scanCtx.purgeSeqno
      (if historyScan.isSome then .noHistoryPrecedingHistory else .noHistory)

end DCPBackfillBySeqnoDisk

/-- `backfill_status_t`. -/
inductive BackfillStatus where
  | success
  | finished
  | snooze
  deriving DecidableEq, Repr

/-- The exemptions of `create` from the purge check: the collections'
high seqno is at or below the stream's start and the purge seqno while the
purge passed the start; the backfill starts at the collection's start; the
client ignores purged tombstones. -/
def allowNonRollBackStream (s : ActiveStream) (scanCtx : ScanContext) (startSeqno : UInt64)
    (collHigh : Option UInt64) : Bool :=
  (match collHigh with
    | some h => decide (s.startSeqno < scanCtx.purgeSeqno) && decide (h ≤ s.startSeqno) &&
        decide (h ≤ scanCtx.purgeSeqno)
    | none => false) ||
  (s.filter.isCollectionFilter && s.collectionStartSeqno == some startSeqno) ||
  s.ignoringPurgedTombstones

/-- The purge check of `create`: a backfill from past seqno 1 that starts at
or below the purge seqno needs a rollback, unless exempt or the client saw
this purge seqno. -/
def purgeSeqnoCheckFails (startSeqno purgeSeqno remotePurgeSeqno : UInt64) (allow : Bool) : Bool :=
  startSeqno != 1 && decide (startSeqno ≤ purgeSeqno) && !allow && remotePurgeSeqno != purgeSeqno

/-- What `create` leaves: its status, the stream, and when it goes on to scan,
the scan context it keeps and the history scan it set up. -/
structure CreateResult where
  status : BackfillStatus
  stream : ActiveStream
  scanCtx : Option ScanContext
  historyScan : Option HistoryScanCtx

namespace DCPBackfillBySeqnoDisk

variable (b : DCPBackfillBySeqnoDisk) (bucket : Bucket)

/-- The part of `create` after the purge check: the history scan takes the
whole scan, or the disk snapshot is marked and scanned, or with no marker the
backfill completes. -/
def scanOrComplete (scanCtx : ScanContext) (s : ActiveStream) : Except String CreateResult :=
  match setupForHistoryScan s scanCtx b.startSeqno with
  | (true, historyScan, scanCtx) => .ok ⟨.success, s, some scanCtx, historyScan⟩
  | (false, historyScan, scanCtx) => do
    let (markerSent, s) ← b.markDiskSnapshot bucket historyScan scanCtx s
    if markerSent then .ok ⟨.success, s, some scanCtx, historyScan⟩
    else .ok ⟨.finished, s.completeBackfill, none, historyScan⟩

/-- `DCPBackfillBySeqnoDisk::create`, for a stream that still exists. -/
def create (s : ActiveStream) : Except String CreateResult :=
  if bucket.lastPersistedSeqno < b.endSeqno then .ok ⟨.snooze, s, none, none⟩
  else
    match bucket.kvstore.initBySeqnoScanContext with
    | none => .ok ⟨.finished, s.setDead .backfillFail, none, none⟩
    | some scanCtx =>
      match getHighSeqnoOfCollections bucket.kvstore scanCtx s.filter with
      | (false, _) => .ok ⟨.finished, s.setDead .backfillFail, none, none⟩
      | (true, collHigh) =>
        -- the filtered collections have nothing past the start on disk
        if collHigh.any (· < b.startSeqno) then .ok ⟨.finished, s.completeBackfill, none, none⟩
        else if purgeSeqnoCheckFails b.startSeqno scanCtx.purgeSeqno s.filter.remotePurgeSeqno
            (allowNonRollBackStream s scanCtx b.startSeqno collHigh) then
          .ok ⟨.finished, s.setDead .rollback, none, none⟩
        else b.scanOrComplete bucket scanCtx s

end DCPBackfillBySeqnoDisk

/-! ## The stream's operations -/

namespace ActiveStream

variable (s : ActiveStream)

@[simp] theorem setDead_state (status : DcpStreamEndStatus) : (s.setDead status).state = .dead := by
  unfold setDead
  by_cases h : s.state = .dead
  · rw [if_pos h]
    exact h
  · rw [if_neg h]

@[simp] theorem completeBackfill_state : s.completeBackfill.state = s.state := rfl
@[simp] theorem completeBackfill_readyQ : s.completeBackfill.readyQ = s.readyQ := rfl
@[simp] theorem completeBackfill_pendingDiskMarker :
    s.completeBackfill.pendingDiskMarker = s.pendingDiskMarker := rfl

/-- The first marker's start is at most the start asked for, and only
`firstMarkerSent` changes. -/
theorem adjustStartIfFirstSnapshot_spec (start : UInt64) (isCompleteSnapshot : Bool) :
    (s.adjustStartIfFirstSnapshot start isCompleteSnapshot).1 ≤ start ∧
      ∃ sent, (s.adjustStartIfFirstSnapshot start isCompleteSnapshot).2 = { s with firstMarkerSent := sent } := by
  unfold adjustStartIfFirstSnapshot
  split_ifs with hfirst hcomplete <;> dsimp only
  · exact ⟨Std.min_le_right, true, rfl⟩
  · exact ⟨Std.min_le_right, s.firstMarkerSent, rfl⟩
  · exact ⟨UInt64.le_refl _, s.firstMarkerSent, rfl⟩

end ActiveStream

/-- `s'` is `s` with the disk marker `m` sent: queued, or kept pending until
the history scan returns data. -/
def MarkerQueued (s s' : ActiveStream) (m : SnapshotMarker) : Prop :=
  (s'.readyQ = s.readyQ ++ [.snapshotMarker m] ∧ s'.pendingDiskMarker = none) ∨
    (s'.readyQ = s.readyQ ∧ s'.pendingDiskMarker = some m)

/-- `s'` is `s` with no marker sent: the stream is dead, or nothing was
queued. -/
def NoMarker (s s' : ActiveStream) : Prop :=
  s'.state = .dead ∨ (s'.readyQ = s.readyQ ∧ s'.pendingDiskMarker = s.pendingDiskMarker)

/-- The purge seqno a marker carries is at most its end. -/
def SnapshotMarker.PurgeSeqnoLeEnd (m : SnapshotMarker) : Prop :=
  ∀ p, m.purgeSeqno = some p → p ≤ m.endSeqno

namespace ActiveStream

variable (s : ActiveStream)

/-- Everything `markDiskSnapshot` can do: send no marker, or send one that
starts at or below the start given, carries a purge seqno at most its end,
and ends at `visibleEnd` or at a replica's checkpoint snapshot end; the
stream's state does not change. -/
theorem markDiskSnapshot_spec {vb : Option VBucketView} {diskStartSeqno diskEndSeqno : UInt64}
    {highCompletedSeqno highPreparedSeqno persistedPreparedSeqno : Option UInt64}
    {maxVisibleSeqno purgeSeqno : UInt64} {snapshotType : SnapshotType} {sent : Bool} {s' : ActiveStream}
    (h : s.markDiskSnapshot vb diskStartSeqno diskEndSeqno highCompletedSeqno highPreparedSeqno
      persistedPreparedSeqno maxVisibleSeqno purgeSeqno snapshotType = .ok (sent, s')) :
    s'.state = s.state ∧
      (sent = false ∧ NoMarker s s' ∨
        sent = true ∧ ∃ m, MarkerQueued s s' m ∧ m.startSeqno ≤ diskStartSeqno ∧ m.PurgeSeqnoLeEnd ∧
          (m.endSeqno = s.visibleEnd diskEndSeqno maxVisibleSeqno ∨
            ∃ v, vb = some v ∧ m.endSeqno = v.snapshotEnd)) := by
  unfold markDiskSnapshot at h
  by_cases hback : (!s.isBackfilling) = true
  · -- not backfilling: nothing happens
    rw [if_pos hback] at h
    cases h
    exact ⟨rfl, .inl ⟨rfl, .inr ⟨rfl, rfl⟩⟩⟩
  rw [if_neg hback] at h
  dsimp only at h
  by_cases hempty : (!s.supportSyncWrites && decide (s.visibleEnd diskEndSeqno maxVisibleSeqno < diskStartSeqno)) = true
  · -- nothing visible to send
    rw [if_pos hempty] at h
    cases h
    exact ⟨rfl, .inl ⟨rfl, .inr ⟨rfl, rfl⟩⟩⟩
  rw [if_neg hempty] at h
  obtain ⟨hstart, firstSent, hadj⟩ :=
    s.adjustStartIfFirstSnapshot_spec diskStartSeqno (snapshotType != .noHistoryPrecedingHistory)
  generalize s.adjustStartIfFirstSnapshot diskStartSeqno (snapshotType != .noHistoryPrecedingHistory) = p
    at h hstart hadj
  obtain ⟨start, s₁⟩ := p
  dsimp only at h hstart hadj
  subst hadj
  cases vb with
  | none =>
    cases h
    exact ⟨rfl, .inl ⟨rfl, .inr ⟨rfl, rfl⟩⟩⟩
  | some v =>
    dsimp only at h
    -- the end the marker gets, and that its purge seqno is below it
    have hend : ∀ m : SnapshotMarker, m.endSeqno = replicaEnd v (s.visibleEnd diskEndSeqno maxVisibleSeqno)
        { s with firstMarkerSent := firstSent } →
        m.endSeqno = s.visibleEnd diskEndSeqno maxVisibleSeqno ∨ ∃ v', some v = some v' ∧ m.endSeqno = v'.snapshotEnd := by
      intro m hm
      unfold replicaEnd at hm
      split_ifs at hm
      · exact .inr ⟨v, rfl, hm⟩
      · exact .inl hm
    by_cases hpurge : purgeSeqno ≤ replicaEnd v (s.visibleEnd diskEndSeqno maxVisibleSeqno)
        { s with firstMarkerSent := firstSent }
    · rw [if_pos hpurge] at h
      have hps : (diskMarker { s with firstMarkerSent := firstSent } start
          (replicaEnd v (s.visibleEnd diskEndSeqno maxVisibleSeqno) { s with firstMarkerSent := firstSent })
          highCompletedSeqno highPreparedSeqno persistedPreparedSeqno maxVisibleSeqno purgeSeqno
          snapshotType).PurgeSeqnoLeEnd := by
        intro p hp
        simp only [diskMarker] at hp ⊢
        split_ifs at hp
        cases hp
        exact hpurge
      split_ifs at h
      · cases h
        exact ⟨rfl, .inr ⟨rfl, _, .inr ⟨rfl, rfl⟩, hstart, hps, hend _ rfl⟩⟩
      · cases h
        exact ⟨rfl, .inr ⟨rfl, _, .inl ⟨rfl, rfl⟩, hstart, hps, hend _ rfl⟩⟩
    · rw [if_neg hpurge] at h
      cases h

/-- The `Expects` holds when the purge seqno is at most the end the stream
starts from and at most a replica's checkpoint snapshot end. -/
theorem markDiskSnapshot_ne_error {vb : Option VBucketView} {diskStartSeqno diskEndSeqno : UInt64}
    {highCompletedSeqno highPreparedSeqno persistedPreparedSeqno : Option UInt64}
    {maxVisibleSeqno purgeSeqno : UInt64} {snapshotType : SnapshotType}
    (hpurge : purgeSeqno ≤ s.visibleEnd diskEndSeqno maxVisibleSeqno)
    (hreplica : ∀ v, vb = some v → purgeSeqno ≤ v.snapshotEnd) (e : String) :
    s.markDiskSnapshot vb diskStartSeqno diskEndSeqno highCompletedSeqno highPreparedSeqno
      persistedPreparedSeqno maxVisibleSeqno purgeSeqno snapshotType ≠ .error e := by
  intro h
  unfold markDiskSnapshot at h
  by_cases hback : (!s.isBackfilling) = true
  · rw [if_pos hback] at h
    cases h
  rw [if_neg hback] at h
  dsimp only at h
  by_cases hempty : (!s.supportSyncWrites && decide (s.visibleEnd diskEndSeqno maxVisibleSeqno < diskStartSeqno)) = true
  · rw [if_pos hempty] at h
    cases h
  rw [if_neg hempty] at h
  obtain ⟨-, firstSent, hadj⟩ :=
    s.adjustStartIfFirstSnapshot_spec diskStartSeqno (snapshotType != .noHistoryPrecedingHistory)
  generalize s.adjustStartIfFirstSnapshot diskStartSeqno (snapshotType != .noHistoryPrecedingHistory) = p
    at h hadj
  obtain ⟨start, s₁⟩ := p
  dsimp only at h hadj
  subst hadj
  cases vb with
  | none => cases h
  | some v =>
    dsimp only at h
    -- either end the marker can get is above the purge seqno
    have hle : purgeSeqno ≤ replicaEnd v (s.visibleEnd diskEndSeqno maxVisibleSeqno)
        { s with firstMarkerSent := firstSent } := by
      unfold replicaEnd
      split_ifs
      · exact hreplica v rfl
      · exact hpurge
    rw [if_pos hle] at h
    split_ifs at h

end ActiveStream

/-! ## What the scan returns and what the stream sends of it -/

@[simp] theorem mem_scanItems {items : List DiskItem} {startSeqno maxSeqno : UInt64} {i : DiskItem} :
    i ∈ scanItems items startSeqno maxSeqno ↔ i ∈ items ∧ startSeqno ≤ i.bySeqno ∧ i.bySeqno ≤ maxSeqno := by
  simp [scanItems]

theorem shouldReplicate_of_backfillSends {f : DiskItem → Bool} {s : ActiveStream} {i : DiskItem}
    (h : backfillSends f s i = true) : i.shouldReplicate s.supportSyncWrites = true := by
  unfold backfillSends at h
  exact (Bool.and_eq_true _ _ ▸ h).1

/-- A legacy stream is sent items of the default collection only. -/
theorem collection_of_backfillSends_legacy {f : DiskItem → Bool} {s : ActiveStream} {i : DiskItem}
    (hl : s.filter.isLegacyFilter = true) (h : backfillSends f s i = true) :
    i.collection = Mcbp.CollectionID.default := by
  have hleg : s.filter.filterType = .legacy := by simpa [Filter.isLegacyFilter] using hl
  have hpass : s.filter.isPassThroughFilter = false := by simp [Filter.isPassThroughFilter, hleg]
  unfold backfillSends at h
  rw [hpass, hl, Bool.and_eq_true] at h
  obtain ⟨-, h⟩ := h
  rw [if_neg Bool.false_ne_true] at h
  by_cases hd : (decide (i.collection = Mcbp.CollectionID.default) && s.filter.defaultAllowed) = true
  · simp only [Bool.and_eq_true, decide_eq_true_eq] at hd
    exact hd.1
  rw [if_neg hd] at h
  by_cases hsys : i.collection = Mcbp.CollectionID.systemEvent
  · -- a legacy filter takes no system event
    rw [if_pos hsys] at h
    simp at h
  rw [if_neg hsys] at h
  exact s.filter.legacy_collections hleg _ (by simpa using h)

/-- Without sync writes only committed items and system events are sent. -/
theorem isVisible_of_shouldReplicate {i : DiskItem} (h : i.shouldReplicate false = true) : i.isVisible = true := by
  cases hop : i.op <;> simp_all [DiskItem.shouldReplicate, DiskItem.isVisible, DiskItem.isCommitted]

theorem isCommitted_of_shouldReplicate {i : DiskItem} (h : i.shouldReplicate false = true)
    (hsys : i.op ≠ .systemEvent) : i.isCommitted = true := by
  cases hop : i.op <;> simp_all [DiskItem.shouldReplicate, DiskItem.isCommitted]

theorem le_findMaxCommittedItem_acc (maxSeqno : UInt64) :
    ∀ (l : List DiskItem) (acc : UInt64), acc ≤ findMaxCommittedItem maxSeqno l acc
  | [], acc => UInt64.le_refl acc
  | i :: rest, acc => by
    have hacc : acc ≤ (if i.collection = Mcbp.CollectionID.default ∧ i.isCommitted
        then max acc i.bySeqno else acc) := by
      split_ifs
      · rw [UInt64.le_iff_toNat_le, UInt64.toNat_max]
        omega
      · exact UInt64.le_refl acc
    unfold findMaxCommittedItem
    dsimp only
    by_cases hyield : maxSeqno < i.bySeqno
    · rw [if_pos hyield]
      exact hacc
    · rw [if_neg hyield]
      exact UInt64.le_trans hacc (le_findMaxCommittedItem_acc maxSeqno rest _)

/-- A scan that stays within `maxSeqno` finds every committed item of the
default collection. -/
theorem le_findMaxCommittedItem {maxSeqno : UInt64} {i : DiskItem}
    (hdef : i.collection = Mcbp.CollectionID.default) (hc : i.isCommitted = true) :
    ∀ (l : List DiskItem) (acc : UInt64), (∀ j ∈ l, j.bySeqno ≤ maxSeqno) → i ∈ l →
      i.bySeqno ≤ findMaxCommittedItem maxSeqno l acc
  | [], _, _, hi => nomatch hi
  | j :: rest, acc, hl, hi => by
    unfold findMaxCommittedItem
    dsimp only
    rw [if_neg (UInt64.not_lt.mpr (hl j List.mem_cons_self))]
    rcases List.mem_cons.mp hi with rfl | hi
    · -- the item in hand is counted before the scan moves on
      refine UInt64.le_trans ?_ (le_findMaxCommittedItem_acc maxSeqno rest _)
      rw [if_pos ⟨hdef, hc⟩, UInt64.le_iff_toNat_le, UInt64.toNat_max]
      omega
    · exact le_findMaxCommittedItem hdef hc rest _ (fun j hj => hl j (List.mem_cons_of_mem _ hj)) hi

/-! ## Marking the disk snapshot -/

/-- The marker `m` ends at or above every item of the scan of
`[startSeqno, maxSeqno]` that the stream sends. -/
def EndCoversScan (systemEventAllowed : DiskItem → Bool) (s : ActiveStream) (items : List DiskItem)
    (startSeqno maxSeqno : UInt64) (m : SnapshotMarker) : Prop :=
  ∀ i ∈ scanItems items startSeqno maxSeqno, backfillSends systemEventAllowed s i = true → i.bySeqno ≤ m.endSeqno

/-- What marking the disk snapshot of a backfill from `startSeqno` may leave:
no marker, or a marker sent that starts at or below `startSeqno`, carries a
purge seqno at most its end, and ends at or above every item of the scan of
`[startSeqno, maxSeqno]` that the stream sends. -/
def MarkOutcome (items : List DiskItem) (startSeqno maxSeqno : UInt64) (s s' : ActiveStream) (sent : Bool) :
    Prop :=
  sent = false ∧ NoMarker s s' ∨
    sent = true ∧ ∃ m, MarkerQueued s s' m ∧ m.startSeqno ≤ startSeqno ∧ m.PurgeSeqnoLeEnd ∧
      ∀ f, EndCoversScan f s items startSeqno maxSeqno m

theorem markOutcome_setDead {items : List DiskItem} {startSeqno maxSeqno : UInt64} {s : ActiveStream}
    (status : DcpStreamEndStatus) : MarkOutcome items startSeqno maxSeqno s (s.setDead status) false :=
  .inl ⟨rfl, .inl (s.setDead_state status)⟩

theorem markOutcome_self {items : List DiskItem} {startSeqno maxSeqno : UInt64} {s : ActiveStream} :
    MarkOutcome items startSeqno maxSeqno s s false :=
  .inl ⟨rfl, .inr ⟨rfl, rfl⟩⟩

/-- What a call that marks the disk snapshot returns: never the `Expects`
error, and a `MarkOutcome`. -/
def MarkResult (items : List DiskItem) (startSeqno maxSeqno : UInt64) (s : ActiveStream) :
    Except String (Bool × ActiveStream) → Prop
  | .error _ => False
  | .ok (sent, s') => MarkOutcome items startSeqno maxSeqno s s' sent

/-- `ActiveStream::markDiskSnapshot` called for the backfill on a stream `s₁`
that queued what `s` did: its marker covers the scan when the end it is given
covers what the stream sends and a replica's checkpoint snapshot ends above
every item, and the `Expects` holds when the purge seqno is below both. -/
theorem markResult_of_markDiskSnapshot {items : List DiskItem} {startSeqno maxSeqno bound : UInt64}
    {s s₁ : ActiveStream} {vb : Option VBucketView} {diskEndSeqno : UInt64}
    {highCompletedSeqno highPreparedSeqno persistedPreparedSeqno : Option UInt64}
    {maxVisibleSeqno purgeSeqno : UInt64} {snapshotType : SnapshotType}
    (hq : s₁.readyQ = s.readyQ) (hp : s₁.pendingDiskMarker = s.pendingDiskMarker)
    (hcover : ∀ f, ∀ i ∈ scanItems items startSeqno maxSeqno, backfillSends f s i = true →
      i.bySeqno ≤ s₁.visibleEnd diskEndSeqno maxVisibleSeqno)
    (hall : ∀ i ∈ items, i.bySeqno ≤ bound) (hvb : ∀ v, vb = some v → bound ≤ v.snapshotEnd)
    (hpurge : purgeSeqno ≤ s₁.visibleEnd diskEndSeqno maxVisibleSeqno) (hpurgeBound : purgeSeqno ≤ bound) :
    MarkResult items startSeqno maxSeqno s (s₁.markDiskSnapshot vb startSeqno diskEndSeqno highCompletedSeqno
      highPreparedSeqno persistedPreparedSeqno maxVisibleSeqno purgeSeqno snapshotType) := by
  rcases hres : s₁.markDiskSnapshot vb startSeqno diskEndSeqno highCompletedSeqno highPreparedSeqno
      persistedPreparedSeqno maxVisibleSeqno purgeSeqno snapshotType with e | ⟨sent, s'⟩
  · exact s₁.markDiskSnapshot_ne_error hpurge (fun v hv => UInt64.le_trans hpurgeBound (hvb v hv)) e hres
  obtain ⟨-, hspec⟩ := s₁.markDiskSnapshot_spec hres
  rcases hspec with ⟨rfl, hno⟩ | ⟨rfl, m, hm, hstart, hps, hend⟩
  · refine .inl ⟨rfl, ?_⟩
    rcases hno with hdead | ⟨hq', hp'⟩
    · exact .inl hdead
    · exact .inr ⟨hq'.trans hq, hp'.trans hp⟩
  · refine .inr ⟨rfl, m, ?_, hstart, hps, ?_⟩
    · rcases hm with ⟨hq', hp'⟩ | ⟨hq', hp'⟩
      · exact .inl ⟨by rw [hq', hq], hp'⟩
      · exact .inr ⟨hq'.trans hq, hp'⟩
    · intro f i hi hsend
      rcases hend with hE | ⟨v, hv, hE⟩
      · rw [hE]
        exact hcover f i hi hsend
      · rw [hE]
        exact UInt64.le_trans (hall i (mem_scanItems.mp hi).1) (hvb v hv)

@[simp] theorem ActiveStream.visibleEnd_self (s : ActiveStream) (seqno : UInt64) :
    s.visibleEnd seqno seqno = seqno := by
  unfold ActiveStream.visibleEnd
  split_ifs <;> rfl

/-- The scan context the history scan leaves has the file's values but for
the end, and the marker's end is the end of the whole disk snapshot. -/
theorem setupForHistoryScan_spec {s : ActiveStream} {ctx ctx' : ScanContext} {startSeqno : UInt64}
    {full : Bool} {historyScan : Option HistoryScanCtx}
    (h : setupForHistoryScan s ctx startSeqno = (full, historyScan, ctx')) :
    ctx'.purgeSeqno = ctx.purgeSeqno ∧ ctx'.maxVisibleSeqno = ctx.maxVisibleSeqno ∧
      (historyScan.map (·.rangeEnd)).getD ctx'.maxSeqno = ctx.maxSeqno := by
  unfold setupForHistoryScan at h
  split_ifs at h <;> cases h <;> exact ⟨rfl, rfl, rfl⟩

namespace DCPBackfillBySeqnoDisk

variable {b : DCPBackfillBySeqnoDisk} {bucket : Bucket}

theorem markOutcome_endStreamIfNeeded {items : List DiskItem} {startSeqno maxSeqno : UInt64}
    {s : ActiveStream} : MarkOutcome items startSeqno maxSeqno s (b.endStreamIfNeeded bucket s) false := by
  unfold endStreamIfNeeded
  split
  · exact markOutcome_self
  · split
    · exact markOutcome_setDead _
    · split
      · exact markOutcome_self
      · split
        · exact markOutcome_setDead _
        · exact markOutcome_self

section Legacy

variable {ctx₀ ctx : ScanContext} {s : ActiveStream}
  (hfacts : FileFacts bucket.kvstore ctx₀)
  (hvb : ∀ v, bucket.vbucket = some v → ctx₀.maxSeqno ≤ v.snapshotEnd)
  (hmvs : ctx.maxVisibleSeqno = ctx₀.maxVisibleSeqno)
  (hleg : s.filter.isLegacyFilter = true)
include hfacts hvb hmvs hleg

/-- The slow path marks the default collection's highest committed item in
reach, which is at or above every item the legacy stream is sent: those are
committed items of the default collection, below its high seqno and the max
visible seqno. -/
theorem markLegacyFromScan_spec {highSeqno : UInt64} (hnosync : s.supportSyncWrites = false)
    (hstats : bucket.kvstore.getCollectionStats Mcbp.CollectionID.default = (.success, highSeqno)) :
    MarkResult bucket.kvstore.items b.startSeqno ctx.maxSeqno s (b.markLegacyFromScan bucket ctx highSeqno s) := by
  unfold markLegacyFromScan
  dsimp only
  by_cases hfail : bucket.kvstore.scanFailed = true
  · rw [if_pos hfail]
    exact markOutcome_setDead _
  rw [if_neg hfail]
  generalize hmax : findMaxCommittedItem (min ctx.maxVisibleSeqno highSeqno)
    (scanItems bucket.kvstore.items b.startSeqno (min ctx.maxVisibleSeqno highSeqno)) 0 = mvs
  by_cases hpos : 0 < mvs
  · rw [if_pos hpos]
    generalize hs₁ : (if b.endSeqno = s.endSeqno ∧ mvs < b.endSeqno then { s with endSeqno := mvs } else s) = s₁
    have hq : s₁.readyQ = s.readyQ ∧ s₁.pendingDiskMarker = s.pendingDiskMarker := by
      rw [← hs₁]
      split_ifs <;> exact ⟨rfl, rfl⟩
    refine markResult_of_markDiskSnapshot hq.1 hq.2 ?_ hfacts.bySeqno_le_maxSeqno hvb
      UInt64.zero_le UInt64.zero_le
    intro f i hi hsend
    rw [ActiveStream.visibleEnd_self, ← hmax]
    obtain ⟨hmem, hstart, -⟩ := mem_scanItems.mp hi
    -- what the legacy stream is sent: committed items of the default collection
    have hdef := collection_of_backfillSends_legacy hleg hsend
    have hrep := shouldReplicate_of_backfillSends hsend
    rw [hnosync] at hrep
    have hsys : i.op ≠ .systemEvent := by
      intro hop
      have hcoll := hfacts.systemEvent_collection i hmem hop
      rw [hdef] at hcoll
      exact absurd hcoll (by decide)
    have hvis : i.bySeqno ≤ ctx.maxVisibleSeqno :=
      hmvs ▸ hfacts.bySeqno_le_maxVisibleSeqno i hmem (isVisible_of_shouldReplicate hrep)
    have hhigh : i.bySeqno ≤ highSeqno := by
      have hle := hfacts.bySeqno_le_collectionHigh i hmem (by rw [hdef, hstats])
      rwa [hdef, hstats] at hle
    -- so the scan for the highest committed item reaches it
    have hreach : i.bySeqno ≤ min ctx.maxVisibleSeqno highSeqno := by
      rw [UInt64.le_iff_toNat_le] at hvis hhigh
      rw [UInt64.le_iff_toNat_le, UInt64.toNat_min]
      omega
    exact le_findMaxCommittedItem hdef (isCommitted_of_shouldReplicate hrep hsys) _ 0
      (fun j hj => (mem_scanItems.mp hj).2.2) (mem_scanItems.mpr ⟨hmem, hstart, hreach⟩)
  · rw [if_neg hpos]
    exact markOutcome_endStreamIfNeeded

theorem markLegacyDiskSnapshot_spec :
    MarkResult bucket.kvstore.items b.startSeqno ctx.maxSeqno s (b.markLegacyDiskSnapshot bucket ctx s) := by
  unfold markLegacyDiskSnapshot
  rcases huid : bucket.kvstore.getCollectionsManifestUid with _ | uid
  · exact markOutcome_setDead _
  dsimp only
  by_cases hsync : (s.supportSyncWrites && uid != 0) = true
  · rw [if_pos hsync]
    exact markOutcome_setDead _
  rw [if_neg hsync]
  by_cases huid0 : uid = 0
  · -- manifest uid 0: the scan's own values mark the snapshot
    rw [if_pos huid0]
    refine markResult_of_markDiskSnapshot rfl rfl ?_ hfacts.bySeqno_le_maxSeqno hvb
      UInt64.zero_le UInt64.zero_le
    intro f i hi hsend
    obtain ⟨hmem, -, hle⟩ := mem_scanItems.mp hi
    unfold ActiveStream.visibleEnd
    by_cases hnosync : s.supportSyncWrites = true
    · rw [if_neg (by simp [hnosync])]
      exact hle
    · have hrep := shouldReplicate_of_backfillSends hsend
      rw [Bool.not_eq_true] at hnosync
      rw [hnosync] at hrep
      rw [if_pos (by simp [hnosync, ActiveStream.isCollectionEnabledStream, hleg]), hmvs]
      exact hfacts.bySeqno_le_maxVisibleSeqno i hmem (isVisible_of_shouldReplicate hrep)
  rw [if_neg huid0]
  have hnosync : s.supportSyncWrites = false := by simpa [huid0] using hsync
  rcases hstats : bucket.kvstore.getCollectionStats Mcbp.CollectionID.default with ⟨status, highSeqno⟩
  cases status with
  | failed => exact markOutcome_setDead _
  | notFound => exact markOutcome_self
  | success =>
    dsimp only
    rcases hgv : bucket.kvstore.getBySeqno highSeqno with item | _ | _
    · dsimp only
      by_cases hc : item.isCommitted = true
      · -- the default collection's high seqno is committed: it is the end
        rw [if_pos hc]
        refine markResult_of_markDiskSnapshot rfl rfl ?_ hfacts.bySeqno_le_maxSeqno hvb
          UInt64.zero_le UInt64.zero_le
        intro f i hi hsend
        rw [ActiveStream.visibleEnd_self]
        have hdef := collection_of_backfillSends_legacy hleg hsend
        have hle := hfacts.bySeqno_le_collectionHigh i (mem_scanItems.mp hi).1 (by rw [hdef, hstats])
        rwa [hdef, hstats] at hle
      · rw [if_neg hc]
        exact markLegacyFromScan_spec hfacts hvb hmvs hleg hnosync hstats
    · exact markLegacyFromScan_spec hfacts hvb hmvs hleg hnosync hstats
    · exact markOutcome_setDead _

end Legacy

/-- The backfill's marker, legacy or not, when the scan is not all history. -/
theorem markDiskSnapshot_spec {ctx₀ ctx : ScanContext} {s : ActiveStream}
    {historyScan : Option HistoryScanCtx} (hfacts : FileFacts bucket.kvstore ctx₀)
    (hvb : ∀ v, bucket.vbucket = some v → ctx₀.maxSeqno ≤ v.snapshotEnd)
    (hsetup : setupForHistoryScan s ctx₀ b.startSeqno = (false, historyScan, ctx)) :
    MarkResult bucket.kvstore.items b.startSeqno ctx.maxSeqno s (b.markDiskSnapshot bucket historyScan ctx s) := by
  obtain ⟨hpurge, hmvs, hend⟩ := setupForHistoryScan_spec hsetup
  unfold markDiskSnapshot
  by_cases hleg : s.filter.isLegacyFilter = true
  · rw [if_pos hleg]
    exact markLegacyDiskSnapshot_spec hfacts hvb hmvs hleg
  rw [if_neg hleg]
  -- a collection-aware stream's marker ends at the file's max seqno
  have hE : s.visibleEnd ((historyScan.map (·.rangeEnd)).getD ctx.maxSeqno) ctx.maxVisibleSeqno =
      ctx₀.maxSeqno := by
    unfold ActiveStream.visibleEnd
    rw [if_neg (by simp [ActiveStream.isCollectionEnabledStream, hleg]), hend]
  refine markResult_of_markDiskSnapshot rfl rfl ?_ hfacts.bySeqno_le_maxSeqno hvb ?_ ?_
  · intro f i hi _
    rw [hE]
    exact hfacts.bySeqno_le_maxSeqno i (mem_scanItems.mp hi).1
  · rw [hE, hpurge]
    exact hfacts.purgeSeqno_le_maxSeqno
  · rw [hpurge]
    exact hfacts.purgeSeqno_le_maxSeqno

end DCPBackfillBySeqnoDisk

/-! ## What `create` does -/

/-- The backfill goes on: it neither snoozed nor left the stream dead. -/
def CreateResult.Proceeds (r : CreateResult) : Prop := r.status ≠ .snooze ∧ r.stream.state ≠ .dead

namespace DCPBackfillBySeqnoDisk

variable {b : DCPBackfillBySeqnoDisk} {bucket : Bucket} {s : ActiveStream}

/-- Everything `create` can do: snooze, fail to open the scan or read the
collections' stats, skip a scan of collections with nothing past the start,
end the stream on a failed purge check, or go on to scan. -/
theorem create_cases {r : CreateResult} (h : b.create bucket s = .ok r) :
    r = ⟨.snooze, s, none, none⟩ ∨ r = ⟨.finished, s.setDead .backfillFail, none, none⟩ ∨
      ∃ ctx collHigh, bucket.kvstore.initBySeqnoScanContext = some ctx ∧
        getHighSeqnoOfCollections bucket.kvstore ctx s.filter = (true, collHigh) ∧
        (collHigh.any (· < b.startSeqno) = true ∧ r = ⟨.finished, s.completeBackfill, none, none⟩ ∨
          collHigh.any (· < b.startSeqno) = false ∧
            (purgeSeqnoCheckFails b.startSeqno ctx.purgeSeqno s.filter.remotePurgeSeqno
                (allowNonRollBackStream s ctx b.startSeqno collHigh) = true ∧
              r = ⟨.finished, s.setDead .rollback, none, none⟩ ∨
             purgeSeqnoCheckFails b.startSeqno ctx.purgeSeqno s.filter.remotePurgeSeqno
                (allowNonRollBackStream s ctx b.startSeqno collHigh) = false ∧
              b.scanOrComplete bucket ctx s = .ok r)) := by
  unfold create at h
  by_cases hsnooze : bucket.lastPersistedSeqno < b.endSeqno
  · rw [if_pos hsnooze] at h
    cases h
    exact .inl rfl
  rw [if_neg hsnooze] at h
  rcases hctx : bucket.kvstore.initBySeqnoScanContext with _ | ctx
  · rw [hctx] at h
    cases h
    exact .inr (.inl rfl)
  rw [hctx] at h
  dsimp only at h
  rcases hcoll : getHighSeqnoOfCollections bucket.kvstore ctx s.filter with ⟨_ | _, collHigh⟩
  · rw [hcoll] at h
    cases h
    exact .inr (.inl rfl)
  rw [hcoll] at h
  dsimp only at h
  refine .inr (.inr ⟨ctx, collHigh, rfl, hcoll, ?_⟩)
  by_cases hskip : collHigh.any (· < b.startSeqno) = true
  · rw [if_pos hskip] at h
    cases h
    exact .inl ⟨hskip, rfl⟩
  rw [if_neg hskip] at h
  refine .inr ⟨by simpa using hskip, ?_⟩
  by_cases hfails : purgeSeqnoCheckFails b.startSeqno ctx.purgeSeqno s.filter.remotePurgeSeqno
      (allowNonRollBackStream s ctx b.startSeqno collHigh) = true
  · rw [if_pos hfails] at h
    cases h
    exact .inl ⟨hfails, rfl⟩
  · rw [if_neg hfails] at h
    exact .inr ⟨by simpa using hfails, h⟩

/-- Everything the scan part of `create` can do: hand the whole scan to the
history scan, or mark the disk snapshot and scan, or with no marker complete. -/
theorem scanOrComplete_cases {ctx : ScanContext} {r : CreateResult} (h : b.scanOrComplete bucket ctx s = .ok r) :
    ∃ full historyScan ctx', setupForHistoryScan s ctx b.startSeqno = (full, historyScan, ctx') ∧
      (full = true ∧ r = ⟨.success, s, some ctx', historyScan⟩ ∨
        full = false ∧ ∃ sent s', b.markDiskSnapshot bucket historyScan ctx' s = .ok (sent, s') ∧
          (sent = true ∧ r = ⟨.success, s', some ctx', historyScan⟩ ∨
            sent = false ∧ r = ⟨.finished, s'.completeBackfill, none, historyScan⟩)) := by
  unfold scanOrComplete at h
  rcases hsetup : setupForHistoryScan s ctx b.startSeqno with ⟨_ | _, historyScan, ctx'⟩
  · rw [hsetup] at h
    obtain ⟨⟨sent, s'⟩, hmark, hrest⟩ := Except.bind_eq_ok.mp h
    refine ⟨false, historyScan, ctx', rfl, .inr ⟨rfl, sent, s', hmark, ?_⟩⟩
    cases sent
    · cases hrest
      exact .inr ⟨rfl, rfl⟩
    · cases hrest
      exact .inl ⟨rfl, rfl⟩
  · rw [hsetup] at h
    cases h
    exact ⟨true, historyScan, ctx', rfl, .inl ⟨rfl, rfl⟩⟩

/-- (a): once the scan is open and the stats read, a failed purge check ends
the stream with `Rollback`; only a snooze comes first. -/
theorem create_rollback_of_purgeSeqnoCheckFails {ctx : ScanContext} {collHigh : Option UInt64}
    (hctx : bucket.kvstore.initBySeqnoScanContext = some ctx)
    (hcoll : getHighSeqnoOfCollections bucket.kvstore ctx s.filter = (true, collHigh))
    (hskip : collHigh.any (· < b.startSeqno) = false)
    (hfails : purgeSeqnoCheckFails b.startSeqno ctx.purgeSeqno s.filter.remotePurgeSeqno
      (allowNonRollBackStream s ctx b.startSeqno collHigh) = true) :
    b.create bucket s = .ok ⟨.snooze, s, none, none⟩ ∨
      b.create bucket s = .ok ⟨.finished, s.setDead .rollback, none, none⟩ := by
  unfold create
  by_cases hsnooze : bucket.lastPersistedSeqno < b.endSeqno
  · exact .inl (if_pos hsnooze)
  · right
    rw [if_neg hsnooze, hctx]
    dsimp only
    rw [hcoll]
    dsimp only
    rw [if_neg (by simp [hskip]), if_pos hfails]

/-- (b): a backfill that goes on passed the purge check, or skipped a scan
of collections with nothing past the start. -/
theorem create_passed_purge_check {r : CreateResult} (h : b.create bucket s = .ok r) (hp : r.Proceeds) :
    ∃ ctx collHigh, bucket.kvstore.initBySeqnoScanContext = some ctx ∧
      getHighSeqnoOfCollections bucket.kvstore ctx s.filter = (true, collHigh) ∧
      (collHigh.any (· < b.startSeqno) = true ∨
        purgeSeqnoCheckFails b.startSeqno ctx.purgeSeqno s.filter.remotePurgeSeqno
          (allowNonRollBackStream s ctx b.startSeqno collHigh) = false) := by
  rcases create_cases h with rfl | rfl | ⟨ctx, collHigh, hctx, hcoll, hrest⟩
  · exact absurd rfl hp.1
  · exact absurd (s.setDead_state _) hp.2
  refine ⟨ctx, collHigh, hctx, hcoll, ?_⟩
  rcases hrest with ⟨hskip, -⟩ | ⟨-, ⟨-, rfl⟩ | ⟨hpass, -⟩⟩
  · exact .inl hskip
  · exact absurd (s.setDead_state _) hp.2
  · exact .inr hpass

section Marker

variable {ctx₀ : ScanContext} (hctx : bucket.kvstore.initBySeqnoScanContext = some ctx₀)
  (hfacts : FileFacts bucket.kvstore ctx₀)
  (hvb : ∀ v, bucket.vbucket = some v → ctx₀.maxSeqno ≤ v.snapshotEnd)
include hctx hfacts hvb

/-- The marker a backfill that goes on sends, if any, starts at or below the
backfill's start, carries a purge seqno at most its end, and ends at or above
every item of its scan that the stream is sent. -/
theorem create_marker_spec {r : CreateResult} (h : b.create bucket s = .ok r) (hp : r.Proceeds) :
    NoMarker s r.stream ∨
      ∃ m, MarkerQueued s r.stream m ∧ m.startSeqno ≤ b.startSeqno ∧ m.PurgeSeqnoLeEnd ∧
        ∀ c, r.scanCtx = some c → ∀ f, EndCoversScan f s bucket.kvstore.items b.startSeqno c.maxSeqno m := by
  rcases create_cases h with rfl | rfl | ⟨ctx, collHigh, hctx', -, hrest⟩
  · exact absurd rfl hp.1
  · exact absurd (s.setDead_state _) hp.2
  rw [hctx, Option.some.injEq] at hctx'
  subst hctx'
  rcases hrest with ⟨-, rfl⟩ | ⟨-, ⟨-, rfl⟩ | ⟨-, hscan⟩⟩
  · exact .inl (.inr ⟨rfl, rfl⟩)
  · exact absurd (s.setDead_state _) hp.2
  obtain ⟨full, historyScan, ctx', hsetup, ⟨-, rfl⟩ | ⟨rfl, sent, s', hmark, hsent⟩⟩ := scanOrComplete_cases hscan
  · exact .inl (.inr ⟨rfl, rfl⟩)
  have hout : MarkOutcome bucket.kvstore.items b.startSeqno ctx'.maxSeqno s s' sent := by
    have hres := markDiskSnapshot_spec hfacts hvb hsetup
    rwa [hmark] at hres
  rcases hsent with ⟨rfl, rfl⟩ | ⟨rfl, rfl⟩
  · rcases hout with ⟨hne, -⟩ | ⟨-, m, hm, hstart, hps, hcover⟩
    · cases hne
    · exact .inr ⟨m, hm, hstart, hps, fun c hc => by cases hc; exact hcover⟩
  · rcases hout with ⟨-, hno⟩ | ⟨hne, -⟩
    · rcases hno with hdead | ⟨hq, hpend⟩
      · exact .inl (.inl hdead)
      · exact .inl (.inr ⟨hq, hpend⟩)
    · cases hne

/-- The `Expects` on the purge seqno never fails in a backfill. -/
theorem create_ne_error (e : String) : b.create bucket s ≠ .error e := by
  intro h
  unfold create at h
  by_cases hsnooze : bucket.lastPersistedSeqno < b.endSeqno
  · rw [if_pos hsnooze] at h
    cases h
  rw [if_neg hsnooze, hctx] at h
  dsimp only at h
  rcases hcoll : getHighSeqnoOfCollections bucket.kvstore ctx₀ s.filter with ⟨_ | _, collHigh⟩
  · rw [hcoll] at h
    cases h
  rw [hcoll] at h
  dsimp only at h
  by_cases hskip : collHigh.any (· < b.startSeqno) = true
  · rw [if_pos hskip] at h
    cases h
  rw [if_neg hskip] at h
  by_cases hfails : purgeSeqnoCheckFails b.startSeqno ctx₀.purgeSeqno s.filter.remotePurgeSeqno
      (allowNonRollBackStream s ctx₀ b.startSeqno collHigh) = true
  · rw [if_pos hfails] at h
    cases h
  rw [if_neg hfails] at h
  unfold scanOrComplete at h
  rcases hsetup : setupForHistoryScan s ctx₀ b.startSeqno with ⟨_ | _, historyScan, ctx'⟩
  · rw [hsetup] at h
    dsimp only at h
    have hres := markDiskSnapshot_spec hfacts hvb hsetup
    rcases hmark : b.markDiskSnapshot bucket historyScan ctx' s with e' | ⟨sent, s'⟩
    · rw [hmark] at hres
      exact hres
    · rw [hmark] at h
      cases sent <;> cases h
  · rw [hsetup] at h
    cases h

end Marker

end DCPBackfillBySeqnoDisk

/-! ## The same check at the stream request -/

/-- What the stream request reads of the vbucket: its failover table, its
purge seqno, and each collection's high seqno in its manifest (none when the
collection cannot be locked). -/
structure RequestVBucket where
  failovers : FailoverTable
  purgeSeqno : UInt64
  collectionHighSeqno : Nat → Option UInt64

/-- What `checkStreamRequestNeedsRollback` reads of a stream request. -/
structure StreamRequestInfo where
  startSeqno : UInt64
  highSeqno : UInt64
  vbucketUuid : UInt64
  snapStartSeqno : UInt64
  snapEndSeqno : UInt64
  ignorePurgedTombstones : Bool
  strictVbUuid : Bool
  deriving DecidableEq, Repr

namespace RequestVBucket

/-- The loop of `VBucket::getHighSeqnoOfCollections`. -/
def highSeqnoOfCollections (collectionHighSeqno : Nat → Option UInt64) : List Nat → UInt64 → Option UInt64
  | [], maxHighSeqno => some maxHighSeqno
  | cid :: rest, maxHighSeqno =>
    match collectionHighSeqno cid with
    | none => none
    | some collHighSeqno => highSeqnoOfCollections collectionHighSeqno rest (max maxHighSeqno collHighSeqno)

/-- `VBucket::getHighSeqnoOfCollections`: the largest in-memory high seqno of
the filter's collections; none for a pass-through filter only. -/
def getHighSeqnoOfCollections (vb : RequestVBucket) (filter : Filter) : Option UInt64 :=
  if filter.isPassThroughFilter then none else highSeqnoOfCollections vb.collectionHighSeqno filter.collections 0

end RequestVBucket

/-- `DcpProducer::checkStreamRequestNeedsRollback`: `needsRollback` with the
purge seqno taken as 0 for a client that ignores purged tombstones. -/
def checkStreamRequestNeedsRollback (req : StreamRequestInfo) (vb : RequestVBucket) (filter : Filter) :
    Option RollbackDetails :=
  let purgeSeqno := if req.ignorePurgedTombstones then 0 else vb.purgeSeqno
  FailoverTable.needsRollback vb.failovers req.startSeqno req.highSeqno req.vbucketUuid req.snapStartSeqno
    req.snapEndSeqno purgeSeqno filter.remotePurgeSeqno req.strictVbUuid (vb.getHighSeqnoOfCollections filter)

/-- The collection exemption of `create` is `needsRollback`'s, in the
stream's start seqno. -/
theorem allowNonRollBackStream_eq (s : ActiveStream) (ctx : ScanContext) (startSeqno : UInt64)
    (collHigh : Option UInt64) :
    allowNonRollBackStream s ctx startSeqno collHigh =
      (allowNonRollBackCollectionStream s.startSeqno ctx.purgeSeqno collHigh ||
        (s.filter.isCollectionFilter && s.collectionStartSeqno == some startSeqno) ||
        s.ignoringPurgedTombstones) := by
  cases collHigh <;> rfl

/-- A backfill from `s + 1` in the stream request's coordinates. -/
theorem succ_seqno {startSeqno s : UInt64} (h : startSeqno.toNat = s.toNat + 1) :
    (startSeqno = 1 ↔ s = 0) ∧ (∀ p, startSeqno ≤ p ↔ s < p) ∧ (∀ c, c < startSeqno ↔ c ≤ s) := by
  refine ⟨?_, fun p => ?_, fun c => ?_⟩
  · rw [← UInt64.toNat_inj, ← UInt64.toNat_inj, h]
    simp
  · rw [UInt64.le_iff_toNat_le, UInt64.lt_iff_toNat_lt, h]
    omega
  · rw [UInt64.le_iff_toNat_le, UInt64.lt_iff_toNat_lt, h]
    omega

theorem purgeSeqnoCheckFails_eq_true {startSeqno purgeSeqno remotePurgeSeqno : UInt64} {allow : Bool} :
    purgeSeqnoCheckFails startSeqno purgeSeqno remotePurgeSeqno allow = true ↔
      startSeqno ≠ 1 ∧ startSeqno ≤ purgeSeqno ∧ allow = false ∧ remotePurgeSeqno ≠ purgeSeqno := by
  simp [purgeSeqnoCheckFails, and_assoc]

/-- A backfill from `s + 1` that passed the purge check or skipped its scan
had one of the exemptions the stream request knows, or started at the
collection's start. -/
theorem exempt_of_passed {b : DCPBackfillBySeqnoDisk} {s : ActiveStream} {ctx : ScanContext}
    {collHigh : Option UInt64} (hstart : b.startSeqno.toNat = s.startSeqno.toNat + 1) (hne : s.startSeqno ≠ 0)
    (h : collHigh.any (· < b.startSeqno) = true ∨
      purgeSeqnoCheckFails b.startSeqno ctx.purgeSeqno s.filter.remotePurgeSeqno
        (allowNonRollBackStream s ctx b.startSeqno collHigh) = false) :
    ctx.purgeSeqno ≤ s.startSeqno ∨ s.filter.remotePurgeSeqno = ctx.purgeSeqno ∨
      s.ignoringPurgedTombstones = true ∨ CollectionStreamExempt s.startSeqno ctx.purgeSeqno collHigh ∨
      (s.filter.isCollectionFilter = true ∧ s.collectionStartSeqno = some b.startSeqno) := by
  obtain ⟨hone, hle, hlt⟩ := succ_seqno hstart
  by_cases hP : ctx.purgeSeqno ≤ s.startSeqno
  · exact .inl hP
  have hsP : s.startSeqno < ctx.purgeSeqno := UInt64.not_le.mp hP
  rcases h with hskip | hpass
  · -- the collections end below the start, so at or below the stream's start
    obtain ⟨c, rfl, hc⟩ : ∃ c, collHigh = some c ∧ c < b.startSeqno := by
      cases collHigh with
      | none => cases hskip
      | some c => exact ⟨c, rfl, by simpa using hskip⟩
    have hcs : c ≤ s.startSeqno := (hlt c).mp hc
    exact .inr (.inr (.inr (.inl ⟨c, rfl, hsP, hcs, UInt64.le_trans hcs (UInt64.le_of_lt hsP)⟩)))
  · have hb1 : b.startSeqno ≠ 1 := fun h1 => hne (hone.mp h1)
    have hbP : b.startSeqno ≤ ctx.purgeSeqno := (hle _).mpr hsP
    have hpass' := mt purgeSeqnoCheckFails_eq_true.mpr (Bool.eq_false_iff.mp hpass)
    by_cases hallow : allowNonRollBackStream s ctx b.startSeqno collHigh = true
    · rw [allowNonRollBackStream_eq] at hallow
      simp only [Bool.or_eq_true, Bool.and_eq_true, beq_iff_eq] at hallow
      rcases hallow with (hcoll | hcs) | hig
      · exact .inr (.inr (.inr (.inl
          ((FailoverTable.allowNonRollBackCollectionStream_iff _ _ _).mp hcoll))))
      · exact .inr (.inr (.inr (.inr hcs)))
      · exact .inr (.inr (.inl hig))
    · -- not exempt: the client saw this purge seqno
      by_contra hnot
      exact hpass' ⟨hb1, hbP, by simpa using hallow, fun hrem => hnot (.inr (.inl hrem))⟩

/-- The two purge checks agree for equal purge seqno and equal collection
high seqno: the backfill from `s + 1` rolls back exactly when the stream
request's check fails and the backfill does not start at the collection's
start. -/
theorem purgeSeqnoCheckFails_iff {b : DCPBackfillBySeqnoDisk} {s : ActiveStream} {ctx : ScanContext}
    {collHigh : Option UInt64} (hstart : b.startSeqno.toNat = s.startSeqno.toNat + 1) :
    (collHigh.any (· < b.startSeqno) = false ∧
      purgeSeqnoCheckFails b.startSeqno ctx.purgeSeqno s.filter.remotePurgeSeqno
        (allowNonRollBackStream s ctx b.startSeqno collHigh) = true) ↔
      PurgeCheckFails s.startSeqno (if s.ignoringPurgedTombstones then 0 else ctx.purgeSeqno)
          s.filter.remotePurgeSeqno collHigh ∧
        ¬(s.filter.isCollectionFilter = true ∧ s.collectionStartSeqno = some b.startSeqno) := by
  obtain ⟨hone, hle, hlt⟩ := succ_seqno hstart
  rw [allowNonRollBackStream_eq]
  by_cases hig : s.ignoringPurgedTombstones = true
  · -- both checks pass: the request sees purge seqno 0, the backfill is exempt
    simp [hig, purgeSeqnoCheckFails, PurgeCheckFails]
  rw [Bool.not_eq_true] at hig
  simp only [hig, Bool.false_eq_true, if_false, Bool.or_false]
  constructor
  · rintro ⟨-, hfails⟩
    obtain ⟨hb1, hbP, hallow, hrem⟩ := purgeSeqnoCheckFails_eq_true.mp hfails
    obtain ⟨hNR, hcs⟩ := Bool.or_eq_false_iff.mp hallow
    refine ⟨⟨(hle _).mp hbP, fun h0 => hb1 (hone.mpr h0), hNR, hrem⟩, ?_⟩
    rintro ⟨hc, hc'⟩
    rw [hc, hc'] at hcs
    simp at hcs
  · rintro ⟨⟨hsP, hs0, hNR, hrem⟩, hcs⟩
    refine ⟨?_, ?_⟩
    · -- a collection high seqno below the start would have exempted the request
      cases collHigh with
      | none => rfl
      | some c =>
        by_contra hc
        have hcs' : c ≤ s.startSeqno := (hlt c).mp (by simpa using hc)
        have hex : allowNonRollBackCollectionStream s.startSeqno ctx.purgeSeqno (some c) = true :=
          (FailoverTable.allowNonRollBackCollectionStream_iff _ _ _).mpr
            ⟨c, rfl, hsP, hcs', UInt64.le_trans hcs' (UInt64.le_of_lt hsP)⟩
        rw [hNR] at hex
        cases hex
    · have hb1 : b.startSeqno ≠ 1 := fun h1 => hs0 (hone.mp h1)
      have hbP : b.startSeqno ≤ ctx.purgeSeqno := (hle _).mpr hsP
      refine purgeSeqnoCheckFails_eq_true.mpr ⟨hb1, hbP, ?_, hrem⟩
      rw [hNR, Bool.false_or]
      exact Bool.eq_false_iff.mpr fun hc => hcs (by simpa using hc)

/-- The purge check of the stream request, in the arguments of
`checkStreamRequestNeedsRollback`. -/
def StreamRequestPurgeCheckFails (req : StreamRequestInfo) (vb : RequestVBucket) (filter : Filter) : Prop :=
  PurgeCheckFails req.startSeqno (if req.ignorePurgedTombstones then 0 else vb.purgeSeqno) filter.remotePurgeSeqno
    (vb.getHighSeqnoOfCollections filter)

/-- The stream request's purge check is its only use of the purge seqnos and
the collections: failed, it rolls the client back to 0; passed, the answer is
that of a vbucket that never purged. -/
theorem checkStreamRequestNeedsRollback_purge (req : StreamRequestInfo) (vb : RequestVBucket) (filter : Filter) :
    (StreamRequestPurgeCheckFails req vb filter →
      checkStreamRequestNeedsRollback req vb filter =
        some ⟨"purge seqno (" ++ toString (if req.ignorePurgedTombstones then 0 else vb.purgeSeqno) ++
          ") is greater than start seqno - could miss purged deletions", 0⟩) ∧
    (¬StreamRequestPurgeCheckFails req vb filter →
      checkStreamRequestNeedsRollback req vb filter =
        FailoverTable.needsRollback vb.failovers req.startSeqno req.highSeqno req.vbucketUuid req.snapStartSeqno
          req.snapEndSeqno 0 0 req.strictVbUuid none) :=
  ⟨fun h => FailoverTable.needsRollback_of_purgeCheckFails _ _ _ _ _ _ _ _ _ _ h,
    fun h => FailoverTable.needsRollback_of_not_purgeCheckFails _ _ _ _ _ _ _ _ _ _ h⟩

/-- With each filtered collection's stats read and equal to its manifest high
seqno, the backfill's loop finds the stream request's high seqno, once it has
seen a collection (before, it has none where the request has 0). -/
theorem collectionsHighSeqno_eq {kvs : KVStore} {vb : RequestVBucket} :
    ∀ (l : List Nat) (acc : Option UInt64) (m : UInt64),
      (∀ c ∈ l, (kvs.getCollectionStats c).1 ≠ .failed ∧
        vb.collectionHighSeqno c = some (kvs.getCollectionStats c).2) →
      acc.getD 0 = m → (acc.isSome ∨ l ≠ []) →
      collectionsHighSeqno kvs.getCollectionStats l acc =
        (true, RequestVBucket.highSeqnoOfCollections vb.collectionHighSeqno l m)
  | [], acc, m, _, hm, hsome => by
    obtain ⟨a, rfl⟩ : ∃ a, acc = some a := Option.isSome_iff_exists.mp (hsome.resolve_right (by simp))
    rw [Option.getD_some] at hm
    rw [collectionsHighSeqno, RequestVBucket.highSeqnoOfCollections, hm]
  | c :: rest, acc, m, hagree, hm, _ => by
    obtain ⟨hok, hhigh⟩ := hagree c List.mem_cons_self
    rw [collectionsHighSeqno, if_neg hok, RequestVBucket.highSeqnoOfCollections, hhigh]
    exact collectionsHighSeqno_eq rest _ _ (fun c' hc' => hagree c' (List.mem_cons_of_mem _ hc'))
      (by rw [Option.getD_some, hm]) (.inl rfl)

/-- The backfill reads the stream request's collection high seqno off disk
for a filter that is not user-visible and, unless pass-through, not empty. -/
theorem getHighSeqnoOfCollections_eq_request {kvs : KVStore} {ctx : ScanContext} {filter : Filter}
    {vb : RequestVBucket} (hhandle : ctx.handle = true) (huv : filter.isUserVisibleFilter = false)
    (hne : filter.isPassThroughFilter = true ∨ filter.collections ≠ [])
    (hagree : ∀ c ∈ filter.collections, (kvs.getCollectionStats c).1 ≠ .failed ∧
      vb.collectionHighSeqno c = some (kvs.getCollectionStats c).2) :
    getHighSeqnoOfCollections kvs ctx filter = (true, vb.getHighSeqnoOfCollections filter) := by
  unfold getHighSeqnoOfCollections RequestVBucket.getHighSeqnoOfCollections
  rw [hhandle, huv, Bool.not_true, Bool.or_false]
  by_cases hpass : filter.isPassThroughFilter = true
  · rw [if_pos hpass, if_neg Bool.false_ne_true, if_pos hpass]
  · rw [if_neg hpass, if_neg Bool.false_ne_true, if_neg hpass]
    exact collectionsHighSeqno_eq _ none 0 hagree rfl (.inr (hne.resolve_left hpass))

/-! ## The purge check, end to end -/

/-- No backfill lets a client miss purged tombstones silently: (a) once the
scan is open, a failed purge check ends the stream with `Rollback`; (b) a
backfill from `s + 1` that goes on had the purge pass at or below `s`, or a
client that saw this purge or ignores purged tombstones, or a collection
exemption, and the marker it sends starts at or below its start, carries a
purge seqno at most its end, and ends at or above every seqno of its scan
that the stream sends; and the checks at the stream request and at the
backfill agree for equal purge seqno and equal collection high seqnos but
for the backfill's collection-start exemption, for a filter that is not
user-visible and not empty. -/
theorem backfill_purge_check_safe :
    (∀ (b : DCPBackfillBySeqnoDisk) (bucket : Bucket) (s : ActiveStream) (ctx : ScanContext)
        (collHigh : Option UInt64),
      bucket.kvstore.initBySeqnoScanContext = some ctx →
      getHighSeqnoOfCollections bucket.kvstore ctx s.filter = (true, collHigh) →
      collHigh.any (· < b.startSeqno) = false →
      purgeSeqnoCheckFails b.startSeqno ctx.purgeSeqno s.filter.remotePurgeSeqno
        (allowNonRollBackStream s ctx b.startSeqno collHigh) = true →
      b.create bucket s = .ok ⟨.snooze, s, none, none⟩ ∨
        b.create bucket s = .ok ⟨.finished, s.setDead .rollback, none, none⟩) ∧
    (∀ (b : DCPBackfillBySeqnoDisk) (bucket : Bucket) (s : ActiveStream) (ctx : ScanContext)
        (r : CreateResult),
      s.startSeqno ≠ 0 → b.startSeqno.toNat = s.startSeqno.toNat + 1 →
      bucket.kvstore.initBySeqnoScanContext = some ctx → FileFacts bucket.kvstore ctx →
      (∀ v, bucket.vbucket = some v → ctx.maxSeqno ≤ v.snapshotEnd) →
      b.create bucket s = .ok r → r.Proceeds →
      (ctx.purgeSeqno ≤ s.startSeqno ∨ s.filter.remotePurgeSeqno = ctx.purgeSeqno ∨
        s.ignoringPurgedTombstones = true ∨
        CollectionStreamExempt s.startSeqno ctx.purgeSeqno (getHighSeqnoOfCollections bucket.kvstore ctx s.filter).2 ∨
        (s.filter.isCollectionFilter = true ∧ s.collectionStartSeqno = some b.startSeqno)) ∧
      (NoMarker s r.stream ∨
        ∃ m, MarkerQueued s r.stream m ∧ m.startSeqno ≤ b.startSeqno ∧ m.PurgeSeqnoLeEnd ∧
          ∀ c, r.scanCtx = some c → ∀ f, EndCoversScan f s bucket.kvstore.items b.startSeqno c.maxSeqno m)) ∧
    (∀ (req : StreamRequestInfo) (vb : RequestVBucket) (b : DCPBackfillBySeqnoDisk) (s : ActiveStream)
        (kvs : KVStore) (ctx : ScanContext),
      req.startSeqno = s.startSeqno → req.ignorePurgedTombstones = s.ignoringPurgedTombstones →
      vb.purgeSeqno = ctx.purgeSeqno → b.startSeqno.toNat = s.startSeqno.toNat + 1 → ctx.handle = true →
      s.filter.isUserVisibleFilter = false → (s.filter.isPassThroughFilter = true ∨ s.filter.collections ≠ []) →
      (∀ c ∈ s.filter.collections, (kvs.getCollectionStats c).1 ≠ .failed ∧
        vb.collectionHighSeqno c = some (kvs.getCollectionStats c).2) →
      ((getHighSeqnoOfCollections kvs ctx s.filter).2.any (· < b.startSeqno) = false ∧
          purgeSeqnoCheckFails b.startSeqno ctx.purgeSeqno s.filter.remotePurgeSeqno
            (allowNonRollBackStream s ctx b.startSeqno (getHighSeqnoOfCollections kvs ctx s.filter).2) = true ↔
        StreamRequestPurgeCheckFails req vb s.filter ∧
          ¬(s.filter.isCollectionFilter = true ∧ s.collectionStartSeqno = some b.startSeqno))) := by
  refine ⟨fun b bucket s ctx collHigh hctx hcoll hskip hfails =>
    DCPBackfillBySeqnoDisk.create_rollback_of_purgeSeqnoCheckFails hctx hcoll hskip hfails, ?_, ?_⟩
  · intro b bucket s ctx r hne hstart hctx hfacts hvb h hp
    refine ⟨?_, DCPBackfillBySeqnoDisk.create_marker_spec hctx hfacts hvb h hp⟩
    obtain ⟨ctx', collHigh, hctx', hcoll, hpassed⟩ := DCPBackfillBySeqnoDisk.create_passed_purge_check h hp
    rw [hctx, Option.some.injEq] at hctx'
    subst hctx'
    rw [hcoll]
    exact exempt_of_passed hstart hne hpassed
  · intro req vb b s kvs ctx hreq hig hpurge hstart hhandle huv hne hagree
    rw [getHighSeqnoOfCollections_eq_request hhandle huv hne hagree, purgeSeqnoCheckFails_iff hstart]
    unfold StreamRequestPurgeCheckFails
    rw [hreq, hig, hpurge]

/-- A backfilling stream from seqno `start` whose client has neither sync
writes nor the newer marker fields, with the filter `filter`. -/
def exampleStream (start : UInt64) (filter : Filter) : ActiveStream where
  state := .backfilling
  startSeqno := start
  endSeqno := UInt64.ofNat (2 ^ 64 - 1)
  snapStartSeqno := start
  filter := filter
  collectionStartSeqno := none
  ignoringPurgedTombstones := false
  syncReplication := .no
  snapshotMarkerHPSEnabled := false
  snapshotMarkerPurgeSeqnoEnabled := false
  markerVersion22 := false
  changeStreamsEnabled := false
  firstMarkerSent := false
  readyQ := []
  pendingDiskMarker := none
  backfillCompleted := false

/-- A legacy stream's filter. -/
def legacyFilter : Filter := ⟨.legacy, [Mcbp.CollectionID.default], true, 0, by decide⟩

/-- A data file of the default collection: two mutations at 4 and 5, a
prepare at 6, purged up to 2. -/
def legacyBucket : Bucket where
  lastPersistedSeqno := 6
  kvstore :=
    { initBySeqnoScanContext := some ⟨6, 2, 5, 0, 6, 6, 0, true⟩
      getCollectionStats := fun c => if c = Mcbp.CollectionID.default then (.success, 6) else (.notFound, 0)
      getCollectionsManifestUid := some 0
      getBySeqno := fun _ => .noSuchKey
      scanFailed := false
      items := [⟨4, 0, .mutation⟩, ⟨5, 0, .mutation⟩, ⟨6, 0, .pendingSyncWrite⟩] }
  vbucket := some ⟨.active, 6, some 6⟩

theorem legacyBucket_fileFacts : FileFacts legacyBucket.kvstore ⟨6, 2, 5, 0, 6, 6, 0, true⟩ :=
  ⟨by decide, by decide, by decide, by decide, by decide⟩

/-- The claim at a legacy stream from seqno 3 on `legacyBucket`: the backfill
goes on, the purge is below the start, and the marker `[3, 5]` covers what the
stream is sent. -/
theorem backfill_purge_check_safe_legacy :
    ∃ r, (⟨4, 6⟩ : DCPBackfillBySeqnoDisk).create legacyBucket (exampleStream 3 legacyFilter) = .ok r ∧
      r.Proceeds ∧
      ((2 : UInt64) ≤ 3 ∨ legacyFilter.remotePurgeSeqno = 2 ∨ false = true ∨
        CollectionStreamExempt 3 2
          (getHighSeqnoOfCollections legacyBucket.kvstore ⟨6, 2, 5, 0, 6, 6, 0, true⟩ legacyFilter).2 ∨
        (legacyFilter.isCollectionFilter = true ∧ (none : Option UInt64) = some 4)) ∧
      (NoMarker (exampleStream 3 legacyFilter) r.stream ∨
        ∃ m, MarkerQueued (exampleStream 3 legacyFilter) r.stream m ∧ m.startSeqno ≤ 4 ∧ m.PurgeSeqnoLeEnd ∧
          ∀ c, r.scanCtx = some c → ∀ f,
            EndCoversScan f (exampleStream 3 legacyFilter) legacyBucket.kvstore.items 4 c.maxSeqno m) := by
  refine ⟨_, rfl, ⟨by decide, by decide⟩, ?_⟩
  exact backfill_purge_check_safe.2.1 ⟨4, 6⟩ legacyBucket (exampleStream 3 legacyFilter)
    ⟨6, 2, 5, 0, 6, 6, 0, true⟩ _ (by decide) (by decide) rfl legacyBucket_fileFacts
    (fun v hv => by cases hv; decide) rfl ⟨by decide, by decide⟩

/-- A user-visible filter of user collection 8. -/
def userVisibleFilter : Filter := ⟨.userVisible, [8], false, 0, by decide⟩

/-- The vbucket at the stream request: purge seqno 10, collection 8 last
written at seqno 3, one branch. -/
def userVisibleRequestVBucket : RequestVBucket where
  failovers := { FailoverTable.empty 25 with table := [⟨1, 0⟩] }
  purgeSeqno := 10
  collectionHighSeqno := fun c => if c = 8 then some 3 else none

/-- The same vbucket at the backfill: collection 8's stats on disk agree. -/
def userVisibleBucket : Bucket where
  lastPersistedSeqno := 20
  kvstore :=
    { initBySeqnoScanContext := some ⟨20, 10, 20, 0, 0, 0, 0, true⟩
      getCollectionStats := fun c => if c = 8 then (.success, 3) else (.notFound, 0)
      getCollectionsManifestUid := some 1
      getBySeqno := fun _ => .noSuchKey
      scanFailed := false
      items := [] }
  vbucket := some ⟨.active, 20, some 0⟩

/-- Where the claim as stated fails. A user-visible stream from seqno 5 of a
collection last written at 3, with the purge at 10: the stream request finds
the collection exemption and accepts it, but the backfill from 6 gives
user-visible filters no collection high seqno and ends the stream with
`Rollback`. And a legacy stream without sync writes gets the marker `[3, 5]`
(its end moved to the max visible seqno) while its scan returns the prepare
at 6, which the stream is not sent. -/
theorem userVisible_rollback_and_legacy_marker_below_prepare :
    ¬StreamRequestPurgeCheckFails ⟨5, 20, 1, 5, 5, false, false⟩ userVisibleRequestVBucket userVisibleFilter ∧
    checkStreamRequestNeedsRollback ⟨5, 20, 1, 5, 5, false, false⟩ userVisibleRequestVBucket
      userVisibleFilter = none ∧
    (⟨6, 20⟩ : DCPBackfillBySeqnoDisk).create userVisibleBucket (exampleStream 5 userVisibleFilter) =
      .ok ⟨.finished, (exampleStream 5 userVisibleFilter).setDead .rollback, none, none⟩ ∧
    ((⟨4, 6⟩ : DCPBackfillBySeqnoDisk).create legacyBucket (exampleStream 3 legacyFilter)).map
        (·.stream.readyQ) = .ok [.snapshotMarker ⟨3, 5, false, none, none, none, none⟩] ∧
    (⟨6, 0, .pendingSyncWrite⟩ : DiskItem) ∈ scanItems legacyBucket.kvstore.items 4 6 ∧
    ∀ f, backfillSends f (exampleStream 3 legacyFilter) ⟨6, 0, .pendingSyncWrite⟩ = false := by
  refine ⟨?_, by decide, rfl, rfl, by decide, fun f => rfl⟩
  unfold StreamRequestPurgeCheckFails PurgeCheckFails
  decide

end KvEngine.Dcp
