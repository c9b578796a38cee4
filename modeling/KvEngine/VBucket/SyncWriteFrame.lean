import KvEngine.VBucket.CasLock

/-!
# What a SyncWrite does to the committed value

A SyncWrite is meant to leave the committed document alone until its prepare
commits: the durable set, add or delete adds a prepare beside the committed
value (or overwrites a completed one), and an abort drops the prepare again,
or in an ephemeral bucket keeps it marked aborted. A value "as it was apart
from its lock" is one with the same `StoredValue.withoutLock`.

- `processSetInner_syncWrite_committed`: a durable set leaves the committed
  value as it was apart from its lock, and the value it writes takes the
  committed revision plus one;
- `processAdd_syncWrite_committed`: a durable add leaves the committed value as
  it was; its prepare takes one past every delete (`processAdd_revSeqno`), not
  one past the committed value;
- `abortStoredValue_committed`: an abort leaves the committed value as it is;
- `deleteItem_syncDelete_committed`: a SyncDelete of a key without prepare
  writes the delete's revision into the committed value before it copies the
  value into the prepare, so the committed value has a new revision while the
  delete is pending, and keeps it after an abort.

`syncWrite_revSeqno_mismatch` runs a SyncDelete and a durable add on one
document.
-/

namespace KvEngine.VBucket

open StoredValue

/-- The value with its lock released: what a reader of the document sees. -/
def StoredValue.withoutLock (v : StoredValue) : StoredValue :=
  { v with lockedCas := 0, lockExpiry := 0 }

@[simp] theorem withoutLock_unlock (v : StoredValue) : v.unlock.withoutLock = v.withoutLock := by
  unfold unlock
  split <;> rfl

@[simp] theorem withoutLock_setExpiryUnlock (env : CallEnv) (c : StoredValue) (itm : Item) (hasMetaData : Bool) :
    (setExpiryUnlock env c itm hasMetaData).withoutLock = c.withoutLock := by
  unfold setExpiryUnlock
  split <;> simp

@[simp] theorem setExpiryUnlock_committed (env : CallEnv) (c : StoredValue) (itm : Item) (hasMetaData : Bool) :
    (setExpiryUnlock env c itm hasMetaData).committed = c.committed := by
  unfold setExpiryUnlock
  split <;> simp

/-- A SyncDelete's prepare is pending, whatever the value it copies. -/
theorem isPending_toItem_createSyncDeletePrepare (v : StoredValue) (includeValue : Bool) :
    (v.createSyncDeletePrepare.toItem includeValue).isPending = true := by
  simp only [createSyncDeletePrepare, del]
  split <;> rfl

/-- The delete's target is the value with the delete's revision, apart from
its lock. -/
theorem withoutLock_deleteTarget (v : StoredValue) (metadata : ItemMetaData) :
    (deleteTarget v metadata false).withoutLock = { v.withoutLock with revSeqno := metadata.revSeqno } :=
  calc (deleteTarget v metadata false).withoutLock
      = { v.unlock.withoutLock with revSeqno := metadata.revSeqno } := rfl
    _ = { v.withoutLock with revSeqno := metadata.revSeqno } := by rw [withoutLock_unlock]

@[simp] theorem abortStoredValue_committed (kind : BucketKind) (s : KeySlot) :
    (s.abortStoredValue kind).committed = s.committed := by
  cases kind <;> rfl

/-- A durable set that wrote leaves a committed value that is not a prepare as
it was apart from its lock, and without metadata the value it writes takes the
committed revision plus one. -/
theorem processSetInner_syncWrite_committed {cfg : VBucketConfig} {env : CallEnv} {s : KeySlot}
    {v : Option SvRef} {itm : Item} {cas : Nat}
    {allowExisting hasMetaData storeIfGetItemInfo maybeKeyExists enforceMemCheck : Bool} {r : SetResult}
    (h : processSetInner cfg env s v itm cas allowExisting hasMetaData storeIfGetItemInfo maybeKeyExists
      enforceMemCheck = r)
    (hs : r.status.isSuccess = true) (hp : itm.isPending = true) (hwf : s.WellFormed) {c : StoredValue}
    (hc : s.committed = some c) :
    (∃ c', r.slot.committed = some c' ∧ c'.withoutLock = c.withoutLock) ∧
      (hasMetaData = false → (s.find v).isSome = true →
        ∃ ref sv, r.v = some ref ∧ r.slot.get ref = some sv ∧ sv.revSeqno = c.revSeqno + 1) := by
  refine ⟨?_, fun hmeta hsome => ?_⟩
  · rcases processSetInner_success h hs with ⟨hnone, -, -⟩ | ⟨c₀, hc₀, -, rfl⟩
    · rw [hc] at hnone
      cases hnone
    rw [hc] at hc₀
    cases hc₀
    -- the set runs on the slot whose committed value was unlocked; it adds a
    -- prepare beside that value, or overwrites the prepare
    obtain ⟨hcp, hcc⟩ := hwf.1 c hc
    refine ⟨_, setStore_committed_of_isPending _ _ _ _ ?_ ?_, by simp⟩
    · -- the revision the set gives the item does not make it less pending
      cases hasMetaData <;> exact hp
    · rintro c' ⟨⟩
      exact ⟨by simpa [isPending] using hcp, by simpa [isPrepareCompleted] using hcc⟩
  · obtain ⟨ref, sv, hv, hget, hrev, -, -⟩ := processSetInner_revSeqno h hs hmeta
    exact ⟨ref, sv, hv, hget, hrev c hc hsome⟩

/-- A durable add that added leaves the committed value as it was: it adds a
prepare beside it, or overwrites the prepare it found. -/
theorem processAdd_syncWrite_committed {cfg : VBucketConfig} {env : CallEnv} {s : KeySlot} {v : Option SvRef}
    {itm : Item} {maybeKeyExists : Bool} {r : AddResult}
    (h : processAdd cfg env s v itm maybeKeyExists = r) (hs : r.status.isSuccess = true)
    (hp : itm.isPending = true) :
    r.slot.committed = s.committed := by
  rcases (processAdd_success h hs).2 with ⟨replacing, -, rfl⟩ | ⟨ref, sv, -, href, rfl⟩
  · rw [(addFresh_success rfl hs).2.1]
    exact KeySlot.addNewStoredValue_committed_of_isPending _ _ _ hp
  · -- a SyncWrite found the prepare, not the committed value
    cases ref with
    | committed => exact absurd ⟨rfl, hp⟩ href
    | pending => rfl

/-- On an active vbucket, a SyncDelete that succeeded on a key without
prepare leaves the committed value as it was apart from its lock and its
revision, which is the delete's. -/
theorem deleteItem_syncDelete_committed {cfg : VBucketConfig} {env : CallEnv} {s s' : KeySlot} {cas : Nat}
    {errc : EngineErrc} (hactive : cfg.state = .active) (hwf : s.WellFormed)
    (h : deleteItem cfg env s cas true = .ok (errc, s')) (hs : errc = .success ∨ errc = .syncWritePending)
    (hnone : s.pending = none) {c : StoredValue} (hc : s.committed = some c) :
    s'.committed.map StoredValue.withoutLock = some { c.withoutLock with revSeqno := c.revSeqno + 1 } := by
  obtain ⟨res, hinner, hsucc, rfl⟩ := deleteItem_committed_success hactive hwf h hs (.inr hnone) hc
  have hcomp : (deleteTarget c ⟨0, c.revSeqno + 1, 0, 0⟩ false).isPrepareCompleted = false := by
    simpa [deleteTarget, setRevSeqno, isPrepareCompleted] using (hwf.1 c hc).2
  -- the target, with the delete's revision, is written back as the committed
  -- value, and its pending copy linked beside it
  rw [(processSoftDeleteInner_success hinner hsucc).2 rfl hcomp,
    KeySlot.addNewStoredValue_committed_of_isPending _ _ _ (isPending_toItem_createSyncDeletePrepare _ _)]
  simp [withoutLock_deleteTarget]

/-! ## SyncWrites over a document at revision 5 -/

/-- An active vbucket of a persistent bucket. -/
def persistentActive : VBucketConfig := ⟨.persistent, .value, .active, false⟩

/-- A call at time 10, with memory to spare. -/
def syncEnv : CallEnv := ⟨10, 10, false, true, fun _ => false, false, ⟨77, 9, 100⟩⟩

/-- A live document at revision 5, neither locked nor expiring. -/
def liveDoc : StoredValue :=
  ⟨some [0x61], 5, 0, 0, 0, 0, 5, 4, 0, false, .committedViaMutation, false⟩

def liveKey : KeySlot := ⟨some liveDoc, none, 0⟩

/-- The same document, expired at time 5. -/
def expiredKey : KeySlot := ⟨some { liveDoc with exptime := 5 }, none, 0⟩

/-- The item of a durable add. -/
def syncAddItem : Item := ⟨some [0x62], 0, 0, 0, 0, 0, 0, false, .pending, false⟩

/-- Two SyncWrites on a key whose committed document is at revision 5 and has
no prepare. A SyncDelete, aborted, leaves the committed document at revision 6
instead of as it was; a durable add over the expired document prepares
revision 1, not 6. -/
theorem syncWrite_revSeqno_mismatch :
    liveKey.WellFormed ∧
      (∃ s', deleteItem persistentActive syncEnv liveKey 0 true = .ok (.syncWritePending, s') ∧
        s'.pending.any (·.isPending) = true ∧
        (s'.abortStoredValue .persistent).committed = some { liveDoc with revSeqno := 6 }) ∧
      (processAdd persistentActive syncEnv expiredKey (some .committed) syncAddItem true).status = .unDel ∧
      (processAdd persistentActive syncEnv expiredKey (some .committed) syncAddItem true).slot.pending.map
        (·.revSeqno) = some 1 := by
  refine ⟨⟨?_, ?_⟩, ⟨_, rfl, rfl, rfl⟩, rfl, rfl⟩
  · rintro c ⟨⟩
    exact ⟨rfl, rfl⟩
  · rintro p ⟨⟩

end KvEngine.VBucket
