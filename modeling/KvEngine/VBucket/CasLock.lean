import KvEngine.VBucket.FrontEndSpec

/-!
# CAS values and locks on the front-end write paths

A document locked by `getLocked` can only be written with the locked CAS it
returned; an unlocked one with no CAS or its current CAS. The write paths make
that check against the committed value, except that:

- `processSetInner` runs the expiry check (MB-3252) first, and unlocks an
  expired committed value, which a write without CAS then overwrites
  (`processSetInner_respects_lock`);
- `deleteItem` hands the CAS check to `processSoftDeleteInner` on the value
  `selectSVToModify` picked, which for a SyncDelete is the key's prepare
  whenever there is one. In an ephemeral bucket a completed prepare stays in
  the hash table, is never locked, and lets the SyncDelete through whatever
  the lock on the committed value (`deleteItem_syncDelete_ignores_lock`).
  Without such a prepare, `deleteItem` respects the lock
  (`deleteItem_respects_lock`).

Beside the lock, a write with a CAS only replaces a live value
(`processSetInner_cas_needs_live`), an add never overwrites a live value
(`processAdd_refuses_live`), and the revisions a set and an add store are
`processSetInner_revSeqno` and `processAdd_revSeqno`.
-/

namespace KvEngine.VBucket

open StoredValue

theorem setExpiryUnlock_of_not_expires {env : CallEnv} {c : StoredValue} {itm : Item} {hasMetaData : Bool}
    (h : setExpires env c itm hasMetaData = false) : setExpiryUnlock env c itm hasMetaData = c := by
  simp [setExpiryUnlock, h]

theorem setExpiryUnlock_of_not_locked {env : CallEnv} {c : StoredValue} {itm : Item} {hasMetaData : Bool}
    (h : c.isLocked env.now = false) : setExpiryUnlock env c itm hasMetaData = c := by
  simp [setExpiryUnlock, h]

@[simp] theorem setExpiryUnlock_revSeqno (env : CallEnv) (c : StoredValue) (itm : Item) (hasMetaData : Bool) :
    (setExpiryUnlock env c itm hasMetaData).revSeqno = c.revSeqno := by
  unfold setExpiryUnlock; split <;> simp

theorem lockForState_of_active {cfg : VBucketConfig} (env : CallEnv) (c : StoredValue)
    (h : cfg.state = .active) : lockForState cfg env c = c := by
  simp [lockForState, h]

/-- On an active vbucket, a set that wrote respects the committed value's
lock: a locked value takes only its locked CAS, unless the expiry check,
which comes first, applied (and unlocked it), and then only a write without
CAS; an unlocked value takes no CAS or its own. -/
theorem processSetInner_respects_lock {cfg : VBucketConfig} {env : CallEnv} {s : KeySlot} {v : Option SvRef}
    {itm : Item} {cas : Nat} {allowExisting hasMetaData storeIfGetItemInfo maybeKeyExists enforceMemCheck : Bool}
    {r : SetResult}
    (h : processSetInner cfg env s v itm cas allowExisting hasMetaData storeIfGetItemInfo maybeKeyExists
      enforceMemCheck = r)
    (hs : r.status.isSuccess = true) {c : StoredValue} (hc : s.committed = some c) :
    (c.isLocked env.now = true → cas = c.lockedCas ∨ (setExpires env c itm hasMetaData = true ∧ cas = 0)) ∧
      (c.isLocked env.now = false → cas = 0 ∨ cas = c.cas) := by
  rcases processSetInner_success h hs with ⟨hnone, -, -⟩ | ⟨c', hc', checks, -⟩
  · rw [hc] at hnone
    cases hnone
  rw [hc] at hc'
  cases hc'
  have hcas := checkCasForWrite_eq_none_iff.mp checks.casCheck
  constructor
  · intro hl
    by_cases he : setExpires env c itm hasMetaData = true
    · exact .inr ⟨he, checks.expiry he⟩
    · rw [setExpiryUnlock_of_not_expires (by simpa using he)] at hcas
      rcases hcas with ⟨-, hlocked⟩ | ⟨hl', -⟩
      · exact .inl hlocked
      · rw [hl] at hl'
        cases hl'
  · intro hl
    rw [setExpiryUnlock_of_not_locked hl] at hcas
    rcases hcas with ⟨hl', -⟩ | ⟨-, hunlocked⟩
    · rw [hl] at hl'
      cases hl'
    · exact hunlocked

/-- A set with a CAS and without metadata that wrote a live item found a
committed value that is neither deleted, a temporary deleted value, nor
expired. -/
theorem processSetInner_cas_needs_live {cfg : VBucketConfig} {env : CallEnv} {s : KeySlot} {v : Option SvRef}
    {itm : Item} {cas : Nat} {allowExisting hasMetaData storeIfGetItemInfo maybeKeyExists enforceMemCheck : Bool}
    {r : SetResult}
    (h : processSetInner cfg env s v itm cas allowExisting hasMetaData storeIfGetItemInfo maybeKeyExists
      enforceMemCheck = r)
    (hs : r.status.isSuccess = true) (hcas : cas ≠ 0) (hmeta : hasMetaData = false) (hitm : itm.deleted = false) :
    ∃ c, s.committed = some c ∧ c.isDeleted = false ∧ c.isTempDeletedItem = false ∧
      c.isExpired env.realNow = false := by
  rcases processSetInner_success h hs with ⟨-, h0, -⟩ | ⟨c, hc, checks, -⟩
  · exact absurd h0 hcas
  -- the expiry check refuses a CAS, so it did not apply
  have hexp : setExpires env c itm hasMetaData = false := by
    cases he : setExpires env c itm hasMetaData
    · rfl
    · exact absurd (checks.expiry he) hcas
  obtain ⟨hd, ht⟩ := checks.deletedReplace hmeta hcas hitm
  rw [setExpiryUnlock_of_not_expires hexp] at hd ht
  refine ⟨c, hc, hd, ht, ?_⟩
  simpa [setExpires, hmeta, hitm] using hexp

/-- The revision a set without metadata stores: one past the committed value
it checked, whether it writes over a value or adds a prepare beside it; one
past every delete when it adds a value where there was none; and, with no
committed value, the item's own revision when it writes over a completed
prepare. -/
theorem processSetInner_revSeqno {cfg : VBucketConfig} {env : CallEnv} {s : KeySlot} {v : Option SvRef}
    {itm : Item} {cas : Nat} {allowExisting hasMetaData storeIfGetItemInfo maybeKeyExists enforceMemCheck : Bool}
    {r : SetResult}
    (h : processSetInner cfg env s v itm cas allowExisting hasMetaData storeIfGetItemInfo maybeKeyExists
      enforceMemCheck = r)
    (hs : r.status.isSuccess = true) (hmeta : hasMetaData = false) :
    ∃ ref sv, r.v = some ref ∧ r.slot.get ref = some sv ∧
      (∀ c, s.committed = some c → (s.find v).isSome = true → sv.revSeqno = c.revSeqno + 1) ∧
      (s.committed = none → (s.find v).isSome = true → sv.revSeqno = itm.revSeqno) ∧
      ((s.find v).isNone = true → sv.revSeqno = (s.updateRevSeqNoOfNewStoredValue (ofItem itm)).revSeqno) := by
  subst hmeta
  rcases processSetInner_success h hs with ⟨hnone, -, rfl⟩ | ⟨c, hc, -, hr⟩
  · obtain ⟨ref, sv, hv, hget, hrev⟩ := setStore_stored env.queued s v itm false
    refine ⟨ref, sv, hv, hget, fun c hc => by simp [hnone] at hc, fun _ hsome => ?_, fun hn => ?_⟩
    · simpa only [← Option.not_isSome, hsome, Bool.not_true, Bool.false_and, Bool.false_eq_true,
        ↓reduceIte] using hrev
    · simpa only [hn, Bool.not_false, Bool.and_self, ↓reduceIte] using hrev
  -- the item carries the committed value's revision plus one into a slot
  -- whose committed value is unlocked but otherwise the same
  simp only [Bool.false_eq_true, ↓reduceIte, setExpiryUnlock_revSeqno] at hr
  subst hr
  obtain ⟨ref, sv, hv, hget, hrev⟩ := setStore_stored env.queued _ v { itm with revSeqno := c.revSeqno + 1 } false
  rw [KeySlot.find_isNone_set_committed s v _ hc] at hrev
  refine ⟨ref, sv, hv, hget, fun c' hc' hsome => ?_, fun hn => by simp [hc] at hn, fun hn => ?_⟩
  · rw [hc] at hc'
    cases hc'
    simpa only [← Option.not_isSome, hsome, Bool.not_true, Bool.false_and, Bool.false_eq_true,
      ↓reduceIte] using hrev
  · simp only [hn, Bool.not_false, Bool.and_self, ↓reduceIte] at hrev
    exact hrev

/-- An add that added found no live committed value: it was deleted, expired,
temporary or in a dropped collection. -/
theorem processAdd_refuses_live {cfg : VBucketConfig} {env : CallEnv} {s : KeySlot} {v : Option SvRef}
    {itm : Item} {maybeKeyExists : Bool} {r : AddResult}
    (h : processAdd cfg env s v itm maybeKeyExists = r) (hs : r.status.isSuccess = true)
    {c : StoredValue} (hc : s.committed = some c) :
    c.isDeleted = true ∨ c.isExpired env.realNow = true ∨ c.isTempItem = true ∨
      env.isLogicallyDeleted c.bySeqno = true := by
  have hlive := (processAdd_success h hs).1
  by_contra hne
  simp only [not_or, Bool.not_eq_true] at hne
  obtain ⟨h₁, h₂, h₃, h₄⟩ := hne
  simp [hc, h₁, h₂, h₃, h₄] at hlive

theorem addRevSeqno_of_committed {s : KeySlot} {c : StoredValue} (hc : s.committed = some c)
    (hne : c.isTempNonExistentItem = false) (hi : c.isTempInitialItem = false) :
    s.addRevSeqno = c.revSeqno + 1 := by
  simp [KeySlot.addRevSeqno, hc, hne, hi]

/-- The revision an add stores: `addRevSeqno`, one past the committed value it
replaces, when it writes over the value it found; and one past every delete
(none for a temporary item) when it adds a new value, which it does where it
found none and for a SyncWrite beside the committed value. -/
theorem processAdd_revSeqno {cfg : VBucketConfig} {env : CallEnv} {s : KeySlot} {v : Option SvRef}
    {itm : Item} {maybeKeyExists : Bool} {r : AddResult}
    (h : processAdd cfg env s v itm maybeKeyExists = r) (hs : r.status.isSuccess = true) :
    ∃ ref sv, r.v = some ref ∧ r.slot.get ref = some sv ∧
      (sv.revSeqno = s.addRevSeqno ∨
        ((s.find v = none ∨ itm.isPending = true) ∧
          sv.revSeqno = (s.updateRevSeqNoOfNewStoredValue (ofItem itm)).revSeqno)) := by
  rcases (processAdd_success h hs).2 with ⟨replacing, hcase, rfl⟩ | ⟨ref, sv, -, -, rfl⟩
  · -- a new value, linked where it belongs
    obtain ⟨-, hslot, hv, -⟩ := addFresh_success rfl hs
    refine ⟨_, _, hv, hslot ▸ (KeySlot.get_link _ _).1, .inr ⟨?_, ?_⟩⟩
    · rcases hcase with hn | ⟨_, -, hp⟩
      · exact .inl hn
      · exact .inr hp
    · simp
  · exact ⟨ref, _, rfl, KeySlot.get_set_self _ _ _, .inl (by simp)⟩

/-- With no in-flight prepare, a plain delete modifies the committed value;
so does a SyncDelete when the key has no prepare at all. -/
theorem select_committed {s : KeySlot} {c : StoredValue} {durability : Bool} (hwf : s.WellFormed)
    (hc : s.committed = some c) (hflight : s.pending.any (·.isPending) = false)
    (hsel : durability = false ∨ s.pending = none) :
    (s.find (s.selectSVToModify durability)).getD (.committed, c) = (.committed, c) := by
  unfold KeySlot.selectSVToModify
  rcases hp : s.pending with _ | p
  · simp [hc, KeySlot.find, KeySlot.get]
  · -- the prepare is a completed one, which a plain delete passes over
    have hd : durability = false := hsel.resolve_right (by simp [hp])
    have hnp : p.isPending = false := by simpa [hp] using hflight
    have hcomp : p.isPrepareCompleted = true := (hwf.2 p hp).resolve_left (by simp [hnp])
    simp [hd, hcomp, hc, KeySlot.find, KeySlot.get]

/-- On an active vbucket, a delete that succeeded on the committed value (a
plain one, or a SyncDelete of a key without prepare) is a successful
`processSoftDeleteInner` of that value with the delete's revision. -/
theorem deleteItem_committed_success {cfg : VBucketConfig} {env : CallEnv} {s s' : KeySlot} {cas : Nat}
    {durability : Bool} {errc : EngineErrc} (hactive : cfg.state = .active) (hwf : s.WellFormed)
    (h : deleteItem cfg env s cas durability = .ok (errc, s')) (hs : errc = .success ∨ errc = .syncWritePending)
    (hsel : durability = false ∨ s.pending = none) {c : StoredValue} (hc : s.committed = some c) :
    ∃ res, processSoftDeleteInner cfg env s .committed c cas ⟨0, c.revSeqno + 1, 0, 0⟩ durability false = .ok res ∧
      res.status.isSuccess = true ∧ s' = res.slot := by
  obtain ⟨c', hc', hflight, -, res, hdel, hsucc, rfl⟩ := deleteItem_success h hs
  rw [hc] at hc'
  cases hc'
  rw [lockForState_of_active env c hactive, ← hc] at hdel
  -- the slot with its own committed value is the slot itself
  change processSoftDelete cfg env s _ _ cas _ durability false = .ok res at hdel
  rw [select_committed hwf hc hflight hsel] at hdel
  exact ⟨res, (processSoftDelete_success hactive hdel hsucc).2, hsucc, rfl⟩

/-- On an active vbucket, a delete that succeeded respects the committed
value's lock, when the delete is plain or the key has no prepare. -/
theorem deleteItem_respects_lock {cfg : VBucketConfig} {env : CallEnv} {s s' : KeySlot} {cas : Nat}
    {durability : Bool} {errc : EngineErrc} (hactive : cfg.state = .active) (hwf : s.WellFormed)
    (h : deleteItem cfg env s cas durability = .ok (errc, s')) (hs : errc = .success ∨ errc = .syncWritePending)
    (hsel : durability = false ∨ s.pending = none) {c : StoredValue} (hc : s.committed = some c) :
    (c.isLocked env.now = true → cas = c.lockedCas) ∧ (c.isLocked env.now = false → cas = 0 ∨ cas = c.cas) := by
  obtain ⟨res, hinner, hsucc, -⟩ := deleteItem_committed_success hactive hwf h hs hsel hc
  have hcas := checkCasForWrite_eq_none_iff.mp (processSoftDeleteInner_success hinner hsucc).1
  constructor
  · intro hl
    rcases hcas with ⟨-, hlocked⟩ | ⟨hl', -⟩
    · exact hlocked
    · rw [hl] at hl'
      cases hl'
  · intro hl
    rcases hcas with ⟨hl', -⟩ | ⟨-, hunlocked⟩
    · rw [hl] at hl'
      cases hl'
    · exact hunlocked

/-! ## A SyncDelete of a locked document -/

/-- An active vbucket of an ephemeral bucket, which keeps completed prepares. -/
def ephemeralActive : VBucketConfig := ⟨.ephemeral, .value, .active, false⟩

/-- A call at time 10, with memory to spare. -/
def lockEnv : CallEnv := ⟨10, 10, false, true, fun _ => false, false, ⟨77, 9, 100⟩⟩

/-- A document locked by a `getLocked` until time 20, with locked CAS 42. -/
def lockedDoc : StoredValue :=
  ⟨some [0x61], 5, 42, 20, 0, 0, 3, 4, 0, false, .committedViaMutation, false⟩

/-- The prepare of an earlier SyncWrite of the document, since aborted. -/
def abortedPrepare : StoredValue :=
  ⟨some [0x62], 6, 0, 0, 0, 0, 4, 5, 0, false, .prepareAborted, false⟩

def lockedKey : KeySlot := ⟨some lockedDoc, some abortedPrepare, 0⟩

/-- In an ephemeral bucket, a delete without CAS of a locked document is
refused, but the same delete as a SyncDelete succeeds: it checks the CAS of the
aborted prepare, which is not locked, and prepares the document's deletion
while the lock is held. -/
theorem deleteItem_syncDelete_ignores_lock :
    lockedKey.WellFormed ∧ lockedDoc.isLocked lockEnv.now = true ∧
      deleteItem ephemeralActive lockEnv lockedKey 0 false = .ok (.lockedTmpfail, lockedKey) ∧
      ∃ s', deleteItem ephemeralActive lockEnv lockedKey 0 true = .ok (.syncWritePending, s') ∧
        s'.committed = some lockedDoc ∧ s'.pending.any (fun p => p.isPending && p.isDeleted) = true := by
  refine ⟨⟨?_, ?_⟩, rfl, rfl, _, rfl, rfl, rfl⟩
  · rintro c ⟨⟩
    exact ⟨rfl, rfl⟩
  · rintro p ⟨⟩
    exact .inr rfl

end KvEngine.VBucket
