import KvEngine.VBucket.FrontEnd

/-!
# What the write paths do when they write

One lemma per write path says what a call that wrote (status `WasClean` or
`WasDirty`, for an add `Success` or `UnDel`) checked and left behind, so
that the results about locks, CAS values, revisions and the committed value
(`KvEngine.VBucket.CasLock`, `KvEngine.VBucket.SyncWriteFrame`) are case
analyses over it and never unfold a path:

- `processSetInner_success`: the checks against the committed value
  (`SetChecks`), then `setStore`;
- `processAdd_success`: no live committed value, then `addFresh` or a write
  over the value found;
- `processSoftDeleteInner_success`, `processSoftDelete_success`,
  `deleteItem_success`: the CAS check of the value the delete was given, and
  the delete target written back in its place.

Beside them, the slot lemmas (`KeySlot.get_set_self`, `KeySlot.get_link`, ...)
say where a written value is found.
-/

namespace KvEngine.VBucket

open StoredValue

/-- `WasClean` or `WasDirty`: the statuses of a write that was made. -/
def MutationStatus.isSuccess : MutationStatus → Bool
  | .wasClean | .wasDirty => true
  | _ => false

/-- `Success` or `UnDel`: the statuses of an add that was made. -/
def AddStatus.isSuccess : AddStatus → Bool
  | .success | .unDel => true
  | _ => false

/-! ## Where a written value is found -/

@[simp] theorem Item.preserveTtlOf_revSeqno (itm : Item) (sv : StoredValue) :
    (itm.preserveTtlOf sv).revSeqno = itm.revSeqno := by
  unfold Item.preserveTtlOf; split <;> rfl

@[simp] theorem Item.preserveTtlOf_isPending (itm : Item) (sv : StoredValue) :
    (itm.preserveTtlOf sv).isPending = itm.isPending := by
  unfold Item.preserveTtlOf; split <;> rfl

@[simp] theorem isPending_ofItem (itm : Item) : (ofItem itm).isPending = itm.isPending := rfl

theorem isTempItem_of_tempInit {sv : StoredValue} (h : sv.bySeqno = stateTempInit) : sv.isTempItem = true := by
  simp [isTempItem, isTempInitialItem, h]

namespace KeySlot

@[simp] theorem get_set_self (s : KeySlot) (r : SvRef) (v : StoredValue) : (s.set r v).get r = some v := by
  cases r <;> rfl

@[simp] theorem set_pending_committed (s : KeySlot) (v : StoredValue) :
    (s.set .pending v).committed = s.committed := rfl

@[simp] theorem set_committed_committed (s : KeySlot) (v : StoredValue) :
    (s.set .committed v).committed = some v := rfl

@[simp] theorem set_maxDeletedRevSeqno (s : KeySlot) (r : SvRef) (v : StoredValue) :
    (s.set r v).maxDeletedRevSeqno = s.maxDeletedRevSeqno := by
  cases r <;> rfl

theorem find_eq_some {s : KeySlot} {v : Option SvRef} {r : SvRef} {sv : StoredValue} :
    s.find v = some (r, sv) ↔ v = some r ∧ s.get r = some sv := by
  cases v with
  | none => simp [find]
  | some r' =>
    simp only [find, Option.bind_some, Option.map_eq_some_iff, Prod.mk.injEq, Option.some.injEq]
    constructor
    · rintro ⟨sv', h, rfl, rfl⟩
      exact ⟨rfl, h⟩
    · rintro ⟨rfl, h⟩
      exact ⟨sv, h, rfl, rfl⟩

/-- Whether a reference finds a value depends only on which values exist. -/
theorem find_isNone_set_committed (s : KeySlot) (v : Option SvRef) {c : StoredValue} (c' : StoredValue)
    (hc : s.committed = some c) :
    (({ s with committed := some c' } : KeySlot).find v).isNone = (s.find v).isNone := by
  rcases v with _ | _ | _ <;> simp [find, get, hc]

@[simp] theorem updateRevSeqNoOfNewStoredValue_revSeqno (s : KeySlot) (sv : StoredValue) :
    (s.updateRevSeqNoOfNewStoredValue sv).revSeqno =
      if sv.isTempItem then s.maxDeletedRevSeqno else s.maxDeletedRevSeqno + 1 := by
  unfold updateRevSeqNoOfNewStoredValue; split <;> simp_all

/-- A linked value is found where `link` says, as it was linked. -/
theorem get_link (s : KeySlot) (sv : StoredValue) :
    (s.link sv).slot.get (s.link sv).ref = some sv ∧ (s.link sv).sv = sv := by
  unfold link
  split <;> simp

/-- A prepare is linked beside the committed value, which it leaves alone. -/
theorem link_committed_of_isPending (s : KeySlot) {sv : StoredValue} (h : sv.isPending = true) :
    (s.link sv).slot.committed = s.committed := by
  simp [link, h]

/-- A new prepare leaves the committed value alone. -/
theorem addNewStoredValue_committed_of_isPending (q : Queued) (s : KeySlot) {itm : Item} (genRevSeqno : Bool)
    (hp : itm.isPending = true) : (s.addNewStoredValue q itm genRevSeqno).slot.committed = s.committed := by
  unfold addNewStoredValue
  apply link_committed_of_isPending
  cases genRevSeqno <;> simpa [updateRevSeqNoOfNewStoredValue] using hp

end KeySlot

/-! ## The CAS check -/

/-- When the CAS check lets a write through: a locked value with its locked
CAS, an unlocked one with no CAS or its own. -/
theorem checkCasForWrite_eq_none_iff {now : Nat} {v : StoredValue} {cas : Nat} {isDelete : Bool} :
    checkCasForWrite now v cas isDelete = none ↔
      (v.isLocked now = true ∧ cas = v.lockedCas) ∨ (v.isLocked now = false ∧ (cas = 0 ∨ cas = v.cas)) := by
  unfold checkCasForWrite getCasForWrite
  cases hl : v.isLocked now
  · simp only [Bool.false_eq_true, ↓reduceIte, false_and, true_and, false_or]
    split_ifs with h₀ h₁ h₂ <;> simp_all
  · simp only [↓reduceIte, true_and, Bool.true_eq_false, false_and, or_false]
    split_ifs with h₀ <;> simp_all

/-- A refused CAS check never reports a write. -/
theorem checkCasForWrite_refusal {now : Nat} {v : StoredValue} {cas : Nat} {isDelete : Bool}
    {st : MutationStatus} (h : checkCasForWrite now v cas isDelete = some st) : st.isSuccess = false := by
  unfold checkCasForWrite at h
  split_ifs at h <;> cases h <;> rfl

theorem updateStatus_isSuccess (sv : StoredValue) : (updateStatus sv).isSuccess = true := by
  unfold updateStatus; split <;> rfl

/-! ## Set -/

theorem setStore_isSuccess (q : Queued) (s : KeySlot) (v : Option SvRef) (itm : Item) (hasMetaData : Bool) :
    (setStore q s v itm hasMetaData).status.isSuccess = true := by
  unfold setStore
  split
  · dsimp only
    split
    · rfl
    · exact updateStatus_isSuccess _
  · rfl

/-- The value `setStore` wrote, and its revision: the item's, except for a
new value without metadata, which takes the next revision past every delete. -/
theorem setStore_stored (q : Queued) (s : KeySlot) (v : Option SvRef) (itm : Item) (hasMetaData : Bool) :
    ∃ ref sv, (setStore q s v itm hasMetaData).v = some ref ∧
      (setStore q s v itm hasMetaData).slot.get ref = some sv ∧
      sv.revSeqno = if (s.find v).isNone && !hasMetaData then
        (s.updateRevSeqNoOfNewStoredValue (ofItem itm)).revSeqno else itm.revSeqno := by
  unfold setStore
  split
  · rename_i r sv hfind
    dsimp only
    split
    · refine ⟨_, _, rfl, (KeySlot.get_link _ _).1, ?_⟩
      simp [hfind]
    · refine ⟨r, _, rfl, KeySlot.get_set_self _ _ _, ?_⟩
      simp [hfind]
  · rename_i hfind
    refine ⟨_, _, rfl, (KeySlot.get_link _ _).1, ?_⟩
    rw [hfind]
    cases hasMetaData <;> rfl

/-- A SyncWrite's store leaves a committed value in its committed state alone:
it adds a prepare beside it, or writes over the prepare. -/
theorem setStore_committed_of_isPending (q : Queued) (s : KeySlot) (v : Option SvRef) {itm : Item}
    (hasMetaData : Bool) (hp : itm.isPending = true)
    (hc : ∀ c, s.committed = some c → c.isPending = false ∧ c.isPrepareCompleted = false) :
    (setStore q s v itm hasMetaData).slot.committed = s.committed := by
  unfold setStore
  split
  · rename_i r sv hfind
    dsimp only
    obtain ⟨-, hget⟩ := KeySlot.find_eq_some.mp hfind
    split
    · exact KeySlot.addNewStoredValue_committed_of_isPending _ _ _ (by simpa using hp)
    · rename_i hnew
      cases r with
      | committed =>
        -- the committed value is committed, so the SyncWrite adds a prepare instead
        obtain ⟨h₁, h₂⟩ := hc sv hget
        simp [isCommitted, h₁, h₂, hp] at hnew
      | pending => rfl
  · exact KeySlot.addNewStoredValue_committed_of_isPending _ _ _ hp

/-- The checks a write passes against the committed value `c` in
`processSetInner`, in the code's order: the expiry check, `allowExisting`,
the CAS check of the value the expiry check left, and the deleted-value check
of a write without metadata. -/
structure SetChecks (env : CallEnv) (c : StoredValue) (itm : Item) (cas : Nat) (allowExisting hasMetaData : Bool) :
    Prop where
  expiry : setExpires env c itm hasMetaData = true → cas = 0
  existing : allowExisting = true ∨ (setExpiryUnlock env c itm hasMetaData).isTempItem = true ∨
    (setExpiryUnlock env c itm hasMetaData).isDeleted = true
  casCheck : checkCasForWrite env.now (setExpiryUnlock env c itm hasMetaData) cas itm.deleted = none
  deletedReplace : hasMetaData = false → cas ≠ 0 → itm.deleted = false →
    (setExpiryUnlock env c itm hasMetaData).isDeleted = false ∧
      (setExpiryUnlock env c itm hasMetaData).isTempDeletedItem = false

/-- What a `processSetInner` that wrote checked: with no committed value, no
CAS; with a committed value `c`, `SetChecks`. The write is then `setStore`
over the committed value unlocked, with the next revision for a write without
metadata. -/
theorem processSetInner_success {cfg : VBucketConfig} {env : CallEnv} {s : KeySlot} {v : Option SvRef}
    {itm : Item} {cas : Nat} {allowExisting hasMetaData storeIfGetItemInfo maybeKeyExists enforceMemCheck : Bool}
    {r : SetResult}
    (h : processSetInner cfg env s v itm cas allowExisting hasMetaData storeIfGetItemInfo maybeKeyExists
      enforceMemCheck = r)
    (hs : r.status.isSuccess = true) :
    (s.committed = none ∧ cas = 0 ∧ r = setStore env.queued s v itm hasMetaData) ∨
    (∃ c, s.committed = some c ∧ SetChecks env c itm cas allowExisting hasMetaData ∧
      r = setStore env.queued { s with committed := some (setExpiryUnlock env c itm hasMetaData).unlock } v
        (if hasMetaData then itm else { itm with revSeqno := (setExpiryUnlock env c itm hasMetaData).revSeqno + 1 })
        hasMetaData) := by
  subst h
  unfold processSetInner at hs ⊢
  -- the memory check and the two background fetches are refusals
  split at hs
  · cases hs
  rename_i hmem
  split at hs
  · cases hs
  rename_i hbg
  split at hs
  · cases hs
  rename_i hfull
  rw [if_neg hmem, if_neg hbg, if_neg hfull]
  rcases hc : s.committed with _ | c
  · -- no committed value: only a write without CAS gets through
    simp only [hc] at hs ⊢
    split at hs
    · cases hs
    · rename_i hcas
      rw [if_neg hcas]
      exact .inl ⟨trivial, by simpa using hcas, rfl⟩
  · simp only [hc] at hs ⊢
    split at hs
    · cases hs
    rename_i hexp
    split at hs
    · cases hs
    rename_i hexist
    rw [if_neg hexp, if_neg hexist]
    split at hs
    · rename_i st hst
      exact absurd hs (by rw [checkCasForWrite_refusal hst]; decide)
    rename_i hcheck
    have hexpiry : setExpires env c itm hasMetaData = true → cas = 0 := fun he => by simpa [he] using hexp
    have hexisting : allowExisting = true ∨ (setExpiryUnlock env c itm hasMetaData).isTempItem = true ∨
        (setExpiryUnlock env c itm hasMetaData).isDeleted = true := by
      revert hexist
      cases allowExisting <;> cases (setExpiryUnlock env c itm hasMetaData).isTempItem <;>
        cases (setExpiryUnlock env c itm hasMetaData).isDeleted <;> simp
    by_cases hm : hasMetaData = true
    · rw [if_pos hm]
      refine .inr ⟨c, rfl, ⟨hexpiry, hexisting, hcheck, fun h => absurd (hm.symm.trans h) (by decide)⟩, ?_⟩
      rw [if_pos hm]
    · -- a write without metadata: the deleted-value check, then the next revision
      rw [if_neg hm] at hs ⊢
      split at hs
      · cases hs
      rename_i hdel
      rw [if_neg hdel]
      refine .inr ⟨c, rfl, ⟨hexpiry, hexisting, hcheck, fun _ hcas hitm => ?_⟩, by rw [if_neg hm]⟩
      revert hdel
      cases (setExpiryUnlock env c itm hasMetaData).isDeleted <;>
        cases (setExpiryUnlock env c itm hasMetaData).isTempDeletedItem <;> simp [hcas, hitm]

/-! ## Add -/

/-- An `addFresh` that added put a new, non-temporary value into the bucket,
queued and one past every delete. -/
theorem addFresh_success {cfg : VBucketConfig} {env : CallEnv} {s : KeySlot} {v : Option SvRef} {itm : Item}
    {maybeKeyExists replacing : Bool} {r : AddResult}
    (h : addFresh cfg env s v itm maybeKeyExists replacing = r) (hs : r.status.isSuccess = true) :
    itm.bySeqno ≠ stateTempInit ∧ r.slot = (s.addNewStoredValue env.queued itm true).slot ∧
      r.v = some (s.addNewStoredValue env.queued itm true).ref ∧
      (s.addNewStoredValue env.queued itm true).sv.isTempItem = false := by
  subst h
  unfold addFresh at hs ⊢
  split at hs
  · cases hs
  rename_i hguard
  rw [if_neg hguard]
  by_cases ht : itm.bySeqno = stateTempInit
  · -- a temporary initial value is only a placeholder for a background fetch
    have htemp : (s.updateRevSeqNoOfNewStoredValue (ofItem itm)).isTempItem = true :=
      isTempItem_of_tempInit (by simp [KeySlot.updateRevSeqNoOfNewStoredValue, setRevSeqno, ofItem, ht])
    simp [ht, (KeySlot.get_link _ _).2, htemp, AddStatus.isSuccess] at hs
  · simp only [beq_iff_eq, ht, ↓reduceIte] at hs ⊢
    refine ⟨ht, trivial, trivial, ?_⟩
    revert hs
    cases (KeySlot.addNewStoredValue env.queued s itm true).sv.isTempItem <;> simp [AddStatus.isSuccess]

/-- What a `processAdd` that added checked and did: there was no live
committed value, and the add either wrote a fresh value (with nothing to
overwrite, or as a prepare beside the committed value), or wrote over the
value found with the add's revision. -/
theorem processAdd_success {cfg : VBucketConfig} {env : CallEnv} {s : KeySlot} {v : Option SvRef} {itm : Item}
    {maybeKeyExists : Bool} {r : AddResult}
    (h : processAdd cfg env s v itm maybeKeyExists = r) (hs : r.status.isSuccess = true) :
    s.committed.any (fun c => !c.isDeleted && !c.isExpired env.realNow && !c.isTempItem &&
      !env.isLogicallyDeleted c.bySeqno) = false ∧
    ((∃ replacing, (s.find v = none ∨ ∃ sv, s.find v = some (.committed, sv) ∧ itm.isPending = true) ∧
        r = addFresh cfg env s v itm maybeKeyExists replacing) ∨
      ∃ ref sv, s.find v = some (ref, sv) ∧ ¬(ref = .committed ∧ itm.isPending = true) ∧
        r = ⟨if sv.isDeleted || sv.isExpired env.realNow then .unDel else .success,
          (s.updateStoredValue env.queued ref sv { itm with revSeqno := s.addRevSeqno }).slot, some ref,
          { itm with revSeqno := s.addRevSeqno }⟩) := by
  subst h
  unfold processAdd at hs ⊢
  split at hs
  · cases hs
  rename_i hlive
  refine ⟨by simpa using hlive, ?_⟩
  -- the refusals of an add of a deleted item, and the memory check
  split at hs
  · cases hs
  rename_i h₁
  split at hs
  · cases hs
  rename_i h₂
  split at hs
  · cases hs
  rename_i h₃
  split at hs
  · cases hs
  rename_i h₄
  rw [if_neg hlive, if_neg h₁, if_neg h₂, if_neg h₃, if_neg h₄]
  split at hs
  · rename_i ref sv hfind
    rw [hfind]
    split at hs
    · rename_i hrep
      simp only [Bool.and_eq_true, beq_iff_eq] at hrep
      obtain ⟨rfl, hp⟩ := hrep
      simp only [beq_self_eq_true, hp, Bool.and_self, ↓reduceIte]
      exact .inl ⟨true, .inr ⟨sv, rfl, trivial⟩, rfl⟩
    rename_i hrep
    split at hs
    · cases hs
    rename_i hbg
    rw [if_neg hrep, if_neg hbg]
    refine .inr ⟨ref, sv, rfl, fun ⟨hr, hp⟩ => hrep (by simp [hr, hp]), rfl⟩
  · rw [‹s.find v = none›]
    exact .inl ⟨false, .inl rfl, rfl⟩

/-! ## Delete -/

/-- What a `processSoftDeleteInner` that deleted checked and did: the CAS
check of the value it was given; and for a SyncDelete of a value that is not a
completed prepare, the delete target written back in its place and a pending
copy of it linked beside. -/
theorem processSoftDeleteInner_success {cfg : VBucketConfig} {env : CallEnv} {s : KeySlot} {r : SvRef}
    {v : StoredValue} {cas : Nat} {metadata : ItemMetaData} {durability useMeta : Bool} {res : DeleteResult}
    (h : processSoftDeleteInner cfg env s r v cas metadata durability useMeta = .ok res)
    (hs : res.status.isSuccess = true) :
    checkCasForWrite env.now v cas true = none ∧
      (durability = true → (deleteTarget v metadata useMeta).isPrepareCompleted = false →
        res.slot = ((s.set r (deleteTarget v metadata useMeta)).addNewStoredValue env.queued
          ((deleteTarget v metadata useMeta).createSyncDeletePrepare.toItem true) false).slot) := by
  unfold processSoftDeleteInner at h
  split at h
  · cases h
    cases hs
  split at h
  · rename_i st hst
    cases h
    exact absurd hs (by rw [checkCasForWrite_refusal hst]; decide)
  rename_i hcheck
  refine ⟨hcheck, fun hd hc => ?_⟩
  simp only [hd, hc, Bool.false_eq_true, ↓reduceIte, Except.ok.injEq] at h
  rw [← h]

/-- On an active vbucket a delete that deleted was not given an in-flight
prepare, and is `processSoftDeleteInner`'s. -/
theorem processSoftDelete_success {cfg : VBucketConfig} {env : CallEnv} {s : KeySlot} {r : SvRef}
    {v : StoredValue} {cas : Nat} {metadata : ItemMetaData} {durability useMeta : Bool} {res : DeleteResult}
    (hactive : cfg.state = .active)
    (h : processSoftDelete cfg env s r v cas metadata durability useMeta = .ok res)
    (hs : res.status.isSuccess = true) :
    v.isPending = false ∧ processSoftDeleteInner cfg env s r v cas metadata durability useMeta = .ok res := by
  unfold processSoftDelete at h
  split at h
  · simp only [hactive, beq_self_eq_true, Bool.true_or, ↓reduceIte, Except.ok.injEq] at h
    cases h
    cases hs
  · exact ⟨by simpa using ‹¬v.isPending = true›, h⟩

/-- The statuses `deleteItem` turns into a success are the writes. -/
theorem deleteStatusErrc_success {durability : Bool} {st : MutationStatus} {errc : EngineErrc}
    (h : deleteStatusErrc durability st = .ok errc) (hs : errc = .success ∨ errc = .syncWritePending) :
    st.isSuccess = true := by
  cases st <;> simp only [deleteStatusErrc, Except.ok.injEq, reduceCtorEq] at h <;> subst h <;>
    simp at hs <;> rfl

@[simp] theorem lockForState_revSeqno (cfg : VBucketConfig) (env : CallEnv) (c : StoredValue) :
    (lockForState cfg env c).revSeqno = c.revSeqno := by
  unfold lockForState; split <;> simp

/-- An expired value's delete by TTL is never reported as a write. -/
theorem processExpiredItem_not_success {cfg : VBucketConfig} {env : CallEnv} {s : KeySlot} {c : StoredValue}
    {res : DeleteResult} (h : processExpiredItem cfg env s c = .ok res) : res.status.isSuccess = false := by
  unfold processExpiredItem at h
  split at h
  · cases h; rfl
  split at h
  · cases h; rfl
  split at h
  · cases h; rfl
  dsimp only at h
  split at h
  · cases h
  · cases h; rfl

/-- What a `deleteItem` that succeeded checked and did: no in-flight prepare,
a committed value that exists and is not expired, and a `processSoftDelete`
that deleted the value `selectSVToModify` picked, with the revision after the
committed one. -/
theorem deleteItem_success {cfg : VBucketConfig} {env : CallEnv} {s s' : KeySlot} {cas : Nat} {durability : Bool}
    {errc : EngineErrc} (h : deleteItem cfg env s cas durability = .ok (errc, s'))
    (hs : errc = .success ∨ errc = .syncWritePending) :
    ∃ c, s.committed = some c ∧ s.pending.any (·.isPending) = false ∧
      (lockForState cfg env c).isExpired env.realNow = false ∧
      ∃ res, processSoftDelete cfg env { s with committed := some (lockForState cfg env c) }
          ((({ s with committed := some (lockForState cfg env c) } : KeySlot).find
            (({ s with committed := some (lockForState cfg env c) } : KeySlot).selectSVToModify durability)).getD
              (.committed, lockForState cfg env c)).1
          ((({ s with committed := some (lockForState cfg env c) } : KeySlot).find
            (({ s with committed := some (lockForState cfg env c) } : KeySlot).selectSVToModify durability)).getD
              (.committed, lockForState cfg env c)).2
          cas ⟨0, c.revSeqno + 1, 0, 0⟩ durability false = .ok res ∧
        res.status.isSuccess = true ∧ s' = res.slot := by
  unfold deleteItem at h
  split at h
  · cases h
    exact absurd hs (by decide)
  rename_i hflight
  split at h
  · split at h <;> (try split at h) <;> cases h <;> (try split at hs) <;> exact absurd hs (by decide)
  rename_i c hc
  split at h
  · split at h <;> (try split at h) <;> (try split at h) <;> cases h <;> exact absurd hs (by decide)
  dsimp only at h
  split at h
  · cases h
  rename_i res hres
  split at h
  · cases h
  rename_i errc' hst
  obtain ⟨rfl, rfl⟩ : errc' = errc ∧ res.slot = s' := by simpa using h
  have hsucc := deleteStatusErrc_success hst hs
  split at hres
  · exact absurd (processExpiredItem_not_success hres) (by simp [hsucc])
  rename_i hexp
  refine ⟨c, hc, by simpa using hflight, by simpa using hexp, res, ?_, hsucc, rfl⟩
  rwa [lockForState_revSeqno] at hres

end KvEngine.VBucket
