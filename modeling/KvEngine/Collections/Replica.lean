import KvEngine.Collections.UpdateEvents

/-!
# A replica replaying the events of an update

A replica learns of collection changes only through the system events DCP
brings it. It decodes each (`getCollectionEventData` and the others) and
applies it with the `replica*` functions, which call the same change functions
as the active with the event's seqno. Replaying the events of a successful
update that changed anything leaves the replica with the active's manifest,
seqnos and events, from any vbucket with the active's old manifest.

- `getCollectionEventData_collectionData`, `setMaxTtl_getMaxTtl`: an event
  decodes to what the active encoded, and the maximum TTL reads back as it is
  stored.
- `ActiveStep.replay`: one change of the active and the replica's replay of
  its event give the same manifest and queue the same event.
- `update_replica_agrees`: the result for a whole update.
- `update_uid_only_not_replicated`: an update that changes nothing but the
  uid queues no event, so a replica keeps the old uid.
-/

namespace KvEngine.Collections

/-- A Begin or Modify event decodes to the entry it was made from. -/
theorem getCollectionEventData_collectionData (u : Nat) (cid : CollectionID) (name : String) (e : ManifestEntry) :
    getCollectionEventData (collectionData u cid name e) =
      ⟨u, e.sid, cid, name, e.getMaxTtl.map (· % 2 ^ 32), e.canDeduplicate, e.metered, e.flushUid⟩ := by
  cases h : e.getMaxTtl <;> simp [getCollectionEventData, collectionData, h]

/-- A maximum TTL that `setMaxTtl` stored reads back, through the event, as
the same stored value. -/
theorem setMaxTtl_getMaxTtl {maxTtl : Option Nat} {e : ManifestEntry} (h : setMaxTtl maxTtl = .ok e.maxTtl) :
    setMaxTtl (e.getMaxTtl.map (· % 2 ^ 32)) = .ok e.maxTtl := by
  unfold ManifestEntry.getMaxTtl
  cases maxTtl with
  | none =>
    simp only [setMaxTtl, Except.ok.injEq] at h
    simp [← h, setMaxTtl]
  | some v =>
    simp only [setMaxTtl] at h
    split_ifs at h with hv
    cases h
    split_ifs with hn
    · simp [hn, setMaxTtl]
    · -- below 2 ^ 32 the narrowing keeps the stored value
      show setMaxTtl (some (e.maxTtl % 2 ^ 32)) = .ok e.maxTtl
      rw [Nat.mod_eq_of_lt hv, setMaxTtl, if_pos hv]

/-- A replica takes the uid of the event as it is. -/
@[simp] theorem updatedUid_true (cur uid : Nat) : updatedUid true cur uid = uid := rfl

/-- One change of the active and the replica's replay of its event: from the
active's manifest, the replica reaches the active's new manifest and queues
the same event at the same seqno. -/
theorem ActiveStep.replay {u : Nat} {s s' : VBucket} {c : Change} (h : ActiveStep u s c s') :
    ∃ e, s' = s.push s'.manifest (s.highSeqno + 1) e ∧ ∀ r : VBucket, r.manifest = s.manifest →
      replayEvent ⟨s.highSeqno + 1, e⟩ r = .ok () (r.push s'.manifest (s.highSeqno + 1) e) := by
  cases h with
  | drop hl =>
    refine ⟨_, rfl, fun r hr => ?_⟩
    rw [← hr] at hl ⊢
    simp only [replayEvent, replicaDrop]
    rw [dropCollection_of_lookup _ _ hl]
    simp [VBucket.push, hr]
  | createScope hl =>
    refine ⟨_, rfl, fun r hr => ?_⟩
    rw [← hr] at hl ⊢
    simp only [replayEvent, replicaCreateScope]
    rw [createScope_of_lookup_none _ _ hl]
    simp [VBucket.push, hr]
  | dropScope hl =>
    refine ⟨_, rfl, fun r hr => ?_⟩
    rw [← hr] at hl ⊢
    simp only [replayEvent, replicaDropScope]
    rw [dropScope_of_lookup _ _ hl]
    simp [VBucket.push, hr]
  | flush hl hs =>
    refine ⟨_, rfl, fun r hr => ?_⟩
    rw [← hr] at hl ⊢
    simp only [replayEvent, replicaCreate, getCollectionEventData_collectionData]
    rw [beginCollection_flush _ (some (s.highSeqno + 1)) hl hs]
    simp [VBucket.push, hr]
  | create hl hsid ht =>
    rename_i c ttl
    refine ⟨_, rfl, fun r hr => ?_⟩
    rw [← hr] at hl hsid ⊢
    simp only [replayEvent, replicaCreate, getCollectionEventData_collectionData]
    have ht' := setMaxTtl_getMaxTtl
      (show setMaxTtl c.maxTtl = .ok (⟨c.name, c.sid, 0, c.canDeduplicate, ttl, c.metered, 0⟩ : ManifestEntry).maxTtl
        from ht)
    rw [beginCollection_create _ (some (s.highSeqno + 1)) hl hsid ht' (Nat.succ_pos _)]
    simp [VBucket.push, hr]
  | modify hl ht =>
    rename_i c entry ttl
    refine ⟨_, rfl, fun r hr => ?_⟩
    rw [← hr] at hl ⊢
    simp only [replayEvent, replicaModifyCollection, getCollectionEventData_collectionData]
    have ht' := setMaxTtl_getMaxTtl
      (show setMaxTtl c.maxTtl =
        .ok ({ entry with canDeduplicate := c.canDeduplicate, maxTtl := ttl, metered := c.metered }).maxTtl from ht)
    rw [modifyCollection_of_lookup _ _ hl ht']
    simp [VBucket.push, hr]

/-- The run lemma: a replica with the active's manifest at the start of a run
of changes replays its events to the active's manifest at the end, queueing the
same events. -/
theorem runChanges_replay {n : Nat} : ∀ (cs : List Change) (s s' : VBucket), runChanges (pure n) cs s = .ok () s' →
    ∃ evs, s'.queue = s.queue ++ evs ∧ ∀ r : VBucket, r.manifest = s.manifest →
      ∃ r', replayEvents evs r = .ok () r' ∧ r'.manifest = s'.manifest ∧ r'.queue = r.queue ++ evs
  | [], s, s', h => by
    cases h
    exact ⟨[], by simp, fun r hr => ⟨r, rfl, hr, by simp⟩⟩
  | c :: cs, s, s'', h => by
    obtain ⟨s', hrun, hrest⟩ := runChanges_cons_eq_ok h
    obtain ⟨e, hpush, hrep⟩ := (Change.run_eq_ok hrun).replay
    obtain ⟨evs, hq, hr⟩ := runChanges_replay cs s' s'' hrest
    refine ⟨⟨s.highSeqno + 1, e⟩ :: evs, ?_, fun r hr0 => ?_⟩
    · rw [hq, hpush]
      simp [VBucket.push]
    · -- the replica's first replay leaves it with the manifest the active's first change left
      obtain ⟨r', h1, h2, h3⟩ := hr (r.push s'.manifest (s.highSeqno + 1) e) rfl
      refine ⟨r', ?_, h2, ?_⟩
      · simp only [replayEvents]
        rw [EStateM.bind_of_ok (hrep r hr0)]
        exact h1
      · rw [h3]
        simp [VBucket.push]

/-- The events of a successful update that changed anything, replayed on a
replica whose manifest is the active's old one, leave the replica with the
active's new manifest (scopes, collections with their start seqnos and flush
uids, and uid) and the same events queued. -/
theorem update_replica_agrees {M : Manifest} {S S' : VBucket} (h : update M S = .ok .success S')
    (hchg : (processManifest S.manifest M).none = false) (R : VBucket) (hR : R.manifest = S.manifest) :
    ∃ evs R', S'.queue = S.queue ++ evs ∧ replayEvents evs R = .ok () R' ∧ R'.manifest = S'.manifest ∧
      R'.queue = R.queue ++ evs := by
  obtain ⟨-, -, hrun⟩ := update_eq_ok_success h
  rw [completeUpdate_eq_runChanges _ hchg] at hrun
  obtain ⟨evs, hq, hr⟩ := runChanges_replay _ S S' hrun
  obtain ⟨R', h1, h2, h3⟩ := hr R hR
  exact ⟨evs, R', hq, h1, h2, h3⟩

theorem update_replica_agrees_new_scope :
    ∃ S', update manifestWithNewScope ⟨VBManifest.initial, 0, []⟩ = .ok .success S' ∧
      ∃ evs R', replayEvents evs ⟨VBManifest.initial, 5, []⟩ = .ok () R' ∧ R'.manifest = S'.manifest := by
  obtain ⟨S', h⟩ : ∃ S', update manifestWithNewScope ⟨VBManifest.initial, 0, []⟩ = .ok .success S' := ⟨_, rfl⟩
  obtain ⟨evs, R', -, h1, h2, -⟩ := update_replica_agrees h rfl ⟨VBManifest.initial, 5, []⟩ rfl
  exact ⟨S', h, evs, R', h1, h2⟩

/-- The initial vbucket's manifest one uid on, with nothing else changed. -/
def manifestUidOnly : Manifest := ⟨1, [(0, ⟨"_default", [⟨0, 0, "_default", none, .yes, .no, 0⟩]⟩)]⟩

/-- An update that changes only the uid queues no event: a replica replaying
what it queued keeps uid `0` where the active has `1`. -/
theorem update_uid_only_not_replicated :
    manifestUidOnly.Valid ∧
      ∃ S', update manifestUidOnly ⟨VBManifest.initial, 0, []⟩ = .ok .success S' ∧ S'.queue = [] ∧
        replayEvents [] ⟨VBManifest.initial, 0, []⟩ = .ok () ⟨VBManifest.initial, 0, []⟩ ∧
        VBManifest.initial.manifestUid = 0 ∧ S'.manifest.manifestUid = 1 :=
  ⟨⟨by decide, by decide, by decide, by decide, by decide⟩, _, rfl, rfl, rfl, rfl, rfl⟩

end KvEngine.Collections
