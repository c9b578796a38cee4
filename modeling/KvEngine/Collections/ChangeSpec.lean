import KvEngine.Collections.Changes

/-!
# What each change does to the vbucket

The change functions of the vbucket manifest, each stated as its result from
a given vbucket: the checks that make it throw, the manifest it leaves and the
event it queues. The successful runs are stated for any `optionalSeqno`, so
they serve the active (`none`) and a replica (the event's seqno) alike.

- `updatedUid`: the uid `updateUid` leaves.
- `VBucket.push`: the vbucket with a new manifest and one more event.
- `dropCollection_of_lookup`, `modifyCollection_of_lookup`,
  `createScope_of_lookup_none`, `dropScope_of_lookup`, `beginCollection_flush`,
  `beginCollection_create`: the successful runs.
- `ActiveStep` and `Change.run_eq_ok`: the successful runs of a change on the
  active, one constructor for each way it can succeed.
-/

namespace KvEngine.Collections

/-- The uid `updateUid uid reset` leaves over `cur`. -/
def updatedUid (reset : Bool) (cur uid : Nat) : Nat :=
  if reset then uid else Monotonic.storeOrKeep .greaterEqual cur uid

/-- Storing the uid the manifest has leaves it. -/
@[simp] theorem updatedUid_self (reset : Bool) (uid : Nat) : updatedUid reset uid uid = uid := by
  cases reset <;> simp [updatedUid, Monotonic.storeOrKeep]

/-- The vbucket with manifest `m` and `event` queued at `seqno`. -/
def VBucket.push (vb : VBucket) (m : VBManifest) (seqno : Nat) (event : SystemEvent) : VBucket :=
  ⟨m, seqno, vb.queue ++ [⟨seqno, event⟩]⟩

/-! ### The primitives -/

section Primitives

variable {β : Type} (s : VBucket)

@[simp] theorem modifyManifest_bind (g : VBManifest → VBManifest) (f : PUnit → VBM β) :
    (modifyManifest g >>= f) s = f () { s with manifest := g s.manifest } := rfl

@[simp] theorem modifyManifest_apply (g : VBManifest → VBManifest) :
    modifyManifest g s = .ok () { s with manifest := g s.manifest } := rfl

@[simp] theorem updateUid_bind (uid : Nat) (reset : Bool) (f : PUnit → VBM β) :
    (updateUid uid reset >>= f) s =
      f () { s with manifest := { s.manifest with manifestUid := updatedUid reset s.manifest.manifestUid uid } } := by
  cases reset <;> rfl

@[simp] theorem addSystemEventItem_bind (e : SystemEvent) (o : Option Nat) (f : Nat → VBM β) :
    (addSystemEventItem e o >>= f) s =
      f (o.getD (s.highSeqno + 1))
        { s with highSeqno := o.getD (s.highSeqno + 1), queue := s.queue ++ [⟨o.getD (s.highSeqno + 1), e⟩] } :=
  rfl

@[simp] theorem currentUid_bind (f : Nat → VBM β) : (currentUid >>= f) s = f s.manifest.manifestUid s := rfl

@[simp] theorem addSystemEventItem_apply (e : SystemEvent) (o : Option Nat) :
    addSystemEventItem e o s = .ok (o.getD (s.highSeqno + 1))
      { s with highSeqno := o.getD (s.highSeqno + 1), queue := s.queue ++ [⟨o.getD (s.highSeqno + 1), e⟩] } :=
  rfl

end Primitives

namespace VBManifest

variable (m : VBManifest) (cid : CollectionID)

@[simp] theorem setEntry_manifestUid (e : ManifestEntry) : (m.setEntry cid e).manifestUid = m.manifestUid := rfl

@[simp] theorem setEntry_scopes (e : ManifestEntry) : (m.setEntry cid e).scopes = m.scopes := rfl

@[simp] theorem eraseEntry_manifestUid : (m.eraseEntry cid).manifestUid = m.manifestUid := rfl

@[simp] theorem eraseScope_manifestUid (sid : ScopeID) : (m.eraseScope sid).manifestUid = m.manifestUid := rfl

@[simp] theorem eraseScope_map (sid : ScopeID) : (m.eraseScope sid).map = m.map := rfl

/-- Setting an entry twice keeps the second. -/
@[simp] theorem setEntry_setEntry (e e' : ManifestEntry) : (m.setEntry cid e).setEntry cid e' = m.setEntry cid e' := by
  simp only [setEntry, List.map_map, mk.injEq, true_and]
  congr 1
  funext p
  by_cases h : p.1 = cid <;> simp [h]

/-- Setting an entry twice keeps the second, also when the uid changed in
between. -/
@[simp] theorem mk_setEntry_setEntry (u : Nat) (e e' : ManifestEntry) :
    (⟨u, m.scopes, (m.setEntry cid e).map⟩ : VBManifest).setEntry cid e' =
      (⟨u, m.scopes, m.map⟩ : VBManifest).setEntry cid e' := by
  simp only [setEntry, List.map_map, mk.injEq, true_and]
  congr 1
  funext p
  by_cases h : p.1 = cid <;> simp [h]

/-- Setting the entry of a collection the map does not have changes nothing. -/
theorem setEntry_of_lookup_none {m : VBManifest} {cid : CollectionID} (h : m.map.lookup cid = none)
    (e : ManifestEntry) : m.setEntry cid e = m := by
  have hk : ∀ p ∈ m.map, p.1 ≠ cid := fun p hp he => by
    simpa [he] using List.lookup_eq_none_iff.mp h p hp
  have hmap : m.map.map (fun p => if p.1 = cid then (cid, e) else p) = m.map := by
    rw [List.map_congr_left fun p hp => if_neg (hk p hp), List.map_id']
  simp only [setEntry, hmap]

/-- Setting the entry of a collection just appended, to a map that did not
have it, replaces the appended entry. -/
theorem mk_append_setEntry {mp : List (CollectionID × ManifestEntry)} {cid : CollectionID}
    (h : mp.lookup cid = none) (u : Nat) (sc : List (ScopeID × String)) (e e' : ManifestEntry) :
    (⟨u, sc, mp ++ [(cid, e)]⟩ : VBManifest).setEntry cid e' = ⟨u, sc, mp ++ [(cid, e')]⟩ := by
  have hm := congrArg VBManifest.map (setEntry_of_lookup_none (show (⟨u, sc, mp⟩ : VBManifest).map.lookup cid = none from h) e')
  simp only [setEntry] at hm
  simp [setEntry, hm]

end VBManifest

/-! ### The successful runs -/

section Runs

variable {s : VBucket} (u : Nat) (o : Option Nat)

theorem dropCollection_of_lookup {cid : CollectionID} {entry : ManifestEntry}
    (h : s.manifest.map.lookup cid = some entry) (system : Option Bool) :
    dropCollection u cid system o s =
      .ok () (s.push ({ s.manifest with manifestUid := updatedUid o.isSome s.manifest.manifestUid u }.eraseEntry cid)
        (o.getD (s.highSeqno + 1))
        (.endCollection ⟨updatedUid o.isSome s.manifest.manifestUid u, entry.sid, cid,
          isSystemCollection entry.name cid⟩)) := by
  simp [-bind_pure_comp, dropCollection, h, queueCollectionSystemEvent, makeCollectionSystemEvent, VBucket.push]

theorem modifyCollection_of_lookup {cid : CollectionID} {entry : ManifestEntry}
    (h : s.manifest.map.lookup cid = some entry) {maxTtl : Option Nat} {ttl : Nat}
    (ht : setMaxTtl maxTtl = .ok ttl) (metered : Metered) (canDeduplicate : CanDeduplicate) :
    modifyCollection u cid maxTtl metered canDeduplicate o s =
      .ok () (s.push ({ s.manifest with manifestUid := updatedUid o.isSome s.manifest.manifestUid u }.setEntry cid
          { entry with canDeduplicate := canDeduplicate, maxTtl := ttl, metered := metered })
        (o.getD (s.highSeqno + 1))
        (.modifyCollection (collectionData (updatedUid o.isSome s.manifest.manifestUid u) cid entry.name
          { entry with canDeduplicate := canDeduplicate, maxTtl := ttl, metered := metered }))) := by
  simp [-bind_pure_comp, modifyCollection, h, ht, queueCollectionSystemEvent, makeCollectionSystemEvent, VBucket.push]

theorem createScope_of_lookup_none {sid : ScopeID} (h : s.manifest.scopes.lookup sid = none) (name : String) :
    createScope u sid name o s =
      .ok () (s.push
        { s.manifest with
          manifestUid := updatedUid o.isSome s.manifest.manifestUid u
          scopes := s.manifest.scopes ++ [(sid, name)] }
        (o.getD (s.highSeqno + 1)) (.createScope ⟨updatedUid o.isSome s.manifest.manifestUid u, sid, name⟩)) := by
  simp [-bind_pure_comp, createScope, addNewScopeEntry, h, VBucket.push]

theorem dropScope_of_lookup {sid : ScopeID} {name : String} (h : s.manifest.scopes.lookup sid = some name)
    (system : Option Bool) :
    dropScope u sid system o s =
      .ok () (s.push { s.manifest.eraseScope sid with manifestUid := updatedUid o.isSome s.manifest.manifestUid u }
        (o.getD (s.highSeqno + 1))
        (.dropScope ⟨updatedUid o.isSome s.manifest.manifestUid u, sid, isSystemScope name sid⟩)) := by
  simp [-bind_pure_comp, dropScope, h, VBucket.push]

/-- `beginCollection` of a collection the manifest has: a flush. -/
theorem beginCollection_flush {cid : CollectionID} {entry : ManifestEntry}
    (h : s.manifest.map.lookup cid = some entry) (hs : entry.startSeqno < o.getD (s.highSeqno + 1))
    (sid : ScopeID) (name : String) (maxTtl : Option Nat) (metered : Metered) (canDeduplicate : CanDeduplicate)
    (flushUid : Nat) :
    beginCollection u sid cid name maxTtl metered canDeduplicate flushUid o s =
      .ok () (s.push ({ s.manifest with manifestUid := updatedUid o.isSome s.manifest.manifestUid u }.setEntry cid
          { entry with flushUid := flushUid, startSeqno := o.getD (s.highSeqno + 1) })
        (o.getD (s.highSeqno + 1))
        (.beginCollection (collectionData (updatedUid o.isSome s.manifest.manifestUid u) cid name
          { entry with flushUid := flushUid }))) := by
  have hs' : ¬ o.getD (s.highSeqno + 1) ≤ entry.startSeqno := Nat.not_le.mpr hs
  simp [beginCollection, h, hs', ManifestEntry.setStartSeqno, queueCollectionSystemEvent, makeCollectionSystemEvent,
    VBucket.push]

/-- `beginCollection` of a collection the manifest does not have: a create,
whose entry has flush uid `0`. -/
theorem beginCollection_create {cid : CollectionID} (h : s.manifest.map.lookup cid = none) {sid : ScopeID}
    (hsid : (s.manifest.scopes.lookup sid).isSome) {maxTtl : Option Nat} {ttl : Nat}
    (ht : setMaxTtl maxTtl = .ok ttl) (hs : 0 < o.getD (s.highSeqno + 1)) (name : String) (metered : Metered)
    (canDeduplicate : CanDeduplicate) (flushUid : Nat) :
    beginCollection u sid cid name maxTtl metered canDeduplicate flushUid o s =
      .ok () (s.push
        { s.manifest with
          manifestUid := updatedUid o.isSome s.manifest.manifestUid u
          map := s.manifest.map ++ [(cid, ⟨name, sid, o.getD (s.highSeqno + 1), canDeduplicate, ttl, metered, 0⟩)] }
        (o.getD (s.highSeqno + 1))
        (.beginCollection (collectionData (updatedUid o.isSome s.manifest.manifestUid u) cid name
          ⟨name, sid, 0, canDeduplicate, ttl, metered, 0⟩))) := by
  have hs' : o.getD (s.highSeqno + 1) ≠ 0 := Nat.pos_iff_ne_zero.mp hs
  have hsid' : (s.manifest.scopes.lookup sid).isNone = false := by simpa using hsid
  simp [beginCollection, addNewCollectionEntry, h, hsid', ht, hs', ManifestEntry.setStartSeqno,
    queueCollectionSystemEvent, makeCollectionSystemEvent, VBucket.push, VBManifest.mk_append_setEntry h]

end Runs

/-! ### The changes of the active -/

/-- The ways a change of `completeUpdate` succeeds under `uid`, and the
vbucket each leaves. -/
inductive ActiveStep (u : Nat) (s : VBucket) : Change → VBucket → Prop
  | drop {cid : CollectionID} {entry : ManifestEntry} (h : s.manifest.map.lookup cid = some entry) :
    ActiveStep u s (.drop cid)
      (s.push ({ s.manifest with manifestUid := updatedUid false s.manifest.manifestUid u }.eraseEntry cid)
        (s.highSeqno + 1)
        (.endCollection ⟨updatedUid false s.manifest.manifestUid u, entry.sid, cid,
          isSystemCollection entry.name cid⟩))
  | createScope {c : ScopeCreation} (h : s.manifest.scopes.lookup c.sid = none) :
    ActiveStep u s (.createScope c)
      (s.push
        { s.manifest with
          manifestUid := updatedUid false s.manifest.manifestUid u
          scopes := s.manifest.scopes ++ [(c.sid, c.name)] }
        (s.highSeqno + 1) (.createScope ⟨updatedUid false s.manifest.manifestUid u, c.sid, c.name⟩))
  | flush {c : BeginCollection} {entry : ManifestEntry} (h : s.manifest.map.lookup c.cid = some entry)
      (hs : entry.startSeqno < s.highSeqno + 1) :
    ActiveStep u s (.begin c)
      (s.push ({ s.manifest with manifestUid := updatedUid false s.manifest.manifestUid u }.setEntry c.cid
          { entry with flushUid := c.flushUid, startSeqno := s.highSeqno + 1 })
        (s.highSeqno + 1)
        (.beginCollection (collectionData (updatedUid false s.manifest.manifestUid u) c.cid c.name
          { entry with flushUid := c.flushUid })))
  | create {c : BeginCollection} {ttl : Nat} (h : s.manifest.map.lookup c.cid = none)
      (hsid : (s.manifest.scopes.lookup c.sid).isSome) (ht : setMaxTtl c.maxTtl = .ok ttl) :
    ActiveStep u s (.begin c)
      (s.push
        { s.manifest with
          manifestUid := updatedUid false s.manifest.manifestUid u
          map := s.manifest.map ++ [(c.cid, ⟨c.name, c.sid, s.highSeqno + 1, c.canDeduplicate, ttl, c.metered, 0⟩)] }
        (s.highSeqno + 1)
        (.beginCollection (collectionData (updatedUid false s.manifest.manifestUid u) c.cid c.name
          ⟨c.name, c.sid, 0, c.canDeduplicate, ttl, c.metered, 0⟩)))
  | modify {c : CollectionModification} {entry : ManifestEntry} {ttl : Nat}
      (h : s.manifest.map.lookup c.cid = some entry) (ht : setMaxTtl c.maxTtl = .ok ttl) :
    ActiveStep u s (.modify c)
      (s.push ({ s.manifest with manifestUid := updatedUid false s.manifest.manifestUid u }.setEntry c.cid
          { entry with canDeduplicate := c.canDeduplicate, maxTtl := ttl, metered := c.metered })
        (s.highSeqno + 1)
        (.modifyCollection (collectionData (updatedUid false s.manifest.manifestUid u) c.cid entry.name
          { entry with canDeduplicate := c.canDeduplicate, maxTtl := ttl, metered := c.metered })))
  | dropScope {sid : ScopeID} {name : String} (h : s.manifest.scopes.lookup sid = some name) :
    ActiveStep u s (.dropScope sid)
      (s.push { s.manifest.eraseScope sid with manifestUid := updatedUid false s.manifest.manifestUid u }
        (s.highSeqno + 1)
        (.dropScope ⟨updatedUid false s.manifest.manifestUid u, sid, isSystemScope name sid⟩))

/-- A change that succeeded on the active made one of the `ActiveStep`s. -/
theorem Change.run_eq_ok {u : Nat} {s s' : VBucket} {c : Change} (h : c.run u s = .ok () s') :
    ActiveStep u s c s' := by
  cases c with
  | drop cid =>
    cases hl : s.manifest.map.lookup cid with
    | none => simp [Change.run, dropCollection, hl] at h
    | some entry =>
      rw [Change.run, dropCollection_of_lookup u none hl] at h
      cases h
      exact .drop hl
  | createScope c =>
    cases hl : s.manifest.scopes.lookup c.sid with
    | some name => simp [Change.run, Collections.createScope, addNewScopeEntry, hl] at h
    | none =>
      rw [Change.run, createScope_of_lookup_none u none hl] at h
      cases h
      exact .createScope hl
  | dropScope sid =>
    cases hl : s.manifest.scopes.lookup sid with
    | none => simp [Change.run, Collections.dropScope, hl] at h
    | some name =>
      rw [Change.run, dropScope_of_lookup u none hl] at h
      cases h
      exact .dropScope hl
  | modify c =>
    cases hl : s.manifest.map.lookup c.cid with
    | none => simp [Change.run, modifyCollection, hl] at h
    | some entry =>
      cases ht : setMaxTtl c.maxTtl with
      | error e => simp [Change.run, modifyCollection, hl, ht] at h
      | ok ttl =>
        rw [Change.run, modifyCollection_of_lookup u none hl ht] at h
        cases h
        exact .modify hl ht
  | begin c =>
    cases hl : s.manifest.map.lookup c.cid with
    | some entry =>
      by_cases hs : entry.startSeqno < s.highSeqno + 1
      · rw [Change.run, beginCollection_flush u none hl hs] at h
        cases h
        exact .flush hl hs
      · have hs' : s.highSeqno + 1 ≤ entry.startSeqno := Nat.le_of_not_lt hs
        simp [Change.run, beginCollection, hl, hs', ManifestEntry.setStartSeqno, queueCollectionSystemEvent] at h
    | none =>
      cases hsid : (s.manifest.scopes.lookup c.sid).isSome with
      | false =>
        have hn : (s.manifest.scopes.lookup c.sid).isNone = true := by
          cases hs : s.manifest.scopes.lookup c.sid <;> simp_all
        simp [Change.run, beginCollection, addNewCollectionEntry, hl, hn] at h
      | true =>
        cases ht : setMaxTtl c.maxTtl with
        | error e =>
          have hn : (s.manifest.scopes.lookup c.sid).isNone = false := by
            cases hs : s.manifest.scopes.lookup c.sid <;> simp_all
          simp [Change.run, beginCollection, addNewCollectionEntry, hl, hn, ht] at h
        | ok ttl =>
          rw [Change.run, beginCollection_create u none hl hsid ht (Nat.succ_pos _)] at h
          cases h
          exact .create hl hsid ht

end KvEngine.Collections
