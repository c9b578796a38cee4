import Mathlib
import KvEngine.Collections.Manifest
import KvEngine.Lib.Monotonic
import KvEngine.Lib.Except

/-!
# The vbucket's collections manifest

`Collections::VB::Manifest` is one vbucket's view of the collections: its
scopes, its collections (`ManifestEntry`, with the start seqno of each) and
the uid of the manifest it last applied. Every change to it queues a system
event into the vbucket, which DCP carries to the replicas; a replica applies
the events through the same functions, given the event's seqno.

- `VBucket`: the manifest, the vbucket's high seqno and the system events
  queued so far. `VBM` is a function of the vbucket that may throw; what it
  changed before it threw stays changed.
- The changes: `beginCollection` (create, or flush a collection it has),
  `dropCollection`, `modifyCollection`, `createScope`, `dropScope`, each
  queueing its event; `addNewCollectionEntry` and `addNewScopeEntry` add the
  entries.
- `update(manifest)`: `canUpdate`, the diff (`processManifest`) and
  `completeUpdate`, which applies the diff in a fixed order through the
  `apply*` helpers, exposing the new uid only on the last event.
- The replica: the event payloads (`CollectionEvent` and the others), their
  decoding (`getCollectionEventData`), and `replicaCreate` and the other
  `WriteHandle` functions.
- The constructors: `Manifest(manager)` (`VBManifest.initial`) and the one from
  persisted data at warmup (`ofPersisted`).

The shared metadata (`createOrReferenceMeta`, the manager's reference
counts), the item counts, high seqnos and disk sizes of the entries, and the
dropped-collections list are left out: nothing here reads them.
-/

namespace KvEngine.Collections

/-- What the vbucket manifest throws. -/
inductive Error where
  /-- `std::logic_error`: a missing or duplicate scope or collection, or a
  manifest uid that goes backwards. -/
  | logic
  /-- `std::invalid_argument` from `ManifestEntry::setStartSeqno`. -/
  | invalidArgument
  /-- `gsl::narrowing_error` from `setMaxTtl`. -/
  | narrowing
  /-- A failed `Expects`. -/
  | expects
  deriving DecidableEq, Repr

/-- `UINT32_MAX`, the stored `maxTtl` of a collection without one. -/
def noMaxTtl : Nat := 2 ^ 32 - 1

/-- `VB::ManifestEntry`: the collection's name and scope (its shared
metadata), its start seqno and its mutable properties. -/
structure ManifestEntry where
  name : String
  sid : ScopeID
  startSeqno : Nat
  canDeduplicate : CanDeduplicate
  /-- The stored `uint32_t`; `noMaxTtl` stands for no limit. -/
  maxTtl : Nat
  metered : Metered
  flushUid : Nat
  deriving DecidableEq, Repr

namespace ManifestEntry

/-- `getMaxTtl()`. -/
def getMaxTtl (e : ManifestEntry) : Option Nat := if e.maxTtl = noMaxTtl then none else some e.maxTtl

/-- `setStartSeqno(seqno)`: only to a greater value. -/
def setStartSeqno (e : ManifestEntry) (seqno : Nat) : Except Error ManifestEntry :=
  if seqno ≤ e.startSeqno then .error .invalidArgument else .ok { e with startSeqno := seqno }

end ManifestEntry

/-- `setMaxTtl(ttl)`: the value to store, narrowed to `uint32_t`. -/
def setMaxTtl : Option Nat → Except Error Nat
  | some v => if v < 2 ^ 32 then .ok v else .error .narrowing
  | none => .ok noMaxTtl

/-- `Collections::VB::Manifest`. -/
structure VBManifest where
  manifestUid : Nat
  /-- `scopes`: each scope's name. -/
  scopes : List (ScopeID × String)
  /-- `map`: the collections. -/
  map : List (CollectionID × ManifestEntry)
  deriving DecidableEq, Repr

/-- The `Collection` table of a Begin or Modify event. -/
structure CollectionEvent where
  uid : Nat
  scopeId : ScopeID
  collectionId : CollectionID
  ttlValid : Bool
  maxTtl : Nat
  name : String
  history : Bool
  metered : Bool
  flushUid : Nat
  deriving DecidableEq, Repr

/-- The `DroppedCollection` table. -/
structure DroppedCollectionEvent where
  uid : Nat
  scopeId : ScopeID
  collectionId : CollectionID
  systemCollection : Bool
  deriving DecidableEq, Repr

/-- The `Scope` table. -/
structure ScopeEvent where
  uid : Nat
  scopeId : ScopeID
  name : String
  deriving DecidableEq, Repr

/-- The `DroppedScope` table. -/
structure DroppedScopeEvent where
  uid : Nat
  scopeId : ScopeID
  systemScope : Bool
  deriving DecidableEq, Repr

/-- A system event item: its kind and its payload. -/
inductive SystemEvent where
  /-- A `SystemEvent::Collection` item: a collection begins (created or flushed). -/
  | beginCollection (data : CollectionEvent)
  /-- A `SystemEvent::ModifyCollection` item. -/
  | modifyCollection (data : CollectionEvent)
  /-- A deleted `SystemEvent::Collection` item: the collection ends. -/
  | endCollection (data : DroppedCollectionEvent)
  /-- A `SystemEvent::Scope` item. -/
  | createScope (data : ScopeEvent)
  /-- A deleted `SystemEvent::Scope` item. -/
  | dropScope (data : DroppedScopeEvent)
  deriving DecidableEq, Repr

/-- The manifest uid an event carries. -/
def SystemEvent.uid : SystemEvent → Nat
  | .beginCollection d | .modifyCollection d => d.uid
  | .endCollection d => d.uid
  | .createScope d => d.uid
  | .dropScope d => d.uid

/-- A system event queued into the vbucket at a seqno. -/
structure QueuedEvent where
  seqno : Nat
  event : SystemEvent
  deriving DecidableEq, Repr

/-- The vbucket as the manifest sees it: the manifest, the high seqno, and the
system events queued into its checkpoints, oldest first. -/
structure VBucket where
  manifest : VBManifest
  highSeqno : Nat
  queue : List QueuedEvent
  deriving DecidableEq, Repr

/-- A function of the vbucket that may throw; what it changed before it threw
stays changed. -/
abbrev VBM := EStateM Error VBucket

/-- `SystemEventType`. -/
inductive SystemEventType where
  | begin
  | «end»
  | modify
  deriving DecidableEq, Repr

/-- `Manifest::ManifestUpdateStatus`. -/
inductive ManifestUpdateStatus where
  | success
  | behind
  | equalUidWithDifferences
  | immutablePropertyModified
  deriving DecidableEq, Repr

/-- `Manifest::ScopeCreation`. -/
structure ScopeCreation where
  sid : ScopeID
  name : String
  deriving DecidableEq, Repr

/-- `Manifest::BeginCollection`: a collection to create or flush. -/
structure BeginCollection where
  sid : ScopeID
  cid : CollectionID
  name : String
  maxTtl : Option Nat
  metered : Metered
  canDeduplicate : CanDeduplicate
  flushUid : Nat
  deriving DecidableEq, Repr

/-- `Manifest::CollectionModification`. -/
structure CollectionModification where
  cid : CollectionID
  canDeduplicate : CanDeduplicate
  maxTtl : Option Nat
  metered : Metered
  deriving DecidableEq, Repr

/-- `Manifest::ManifestChanges`: the diff towards a manifest with uid
`newUid`. -/
structure ManifestChanges where
  scopesToCreate : List ScopeCreation
  scopesToDrop : List ScopeID
  collectionsToCreate : List BeginCollection
  collectionsToDrop : List CollectionID
  collectionsToModify : List CollectionModification
  collectionsToFlush : List BeginCollection
  newUid : Nat
  deriving DecidableEq, Repr

namespace ManifestChanges

/-- `none()`: no changes. -/
def none (c : ManifestChanges) : Bool :=
  c.scopesToCreate.isEmpty && c.scopesToDrop.isEmpty && c.collectionsToCreate.isEmpty &&
    c.collectionsToDrop.isEmpty && c.collectionsToModify.isEmpty && c.collectionsToFlush.isEmpty

/-- `getUidForChange(theirUid)`: the new uid once nothing is left to apply. -/
def getUidForChange (c : ManifestChanges) (theirUid : Nat) : Nat := if c.none then c.newUid else theirUid

end ManifestChanges

namespace VBManifest

/-! ### Entries -/

/-- Replace the entry of `cid`. -/
def setEntry (m : VBManifest) (cid : CollectionID) (e : ManifestEntry) : VBManifest :=
  { m with map := m.map.map fun p => if p.1 = cid then (cid, e) else p }

/-- `map.erase(cid)`. -/
def eraseEntry (m : VBManifest) (cid : CollectionID) : VBManifest :=
  { m with map := m.map.filter fun p => p.1 != cid }

/-- `scopes.erase(sid)`. -/
def eraseScope (m : VBManifest) (sid : ScopeID) : VBManifest :=
  { m with scopes := m.scopes.filter fun p => p.1 != sid }

end VBManifest

section Functions

/-- Change the manifest of the vbucket. -/
def modifyManifest (f : VBManifest → VBManifest) : VBM Unit := do
  let vb ← EStateM.get
  EStateM.set { vb with manifest := f vb.manifest }

/-- `updateUid(uid, reset)`: a replica resets the uid; the active stores it
into the `WeaklyMonotonic` uid, whose default policy in a release build
ignores a store that goes backwards. -/
def updateUid (uid : Nat) (reset : Bool) : VBM Unit :=
  if reset then modifyManifest fun m => { m with manifestUid := uid }
  else modifyManifest fun m => { m with manifestUid := Monotonic.storeOrKeep .greaterEqual m.manifestUid uid }

/-- `VBucket::addSystemEventItem`: queue the event at the given seqno
(a replica), or at the next one (the active); returns the seqno. -/
def addSystemEventItem (event : SystemEvent) (optionalSeqno : Option Nat) : VBM Nat := do
  let vb ← EStateM.get
  let seqno := optionalSeqno.getD (vb.highSeqno + 1)
  EStateM.set { vb with highSeqno := seqno, queue := vb.queue ++ [({ seqno := seqno, event := event } : QueuedEvent)] }
  return seqno

set_option linter.unusedVariables false in
/-- `addNewCollectionEntry`: the entry is built with flush uid `0`
(`ManifestUid{}`), whatever `flushUid` says. -/
def addNewCollectionEntry (sid : ScopeID) (cid : CollectionID) (collectionName : String)
    (maxTtl : Option Nat) (metered : Metered) (canDeduplicate : CanDeduplicate) (flushUid : Nat)
    (startSeqno : Nat) : VBM ManifestEntry := do
  let vb ← EStateM.get
  if (vb.manifest.scopes.lookup sid).isNone then throw .logic
  let ttl ← MonadExcept.ofExcept (setMaxTtl maxTtl)
  let entry : ManifestEntry := ⟨collectionName, sid, startSeqno, canDeduplicate, ttl, metered, 0⟩
  if (vb.manifest.map.lookup cid).isSome then throw .logic
  modifyManifest fun m => { m with map := m.map ++ [(cid, entry)] }
  return entry

/-- `addNewScopeEntry(sid, name)`. -/
def addNewScopeEntry (sid : ScopeID) (scopeName : String) : VBM Unit := do
  let vb ← EStateM.get
  if (vb.manifest.scopes.lookup sid).isSome then throw .logic
  modifyManifest fun m => { m with scopes := m.scopes ++ [(sid, scopeName)] }

/-- The `Collection` table of an entry, carrying `uid`. -/
def collectionData (uid : Nat) (cid : CollectionID) (collectionName : String) (entry : ManifestEntry) :
    CollectionEvent :=
  ⟨uid, entry.sid, cid, entry.getMaxTtl.isSome, (entry.getMaxTtl.getD 0) % 2 ^ 32, collectionName,
    getHistoryFromCanDeduplicate entry.canDeduplicate, getMeteredFromEnum entry.metered, entry.flushUid⟩

/-- `makeCollectionSystemEvent(uid, cid, name, entry, type, seq)`. -/
def makeCollectionSystemEvent (uid : Nat) (cid : CollectionID) (collectionName : String)
    (entry : ManifestEntry) : SystemEventType → SystemEvent
  | .begin => .beginCollection (collectionData uid cid collectionName entry)
  | .modify => .modifyCollection (collectionData uid cid collectionName entry)
  | .«end» => .endCollection ⟨uid, entry.sid, cid, isSystemCollection entry.name cid⟩

/-- `queueCollectionSystemEvent`: the event carries the manifest's current
uid. -/
def queueCollectionSystemEvent (cid : CollectionID) (collectionName : String) (entry : ManifestEntry)
    (type : SystemEventType) (optionalSeqno : Option Nat) : VBM Nat := do
  let vb ← EStateM.get
  addSystemEventItem (makeCollectionSystemEvent vb.manifest.manifestUid cid collectionName entry type)
    optionalSeqno

/-- `beginCollection`: flush a collection the manifest has (a new flush uid),
or create one; queue its Begin event and move its start seqno to the event. -/
def beginCollection (newManUid : Nat) (sid : ScopeID) (cid : CollectionID) (collectionName : String)
    (maxTtl : Option Nat) (metered : Metered) (canDeduplicate : CanDeduplicate) (flushUid : Nat)
    (optionalSeqno : Option Nat) : VBM Unit := do
  let vb ← EStateM.get
  let entry ← match vb.manifest.map.lookup cid with
    | some entry => do
      let entry := { entry with flushUid := flushUid }
      modifyManifest fun m => m.setEntry cid entry
      pure entry
    | none => addNewCollectionEntry sid cid collectionName maxTtl metered canDeduplicate flushUid 0
  updateUid newManUid optionalSeqno.isSome
  let seqno ← queueCollectionSystemEvent cid collectionName entry .begin optionalSeqno
  let entry ← MonadExcept.ofExcept (entry.setStartSeqno seqno)
  modifyManifest fun m => m.setEntry cid entry

/-- `dropCollection`: queue the End event and erase the entry; a replica
first adds a tombstone entry for a collection it does not have. -/
def dropCollection (newManUid : Nat) (cid : CollectionID) (isSystemCollection : Option Bool)
    (optionalSeqno : Option Nat) : VBM Unit := do
  let vb ← EStateM.get
  if optionalSeqno.isSome && (vb.manifest.map.lookup cid).isNone then
    match isSystemCollection with
    | none => throw .expects
    | some system =>
      discard <| addNewCollectionEntry ScopeID.Default cid (if system then "_tombstone" else "tombstone")
        none .yes .yes 0 0
  let vb ← EStateM.get
  match vb.manifest.map.lookup cid with
  | none => throw .logic
  | some entry =>
    updateUid newManUid optionalSeqno.isSome
    discard <| queueCollectionSystemEvent cid "" entry .«end» optionalSeqno
    modifyManifest fun m => m.eraseEntry cid

/-- `modifyCollection`: set the mutable properties and queue a Modify
event. -/
def modifyCollection (newManUid : Nat) (cid : CollectionID) (maxTtl : Option Nat) (metered : Metered)
    (canDeduplicate : CanDeduplicate) (optionalSeqno : Option Nat) : VBM Unit := do
  let vb ← EStateM.get
  match vb.manifest.map.lookup cid with
  | none => throw .logic
  | some entry =>
    updateUid newManUid optionalSeqno.isSome
    let entry := { entry with canDeduplicate := canDeduplicate }
    modifyManifest fun m => m.setEntry cid entry
    let ttl ← MonadExcept.ofExcept (setMaxTtl maxTtl)
    let entry := { entry with maxTtl := ttl, metered := metered }
    modifyManifest fun m => m.setEntry cid entry
    discard <| queueCollectionSystemEvent cid entry.name entry .modify optionalSeqno

/-- `createScope`. -/
def createScope (newManUid : Nat) (sid : ScopeID) (scopeName : String) (optionalSeqno : Option Nat) :
    VBM Unit := do
  addNewScopeEntry sid scopeName
  updateUid newManUid optionalSeqno.isSome
  let vb ← EStateM.get
  discard <| addSystemEventItem (.createScope ⟨vb.manifest.manifestUid, sid, scopeName⟩) optionalSeqno

/-- `dropScope`: the active must have the scope; a replica may drop one it
does not have. -/
def dropScope (newManUid : Nat) (sid : ScopeID) (isSystemScope' : Option Bool)
    (optionalSeqno : Option Nat) : VBM Unit := do
  let vb ← EStateM.get
  let system ← match vb.manifest.scopes.lookup sid with
    | none => if optionalSeqno.isNone then throw .logic else pure isSystemScope'
    | some name => do
      modifyManifest fun m => m.eraseScope sid
      pure (some (isSystemScope name sid))
  match system with
  | none => throw .expects
  | some system =>
    updateUid newManUid optionalSeqno.isSome
    let vb ← EStateM.get
    discard <| addSystemEventItem (.dropScope ⟨vb.manifest.manifestUid, sid, system⟩) optionalSeqno

/-! ### `update` -/

/-- `canUpdate(manifest)`: not behind, and no collection or scope changes
its scope or name. -/
def canUpdate (m : VBManifest) (manifest : Manifest) : ManifestUpdateStatus :=
  if manifest.uid < m.manifestUid then .behind
  else if m.map.any (fun p => match manifest.findCollection p.1 with
      | some c => c.sid != p.2.sid || c.name != p.2.name
      | none => false) then .immutablePropertyModified
  else if m.scopes.any (fun p => match manifest.findScope p.1 with
      | some s => s.name != p.2
      | none => false) then .immutablePropertyModified
  else .success

/-- The body of the first loop of `processManifest`, for one collection
`(cid, entry)` of the vbucket: a drop if the manifest does not have it, else a
flush if the manifest's flush uid is newer and a modification if a mutable
property differs. -/
def collectionChange (manifest : Manifest) :
    List CollectionID × List BeginCollection × List CollectionModification → CollectionID × ManifestEntry →
      List CollectionID × List BeginCollection × List CollectionModification
  | (drops, flushes, mods), (cid, entry) =>
    match manifest.findCollection cid with
    | none => (drops ++ [cid], flushes, mods)
    | some c =>
      let flushes := if entry.flushUid < c.flushUid then
          flushes ++ [⟨entry.sid, cid, entry.name, entry.getMaxTtl, entry.metered, entry.canDeduplicate,
            c.flushUid⟩]
        else flushes
      let mods := if entry.canDeduplicate ≠ c.canDeduplicate ∨ entry.getMaxTtl ≠ c.maxTtl ∨
          entry.metered ≠ c.metered then mods ++ [⟨cid, c.canDeduplicate, c.maxTtl, c.metered⟩]
        else mods
      (drops, flushes, mods)

/-- The first loop of `processManifest`, over the collections of the
vbucket: the drops, flushes and modifications. -/
def collectionChanges (manifest : Manifest) (entries : List (CollectionID × ManifestEntry)) :
    List CollectionID × List BeginCollection × List CollectionModification :=
  entries.foldl (collectionChange manifest) ([], [], [])

/-- `processManifest(manifest)`: the diff from the vbucket's manifest. -/
def processManifest (m : VBManifest) (manifest : Manifest) : ManifestChanges :=
  let (drops, flushes, mods) := collectionChanges manifest m.map
  let scopeDrops := (m.scopes.filter fun p => (manifest.findScope p.1).isNone).map Prod.fst
  let scopeCreates := (manifest.scopes.filter fun s => (m.scopes.lookup s.1).isNone).map
    fun s => (⟨s.1, s.2.name⟩ : ScopeCreation)
  let creates := (manifest.scopes.flatMap fun s => s.2.collections).filterMap fun c =>
    if (m.map.lookup c.cid).isNone then
      some (⟨c.sid, c.cid, c.name, c.maxTtl, c.metered, c.canDeduplicate, c.flushUid⟩ : BeginCollection)
    else none
  ⟨scopeCreates, scopeDrops, creates, drops, mods, flushes, manifest.uid⟩

/-- The current manifest uid. -/
def currentUid : VBM Nat := do
  return (← EStateM.get).manifest.manifestUid

/-- The five `apply*` helpers: take the last change off, apply the others
under the current uid, and return the last. -/
def applyChanges {α : Type} (apply : Nat → α → VBM Unit) (changes : List α) : VBM (Option α) := do
  changes.dropLast.forM fun c => do apply (← currentUid) c
  return changes.getLast?

/-- `applyDrops`. -/
def applyDrops (changes : List CollectionID) : VBM (Option CollectionID) :=
  applyChanges (fun uid cid => dropCollection uid cid none none) changes

/-- `applyBeginCollection`, for creates and for flushes. -/
def applyBeginCollection (changes : List BeginCollection) : VBM (Option BeginCollection) :=
  applyChanges (fun uid c =>
    beginCollection uid c.sid c.cid c.name c.maxTtl c.metered c.canDeduplicate c.flushUid none) changes

/-- `applyModifications`. -/
def applyModifications (changes : List CollectionModification) : VBM (Option CollectionModification) :=
  applyChanges (fun uid c => modifyCollection uid c.cid c.maxTtl c.metered c.canDeduplicate none) changes

/-- `applyScopeDrops`. -/
def applyScopeDrops (changes : List ScopeID) : VBM (Option ScopeID) :=
  applyChanges (fun uid sid => dropScope uid sid none none) changes

/-- `applyScopeCreates`. -/
def applyScopeCreates (changes : List ScopeCreation) : VBM (Option ScopeCreation) :=
  applyChanges (fun uid c => createScope uid c.sid c.name none) changes

/-- The block of `completeUpdate` after each `apply*`: apply the change it
returned, if any, under the uid `uid` gives at that point. -/
def applyFinal {α : Type} (final : Option α) (uid : VBM Nat) (apply : Nat → α → VBM Unit) : VBM Unit := do
  if let some c := final then
    apply (← uid) c

/-- `completeUpdate(changeset)`: drops, scope creates, creates,
modifications, flushes, scope drops. Each `apply*` clears its vector, so
`getUidForChange` gives the new uid exactly to the last change of all; the
final scope drop takes the new uid directly. -/
def completeUpdate (changeset : ManifestChanges) : VBM Unit := do
  if changeset.none then
    updateUid changeset.newUid false
    return
  let finalDeletion ← applyDrops changeset.collectionsToDrop
  let changeset := { changeset with collectionsToDrop := [] }
  applyFinal finalDeletion (changeset.getUidForChange <$> currentUid) fun uid cid =>
    dropCollection uid cid none none
  let finalScopeCreate ← applyScopeCreates changeset.scopesToCreate
  let changeset := { changeset with scopesToCreate := [] }
  applyFinal finalScopeCreate (changeset.getUidForChange <$> currentUid) fun uid c =>
    createScope uid c.sid c.name none
  let finalBegin ← applyBeginCollection changeset.collectionsToCreate
  let changeset := { changeset with collectionsToCreate := [] }
  applyFinal finalBegin (changeset.getUidForChange <$> currentUid) fun uid c =>
    beginCollection uid c.sid c.cid c.name c.maxTtl c.metered c.canDeduplicate c.flushUid none
  let finalModification ← applyModifications changeset.collectionsToModify
  let changeset := { changeset with collectionsToModify := [] }
  applyFinal finalModification (changeset.getUidForChange <$> currentUid) fun uid c =>
    modifyCollection uid c.cid c.maxTtl c.metered c.canDeduplicate none
  let finalFlush ← applyBeginCollection changeset.collectionsToFlush
  let changeset := { changeset with collectionsToFlush := [] }
  applyFinal finalFlush (changeset.getUidForChange <$> currentUid) fun uid c =>
    beginCollection uid c.sid c.cid c.name c.maxTtl c.metered c.canDeduplicate c.flushUid none
  let finalScopeDrop ← applyScopeDrops changeset.scopesToDrop
  applyFinal finalScopeDrop (pure changeset.newUid) fun uid sid => dropScope uid sid none none

/-- `update(manifest)`. -/
def update (manifest : Manifest) : VBM ManifestUpdateStatus := do
  let vb ← EStateM.get
  let status := canUpdate vb.manifest manifest
  if status ≠ .success then return status
  let changes := processManifest vb.manifest manifest
  if manifest.uid = vb.manifest.manifestUid ∧ !changes.none then return .equalUidWithDifferences
  completeUpdate changes
  return .success

/-! ### The replica -/

/-- `CollectionEventData`: what `getCollectionEventData` decodes. -/
structure CollectionEventData where
  uid : Nat
  sid : ScopeID
  cid : CollectionID
  name : String
  maxTtl : Option Nat
  canDeduplicate : CanDeduplicate
  metered : Metered
  flushUid : Nat
  deriving DecidableEq, Repr

/-- `getCollectionEventData(collection)`. -/
def getCollectionEventData (c : CollectionEvent) : CollectionEventData :=
  ⟨c.uid, c.scopeId, c.collectionId, c.name, if c.ttlValid then some c.maxTtl else none,
    getCanDeduplicateFromHistory c.history, getMetered c.metered, c.flushUid⟩

/-- `WriteHandle::replicaCreate`. -/
def replicaCreate (manifestUid : Nat) (sid : ScopeID) (cid : CollectionID) (collectionName : String)
    (maxTtl : Option Nat) (metered : Metered) (canDeduplicate : CanDeduplicate) (flushUid : Nat)
    (startSeqno : Nat) : VBM Unit :=
  beginCollection manifestUid sid cid collectionName maxTtl metered canDeduplicate flushUid (some startSeqno)

/-- `WriteHandle::replicaModifyCollection`. -/
def replicaModifyCollection (manifestUid : Nat) (cid : CollectionID) (maxTtl : Option Nat)
    (metered : Metered) (canDeduplicate : CanDeduplicate) (startSeqno : Nat) : VBM Unit :=
  modifyCollection manifestUid cid maxTtl metered canDeduplicate (some startSeqno)

/-- `WriteHandle::replicaDrop`. -/
def replicaDrop (manifestUid : Nat) (cid : CollectionID) (isSystemCollection : Bool) (endSeqno : Nat) :
    VBM Unit :=
  dropCollection manifestUid cid (some isSystemCollection) (some endSeqno)

/-- `WriteHandle::replicaCreateScope`. -/
def replicaCreateScope (manifestUid : Nat) (sid : ScopeID) (scopeName : String) (startSeqno : Nat) :
    VBM Unit :=
  createScope manifestUid sid scopeName (some startSeqno)

/-- `WriteHandle::replicaDropScope`. -/
def replicaDropScope (manifestUid : Nat) (sid : ScopeID) (isSystemScope : Bool) (endSeqno : Nat) :
    VBM Unit :=
  dropScope manifestUid sid (some isSystemScope) (some endSeqno)

/-- A replica applying one system event it received, decoded as the
`get*EventData` functions decode it. -/
def replayEvent (e : QueuedEvent) : VBM Unit :=
  match e.event with
  | .beginCollection c =>
    let d := getCollectionEventData c
    replicaCreate d.uid d.sid d.cid d.name d.maxTtl d.metered d.canDeduplicate d.flushUid e.seqno
  | .modifyCollection c =>
    let d := getCollectionEventData c
    replicaModifyCollection d.uid d.cid d.maxTtl d.metered d.canDeduplicate e.seqno
  | .endCollection d => replicaDrop d.uid d.collectionId d.systemCollection e.seqno
  | .createScope d => replicaCreateScope d.uid d.scopeId d.name e.seqno
  | .dropScope d => replicaDropScope d.uid d.scopeId d.systemScope e.seqno

/-- The events applied one after another. -/
def replayEvents : List QueuedEvent → VBM Unit
  | [] => pure ()
  | e :: es => do
    replayEvent e
    replayEvents es

end Functions

/-! ### Constructors -/

/-- `Manifest(manager)`: the default scope and the default collection, at
uid `0`. -/
def VBManifest.initial : VBManifest :=
  ⟨0, [(ScopeID.Default, "_default")],
    [(CollectionID.Default, ⟨"_default", ScopeID.Default, 0, .yes, noMaxTtl, .no, 0⟩)]⟩

/-- A collection of `KVStore::Manifest`: its metadata and start seqno. -/
structure PersistedCollection where
  metaData : CollectionMetaData
  startSeqno : Nat
  deriving DecidableEq, Repr

/-- `KVStore::Manifest`: what warmup reads back. -/
structure PersistedManifest where
  manifestUid : Nat
  scopes : List (ScopeID × String)
  collections : List PersistedCollection
  deriving DecidableEq, Repr

/-- `Manifest(manager, data)`: the manifest rebuilt at warmup, through
`addNewScopeEntry` and `addNewCollectionEntry`. -/
def ofPersisted (data : PersistedManifest) : VBM Unit := do
  modifyManifest fun _ => ⟨data.manifestUid, [], []⟩
  data.scopes.forM fun s => addNewScopeEntry s.1 s.2
  data.collections.forM fun e =>
    discard <| addNewCollectionEntry e.metaData.sid e.metaData.cid e.metaData.name e.metaData.maxTtl
      e.metaData.metered e.metaData.canDeduplicate e.metaData.flushUid e.startSeqno

end KvEngine.Collections
