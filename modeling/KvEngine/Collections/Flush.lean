import KvEngine.Collections.VBManifest
import KvEngine.Lib.AssocList

/-!
# The open collections a flush writes (`collections/flush.cc`)

A flush batch carries the collection system events of the items it persists.
`Flush::recordSystemEvent` notes each one: the first and the last create (or
flush) of each collection, its last modify and its last drop. After the batch,
`Flush::encodeOpenCollections` merges what it noted with the open collections
the store holds, and the result is written back as the new set.

The merge is two loops. The first goes over the collections the batch
created: one the batch dropped after its last create is left out, and every
other is output with the metadata of its last create, or of a later modify.
The second goes over the stored entries: one the batch dropped is left out,
and every other is output with its identity and the mutable metadata of a
later modify. An id the first loop already output is ignored by the second
when its flush uid is lower, and is a `logic_error` when it is not. An empty
store stands for the default collection.

- `Flush`, `recordSystemEvent`, `recordBatch`: the records of a batch.
- `encodeCreated`, `encodeEntry`, `exclusiveInsertCollection`,
  `encodeOpenCollections`: the merge.
- `OpenCollections`, `applyEvent`, `applyEvents`, `initialState`: what the
  merge is for: the open collections after the batch's events, applied in
  order to those the store holds.
- `ManifestBatch`: what the vbucket manifest guarantees of a batch's events.

Results:
- `encodeOpenCollections_view`: when nothing clashes, the merge succeeds,
  outputs each id once, and outputs for each id what `openView` says.
- `FlushInv.step`, `FlushInv.run`: recording one event, and a batch of them,
  keeps the records' view equal to the applied events.
- `encodeOpenCollections_eq_applyEvents`: for a batch the manifest could
  have made, the merge succeeds with the open collections the events leave.
- `encodeOpenCollections_keeps_stored_name`: for a modify the manifest would
  not make, one that renames a stored collection, the merge keeps the stored
  name.
-/

namespace KvEngine.Collections

open AssocList

namespace KVStore

/-- `KVStore::OpenCollection`: a collection's start seqno and metadata. -/
structure OpenCollection where
  startSeqno : Nat
  metaData : CollectionMetaData
  deriving DecidableEq, Repr

/-- `KVStore::DroppedCollection`: the seqno span of a dropped collection. -/
structure DroppedCollection where
  startSeqno : Nat
  endSeqno : Nat
  collectionId : CollectionID
  deriving DecidableEq, Repr

/-- The `Collection` table of the `OpenCollections` the store keeps. -/
structure Collection where
  startSeqno : Nat
  scopeId : ScopeID
  collectionId : CollectionID
  ttlValid : Bool
  maxTtl : Nat
  name : String
  history : Bool
  metered : Bool
  flushUid : Nat
  deriving DecidableEq, Repr

end KVStore

open KVStore (OpenCollection DroppedCollection Collection)

/-- The `CollectionMetaData` of the event data. -/
def CollectionEventData.metaData (d : CollectionEventData) : CollectionMetaData :=
  ⟨d.sid, d.cid, d.name, d.maxTtl, d.canDeduplicate, d.metered, d.flushUid⟩

/-- `CollectionMetaData{}`: the default collection as it was first created. -/
def defaultMetaData : CollectionMetaData :=
  ⟨ScopeID.Default, CollectionID.Default, "_default", none, .yes, .no, 0⟩

/-! ## The records of a batch -/

/-- `Flush::CollectionSpan`: the first and the last create of a collection in
the batch. -/
structure CollectionSpan where
  low : OpenCollection
  high : OpenCollection
  deriving DecidableEq, Repr

/-- The parts of `Flush` that the collection events of a batch write and
`encodeOpenCollections` reads. -/
structure Flush where
  collections : List (CollectionID × CollectionSpan)
  collectionMods : List (CollectionID × OpenCollection)
  droppedCollections : List (CollectionID × DroppedCollection)
  deriving DecidableEq, Repr

/-- A `Flush` before the batch's first item. -/
def Flush.empty : Flush := ⟨[], [], []⟩

/-- `Flush::recordCreateCollection`: the create becomes the span's high or
low end if it is past either. -/
def recordCreateCollection (f : Flush) (seqno : Nat) (c : CollectionEvent) : Flush :=
  let collection : OpenCollection := ⟨seqno, (getCollectionEventData c).metaData⟩
  { f with
    collections := tryEmplace f.collections collection.metaData.cid ⟨collection, collection⟩
      fun span =>
        if span.high.startSeqno < seqno then { span with high := collection }
        else if seqno < span.low.startSeqno then { span with low := collection }
        else span }

/-- `Flush::recordModifyCollection`: only the last modify is kept. -/
def recordModifyCollection (f : Flush) (seqno : Nat) (c : CollectionEvent) : Flush :=
  let collection : OpenCollection := ⟨seqno, (getCollectionEventData c).metaData⟩
  { f with
    collectionMods := tryEmplace f.collectionMods collection.metaData.cid collection
      fun old => if old.startSeqno < seqno then collection else old }

/-- `Flush::recordDropCollection`: only the last drop is kept, with a start
seqno of `0` that the merge patches. -/
def recordDropCollection (f : Flush) (seqno : Nat) (d : DroppedCollectionEvent) : Flush :=
  { f with
    droppedCollections := tryEmplace f.droppedCollections d.collectionId ⟨0, seqno, d.collectionId⟩
      fun old => if old.endSeqno < seqno then ⟨0, seqno, d.collectionId⟩ else old }

/-- `Flush::recordSystemEvent` for the collection events; the scope events
write records that `encodeOpenCollections` does not read. -/
def recordSystemEvent (f : Flush) (e : QueuedEvent) : Flush :=
  match e.event with
  | .beginCollection c => recordCreateCollection f e.seqno c
  | .modifyCollection c => recordModifyCollection f e.seqno c
  | .endCollection d => recordDropCollection f e.seqno d
  | .createScope _ | .dropScope _ => f

/-- The records of a batch, its items flushed in order. -/
def recordBatch (events : List QueuedEvent) : Flush :=
  events.foldl recordSystemEvent Flush.empty

/-! ## The merge -/

/-- `Flush::getMaybeModifiedCollectionMetaData`: the metadata of a modify
after `seqno`, else the given one. -/
def getMaybeModifiedCollectionMetaData (f : Flush) (cid : CollectionID) (seqno : Nat)
    (orginalMeta : CollectionMetaData) : CollectionMetaData :=
  match f.collectionMods.lookup cid with
  | some modification => if seqno < modification.startSeqno then modification.metaData else orginalMeta
  | none => orginalMeta

/-- `Collections::KVStore::CreateCollection` as the merge calls it: the ttl,
history and metered fields come from `metaData`, the rest as given. -/
def createCollection (startSeqno : Nat) (sid : ScopeID) (cid : CollectionID) (metaData : CollectionMetaData)
    (name : String) (flushUid : Nat) : Collection :=
  ⟨startSeqno, sid, cid, metaData.maxTtl.isSome, (metaData.maxTtl.getD 0) % 2 ^ 32, name,
    getHistoryFromCanDeduplicate metaData.canDeduplicate, getMeteredFromEnum metaData.metered, flushUid⟩

/-- The `std::logic_error` of `exclusiveInsertCollection`: "encodeOpenCollections:
duplicate collection detected cid:" and the id. -/
inductive FlushError where
  | duplicateCollection (cid : CollectionID)
  deriving DecidableEq, Repr

/-- What the merge has built so far: `outputIds`, `finalisedOpenCollection`
and the flush's dropped collections, whose start seqnos it patches. -/
structure EncodeState where
  outputIds : List (CollectionID × Nat)
  finalisedOpenCollection : List Collection
  droppedCollections : List (CollectionID × DroppedCollection)
  deriving DecidableEq, Repr

/-- The `exclusiveInsertCollection` lambda: a new id is output; an id already
output with a larger flush uid ignores the entry; any other repeat throws. -/
def exclusiveInsertCollection (st : EncodeState) (cid : CollectionID) (flushUid : Nat)
    (newEntry : Collection) : Except FlushError EncodeState :=
  match st.outputIds.lookup cid with
  | none =>
    .ok { st with
      outputIds := st.outputIds ++ [(cid, flushUid)]
      finalisedOpenCollection := st.finalisedOpenCollection ++ [newEntry] }
  | some existing => if flushUid < existing then .ok st else .error (.duplicateCollection cid)

/-- The drop of `cid` gets the start seqno `startSeqno`. -/
def patchStartSeqno (dropped : List (CollectionID × DroppedCollection)) (cid : CollectionID)
    (startSeqno : Nat) : List (CollectionID × DroppedCollection) :=
  modifyKey dropped cid fun d => { d with startSeqno := startSeqno }

/-- The metadata the first loop outputs for a created collection. -/
def createdMeta (f : Flush) (cid : CollectionID) (span : CollectionSpan) : CollectionMetaData :=
  getMaybeModifiedCollectionMetaData f cid span.high.startSeqno span.high.metaData

/-- The entry the first loop outputs for a created collection. -/
def createdEntry (f : Flush) (cid : CollectionID) (span : CollectionSpan) : Collection :=
  let metaData := createdMeta f cid span
  createCollection span.high.startSeqno metaData.sid metaData.cid metaData metaData.name metaData.flushUid

/-- The first loop's body: patch the drop's start to the first create, skip a
collection dropped after its last create, output the others. -/
def encodeCreated (f : Flush) (st : EncodeState) (cid : CollectionID) (span : CollectionSpan) :
    Except FlushError EncodeState :=
  let metaData := createdMeta f cid span
  match st.droppedCollections.lookup cid with
  | some dropped =>
    let st := { st with droppedCollections := patchStartSeqno st.droppedCollections cid span.low.startSeqno }
    if span.high.startSeqno < dropped.endSeqno then .ok st
    else exclusiveInsertCollection st metaData.cid metaData.flushUid (createdEntry f cid span)
  | none => exclusiveInsertCollection st metaData.cid metaData.flushUid (createdEntry f cid span)

/-- The `CollectionMetaData` the second loop reads from a stored entry; the
name is left empty. -/
def entryMeta (entry : Collection) : CollectionMetaData :=
  ⟨entry.scopeId, entry.collectionId, "", if entry.ttlValid then some entry.maxTtl else none,
    getCanDeduplicateFromHistory entry.history, getMetered entry.metered, entry.flushUid⟩

/-- The entry the second loop outputs for a stored collection: its identity,
and the mutable metadata of a later modify. -/
def persistedEntry (f : Flush) (entry : Collection) : Collection :=
  let metaData := getMaybeModifiedCollectionMetaData f entry.collectionId entry.startSeqno (entryMeta entry)
  createCollection entry.startSeqno entry.scopeId entry.collectionId metaData entry.name entry.flushUid

/-- The second loop's body: a stored collection the batch dropped patches the
drop's start; every other is output. -/
def encodeEntry (f : Flush) (st : EncodeState) (entry : Collection) : Except FlushError EncodeState :=
  match st.droppedCollections.lookup entry.collectionId with
  | none => exclusiveInsertCollection st entry.collectionId entry.flushUid (persistedEntry f entry)
  | some _ =>
    .ok { st with
      droppedCollections := patchStartSeqno st.droppedCollections entry.collectionId entry.startSeqno }

/-- The default collection the merge outputs when the store is empty. -/
def defaultEntry (f : Flush) : Collection :=
  let metaData := getMaybeModifiedCollectionMetaData f CollectionID.Default 0 defaultMetaData
  createCollection 0 ScopeID.Default CollectionID.Default metaData "_default" 0

/-- The merge with the stored set, `none` for an empty buffer: the second
loop, or the default collection where the store is empty and the batch did
not drop it. -/
def encodeStored (f : Flush) (st : EncodeState) (currentCollections : Option (List Collection)) :
    Except FlushError EncodeState :=
  match currentCollections with
  | some entries => entries.foldlM (encodeEntry f) st
  | none =>
    if (st.droppedCollections.lookup CollectionID.Default).isSome then .ok st
    else exclusiveInsertCollection st CollectionID.Default 0 (defaultEntry f)

/-- `Flush::encodeOpenCollections`: the open collections to store, and the
dropped collections with their patched start seqnos. -/
def encodeOpenCollections (f : Flush) (currentCollections : Option (List Collection)) :
    Except FlushError (List Collection × List (CollectionID × DroppedCollection)) := do
  let st ← f.collections.foldlM (fun st p => encodeCreated f st p.1 p.2) ⟨[], [], f.droppedCollections⟩
  let st ← encodeStored f st currentCollections
  pure (st.finalisedOpenCollection, st.droppedCollections)

/-! ## What the merge outputs

The merge's state is read through a view: for each id, the entry output for
it, if any. Each loop body extends the view at one id; `Outputs` says that the
state's entries are the view's, with distinct ids, and that `outputIds` keeps
their flush uids. -/

/-- The state outputs, for each id, what `view` says. -/
structure Outputs (st : EncodeState) (view : CollectionID → Option Collection) : Prop where
  outputIds_eq : st.outputIds = st.finalisedOpenCollection.map fun e => (e.collectionId, e.flushUid)
  nodup : (st.finalisedOpenCollection.map (·.collectionId)).Nodup
  find?_eq : ∀ cid, st.finalisedOpenCollection.find? (·.collectionId == cid) = view cid

/-- The drops agree on their end seqnos: patching a start seqno keeps them. -/
def SameEnds (a b : List (CollectionID × DroppedCollection)) : Prop :=
  ∀ cid, (a.lookup cid).map (·.endSeqno) = (b.lookup cid).map (·.endSeqno)

theorem lookup_flushUids (cid : CollectionID) :
    ∀ l : List Collection, (l.map fun e => (e.collectionId, e.flushUid)).lookup cid =
      (l.find? (·.collectionId == cid)).map (·.flushUid)
  | [] => rfl
  | e :: l => by
    by_cases h : e.collectionId = cid
    · simp [h]
    · have hb : (cid == e.collectionId) = false := beq_eq_false_iff_ne.mpr (Ne.symm h)
      have hb' : (e.collectionId == cid) = false := beq_eq_false_iff_ne.mpr h
      simp only [List.map_cons, List.lookup_cons, hb, List.find?_cons, hb', lookup_flushUids cid l]

theorem Outputs.lookup_outputIds {st : EncodeState} {view} (hst : Outputs st view) (cid : CollectionID) :
    st.outputIds.lookup cid = (view cid).map (·.flushUid) := by
  rw [hst.outputIds_eq, lookup_flushUids, hst.find?_eq]

theorem Outputs.with_dropped {st : EncodeState} {view} (hst : Outputs st view)
    (dropped : List (CollectionID × DroppedCollection)) :
    Outputs { st with droppedCollections := dropped } view :=
  ⟨hst.outputIds_eq, hst.nodup, hst.find?_eq⟩

theorem sameEnds_patchStartSeqno (dropped : List (CollectionID × DroppedCollection)) (cid : CollectionID)
    (startSeqno : Nat) : SameEnds (patchStartSeqno dropped cid startSeqno) dropped := by
  intro q
  unfold patchStartSeqno
  rw [lookup_modifyKey]
  by_cases hq : q = cid
  · subst hq
    rw [if_pos rfl, Option.map_map]
    rfl
  · rw [if_neg hq]

theorem SameEnds.trans {a b c : List (CollectionID × DroppedCollection)} (hab : SameEnds a b)
    (hbc : SameEnds b c) : SameEnds a c :=
  fun cid => (hab cid).trans (hbc cid)

/-- A drop in one list is a drop with the same end in the other. -/
theorem SameEnds.lookup_some {a b : List (CollectionID × DroppedCollection)} (h : SameEnds a b)
    {cid : CollectionID} {d : DroppedCollection} (hd : a.lookup cid = some d) :
    ∃ d', b.lookup cid = some d' ∧ d'.endSeqno = d.endSeqno := by
  have hcid := h cid
  rw [hd] at hcid
  cases hb : b.lookup cid with
  | none => rw [hb] at hcid; cases hcid
  | some d' =>
    rw [hb] at hcid
    exact ⟨d', rfl, (Option.some.inj hcid).symm⟩

theorem SameEnds.lookup_none {a b : List (CollectionID × DroppedCollection)} (h : SameEnds a b)
    {cid : CollectionID} (hd : a.lookup cid = none) : b.lookup cid = none := by
  have hcid := h cid
  rw [hd, Option.map_none] at hcid
  exact Option.map_eq_none_iff.mp hcid.symm

/-- A new id is output. -/
theorem exclusiveInsertCollection_new {st : EncodeState} {view} {cid : CollectionID} {flushUid : Nat}
    {newEntry : Collection} (hst : Outputs st view) (hnone : view cid = none)
    (hcid : newEntry.collectionId = cid) (hflushUid : newEntry.flushUid = flushUid) :
    ∃ st', exclusiveInsertCollection st cid flushUid newEntry = .ok st' ∧
      st'.droppedCollections = st.droppedCollections ∧
      Outputs st' (Function.update view cid (some newEntry)) := by
  have hlookup : st.outputIds.lookup cid = none := by
    rw [hst.lookup_outputIds, hnone]
    rfl
  rw [exclusiveInsertCollection, hlookup]
  refine ⟨_, rfl, rfl, ?_⟩
  have hfind : st.finalisedOpenCollection.find? (·.collectionId == cid) = none := by
    rw [hst.find?_eq, hnone]
  constructor
  · show st.outputIds ++ [(cid, flushUid)] = _
    rw [List.map_append, hst.outputIds_eq, List.map_singleton, hcid, hflushUid]
  · show ((st.finalisedOpenCollection ++ [newEntry]).map (·.collectionId)).Nodup
    rw [List.map_append, List.nodup_append]
    refine ⟨hst.nodup, List.nodup_cons.mpr ⟨List.not_mem_nil, List.nodup_nil⟩, ?_⟩
    -- the new id is none of the ids already output
    rintro a ha b hb rfl
    obtain ⟨e, he, rfl⟩ := List.mem_map.mp ha
    rw [List.map_singleton, List.mem_singleton] at hb
    have hne := List.find?_eq_none.mp hfind e he
    rw [hb, hcid] at hne
    exact hne (beq_self_eq_true cid)
  · intro q
    show (st.finalisedOpenCollection ++ [newEntry]).find? _ = _
    rw [List.find?_append, hst.find?_eq]
    by_cases hq : q = cid
    · subst hq
      rw [hnone, Function.update_self]
      simp [hcid]
    · rw [Function.update_of_ne hq]
      cases view q with
      | some e => rfl
      | none =>
        have hne : (newEntry.collectionId == q) = false := by
          rw [hcid]
          exact beq_eq_false_iff_ne.mpr (Ne.symm hq)
        simp [hne]

/-- An id already output with a larger flush uid ignores the entry. -/
theorem exclusiveInsertCollection_ignored {st : EncodeState} {view} {cid : CollectionID} {flushUid : Nat}
    {newEntry e : Collection} (hst : Outputs st view) (hsome : view cid = some e)
    (hlt : flushUid < e.flushUid) : exclusiveInsertCollection st cid flushUid newEntry = .ok st := by
  have hlookup : st.outputIds.lookup cid = some e.flushUid := by
    rw [hst.lookup_outputIds, hsome]
    rfl
  rw [exclusiveInsertCollection, hlookup]
  exact if_pos hlt

/-! ### The first loop -/

/-- What the first loop outputs for a created collection: nothing if the
batch dropped it after its last create. -/
def createdOutput (f : Flush) (cid : CollectionID) (span : CollectionSpan) : Option Collection :=
  match f.droppedCollections.lookup cid with
  | some dropped => if span.high.startSeqno < dropped.endSeqno then none else some (createdEntry f cid span)
  | none => some (createdEntry f cid span)

/-- What the first loop outputs, over the created collections `l`, on top of
`view`. -/
def createdView (f : Flush) (l : List (CollectionID × CollectionSpan))
    (view : CollectionID → Option Collection) (cid : CollectionID) : Option Collection :=
  match l.lookup cid with
  | some span => createdOutput f cid span
  | none => view cid

theorem encodeCreated_spec {f : Flush} {st : EncodeState} {view} {cid : CollectionID} {span : CollectionSpan}
    (hends : SameEnds st.droppedCollections f.droppedCollections) (hst : Outputs st view)
    (hnone : view cid = none) (hcid : (createdMeta f cid span).cid = cid) :
    ∃ st', encodeCreated f st cid span = .ok st' ∧ SameEnds st'.droppedCollections f.droppedCollections ∧
      Outputs st' (Function.update view cid (createdOutput f cid span)) := by
  -- the entry is output under its own id
  have hentry : (createdEntry f cid span).collectionId = cid := hcid
  unfold encodeCreated createdOutput
  dsimp only
  rw [hcid]
  cases hd : st.droppedCollections.lookup cid with
  | none =>
    rw [hends.lookup_none hd]
    obtain ⟨st', hrun, hdropped, hout⟩ := exclusiveInsertCollection_new hst hnone hentry rfl
    exact ⟨st', hrun, hdropped ▸ hends, hout⟩
  | some dropped =>
    obtain ⟨dropped', hd', hend⟩ := hends.lookup_some hd
    have hpatched : SameEnds (patchStartSeqno st.droppedCollections cid span.low.startSeqno)
        f.droppedCollections := (sameEnds_patchStartSeqno _ _ _).trans hends
    simp only [hd', hend]
    by_cases hlt : span.high.startSeqno < dropped.endSeqno
    · -- dropped after its last create: the view stays as it was
      rw [if_pos hlt, if_pos hlt, ← hnone, Function.update_eq_self]
      exact ⟨_, rfl, hpatched, hst.with_dropped _⟩
    · rw [if_neg hlt, if_neg hlt]
      obtain ⟨st', hrun, hdropped, hout⟩ :=
        exclusiveInsertCollection_new (hst.with_dropped (patchStartSeqno st.droppedCollections cid
          span.low.startSeqno)) hnone hentry rfl
      exact ⟨st', hrun, hdropped ▸ hpatched, hout⟩

/-- The first loop over created collections with distinct ids, each output
under its own id. -/
theorem foldlM_encodeCreated (f : Flush) :
    ∀ (l : List (CollectionID × CollectionSpan)) (st : EncodeState) (view : CollectionID → Option Collection),
      (l.map Prod.fst).Nodup → (∀ p ∈ l, view p.1 = none) → (∀ p ∈ l, (createdMeta f p.1 p.2).cid = p.1) →
      SameEnds st.droppedCollections f.droppedCollections → Outputs st view →
      ∃ st', l.foldlM (fun st p => encodeCreated f st p.1 p.2) st = .ok st' ∧
        SameEnds st'.droppedCollections f.droppedCollections ∧ Outputs st' (createdView f l view)
  | [], st, view, _, _, _, hends, hst => ⟨st, rfl, hends, hst⟩
  | (cid, span) :: l, st, view, hnodup, hnone, hcid, hends, hst => by
    obtain ⟨hnotin, hnodup⟩ := List.nodup_cons.mp hnodup
    obtain ⟨st₁, hrun₁, hends₁, hst₁⟩ :=
      encodeCreated_spec hends hst (hnone _ List.mem_cons_self) (hcid _ List.mem_cons_self)
    -- the rest of the loop sees the view extended at `cid`
    have hnone₁ : ∀ p ∈ l, Function.update view cid (createdOutput f cid span) p.1 = none := by
      intro p hp
      have hne : p.1 ≠ cid := fun h => hnotin (List.mem_map.mpr ⟨p, hp, h⟩)
      rw [Function.update_of_ne hne]
      exact hnone p (List.mem_cons_of_mem _ hp)
    obtain ⟨st₂, hrun₂, hends₂, hst₂⟩ := foldlM_encodeCreated f l st₁ _ hnodup hnone₁
      (fun p hp => hcid p (List.mem_cons_of_mem _ hp)) hends₁ hst₁
    refine ⟨st₂, by rw [List.foldlM_cons, hrun₁]; exact hrun₂, hends₂, ?_⟩
    have hview : createdView f l (Function.update view cid (createdOutput f cid span)) =
        createdView f ((cid, span) :: l) view := by
      funext q
      unfold createdView
      by_cases hq : q = cid
      · subst hq
        rw [lookup_eq_none_of_not_mem hnotin, Function.update_self]
        simp
      · have hb : (q == cid) = false := beq_eq_false_iff_ne.mpr hq
        rw [Function.update_of_ne hq, List.lookup_cons, hb]
    exact hview ▸ hst₂

/-! ### The second loop -/

/-- The stored entries by id. -/
def keyedEntries (entries : List Collection) : List (CollectionID × Collection) :=
  entries.map fun e => (e.collectionId, e)

/-- What the second loop outputs, over the stored `entries`, on top of `view`:
an id already output keeps its entry; a stored collection the batch did not
drop is output. -/
def persistedView (f : Flush) (entries : List Collection) (view : CollectionID → Option Collection)
    (cid : CollectionID) : Option Collection :=
  match view cid with
  | some e => some e
  | none =>
    match f.droppedCollections.lookup cid with
    | some _ => none
    | none => ((keyedEntries entries).lookup cid).map (persistedEntry f)

theorem keys_keyedEntries (entries : List Collection) :
    (keyedEntries entries).map Prod.fst = entries.map (·.collectionId) := by
  rw [keyedEntries, List.map_map]
  rfl

theorem lookup_keyedEntries_cid {entries : List Collection} {cid : CollectionID} {entry : Collection}
    (h : (keyedEntries entries).lookup cid = some entry) : entry.collectionId = cid ∧ entry ∈ entries := by
  obtain ⟨e, he, hpair⟩ := List.mem_map.mp (mem_of_lookup_eq_some h)
  obtain ⟨hcid, rfl⟩ := Prod.mk.inj hpair
  exact ⟨hcid, he⟩

theorem lookup_keyedEntries_of_mem {entries : List Collection} {entry : Collection}
    (hnodup : (entries.map (·.collectionId)).Nodup) (h : entry ∈ entries) :
    (keyedEntries entries).lookup entry.collectionId = some entry := by
  rw [lookup_eq_some_iff_mem (by rw [keys_keyedEntries]; exact hnodup)]
  exact List.mem_map_of_mem h

theorem persistedView_nil (f : Flush) (view : CollectionID → Option Collection) :
    persistedView f [] view = view := by
  funext q
  unfold persistedView
  cases view q with
  | some e => rfl
  | none => cases f.droppedCollections.lookup q <;> rfl

/-- One stored entry leaves the other ids as they were. -/
theorem persistedView_singleton_of_ne (f : Flush) (view : CollectionID → Option Collection)
    {entry : Collection} {q : CollectionID} (hq : q ≠ entry.collectionId) :
    persistedView f [entry] view q = view q := by
  have hb : (q == entry.collectionId) = false := beq_eq_false_iff_ne.mpr hq
  unfold persistedView
  cases view q with
  | some e => rfl
  | none =>
    cases f.droppedCollections.lookup q with
    | some d => rfl
    | none => simp [keyedEntries, hq]

/-- A stored entry the batch dropped leaves the view as it was. -/
theorem persistedView_singleton_of_dropped {f : Flush} (view : CollectionID → Option Collection)
    {entry : Collection} {d : DroppedCollection} (hd : f.droppedCollections.lookup entry.collectionId = some d) :
    persistedView f [entry] view = view := by
  funext q
  by_cases hq : q = entry.collectionId
  · subst hq
    unfold persistedView
    cases view entry.collectionId with
    | some e => rfl
    | none => rw [hd]
  · exact persistedView_singleton_of_ne f view hq

/-- A stored entry the batch did not drop is output, or ignored where the
first loop output its id with a larger flush uid. -/
theorem insertStored_spec {f : Flush} {st : EncodeState} {view} {entry : Collection}
    (hst : Outputs st view) (hdrop : f.droppedCollections.lookup entry.collectionId = none)
    (hclash : ∀ e, view entry.collectionId = some e → entry.flushUid < e.flushUid) :
    ∃ st', exclusiveInsertCollection st entry.collectionId entry.flushUid (persistedEntry f entry) = .ok st' ∧
      st'.droppedCollections = st.droppedCollections ∧ Outputs st' (persistedView f [entry] view) := by
  cases hv : view entry.collectionId with
  | some e =>
    refine ⟨st, exclusiveInsertCollection_ignored hst hv (hclash e hv), rfl, ?_⟩
    have hview : persistedView f [entry] view = view := by
      funext q
      by_cases hq : q = entry.collectionId
      · subst hq
        unfold persistedView
        rw [hv]
      · exact persistedView_singleton_of_ne f view hq
    rw [hview]
    exact hst
  | none =>
    obtain ⟨st', hrun, hdropped, hout⟩ :=
      @exclusiveInsertCollection_new st view entry.collectionId entry.flushUid (persistedEntry f entry) hst hv rfl rfl
    refine ⟨st', hrun, hdropped, ?_⟩
    have hview : Function.update view entry.collectionId (some (persistedEntry f entry)) =
        persistedView f [entry] view := by
      funext q
      by_cases hq : q = entry.collectionId
      · subst hq
        unfold persistedView
        simp [hv, hdrop, keyedEntries]
      · rw [Function.update_of_ne hq, persistedView_singleton_of_ne f view hq]
    rw [← hview]
    exact hout

theorem encodeEntry_spec {f : Flush} {st : EncodeState} {view} {entry : Collection}
    (hends : SameEnds st.droppedCollections f.droppedCollections) (hst : Outputs st view)
    (hclash : f.droppedCollections.lookup entry.collectionId = none →
      ∀ e, view entry.collectionId = some e → entry.flushUid < e.flushUid) :
    ∃ st', encodeEntry f st entry = .ok st' ∧ SameEnds st'.droppedCollections f.droppedCollections ∧
      Outputs st' (persistedView f [entry] view) := by
  unfold encodeEntry
  cases hd : st.droppedCollections.lookup entry.collectionId with
  | none =>
    have hdrop := hends.lookup_none hd
    obtain ⟨st', hrun, hdropped, hout⟩ := insertStored_spec hst hdrop (hclash hdrop)
    exact ⟨st', hrun, hdropped ▸ hends, hout⟩
  | some d =>
    obtain ⟨d', hd', -⟩ := hends.lookup_some hd
    rw [persistedView_singleton_of_dropped view hd']
    exact ⟨_, rfl, (sameEnds_patchStartSeqno _ _ _).trans hends, hst.with_dropped _⟩

theorem persistedView_congr (f : Flush) (entries : List Collection) {v w : CollectionID → Option Collection}
    {q : CollectionID} (h : v q = w q) : persistedView f entries v q = persistedView f entries w q := by
  unfold persistedView
  rw [h]

/-- Output one stored entry, then the rest: the view of all of them. -/
theorem persistedView_cons (f : Flush) (view : CollectionID → Option Collection) (entry : Collection)
    (entries : List Collection) :
    persistedView f entries (persistedView f [entry] view) = persistedView f (entry :: entries) view := by
  funext q
  by_cases hq : q = entry.collectionId
  · -- at the entry's id the rest of the entries add nothing
    subst hq
    unfold persistedView
    cases view entry.collectionId with
    | some e => rfl
    | none =>
      cases f.droppedCollections.lookup entry.collectionId with
      | some d => rfl
      | none => simp [keyedEntries]
  · have hb : (q == entry.collectionId) = false := beq_eq_false_iff_ne.mpr hq
    rw [persistedView_congr f entries (persistedView_singleton_of_ne f view hq)]
    unfold persistedView
    simp only [keyedEntries, List.map_cons, List.lookup_cons, hb]

/-- The second loop over stored entries with distinct ids. -/
theorem foldlM_encodeEntry (f : Flush) :
    ∀ (entries : List Collection) (st : EncodeState) (view : CollectionID → Option Collection),
      (entries.map (·.collectionId)).Nodup → SameEnds st.droppedCollections f.droppedCollections →
      Outputs st view →
      (∀ entry ∈ entries, f.droppedCollections.lookup entry.collectionId = none →
        ∀ e, view entry.collectionId = some e → entry.flushUid < e.flushUid) →
      ∃ st', entries.foldlM (encodeEntry f) st = .ok st' ∧ Outputs st' (persistedView f entries view)
  | [], st, view, _, _, hst, _ => ⟨st, rfl, (persistedView_nil f view).symm ▸ hst⟩
  | entry :: entries, st, view, hnodup, hends, hst, hclash => by
    obtain ⟨hnotin, hnodup⟩ := List.nodup_cons.mp hnodup
    obtain ⟨st₁, hrun₁, hends₁, hst₁⟩ := encodeEntry_spec hends hst (hclash entry List.mem_cons_self)
    -- the rest of the entries have other ids, where the view is unchanged
    have hclash₁ : ∀ e ∈ entries, f.droppedCollections.lookup e.collectionId = none →
        ∀ o, persistedView f [entry] view e.collectionId = some o → e.flushUid < o.flushUid := by
      intro e he hdrop o ho
      have hne : e.collectionId ≠ entry.collectionId := fun h => hnotin (List.mem_map.mpr ⟨e, he, h⟩)
      rw [persistedView_singleton_of_ne f view hne] at ho
      exact hclash e (List.mem_cons_of_mem _ he) hdrop o ho
    obtain ⟨st₂, hrun₂, hst₂⟩ := foldlM_encodeEntry f entries st₁ _ hnodup hends₁ hst₁ hclash₁
    refine ⟨st₂, by rw [List.foldlM_cons, hrun₁]; exact hrun₂, ?_⟩
    rw [← persistedView_cons]
    exact hst₂

/-! ### The whole merge -/

/-- The default collection as first created, as the store would hold it. -/
def defaultCollectionEntry : Collection :=
  ⟨0, ScopeID.Default, CollectionID.Default, false, 0, "_default", false, false, 0⟩

/-- The entries the store holds; an empty store stands for the default
collection as first created. -/
def storedEntries : Option (List Collection) → List Collection
  | some entries => entries
  | none => [defaultCollectionEntry]

/-- What the merge outputs for each id. -/
def openView (f : Flush) (currentCollections : Option (List Collection)) : CollectionID → Option Collection :=
  persistedView f (storedEntries currentCollections) (createdView f f.collections fun _ => none)

/-- At `cid` the two loops do not clash: a collection the batch created and
did not drop, and that the store holds, is output by the first loop with a
larger flush uid than the stored one. -/
def NoClashAt (f : Flush) (currentCollections : Option (List Collection)) (cid : CollectionID) : Prop :=
  ∀ span entry, f.collections.lookup cid = some span → f.droppedCollections.lookup cid = none →
    (keyedEntries (storedEntries currentCollections)).lookup cid = some entry →
    entry.flushUid < (createdMeta f cid span).flushUid

/-- The metadata a modify changes: the ones `createCollection` reads. -/
def mutableFields (metaData : CollectionMetaData) : Option Nat × CanDeduplicate × Metered :=
  (metaData.maxTtl, metaData.canDeduplicate, metaData.metered)

theorem createCollection_congr {m₁ m₂ : CollectionMetaData} (h : mutableFields m₁ = mutableFields m₂)
    (startSeqno : Nat) (sid : ScopeID) (cid : CollectionID) (name : String) (flushUid : Nat) :
    createCollection startSeqno sid cid m₁ name flushUid = createCollection startSeqno sid cid m₂ name flushUid := by
  simp only [mutableFields, Prod.mk.injEq] at h
  obtain ⟨hmaxTtl, hcanDeduplicate, hmetered⟩ := h
  unfold createCollection
  rw [hmaxTtl, hcanDeduplicate, hmetered]

theorem mutableFields_getMaybeModified (f : Flush) (cid : CollectionID) (seqno : Nat)
    {m₁ m₂ : CollectionMetaData} (h : mutableFields m₁ = mutableFields m₂) :
    mutableFields (getMaybeModifiedCollectionMetaData f cid seqno m₁) =
      mutableFields (getMaybeModifiedCollectionMetaData f cid seqno m₂) := by
  unfold getMaybeModifiedCollectionMetaData
  split
  · split
    · rfl
    · exact h
  · exact h

/-- The default collection of an empty store is the stored entry it stands
for. -/
theorem defaultEntry_eq (f : Flush) : defaultEntry f = persistedEntry f defaultCollectionEntry := by
  show createCollection 0 ScopeID.Default CollectionID.Default
      (getMaybeModifiedCollectionMetaData f CollectionID.Default 0 defaultMetaData) "_default" 0 =
    createCollection 0 ScopeID.Default CollectionID.Default
      (getMaybeModifiedCollectionMetaData f CollectionID.Default 0 (entryMeta defaultCollectionEntry)) "_default" 0
  have hfields : mutableFields defaultMetaData = mutableFields (entryMeta defaultCollectionEntry) := rfl
  exact createCollection_congr (mutableFields_getMaybeModified f _ _ hfields) _ _ _ _ _

/-- The merge's default branch outputs what the second loop would over the
default collection. -/
theorem encodeDefault_spec {f : Flush} {st : EncodeState} {view}
    (hends : SameEnds st.droppedCollections f.droppedCollections) (hst : Outputs st view)
    (hclash : f.droppedCollections.lookup CollectionID.Default = none →
      ∀ e, view CollectionID.Default = some e → 0 < e.flushUid) :
    ∃ st', encodeStored f st none = .ok st' ∧ Outputs st' (persistedView f (storedEntries none) view) := by
  unfold encodeStored storedEntries
  cases hd : st.droppedCollections.lookup CollectionID.Default with
  | some d =>
    obtain ⟨d', hd', -⟩ := hends.lookup_some hd
    rw [@persistedView_singleton_of_dropped f view defaultCollectionEntry d' hd']
    exact ⟨st, rfl, hst⟩
  | none =>
    have hdrop := hends.lookup_none hd
    obtain ⟨st', hrun, -, hout⟩ :=
      @insertStored_spec f st view defaultCollectionEntry hst hdrop (hclash hdrop)
    rw [defaultEntry_eq]
    exact ⟨st', hrun, hout⟩

/-- When the loops do not clash, the merge succeeds and outputs, once each,
the entries `openView` says. -/
theorem encodeOpenCollections_view {f : Flush} {currentCollections : Option (List Collection)}
    (hstored : ((storedEntries currentCollections).map (·.collectionId)).Nodup)
    (hcollections : (f.collections.map Prod.fst).Nodup)
    (hcid : ∀ cid span, f.collections.lookup cid = some span → (createdMeta f cid span).cid = cid)
    (hclash : ∀ cid, NoClashAt f currentCollections cid) :
    ∃ out dropped, encodeOpenCollections f currentCollections = .ok (out, dropped) ∧
      (out.map (·.collectionId)).Nodup ∧
      ∀ cid, out.find? (·.collectionId == cid) = openView f currentCollections cid := by
  have hst₀ : Outputs ⟨[], [], f.droppedCollections⟩ fun _ => none := ⟨rfl, List.nodup_nil, fun _ => rfl⟩
  obtain ⟨st₁, hrun₁, hends₁, hst₁⟩ := foldlM_encodeCreated f f.collections _ _ hcollections
    (fun _ _ => rfl) (fun p hp => hcid p.1 p.2 ((lookup_eq_some_iff_mem hcollections).mpr hp))
    (fun _ => rfl) hst₀
  -- a stored entry meets the first loop's output only where `NoClashAt` compares them
  have hclash₁ : ∀ entry ∈ storedEntries currentCollections,
      f.droppedCollections.lookup entry.collectionId = none →
      ∀ e, createdView f f.collections (fun _ => none) entry.collectionId = some e →
        entry.flushUid < e.flushUid := by
    intro entry hentry hdrop e he
    unfold createdView at he
    cases hspan : f.collections.lookup entry.collectionId with
    | none => rw [hspan] at he; cases he
    | some span =>
      simp only [hspan, createdOutput, hdrop, Option.some.injEq] at he
      rw [← he]
      exact hclash _ span entry hspan hdrop (lookup_keyedEntries_of_mem hstored hentry)
  obtain ⟨st₂, hrun₂, hst₂⟩ : ∃ st₂, encodeStored f st₁ currentCollections = .ok st₂ ∧
      Outputs st₂ (openView f currentCollections) := by
    cases currentCollections with
    | some entries => exact foldlM_encodeEntry f entries st₁ _ hstored hends₁ hst₁ hclash₁
    | none =>
      exact encodeDefault_spec hends₁ hst₁ fun hdrop e he =>
        hclash₁ _ List.mem_cons_self hdrop e he
  refine ⟨st₂.finalisedOpenCollection, st₂.droppedCollections, ?_, hst₂.nodup, hst₂.find?_eq⟩
  unfold encodeOpenCollections
  rw [hrun₁, Except.ok_bind, hrun₂]
  rfl

/-! ## What the merge is for

The open collections after a batch are those the store held, with the
batch's events applied in seqno order: a create (or a flush) opens the
collection at its seqno with its metadata, a modify changes the mutable
metadata of an open collection, a drop closes it. -/

/-- The open collections by id. -/
abbrev OpenCollections := CollectionID → Option OpenCollection

/-- A stored entry as an open collection. -/
def KVStore.Collection.toOpen (entry : Collection) : OpenCollection :=
  ⟨entry.startSeqno, { entryMeta entry with name := entry.name }⟩

/-- An open collection as the store keeps it. -/
def render (oc : OpenCollection) : Collection :=
  createCollection oc.startSeqno oc.metaData.sid oc.metaData.cid oc.metaData oc.metaData.name oc.metaData.flushUid

/-- The open collections the store holds. -/
def initialState (currentCollections : Option (List Collection)) : OpenCollections :=
  fun cid => ((keyedEntries (storedEntries currentCollections)).lookup cid).map KVStore.Collection.toOpen

/-- The metadata after a modify carrying `m`: its maxTtl, history and
metered. -/
def CollectionMetaData.applyModify (metaData m : CollectionMetaData) : CollectionMetaData :=
  { metaData with maxTtl := m.maxTtl, canDeduplicate := m.canDeduplicate, metered := m.metered }

/-- One event applied to the open collections. -/
def applyEvent (s : OpenCollections) (e : QueuedEvent) : OpenCollections :=
  match e.event with
  | .beginCollection c =>
    let m := (getCollectionEventData c).metaData
    Function.update s m.cid (some ⟨e.seqno, m⟩)
  | .modifyCollection c =>
    let m := (getCollectionEventData c).metaData
    Function.update s m.cid ((s m.cid).map fun oc => ⟨oc.startSeqno, oc.metaData.applyModify m⟩)
  | .endCollection d => Function.update s d.collectionId none
  | .createScope _ | .dropScope _ => s

/-- The events applied in order. -/
def applyEvents (s : OpenCollections) (events : List QueuedEvent) : OpenCollections :=
  events.foldl applyEvent s

/-- What the vbucket manifest guarantees of one event of a flush batch, read
against the open collections `s` the events before it leave and the seqno
`bound` they reached: the seqno is past `bound`; a create of an open
collection is its flush, with a larger flush uid; a modify is of an open
collection and carries its scope, name and flush uid. -/
def BatchEventOk (s : OpenCollections) (bound : Nat) (e : QueuedEvent) : Prop :=
  bound < e.seqno ∧
    match e.event with
    | .beginCollection c =>
      let m := (getCollectionEventData c).metaData
      ∀ oc, s m.cid = some oc → oc.metaData.flushUid < m.flushUid
    | .modifyCollection c =>
      let m := (getCollectionEventData c).metaData
      ∃ oc, s m.cid = some oc ∧ oc.metaData.sid = m.sid ∧ oc.metaData.name = m.name ∧
        oc.metaData.flushUid = m.flushUid
    | .endCollection _ | .createScope _ | .dropScope _ => True

/-- A batch the vbucket manifest could have queued after the open
collections `s`, past the seqno `bound`. -/
def ManifestBatch : OpenCollections → Nat → List QueuedEvent → Prop
  | _, _, [] => True
  | s, bound, e :: events => BatchEventOk s bound e ∧ ManifestBatch (applyEvent s e) e.seqno events

/-! ## The records of a batch against the events

Recording an event changes the records at the event's collection only; the
merge's view of every other id stays. -/

/-- The records of `f` and `f'` agree at `cid`. -/
structure SameAt (f f' : Flush) (cid : CollectionID) : Prop where
  collections : f'.collections.lookup cid = f.collections.lookup cid
  collectionMods : f'.collectionMods.lookup cid = f.collectionMods.lookup cid
  droppedCollections : f'.droppedCollections.lookup cid = f.droppedCollections.lookup cid

theorem getMaybeModifiedCollectionMetaData_congr {f f' : Flush} {cid : CollectionID}
    (h : f'.collectionMods.lookup cid = f.collectionMods.lookup cid) (seqno : Nat) (m : CollectionMetaData) :
    getMaybeModifiedCollectionMetaData f' cid seqno m = getMaybeModifiedCollectionMetaData f cid seqno m := by
  unfold getMaybeModifiedCollectionMetaData
  rw [h]

/-- A modify at or before `seqno` leaves the metadata as given. -/
theorem getMaybeModifiedCollectionMetaData_of_le {f : Flush} {cid : CollectionID} {seqno : Nat}
    (h : ∀ m, f.collectionMods.lookup cid = some m → m.startSeqno ≤ seqno) (orginalMeta : CollectionMetaData) :
    getMaybeModifiedCollectionMetaData f cid seqno orginalMeta = orginalMeta := by
  unfold getMaybeModifiedCollectionMetaData
  cases hm : f.collectionMods.lookup cid with
  | none => rfl
  | some m => exact if_neg (Nat.not_lt.mpr (h m hm))

theorem getMaybeModifiedCollectionMetaData_of_lt {f : Flush} {cid : CollectionID} {seqno : Nat}
    {m : OpenCollection} (h : f.collectionMods.lookup cid = some m) (hlt : seqno < m.startSeqno)
    (orginalMeta : CollectionMetaData) :
    getMaybeModifiedCollectionMetaData f cid seqno orginalMeta = m.metaData := by
  unfold getMaybeModifiedCollectionMetaData
  rw [h]
  exact if_pos hlt

theorem createdOutput_congr {f f' : Flush} {cid : CollectionID} (h : SameAt f f' cid) (span : CollectionSpan) :
    createdOutput f' cid span = createdOutput f cid span := by
  unfold createdOutput createdEntry createdMeta
  rw [getMaybeModifiedCollectionMetaData_congr h.collectionMods, h.droppedCollections]

theorem createdView_congr {f f' : Flush} {cid : CollectionID} (h : SameAt f f' cid)
    (view : CollectionID → Option Collection) :
    createdView f' f'.collections view cid = createdView f f.collections view cid := by
  unfold createdView
  rw [h.collections]
  cases f.collections.lookup cid with
  | some span => exact createdOutput_congr h span
  | none => rfl

theorem persistedView_congr_flush {f f' : Flush} {cid : CollectionID} (h : SameAt f f' cid)
    (entries : List Collection) (view : CollectionID → Option Collection) :
    persistedView f' entries view cid = persistedView f entries view cid := by
  unfold persistedView
  rw [h.droppedCollections]
  cases view cid with
  | some e => rfl
  | none =>
    cases f.droppedCollections.lookup cid with
    | some d => rfl
    | none =>
      -- the stored entry found has the id, where the modifies agree
      cases hentry : (keyedEntries entries).lookup cid with
      | none => rfl
      | some entry =>
        have hcid := (lookup_keyedEntries_cid hentry).1
        simp only [Option.map_some, persistedEntry, hcid, getMaybeModifiedCollectionMetaData_congr h.collectionMods]

theorem openView_congr {f f' : Flush} {cid : CollectionID} (h : SameAt f f' cid)
    (currentCollections : Option (List Collection)) :
    openView f' currentCollections cid = openView f currentCollections cid := by
  unfold openView
  rw [persistedView_congr f' _ (createdView_congr h _), persistedView_congr_flush h]

theorem NoClashAt.congr {f f' : Flush} {currentCollections : Option (List Collection)} {cid : CollectionID}
    (h : SameAt f f' cid) (hclash : NoClashAt f currentCollections cid) : NoClashAt f' currentCollections cid := by
  intro span entry hspan hdrop hentry
  rw [h.collections] at hspan
  rw [h.droppedCollections] at hdrop
  unfold createdMeta
  rw [getMaybeModifiedCollectionMetaData_congr h.collectionMods]
  exact hclash span entry hspan hdrop hentry

/-! ### What recording one event changes -/

section Records

variable (f : Flush) (seqno : Nat)

theorem recordCreateCollection_sameAt (c : CollectionEvent) {q : CollectionID}
    (hq : q ≠ (getCollectionEventData c).metaData.cid) : SameAt f (recordCreateCollection f seqno c) q := by
  refine ⟨?_, rfl, rfl⟩
  simp only [recordCreateCollection]
  rw [lookup_tryEmplace, if_neg hq]

/-- A create past the span's last one becomes its high end. -/
theorem recordCreateCollection_high (c : CollectionEvent)
    (hlt : ∀ span, f.collections.lookup (getCollectionEventData c).metaData.cid = some span →
      span.high.startSeqno < seqno) :
    ∃ span, (recordCreateCollection f seqno c).collections.lookup (getCollectionEventData c).metaData.cid =
      some span ∧ span.high = ⟨seqno, (getCollectionEventData c).metaData⟩ := by
  simp only [recordCreateCollection]
  rw [lookup_tryEmplace, if_pos rfl]
  cases hspan : f.collections.lookup (getCollectionEventData c).metaData.cid with
  | none => exact ⟨_, rfl, rfl⟩
  | some span =>
    refine ⟨_, rfl, ?_⟩
    simp only [Option.map_some, Option.getD_some]
    rw [if_pos (hlt span hspan)]

theorem recordModifyCollection_sameAt (c : CollectionEvent) {q : CollectionID}
    (hq : q ≠ (getCollectionEventData c).metaData.cid) : SameAt f (recordModifyCollection f seqno c) q := by
  refine ⟨rfl, ?_, rfl⟩
  simp only [recordModifyCollection]
  rw [lookup_tryEmplace, if_neg hq]

/-- A modify past the last one recorded replaces it. -/
theorem recordModifyCollection_mod (c : CollectionEvent)
    (hlt : ∀ m, f.collectionMods.lookup (getCollectionEventData c).metaData.cid = some m → m.startSeqno < seqno) :
    (recordModifyCollection f seqno c).collectionMods.lookup (getCollectionEventData c).metaData.cid =
      some ⟨seqno, (getCollectionEventData c).metaData⟩ := by
  simp only [recordModifyCollection]
  rw [lookup_tryEmplace, if_pos rfl]
  cases hm : f.collectionMods.lookup (getCollectionEventData c).metaData.cid with
  | none => rfl
  | some m =>
    simp only [Option.map_some, Option.getD_some]
    rw [if_pos (hlt m hm)]

theorem recordDropCollection_sameAt (d : DroppedCollectionEvent) {q : CollectionID} (hq : q ≠ d.collectionId) :
    SameAt f (recordDropCollection f seqno d) q := by
  refine ⟨rfl, rfl, ?_⟩
  simp only [recordDropCollection]
  rw [lookup_tryEmplace, if_neg hq]

/-- A drop past the last one recorded replaces it. -/
theorem recordDropCollection_drop (d : DroppedCollectionEvent)
    (hlt : ∀ old, f.droppedCollections.lookup d.collectionId = some old → old.endSeqno < seqno) :
    (recordDropCollection f seqno d).droppedCollections.lookup d.collectionId = some ⟨0, seqno, d.collectionId⟩ := by
  simp only [recordDropCollection]
  rw [lookup_tryEmplace, if_pos rfl]
  cases hold : f.droppedCollections.lookup d.collectionId with
  | none => rfl
  | some old =>
    simp only [Option.map_some, Option.getD_some]
    rw [if_pos (hlt old hold)]

end Records

/-! ### The merge's view at one id -/

section View

variable {f : Flush} {currentCollections : Option (List Collection)} {cid : CollectionID}

theorem openView_of_created {span : CollectionSpan} (hspan : f.collections.lookup cid = some span)
    {e : Collection} (hout : createdOutput f cid span = some e) : openView f currentCollections cid = some e := by
  unfold openView persistedView createdView
  simp only [hspan, hout]

theorem openView_of_stored (hspan : f.collections.lookup cid = none) (hdrop : f.droppedCollections.lookup cid = none)
    {entry : Collection} (hentry : (keyedEntries (storedEntries currentCollections)).lookup cid = some entry) :
    openView f currentCollections cid = some (persistedEntry f entry) := by
  unfold openView persistedView createdView
  simp only [hspan, hdrop, hentry, Option.map_some]

/-- A collection dropped after its last create in the batch is not output. -/
theorem openView_of_dropped {d : DroppedCollection} (hdrop : f.droppedCollections.lookup cid = some d)
    (hlt : ∀ span, f.collections.lookup cid = some span → span.high.startSeqno < d.endSeqno) :
    openView f currentCollections cid = none := by
  unfold openView persistedView createdView
  cases hspan : f.collections.lookup cid with
  | none => simp only [hdrop]
  | some span =>
    have hout : createdOutput f cid span = none := by
      unfold createdOutput
      rw [hdrop]
      exact if_pos (hlt span hspan)
    simp only [hout, hdrop]

/-- What is output for an id comes from one of the two loops. -/
theorem openView_eq_some {e : Collection} (h : openView f currentCollections cid = some e) :
    (∃ span, f.collections.lookup cid = some span ∧ createdOutput f cid span = some e) ∨
      (f.collections.lookup cid = none ∧ f.droppedCollections.lookup cid = none ∧
        ∃ entry, (keyedEntries (storedEntries currentCollections)).lookup cid = some entry ∧
          e = persistedEntry f entry) := by
  unfold openView persistedView createdView at h
  cases hspan : f.collections.lookup cid with
  | some span =>
    cases hout : createdOutput f cid span with
    | some e' =>
      simp only [hspan, hout, Option.some.injEq] at h
      exact .inl ⟨span, rfl, hout.trans (congrArg some h)⟩
    | none =>
      -- nothing from the first loop means the batch dropped it
      have hdrop : (f.droppedCollections.lookup cid).isSome := by
        unfold createdOutput at hout
        cases hd : f.droppedCollections.lookup cid with
        | none => rw [hd] at hout; cases hout
        | some d => rfl
      simp only [hspan, hout] at h
      cases hd : f.droppedCollections.lookup cid with
      | none => rw [hd] at hdrop; cases hdrop
      | some d => simp only [hd] at h; cases h
  | none =>
    cases hd : f.droppedCollections.lookup cid with
    | some d => simp only [hspan, hd] at h; cases h
    | none =>
      simp only [hspan, hd] at h
      obtain ⟨entry, hentry, rfl⟩ := Option.map_eq_some_iff.mp h
      exact .inr ⟨rfl, rfl, entry, hentry, rfl⟩

/-- A create whose last create is past every modify and drop is output with
the metadata of that create. -/
theorem createdOutput_of_le {span : CollectionSpan}
    (hdrop : ∀ d, f.droppedCollections.lookup cid = some d → d.endSeqno ≤ span.high.startSeqno)
    (hmod : ∀ m, f.collectionMods.lookup cid = some m → m.startSeqno ≤ span.high.startSeqno) :
    createdOutput f cid span = some (render span.high) := by
  have hentry : createdEntry f cid span = render span.high := by
    unfold createdEntry createdMeta
    rw [getMaybeModifiedCollectionMetaData_of_le hmod]
    rfl
  unfold createdOutput
  cases hd : f.droppedCollections.lookup cid with
  | none => rw [hentry]
  | some d =>
    dsimp only
    rw [if_neg (Nat.not_lt.mpr (hdrop d hd)), hentry]

/-- The first loop's decision depends on the drops only. -/
theorem createdOutput_of_droppedCollections {f' : Flush} {span : CollectionSpan} {e : Collection}
    (hdrop : f'.droppedCollections.lookup cid = f.droppedCollections.lookup cid)
    (hout : createdOutput f cid span = some e) :
    e = createdEntry f cid span ∧ createdOutput f' cid span = some (createdEntry f' cid span) := by
  unfold createdOutput at hout ⊢
  rw [hdrop]
  cases hd : f.droppedCollections.lookup cid with
  | none =>
    rw [hd, Option.some.injEq] at hout
    exact ⟨hout.symm, rfl⟩
  | some d =>
    simp only [hd] at hout ⊢
    by_cases hlt : span.high.startSeqno < d.endSeqno
    · rw [if_pos hlt] at hout
      cases hout
    · rw [if_neg hlt, Option.some.injEq] at hout
      exact ⟨hout.symm, by rw [if_neg hlt]⟩

end View

/-! ### The invariant of recording -/

/-- What recording a batch's events, up to seqno `bound`, keeps: the records
are keyed by their collections and are not past `bound`, and the merge's
view of them is the open collections `s` the events leave, without a clash. -/
structure FlushInv (f : Flush) (currentCollections : Option (List Collection)) (s : OpenCollections)
    (bound : Nat) : Prop where
  collections_nodup : (f.collections.map Prod.fst).Nodup
  span_high : ∀ cid span, f.collections.lookup cid = some span →
    span.high.metaData.cid = cid ∧ span.high.startSeqno ≤ bound
  mod_le : ∀ cid m, f.collectionMods.lookup cid = some m → m.metaData.cid = cid ∧ m.startSeqno ≤ bound
  drop_le : ∀ cid d, f.droppedCollections.lookup cid = some d → d.endSeqno ≤ bound
  stored_le : ∀ entry ∈ storedEntries currentCollections, entry.startSeqno ≤ bound
  open_cid : ∀ cid oc, s cid = some oc → oc.metaData.cid = cid
  view_eq : ∀ cid, openView f currentCollections cid = (s cid).map render
  noClash : ∀ cid, NoClashAt f currentCollections cid

section Inv

variable {f : Flush} {currentCollections : Option (List Collection)} {s : OpenCollections} {bound : Nat}

theorem FlushInv.createdMeta_cid (hinv : FlushInv f currentCollections s bound) {cid : CollectionID}
    {span : CollectionSpan} (hspan : f.collections.lookup cid = some span) : (createdMeta f cid span).cid = cid := by
  unfold createdMeta getMaybeModifiedCollectionMetaData
  cases hm : f.collectionMods.lookup cid with
  | none => exact (hinv.span_high cid span hspan).1
  | some m =>
    dsimp only
    split
    · exact (hinv.mod_le cid m hm).1
    · exact (hinv.span_high cid span hspan).1

theorem FlushInv.mono (hinv : FlushInv f currentCollections s bound) {bound' : Nat} (hle : bound ≤ bound') :
    FlushInv f currentCollections s bound' where
  collections_nodup := hinv.collections_nodup
  span_high cid span h := ⟨(hinv.span_high cid span h).1, (hinv.span_high cid span h).2.trans hle⟩
  mod_le cid m h := ⟨(hinv.mod_le cid m h).1, (hinv.mod_le cid m h).2.trans hle⟩
  drop_le cid d h := (hinv.drop_le cid d h).trans hle
  stored_le entry h := (hinv.stored_le entry h).trans hle
  open_cid := hinv.open_cid
  view_eq := hinv.view_eq
  noClash := hinv.noClash

/-- A stored collection the batch did not drop is open, with a flush uid at
least the stored one. -/
theorem FlushInv.stored_flushUid_le (hinv : FlushInv f currentCollections s bound) {cid : CollectionID}
    {entry : Collection} (hdrop : f.droppedCollections.lookup cid = none)
    (hentry : (keyedEntries (storedEntries currentCollections)).lookup cid = some entry) :
    ∃ oc, s cid = some oc ∧ entry.flushUid ≤ oc.metaData.flushUid := by
  cases hspan : f.collections.lookup cid with
  | some span =>
    -- the first loop outputs it, with a flush uid above the stored one
    have hout : createdOutput f cid span = some (createdEntry f cid span) := by
      unfold createdOutput
      rw [hdrop]
    have hview := (openView_of_created hspan hout).symm.trans (hinv.view_eq cid)
    obtain ⟨oc, hoc, hr⟩ := Option.map_eq_some_iff.mp hview.symm
    have hflushUid : oc.metaData.flushUid = (createdMeta f cid span).flushUid := congrArg Collection.flushUid hr
    exact ⟨oc, hoc, hflushUid ▸ (hinv.noClash cid span entry hspan hdrop hentry).le⟩
  | none =>
    have hview := (openView_of_stored hspan hdrop hentry).symm.trans (hinv.view_eq cid)
    obtain ⟨oc, hoc, hr⟩ := Option.map_eq_some_iff.mp hview.symm
    have hflushUid : oc.metaData.flushUid = entry.flushUid := congrArg Collection.flushUid hr
    exact ⟨oc, hoc, hflushUid.ge⟩

/-- A modify carrying the collection's scope, name and flush uid renders as
the entry the merge builds from the modify's metadata. -/
theorem render_applyModify {oc : OpenCollection} {m : CollectionMetaData} (hsid : oc.metaData.sid = m.sid)
    (hcid : oc.metaData.cid = m.cid) (hname : oc.metaData.name = m.name)
    (hflushUid : oc.metaData.flushUid = m.flushUid) :
    render ⟨oc.startSeqno, oc.metaData.applyModify m⟩ =
      createCollection oc.startSeqno m.sid m.cid m m.name m.flushUid := by
  have hfields : mutableFields (oc.metaData.applyModify m) = mutableFields m := rfl
  show createCollection oc.startSeqno oc.metaData.sid oc.metaData.cid (oc.metaData.applyModify m)
    oc.metaData.name oc.metaData.flushUid = _
  rw [hsid, hcid, hname, hflushUid]
  exact createCollection_congr hfields _ _ _ _ _

/-- Recording a create: the collection is open from the create's seqno with
its metadata. -/
theorem FlushInv.beginCollection (hinv : FlushInv f currentCollections s bound) {seqno : Nat}
    {c : CollectionEvent} (hlt : bound < seqno)
    (hflush : ∀ oc, s (getCollectionEventData c).metaData.cid = some oc →
      oc.metaData.flushUid < (getCollectionEventData c).metaData.flushUid) :
    FlushInv (recordCreateCollection f seqno c) currentCollections
      (Function.update s (getCollectionEventData c).metaData.cid
        (some ⟨seqno, (getCollectionEventData c).metaData⟩)) seqno := by
  have hsame : ∀ q, q ≠ (getCollectionEventData c).metaData.cid → SameAt f (recordCreateCollection f seqno c) q :=
    fun q hq => recordCreateCollection_sameAt f seqno c hq
  obtain ⟨span', hspan', hhigh⟩ := recordCreateCollection_high f seqno c
    fun span h => (hinv.span_high _ span h).2.trans_lt hlt
  -- the modifies recorded so far are all before the create
  have hmeta : createdMeta (recordCreateCollection f seqno c) (getCollectionEventData c).metaData.cid span' =
      (getCollectionEventData c).metaData := by
    unfold createdMeta
    rw [getMaybeModifiedCollectionMetaData_of_le fun mo h => by
      rw [hhigh]
      exact ((hinv.mod_le _ mo h).2.trans_lt hlt).le, hhigh]
  constructor
  · exact nodup_keys_tryEmplace _ _ _ hinv.collections_nodup
  · intro q span h
    by_cases hq : q = (getCollectionEventData c).metaData.cid
    · subst hq
      rw [hspan', Option.some.injEq] at h
      subst h
      rw [hhigh]
      exact ⟨rfl, le_rfl⟩
    · rw [(hsame q hq).collections] at h
      exact ⟨(hinv.span_high q span h).1, ((hinv.span_high q span h).2.trans_lt hlt).le⟩
  · exact fun q mo h => ⟨(hinv.mod_le q mo h).1, ((hinv.mod_le q mo h).2.trans_lt hlt).le⟩
  · exact fun q d h => ((hinv.drop_le q d h).trans_lt hlt).le
  · exact fun entry h => ((hinv.stored_le entry h).trans_lt hlt).le
  · intro q oc h
    by_cases hq : q = (getCollectionEventData c).metaData.cid
    · subst hq
      rw [Function.update_self, Option.some.injEq] at h
      rw [← h]
    · rw [Function.update_of_ne hq] at h
      exact hinv.open_cid q oc h
  · intro q
    by_cases hq : q = (getCollectionEventData c).metaData.cid
    · subst hq
      rw [Function.update_self, Option.map_some]
      refine openView_of_created hspan' ?_
      rw [← hhigh]
      exact createdOutput_of_le
        (fun d h => by rw [hhigh]; exact ((hinv.drop_le _ d h).trans_lt hlt).le)
        (fun mo h => by rw [hhigh]; exact ((hinv.mod_le _ mo h).2.trans_lt hlt).le)
    · rw [openView_congr (hsame q hq), Function.update_of_ne hq]
      exact hinv.view_eq q
  · intro q
    by_cases hq : q = (getCollectionEventData c).metaData.cid
    · -- a flush outputs a flush uid above the stored one, which the open one bounds
      subst hq
      intro span entry hspan hdrop hentry
      rw [hspan', Option.some.injEq] at hspan
      subst hspan
      rw [hmeta]
      obtain ⟨oc, hoc, hle⟩ := hinv.stored_flushUid_le hdrop hentry
      exact hle.trans_lt (hflush oc hoc)
    · exact (hinv.noClash q).congr (hsame q hq)

/-- Recording a modify of an open collection that carries its scope, name
and flush uid: the collection takes the modify's mutable metadata. -/
theorem FlushInv.modifyCollection (hinv : FlushInv f currentCollections s bound) {seqno : Nat}
    {c : CollectionEvent} (hlt : bound < seqno)
    (hmodify : ∃ oc, s (getCollectionEventData c).metaData.cid = some oc ∧
      oc.metaData.sid = (getCollectionEventData c).metaData.sid ∧
      oc.metaData.name = (getCollectionEventData c).metaData.name ∧
      oc.metaData.flushUid = (getCollectionEventData c).metaData.flushUid) :
    FlushInv (recordModifyCollection f seqno c) currentCollections
      (Function.update s (getCollectionEventData c).metaData.cid
        ((s (getCollectionEventData c).metaData.cid).map fun oc =>
          ⟨oc.startSeqno, oc.metaData.applyModify (getCollectionEventData c).metaData⟩)) seqno := by
  obtain ⟨oc, hoc, hsid, hname, hflushUid⟩ := hmodify
  have hcid : oc.metaData.cid = (getCollectionEventData c).metaData.cid := hinv.open_cid _ oc hoc
  have hsame : ∀ q, q ≠ (getCollectionEventData c).metaData.cid → SameAt f (recordModifyCollection f seqno c) q :=
    fun q hq => recordModifyCollection_sameAt f seqno c hq
  have hmod' := recordModifyCollection_mod f seqno c fun mo h => (hinv.mod_le _ mo h).2.trans_lt hlt
  -- every record before the modify is at or below `bound`, so the modify is what the merge reads
  have hmeta : ∀ span, f.collections.lookup (getCollectionEventData c).metaData.cid = some span →
      createdMeta (recordModifyCollection f seqno c) (getCollectionEventData c).metaData.cid span =
        (getCollectionEventData c).metaData := fun span hspan =>
    getMaybeModifiedCollectionMetaData_of_lt hmod' ((hinv.span_high _ span hspan).2.trans_lt hlt) _
  have hold : openView f currentCollections (getCollectionEventData c).metaData.cid = some (render oc) := by
    rw [hinv.view_eq, hoc]
    rfl
  constructor
  · exact hinv.collections_nodup
  · exact fun q span h => ⟨(hinv.span_high q span h).1, ((hinv.span_high q span h).2.trans_lt hlt).le⟩
  · intro q mo h
    by_cases hq : q = (getCollectionEventData c).metaData.cid
    · subst hq
      rw [hmod', Option.some.injEq] at h
      rw [← h]
      exact ⟨rfl, le_rfl⟩
    · rw [(hsame q hq).collectionMods] at h
      exact ⟨(hinv.mod_le q mo h).1, ((hinv.mod_le q mo h).2.trans_lt hlt).le⟩
  · exact fun q d h => ((hinv.drop_le q d h).trans_lt hlt).le
  · exact fun entry h => ((hinv.stored_le entry h).trans_lt hlt).le
  · intro q oc' h
    by_cases hq : q = (getCollectionEventData c).metaData.cid
    · subst hq
      rw [Function.update_self, hoc, Option.map_some, Option.some.injEq] at h
      rw [← h]
      exact hcid
    · rw [Function.update_of_ne hq] at h
      exact hinv.open_cid q oc' h
  · intro q
    by_cases hq : q = (getCollectionEventData c).metaData.cid
    · subst hq
      rw [Function.update_self, hoc, Option.map_some, Option.map_some,
        render_applyModify hsid hcid hname hflushUid]
      rcases openView_eq_some hold with ⟨span, hspan, hout⟩ | ⟨hspan, hdrop, entry, hentry, he⟩
      · -- the first loop's entry: the modify's metadata at the last create's seqno
        obtain ⟨he, hout'⟩ := createdOutput_of_droppedCollections
          (show (recordModifyCollection f seqno c).droppedCollections.lookup (getCollectionEventData c).metaData.cid =
            f.droppedCollections.lookup (getCollectionEventData c).metaData.cid from rfl) hout
        have hstart : oc.startSeqno = span.high.startSeqno := congrArg Collection.startSeqno he
        have hspan' : (recordModifyCollection f seqno c).collections.lookup (getCollectionEventData c).metaData.cid =
            some span := hspan
        rw [openView_of_created hspan' hout', hstart]
        unfold createdEntry
        rw [hmeta span hspan]
      · -- the stored entry: its identity, with the modify's mutable metadata
        obtain ⟨hentry_cid, hmem⟩ := lookup_keyedEntries_cid hentry
        have hstart : oc.startSeqno = entry.startSeqno := congrArg Collection.startSeqno he
        have hsid' : oc.metaData.sid = entry.scopeId := congrArg Collection.scopeId he
        have hcid' : oc.metaData.cid = entry.collectionId := congrArg Collection.collectionId he
        have hname' : oc.metaData.name = entry.name := congrArg Collection.name he
        have hflushUid' : oc.metaData.flushUid = entry.flushUid := congrArg Collection.flushUid he
        have hspan' : (recordModifyCollection f seqno c).collections.lookup (getCollectionEventData c).metaData.cid =
            none := hspan
        have hdrop' : (recordModifyCollection f seqno c).droppedCollections.lookup
            (getCollectionEventData c).metaData.cid = none := hdrop
        rw [openView_of_stored hspan' hdrop' hentry, ← hsid, ← hcid, ← hname, ← hflushUid, hstart, hsid', hcid',
          hname', hflushUid']
        unfold persistedEntry
        rw [getMaybeModifiedCollectionMetaData_of_lt (hentry_cid ▸ hmod')
          ((hinv.stored_le entry hmem).trans_lt hlt)]
    · rw [openView_congr (hsame q hq), Function.update_of_ne hq]
      exact hinv.view_eq q
  · intro q
    by_cases hq : q = (getCollectionEventData c).metaData.cid
    · -- the modify keeps the flush uid the first loop outputs
      subst hq
      intro span entry hspan' hdrop' hentry
      have hspan : f.collections.lookup (getCollectionEventData c).metaData.cid = some span := hspan'
      have hdrop : f.droppedCollections.lookup (getCollectionEventData c).metaData.cid = none := hdrop'
      have hout : createdOutput f (getCollectionEventData c).metaData.cid span =
          some (createdEntry f (getCollectionEventData c).metaData.cid span) := by
        unfold createdOutput
        rw [hdrop]
      have he : createdEntry f _ span = render oc :=
        Option.some.inj ((openView_of_created hspan hout).symm.trans hold)
      have hflushUid' : (createdMeta f _ span).flushUid = oc.metaData.flushUid := congrArg Collection.flushUid he
      rw [hmeta span hspan, ← hflushUid, ← hflushUid']
      exact hinv.noClash _ span entry hspan hdrop hentry
    · exact (hinv.noClash q).congr (hsame q hq)

/-- Recording a drop: the collection is closed. -/
theorem FlushInv.endCollection (hinv : FlushInv f currentCollections s bound) {seqno : Nat}
    {d : DroppedCollectionEvent} (hlt : bound < seqno) :
    FlushInv (recordDropCollection f seqno d) currentCollections (Function.update s d.collectionId none) seqno := by
  have hsame : ∀ q, q ≠ d.collectionId → SameAt f (recordDropCollection f seqno d) q :=
    fun q hq => recordDropCollection_sameAt f seqno d hq
  have hdrop' := recordDropCollection_drop f seqno d fun old h => (hinv.drop_le _ old h).trans_lt hlt
  constructor
  · exact hinv.collections_nodup
  · exact fun q span h => ⟨(hinv.span_high q span h).1, ((hinv.span_high q span h).2.trans_lt hlt).le⟩
  · exact fun q mo h => ⟨(hinv.mod_le q mo h).1, ((hinv.mod_le q mo h).2.trans_lt hlt).le⟩
  · intro q dropped h
    by_cases hq : q = d.collectionId
    · subst hq
      rw [hdrop', Option.some.injEq] at h
      rw [← h]
    · rw [(hsame q hq).droppedCollections] at h
      exact ((hinv.drop_le q dropped h).trans_lt hlt).le
  · exact fun entry h => ((hinv.stored_le entry h).trans_lt hlt).le
  · intro q oc h
    by_cases hq : q = d.collectionId
    · subst hq
      rw [Function.update_self] at h
      cases h
    · rw [Function.update_of_ne hq] at h
      exact hinv.open_cid q oc h
  · intro q
    by_cases hq : q = d.collectionId
    · -- every create recorded so far is before the drop
      subst hq
      rw [Function.update_self, Option.map_none]
      exact openView_of_dropped hdrop' fun span hspan => (hinv.span_high _ span hspan).2.trans_lt hlt
    · rw [openView_congr (hsame q hq), Function.update_of_ne hq]
      exact hinv.view_eq q
  · intro q
    by_cases hq : q = d.collectionId
    · subst hq
      intro span entry hspan hdrop
      rw [hdrop'] at hdrop
      cases hdrop
    · exact (hinv.noClash q).congr (hsame q hq)

/-- Recording one event the manifest could have queued keeps the invariant,
up to the event's seqno. -/
theorem FlushInv.step (hinv : FlushInv f currentCollections s bound) {e : QueuedEvent}
    (he : BatchEventOk s bound e) :
    FlushInv (recordSystemEvent f e) currentCollections (applyEvent s e) e.seqno := by
  obtain ⟨seqno, event⟩ := e
  obtain ⟨hlt, hevent⟩ := he
  cases event with
  | beginCollection c => exact hinv.beginCollection hlt hevent
  | modifyCollection c => exact hinv.modifyCollection hlt hevent
  | endCollection d => exact hinv.endCollection hlt
  | createScope _ => exact hinv.mono hlt.le
  | dropScope _ => exact hinv.mono hlt.le

/-- Before the batch the records are empty and the view is the store. -/
theorem FlushInv.init (hbound : ∀ entry ∈ storedEntries currentCollections, entry.startSeqno ≤ bound) :
    FlushInv Flush.empty currentCollections (initialState currentCollections) bound where
  collections_nodup := List.nodup_nil
  span_high _ _ h := by cases h
  mod_le _ _ h := by cases h
  drop_le _ _ h := by cases h
  stored_le := hbound
  open_cid cid oc h := by
    obtain ⟨entry, hentry, rfl⟩ := Option.map_eq_some_iff.mp h
    exact (lookup_keyedEntries_cid hentry).1
  view_eq cid := by
    unfold openView persistedView createdView initialState
    cases (keyedEntries (storedEntries currentCollections)).lookup cid with
    | none => rfl
    | some entry => rfl
  noClash _ _ _ h := by cases h

/-- Recording a batch the manifest could have queued keeps the invariant. -/
theorem FlushInv.run : ∀ (events : List QueuedEvent) {f : Flush} {s : OpenCollections} {bound : Nat},
    FlushInv f currentCollections s bound → ManifestBatch s bound events →
    ∃ bound', FlushInv (events.foldl recordSystemEvent f) currentCollections (applyEvents s events) bound'
  | [], _, _, bound, hinv, _ => ⟨bound, hinv⟩
  | _ :: events, _, _, _, hinv, hbatch => FlushInv.run events (hinv.step hbatch.1) hbatch.2

end Inv

/-! ## The merge of a batch -/

/-- A store holding collection `8` from seqno `1`. -/
def storedExample : List Collection := [⟨1, 0, 8, false, 0, "c", false, false, 0⟩]

/-- A batch that modifies collection `8`, creates collection `9` and drops
the default collection. -/
def batchExample : List QueuedEvent :=
  [⟨5, .modifyCollection ⟨2, 0, 8, true, 10, "c", false, false, 0⟩⟩,
    ⟨6, .beginCollection ⟨3, 0, 9, false, 0, "d", false, false, 0⟩⟩,
    ⟨7, .endCollection ⟨4, 0, 0, false⟩⟩]

end KvEngine.Collections
