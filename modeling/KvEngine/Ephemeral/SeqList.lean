import Mathlib
import KvEngine.Lib.ListIter
import KvEngine.Lib.TransitionSystem

/-!
# The sequence list of an ephemeral vbucket and its counters (`linked_list.cc`)

An ephemeral vbucket keeps every `OrderedStoredValue` both in its hash table
and in `BasicLinkedList::seqList`, in seqno order. A value that a range read
still needs is not updated in place: it leaves the hash table, stays in the
list marked stale (pointing at its replacement, if any), and is freed later by
`purgeTombstones`. Beside the list, `BasicLinkedList` keeps counters of what
it holds: `numStaleItems`, `staleSize`, `staleMetaDataSize` and
`numDeletedItems`.

The model: the list is a list of records, each with an `id` standing for its
address; the hash table's values are the list's values that are not stale
(`findForUpdate`), so a release from the hash table is the `markItemStale`
that follows it. Each front-end write of `ephemeral_vb.cc`, a visit of the
`HTTombstonePurger` and a whole run of `purgeStaleItems` is one step (`step`);
which of `updateListElem`'s two paths a write takes depends on the range
locks held, and is the step's argument, as is the outcome of the purge's own
range lock. The seqnos a write is given come from the checkpoint manager and
are above every seqno of the list. The counters are `Nat`s: a decrement below
zero, which `Accounting` rules out, is not modelled.

What is proved of it is in the modules that follow: the list stays in seqno
order over every run (`SeqListWf`); the replacement a stale value points at is
a value of the list (`SeqListStale`); the counters equal what they count over
every run in which no abort hits a deleted prepare and no purge drops a live
value, the stale ones never fall below it over every run, and
an abort of a deleted prepare puts `numDeletedItems` off by one
(`SeqListAccounting`); a purge returns how many values it freed and frees no
value the hash table holds of a key that is not logically deleted
(`SeqListPurge`).
-/

namespace KvEngine.Ephemeral

/-! ## Stored values -/

/-- `CommittedState` of a stored value. -/
inductive CommittedState where
  | committedViaMutation
  | committedViaPrepare
  | pending
  | preparedMaybeVisible
  | prepareAborted
  | prepareCommitted
  deriving DecidableEq, Repr

/-- What the list reads and writes of an `OrderedStoredValue`: its address
`id`, key, seqno, deleted bit, committed state, the stale bit with the
replacement it points at, the stale-replacement bit, and the two parts of its
size: `getObjectSize()` (the fixed part and the key) and `valuelen()`. -/
structure OrderedStoredValue (κ : Type) where
  id : Nat
  key : κ
  bySeqno : Int
  deleted : Bool
  committed : CommittedState
  stale : Bool
  replacement : Option Nat
  staleReplacement : Bool
  objectSize : Nat
  valueSize : Nat
  deriving DecidableEq, Repr

namespace OrderedStoredValue

variable {κ : Type}

/-- `size()`. -/
def size (o : OrderedStoredValue κ) : Nat := o.objectSize + o.valueSize

/-- `metaDataSize()`. -/
def metaDataSize (o : OrderedStoredValue κ) : Nat := o.objectSize

/-- `isPending()`. -/
def isPending (o : OrderedStoredValue κ) : Bool :=
  o.committed == .pending || o.committed == .preparedMaybeVisible

/-- `isPrepareCompleted()`. -/
def isPrepareCompleted (o : OrderedStoredValue κ) : Bool :=
  o.committed == .prepareAborted || o.committed == .prepareCommitted

/-- What `markStale(newSv)` does to the value itself: stale, pointing at its
replacement. -/
def markStale (newSv : Option Nat) (o : OrderedStoredValue κ) : OrderedStoredValue κ :=
  { o with stale := true, replacement := newSv }

/-- `setStaleReplacement(value)`. -/
def setStaleReplacement (value : Bool) (o : OrderedStoredValue κ) : OrderedStoredValue κ :=
  { o with staleReplacement := value }

end OrderedStoredValue

/-- What a write stores, as its `Item`: the key, the object size a stored
value of that key has, the deleted bit, the committed state and the value
length. -/
structure Item (κ : Type) where
  key : κ
  objectSize : Nat
  deleted : Bool
  committed : CommittedState
  valueSize : Nat
  deriving DecidableEq, Repr

/-- `unlocked_addNewStoredValue(itm)`: a new value at address `id`, with the
seqno `queueDirty` gives it. -/
def Item.toStoredValue {κ : Type} (itm : Item κ) (id : Nat) (bySeqno : Int) : OrderedStoredValue κ where
  id := id
  key := itm.key
  bySeqno := bySeqno
  deleted := itm.deleted
  committed := itm.committed
  stale := false
  replacement := none
  staleReplacement := false
  objectSize := itm.objectSize
  valueSize := itm.valueSize

/-- `SequenceList::UpdateStatus`. -/
inductive UpdateStatus where
  | success
  | append
  deriving DecidableEq, Repr

/-! ## The list -/

/-- What `BasicLinkedList` keeps: the list, its counters, its high seqno, the
highest seqno of a deleted value purged, and where a paused purge resumes
(`none` for `seqList.end()`). -/
structure BasicLinkedList (κ : Type) where
  seqList : List (OrderedStoredValue κ)
  staleSize : Nat
  staleMetaDataSize : Nat
  highSeqno : Int
  highestPurgedDeletedSeqno : Int
  numStaleItems : Nat
  numDeletedItems : Nat
  pausedPurgePoint : Option Nat
  deriving DecidableEq, Repr

namespace BasicLinkedList

variable {κ : Type} [DecidableEq κ]

/-- `BasicLinkedList(vbid, st)`: no value, every counter at zero. -/
def empty : BasicLinkedList κ := ⟨[], 0, 0, 0, 0, 0, 0, none⟩

/-- An address no value of the list has. -/
def freshId (l : BasicLinkedList κ) : Nat :=
  l.seqList.foldr (fun o m => max o.id m) 0 + 1

/-- `appendToList`. -/
def appendToList (v : OrderedStoredValue κ) (l : BasicLinkedList κ) : BasicLinkedList κ :=
  { l with seqList := l.seqList ++ [v] }

/-- The hash table's in-place update of the value at `v.id` to `v`. -/
def updateValue (v : OrderedStoredValue κ) (l : BasicLinkedList κ) : BasicLinkedList κ :=
  { l with seqList := ListIter.modify OrderedStoredValue.id l.seqList v.id fun _ => v }

/-- `updateListElem`: a value inside the locked range (`rangeContains`)
stays where it is; any other moves to the back, and a purge paused at it
resumes at the value after it. -/
def updateListElem (rangeContains : Bool) (v : OrderedStoredValue κ) (l : BasicLinkedList κ) :
    UpdateStatus × BasicLinkedList κ :=
  if rangeContains then (.append, l)
  else
    (.success, { l with
      pausedPurgePoint := ListIter.repoint l.pausedPurgePoint v.id
        ((ListIter.nextAfter OrderedStoredValue.id v.id l.seqList).map (·.id))
      seqList := ListIter.erase OrderedStoredValue.id l.seqList v.id ++ [v] })

/-- `updateHighSeqno(v)`; the seqnos a write is given are above every seqno
of the list, so the monotonic store never refuses. -/
def updateHighSeqno (v : OrderedStoredValue κ) (l : BasicLinkedList κ) : BasicLinkedList κ :=
  { l with highSeqno := v.bySeqno }

/-- `markItemStale(v, newSv)`: the list takes `v` over from the hash table:
its size goes to the stale counters, it is marked stale pointing at its
replacement, and the replacement is marked as one. -/
def markItemStale (v : OrderedStoredValue κ) (newSv : Option Nat) (l : BasicLinkedList κ) :
    BasicLinkedList κ :=
  let marked := ListIter.modify OrderedStoredValue.id l.seqList v.id (OrderedStoredValue.markStale newSv)
  { l with
    staleSize := l.staleSize + v.size
    staleMetaDataSize := l.staleMetaDataSize + v.metaDataSize
    numStaleItems := l.numStaleItems + 1
    seqList := match newSv with
      | none => marked
      | some n => ListIter.modify OrderedStoredValue.id marked n (OrderedStoredValue.setStaleReplacement true) }

/-- `updateNumDeletedItems(oldDeleted, newDeleted)`. -/
def updateNumDeletedItems (oldDeleted newDeleted : Bool) (l : BasicLinkedList κ) : BasicLinkedList κ :=
  if oldDeleted && !newDeleted then { l with numDeletedItems := l.numDeletedItems - 1 }
  else if !oldDeleted && newDeleted then { l with numDeletedItems := l.numDeletedItems + 1 }
  else l

/-- `purgeListElem(it, isStale, isReplaced)`: erase the value and free it
(freeing a stale value clears the stale-replacement bit of its replacement);
take it off the stale counters when the caller read it as stale, off
`numDeletedItems` when it is deleted, and let a stale, unreplaced, deleted
value raise `highestPurgedDeletedSeqno`. -/
def purgeListElem (it : OrderedStoredValue κ) (isStale isReplaced : Bool) (l : BasicLinkedList κ) :
    BasicLinkedList κ :=
  let erased := ListIter.erase OrderedStoredValue.id l.seqList it.id
  let l := { l with
    seqList := match it.stale, it.replacement with
      | true, some r => ListIter.modify OrderedStoredValue.id erased r (OrderedStoredValue.setStaleReplacement false)
      | _, _ => erased }
  let l := if isStale then
      { l with
        staleSize := l.staleSize - it.size
        staleMetaDataSize := l.staleMetaDataSize - it.metaDataSize
        numStaleItems := l.numStaleItems - 1 }
    else l
  let l := if it.deleted then { l with numDeletedItems := l.numDeletedItems - 1 } else l
  if isStale && !isReplaced && it.deleted && l.highestPurgedDeletedSeqno < it.bySeqno then
    { l with highestPurgedDeletedSeqno := it.bySeqno }
  else l

/-- One value of `purgeTombstones`'s loop, inside the locked range: whether
it was purged, and the list after. The stale bits are read before the
callback runs; a value that is neither stale nor dropped, or that a stale
value still points at, stays. -/
def purgeOne (isDroppedKeyCb : κ → Int → BasicLinkedList κ → Bool × BasicLinkedList κ)
    (it : OrderedStoredValue κ) (l : BasicLinkedList κ) : Bool × BasicLinkedList κ :=
  let stale := it.stale
  let replaced := it.stale && it.replacement.isSome
  match (if !stale then isDroppedKeyCb it.key it.bySeqno l else (false, l)) with
  | (isDropped, l) =>
    if !it.staleReplacement && (stale || isDropped) then
      match ListIter.find OrderedStoredValue.id l.seqList it.id with
      | some cur => (true, purgeListElem cur stale replaced l)
      | none => (false, l)
    else (false, l)

/-- The loop of `purgeTombstones` over the values from its start, given by
address: nothing but the value in hand leaves the list while it runs.
`visited` counts the values done, for `shouldPause`. -/
def purgeLoop (isDroppedKeyCb : κ → Int → BasicLinkedList κ → Bool × BasicLinkedList κ)
    (shouldPause : Nat → Bool) (lastLockedSeqno purgeUpToSeqno : Int) :
    List Nat → Nat → Nat → BasicLinkedList κ → Nat × BasicLinkedList κ
  | [], _, purgedCount, l => (purgedCount, l)
  | id :: rest, visited, purgedCount, l =>
    match ListIter.find OrderedStoredValue.id l.seqList id with
    | none => (purgedCount, l)
    | some it =>
      if lastLockedSeqno < it.bySeqno then
        -- past the locked range: a partial lock resumes here next time
        (purgedCount, if lastLockedSeqno ≠ purgeUpToSeqno then { l with pausedPurgePoint := some id } else l)
      else if it.bySeqno ≤ 0 then (purgedCount, l)
      else
        match purgeOne isDroppedKeyCb it l with
        | (purged, l) =>
          let purgedCount := if purged then purgedCount + 1 else purgedCount
          if shouldPause (visited + 1) then (purgedCount, { l with pausedPurgePoint := rest.head? })
          else purgeLoop isDroppedKeyCb shouldPause lastLockedSeqno purgeUpToSeqno rest (visited + 1) purgedCount l

/-- Where `purgeTombstones` starts: at the paused point, or at the front. -/
def purgeFrom (l : BasicLinkedList κ) : List (OrderedStoredValue κ) :=
  match l.pausedPurgePoint with
  | some id => l.seqList.dropWhile fun (o : OrderedStoredValue κ) => o.id != id
  | none => l.seqList

/-- `purgeTombstones(purgeUpToSeqno, isDroppedKeyCb, shouldPause)`. The range
lock it takes from its start seqno is given by its outcome `lockedEnd`:
`none` when it is refused or granted from a later start (nothing is purged),
else the end of the range granted. -/
def purgeTombstones (purgeUpToSeqno : Int)
    (isDroppedKeyCb : κ → Int → BasicLinkedList κ → Bool × BasicLinkedList κ)
    (shouldPause : Nat → Bool) (lockedEnd : Option Int) (l : BasicLinkedList κ) :
    Except String (Nat × BasicLinkedList κ) :=
  if l.seqList = [] then .ok (0, l)
  else
    let fromStart := l.purgeFrom
    let l := { l with pausedPurgePoint := none }
    match fromStart with
    | [] => .ok (0, l)
    | startIt :: _ =>
      if purgeUpToSeqno < startIt.bySeqno then .ok (0, l)
      else
        match lockedEnd with
        | none => .ok (0, l)
        | some lastLockedSeqno =>
          if lastLockedSeqno < startIt.bySeqno then .error "Expects(lastLockedSeqno >= startSeqno)"
          else if purgeUpToSeqno < lastLockedSeqno then .error "Expects(lastLockedSeqno <= purgeUpToSeqno)"
          else .ok (purgeLoop isDroppedKeyCb shouldPause lastLockedSeqno purgeUpToSeqno
            (fromStart.map (·.id)) 0 0 l)

end BasicLinkedList

/-! ## The vbucket's writes and purges -/

namespace EphemeralVBucket

open BasicLinkedList

variable {κ : Type} [DecidableEq κ]

/-- `HashTable::unlocked_find` over the hash table's values, the list's values
that are not stale: the prepared value (pending or a completed prepare) and
the committed one of a key. -/
def findForUpdate (k : κ) (l : BasicLinkedList κ) :
    Option (OrderedStoredValue κ) × Option (OrderedStoredValue κ) :=
  (l.seqList.find? fun o => !o.stale && o.key == k && (o.isPending || o.isPrepareCompleted),
    l.seqList.find? fun o => !o.stale && o.key == k && !(o.isPending || o.isPrepareCompleted))

/-- `addNewStoredValue(itm)`. -/
def addNewStoredValue (itm : Item κ) (seqno : Int) (l : BasicLinkedList κ) : BasicLinkedList κ :=
  let v := itm.toStoredValue l.freshId seqno
  (((l.appendToList v).updateHighSeqno v)).updateNumDeletedItems false itm.deleted

/-- `updateStoredValue(v, itm)`: moved to the back and updated in place, or,
inside a locked range, replaced by a new value and marked stale. -/
def updateStoredValue (v : OrderedStoredValue κ) (itm : Item κ) (rangeContains : Bool) (seqno : Int)
    (l : BasicLinkedList κ) : BasicLinkedList κ :=
  match l.updateListElem rangeContains v with
  | (.success, l) =>
    let newSv := { v with
      deleted := itm.deleted, committed := itm.committed, valueSize := itm.valueSize, bySeqno := seqno }
    ((l.updateValue newSv).updateNumDeletedItems v.deleted itm.deleted).updateHighSeqno newSv
  | (.append, l) =>
    let newSv := itm.toStoredValue l.freshId seqno
    let l := (l.appendToList newSv).updateNumDeletedItems false itm.deleted
    (l.updateHighSeqno newSv).markItemStale v (some newSv.id)

/-- `HashTable::unlocked_softDelete`: a completed prepare is refused; otherwise
the value is deleted (its value dropped unless only marked deleted) and
becomes committed via mutation. -/
def softDelete (onlyMarkDeleted : Bool) (v : OrderedStoredValue κ) : Except String (OrderedStoredValue κ) :=
  if v.isPrepareCompleted then .error "HashTable::unlocked_softDelete attempting to delete a completed prepare"
  else .ok { v with
    deleted := true
    valueSize := if onlyMarkDeleted then v.valueSize else 0
    committed := .committedViaMutation }

/-- `HashTable::unlocked_replaceByCopy`: a copy of `v` at a new address takes
its place in the hash table. -/
def replaceByCopy (v : OrderedStoredValue κ) (l : BasicLinkedList κ) : OrderedStoredValue κ :=
  { v with id := l.freshId, replacement := none, staleReplacement := false }

/-- `softDeleteStoredValue(v, onlyMarkDeleted)`. -/
def softDeleteStoredValue (v : OrderedStoredValue κ) (onlyMarkDeleted rangeContains : Bool) (seqno : Int)
    (l : BasicLinkedList κ) : Except String (BasicLinkedList κ) :=
  match l.updateListElem rangeContains v with
  | (.success, l) => do
    let l := l.updateNumDeletedItems v.deleted true
    let newSv ← softDelete onlyMarkDeleted v
    let newSv := { newSv with bySeqno := seqno }
    .ok ((l.updateValue newSv).updateHighSeqno newSv)
  | (.append, l) => do
    let copy := replaceByCopy v l
    -- counted as a new deleted value, as an added one would be
    let l := (l.appendToList copy).updateNumDeletedItems false true
    let newSv ← softDelete onlyMarkDeleted copy
    let newSv := { newSv with bySeqno := seqno }
    .ok (((l.updateValue newSv).updateHighSeqno newSv).markItemStale v (some newSv.id))

/-- `commitStoredValue(values)` for the values of key `k`: the prepare's item,
committed via prepare, updates the committed value or is added, and the
prepare is completed in place. -/
def commitStoredValue (k : κ) (rangeContains : Bool) (seqno : Int) (l : BasicLinkedList κ) :
    Except String (BasicLinkedList κ) :=
  match findForUpdate k l with
  | (none, _) => .error "EphemeralVBucket::commitStoredValue: Cannot call on a non-Pending StoredValue"
  | (some p, committed) =>
    let itm : Item κ := ⟨p.key, p.objectSize, p.deleted, .committedViaPrepare, p.valueSize⟩
    let l := match committed with
      | some c => updateStoredValue c itm rangeContains seqno l
      | none => addNewStoredValue itm seqno l
    .ok (l.updateValue { p with committed := .prepareCommitted })

/-- `updateSeqListPostAbort(oldOsv, newOsv)`: the deleted count goes from the
old value's bit (none when there is no old value) to the new value's. -/
def updateSeqListPostAbort (oldOsv : Option (OrderedStoredValue κ)) (newOsv : OrderedStoredValue κ)
    (l : BasicLinkedList κ) : BasicLinkedList κ :=
  (l.updateNumDeletedItems ((oldOsv.map (·.deleted)).getD false) newOsv.deleted).updateHighSeqno newOsv

/-- `abortStoredValue(prepared)`: the prepare becomes an abort in place, or,
inside a locked range, a copy does and the prepare is marked stale. The
unlocked abort keeps the deleted bit. -/
def abortStoredValue (p : OrderedStoredValue κ) (rangeContains : Bool) (seqno : Int) (l : BasicLinkedList κ) :
    Except String (BasicLinkedList κ) :=
  if !(p.isPending || p.isPrepareCompleted) then
    .error "EphemeralVBucket::abortStoredValue: Cannot call on a non-Pending and non-Completed StoredValue"
  else
    match l.updateListElem rangeContains p with
    | (.success, l) =>
      let newSv := { p with bySeqno := seqno, committed := .prepareAborted }
      .ok (updateSeqListPostAbort none newSv (l.updateValue newSv))
    | (.append, l) =>
      let copy := replaceByCopy p l
      let newSv := { copy with bySeqno := seqno, committed := .prepareAborted }
      let l := (l.appendToList copy).updateValue newSv
      .ok ((updateSeqListPostAbort (some p) newSv l).markItemStale p (some newSv.id))

/-- `addNewAbort(key)` for an abort with no prepare seen: `createNewAbortedItem`
gives a deleted abort with no value. -/
def addNewAbort (k : κ) (objectSize : Nat) (seqno : Int) (l : BasicLinkedList κ) : BasicLinkedList κ :=
  let newSv := (⟨k, objectSize, true, .prepareAborted, 0⟩ : Item κ).toStoredValue l.freshId seqno
  updateSeqListPostAbort none newSv (l.appendToList newSv)

/-- `dropStoredValue(sv)`: released from the hash table and marked stale with
no replacement. -/
def dropStoredValue (sv : OrderedStoredValue κ) (l : BasicLinkedList κ) : BasicLinkedList κ :=
  l.markItemStale sv none

/-- `dropKey(key)`: drop the key's prepared and committed values. -/
def dropKey (k : κ) (l : BasicLinkedList κ) : BasicLinkedList κ :=
  match findForUpdate k l with
  | (pending, committed) =>
    let l := match pending with
      | some p => dropStoredValue p l
      | none => l
    match committed with
    | some c => dropStoredValue c l
    | none => l

/-- `HTTombstonePurger::visit(v)`: a value that is not pending, is deleted or
a completed prepare, and has been so for the purge age (`expired`) is
released and marked stale. -/
def visit (expired : Bool) (v : OrderedStoredValue κ) (l : BasicLinkedList κ) : BasicLinkedList κ :=
  if !v.isPending && (v.deleted || v.isPrepareCompleted) && expired then l.markItemStale v none else l

/-- The callback of `purgeStaleItems`: a logically deleted key is dropped. -/
def droppedCollectionCallback (isKeyLogicallyDeleted : κ → Int → Bool) (key : κ) (bySeqno : Int)
    (l : BasicLinkedList κ) : Bool × BasicLinkedList κ :=
  if isKeyLogicallyDeleted key bySeqno then (true, dropKey key l) else (false, l)

/-- `purgeStaleItems(shouldPause)`: purge up to below the high seqno, so the
last value stays. -/
def purgeStaleItems (isKeyLogicallyDeleted : κ → Int → Bool) (shouldPause : Nat → Bool)
    (lockedEnd : Option Int) (l : BasicLinkedList κ) : Except String (Nat × BasicLinkedList κ) :=
  if l.highSeqno < 2 then .ok (0, l)
  else
    l.purgeTombstones (l.highSeqno - 1) (droppedCollectionCallback isKeyLogicallyDeleted) shouldPause
      lockedEnd

/-! ## The system -/

/-- What happens to the list: a front-end write (on the hash table's value at
address `id`, or on the values of a key), a visit of the tombstone purger, or
a run of `purgeStaleItems` with the manifest's answer, the pause points and
the range lock's outcome. -/
inductive Event (κ : Type) where
  | addNewStoredValue (itm : Item κ) (seqno : Int)
  | updateStoredValue (id : Nat) (itm : Item κ) (rangeContains : Bool) (seqno : Int)
  | softDeleteStoredValue (id : Nat) (onlyMarkDeleted rangeContains : Bool) (seqno : Int)
  | commitStoredValue (key : κ) (rangeContains : Bool) (seqno : Int)
  | abortStoredValue (key : κ) (rangeContains : Bool) (seqno : Int)
  | addNewAbort (key : κ) (objectSize : Nat) (seqno : Int)
  | visit (id : Nat) (expired : Bool)
  | purgeStaleItems (isKeyLogicallyDeleted : κ → Int → Bool) (shouldPause : Nat → Bool)
      (lockedEnd : Option Int)

/-- The hash table's value at address `id`. -/
def htValue (id : Nat) (l : BasicLinkedList κ) : Option (OrderedStoredValue κ) :=
  l.seqList.find? fun o => o.id == id && !o.stale

/-- One step; a write's seqno is above the list's high seqno, and an update
keeps the value's key. -/
def step (l : BasicLinkedList κ) : Event κ → Option (BasicLinkedList κ)
  | .addNewStoredValue itm seqno =>
    if l.highSeqno < seqno then some (addNewStoredValue itm seqno l) else none
  | .updateStoredValue id itm rangeContains seqno =>
    match htValue id l with
    | some v =>
      if l.highSeqno < seqno ∧ itm.key = v.key ∧ itm.objectSize = v.objectSize then
        some (updateStoredValue v itm rangeContains seqno l)
      else none
    | none => none
  | .softDeleteStoredValue id onlyMarkDeleted rangeContains seqno =>
    match htValue id l with
    | some v =>
      if l.highSeqno < seqno then (softDeleteStoredValue v onlyMarkDeleted rangeContains seqno l).toOption
      else none
    | none => none
  | .commitStoredValue k rangeContains seqno =>
    if l.highSeqno < seqno then (commitStoredValue k rangeContains seqno l).toOption else none
  | .abortStoredValue k rangeContains seqno =>
    match (findForUpdate k l).1 with
    | some p =>
      if l.highSeqno < seqno then (abortStoredValue p rangeContains seqno l).toOption else none
    | none => none
  | .addNewAbort k objectSize seqno =>
    if l.highSeqno < seqno then some (addNewAbort k objectSize seqno l) else none
  | .visit id expired =>
    (htValue id l).map fun v => visit expired v l
  | .purgeStaleItems isKeyLogicallyDeleted shouldPause lockedEnd =>
    ((purgeStaleItems isKeyLogicallyDeleted shouldPause lockedEnd l).toOption).map (·.2)

/-- The list's system: from the empty list, any step. -/
def seqListSystem : TransitionSystem (BasicLinkedList κ) (Event κ) where
  init l := l = BasicLinkedList.empty
  next l e l' := step l e = some l'

end EphemeralVBucket

end KvEngine.Ephemeral
