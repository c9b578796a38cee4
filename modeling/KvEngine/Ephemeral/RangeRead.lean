import Mathlib
import KvEngine.Ephemeral.RangeLockManager
import KvEngine.Ephemeral.SeqListWf

/-!
# Range reads of the sequence list (`RangeIteratorLL`)

A backfill of an ephemeral vbucket reads the sequence list through a
`RangeIteratorLL` while the front end keeps writing and the purger keeps
freeing stale values. The iterator takes a shared range lock over the seqnos
it has still to read; a write that would move a value inside the locked range
(`updateListElem`) leaves it in place, marks it stale and appends a new value
instead, and the purger's own (exclusive, partial) lock keeps it off the
range. As it moves, the iterator gives up the seqnos behind it
(`updateRangeStart`), and it skips a stale value whose replacement it will
still reach.

The model puts the list, the range lock manager and at most one iterator in
one state (`RangeRead`) and makes each of these a step:

- a front-end write, whose `rangeContains` is read off the locked range
  (`Write.toEvent`);
- a run of `purgeStaleItems` with the lock `purgeTombstones` takes and
  releases (`lockedPurgeStaleItems`);
- `makeRangeIterator`: the constructor and `create`;
- one turn of the loop of `operator++` (`incrementTurn`: `incrOperatorHelper`
  and `itrRangeContainsAnUpdatedVersion`); other steps run between two turns,
  as other threads may between two iterations of the loop;
- the iterator's destruction, which releases its lock.

A step that the source would end with an exception or undefined behaviour (a
read past the range, `++` past the list, a freed value read) has no successor;
what follows proves that no reachable state takes one. Each step is atomic: the
model leaves out the interleavings inside a purge run and inside one turn.
-/

namespace KvEngine.Ephemeral

open BasicLinkedList

namespace OrderedStoredValue

variable {κ : Type}

/-- `getReplacementIfStale`: the replacement a stale value points at. -/
def getReplacementIfStale (o : OrderedStoredValue κ) : Option Nat :=
  if o.stale then o.replacement else none

end OrderedStoredValue

/-- `BasicLinkedList::RangeIteratorLL`: the address of the value it is at
(`none` until the constructor sets it), the seqnos left to read, from `curr()`
to one past `back()`, the count `count()` reports, and the id of the shared
range it holds (`none` for an invalid `RangeGuard`). -/
structure RangeIteratorLL where
  currIt : Option Nat
  itrRange : SeqRange
  numRemaining : Nat
  rangeGuard : Option Nat

namespace RangeIteratorLL

variable {κ : Type}

/-- `curr()`. -/
def curr (it : RangeIteratorLL) : Int := it.itrRange.begin

/-- `end()`: one past the last seqno the iterator reads. -/
def endSeqno (it : RangeIteratorLL) : Int := it.itrRange.endVal

/-- `back()`: the last seqno the iterator reads. -/
def back (it : RangeIteratorLL) : Int := it.itrRange.endVal - 1

/-- The constructor, run under the list's write lock: no lock on a list that
never had a value; otherwise from the first value that is not stale with a
replacement to the last one, with a shared lock over their seqnos. -/
def construct (l : BasicLinkedList κ) (r : LockedRanges) : Except String (LockedRanges × RangeIteratorLL) :=
  if l.highSeqno < 1 then .ok (r, ⟨none, SeqRange.invalid, 0, none⟩)
  else
    let numRemaining := l.seqList.length
    match l.seqList.find? (fun o => o.getReplacementIfStale.isNone), l.seqList.getLast? with
    | some c, some b => do
      let (r, rangeGuard) ← r.tryLockRangeShared c.bySeqno b.bySeqno
      match rangeGuard with
      | none => pure (r, ⟨some c.id, SeqRange.invalid, numRemaining, none⟩)
      | some (g, _) => do
        let itrRange ← SeqRange.make c.bySeqno (b.bySeqno + 1)
        pure (r, ⟨some c.id, itrRange, numRemaining, some g⟩)
    -- `currIt->getBySeqno()` or `seqList.back()` past the end of the list
    | _, _ => .error "RangeIteratorLL: read of seqList.end()"

/-- `RangeIteratorLL::create`: no iterator (`tryLater()`) when the lock was
refused on a list with values. -/
def create (l : BasicLinkedList κ) (r : LockedRanges) : Except String (LockedRanges × Option RangeIteratorLL) := do
  let (r, it) ← construct l r
  if it.rangeGuard.isNone && 0 < l.highSeqno then pure (r, none) else pure (r, some it)

/-- `operator*`: the value at `currIt`, which must not have been freed. -/
def deref (it : RangeIteratorLL) (l : BasicLinkedList κ) : Except String (OrderedStoredValue κ) :=
  if it.endSeqno ≤ it.curr then
    .error ("BasicLinkedList::RangeIteratorLL::operator*(): Trying to read beyond range end seqno " ++
      toString it.endSeqno)
  else
    match it.currIt.bind (ListIter.find OrderedStoredValue.id l.seqList) with
    | some o => .ok o
    | none => .error "RangeIteratorLL::operator*(): read of a freed value"

/-- `incrOperatorHelper`: past the last value the lock is released and the
range closed; otherwise the iterator moves to the next value of the list and
the lock starts there. -/
def incrOperatorHelper (it : RangeIteratorLL) (l : BasicLinkedList κ) (r : LockedRanges) :
    Except String (LockedRanges × RangeIteratorLL) :=
  if it.endSeqno ≤ it.curr then
    .error ("BasicLinkedList::RangeIteratorLL::operator++(): Trying to move the iterator beyond range end seqno " ++
      toString it.endSeqno)
  else
    let it := { it with numRemaining := it.numRemaining - 1 }
    if it.curr = it.itrRange.endVal - 1 then do
      -- `rangeGuard.reset()`
      let r ← match it.rangeGuard with
        | some g => r.release g false
        | none => pure r
      let itrRange ← it.itrRange.setBegin it.endSeqno
      pure (r, { it with rangeGuard := none, itrRange := itrRange })
    else
      match it.currIt.bind fun id => ListIter.nextAfter OrderedStoredValue.id id l.seqList with
      | none => .error "RangeIteratorLL::operator++(): ++currIt past seqList.end()"
      | some nxt => do
        -- `rangeGuard.updateRangeStart`, which `Expects(valid())`
        let r ← match it.rangeGuard with
          | some g => r.updateRangeLockStart g false nxt.bySeqno
          | none => throw "Expects(valid())"
        let itrRange ← it.itrRange.setBegin nxt.bySeqno
        pure (r, { it with currIt := some nxt.id, itrRange := itrRange })

/-- `itrRangeContainsAnUpdatedVersion`: the value is stale and its replacement,
which must not have been freed, is within the range read. -/
def itrRangeContainsAnUpdatedVersion (it : RangeIteratorLL) (l : BasicLinkedList κ) : Except String Bool := do
  let o ← it.deref l
  match o.getReplacementIfStale with
  | none => pure false
  | some rid =>
    match ListIter.find OrderedStoredValue.id l.seqList rid with
    | some replacement => pure (replacement.bySeqno ≤ it.back)
    | none => throw "RangeIteratorLL: read of a freed replacement"

/-- One turn of the loop of `operator++`: `incrOperatorHelper`, then, short of
the end, whether the value reached is skipped (the loop goes on). -/
def incrementTurn (it : RangeIteratorLL) (l : BasicLinkedList κ) (r : LockedRanges) :
    Except String (LockedRanges × RangeIteratorLL × Bool) := do
  let (r, it) ← it.incrOperatorHelper l r
  if it.curr = it.endSeqno then return (r, it, false)
  let again ← it.itrRangeContainsAnUpdatedVersion l
  return (r, it, again)

/-- `operator++`, the loop given `fuel` turns at most, with the list as it is. -/
def increment (l : BasicLinkedList κ) : Nat → LockedRanges → RangeIteratorLL →
    Except String (LockedRanges × RangeIteratorLL)
  | 0, _, _ => .error "operator++: out of fuel"
  | fuel + 1, r, it => do
    let (r, it, again) ← it.incrementTurn l r
    if again then increment l fuel r it else pure (r, it)

end RangeIteratorLL

namespace EphemeralVBucket

variable {κ : Type} [DecidableEq κ]

/-- A front-end write, as the vbucket receives it. -/
inductive Write (κ : Type) where
  | addNewStoredValue (itm : Item κ) (seqno : Int)
  | updateStoredValue (id : Nat) (itm : Item κ) (seqno : Int)
  | softDeleteStoredValue (id : Nat) (onlyMarkDeleted : Bool) (seqno : Int)
  | commitStoredValue (key : κ) (seqno : Int)
  | abortStoredValue (key : κ) (seqno : Int)
  | addNewAbort (key : κ) (objectSize : Nat) (seqno : Int)
  | visit (id : Nat) (expired : Bool)

/-- `updateListElem`'s test `getLockedRange().contains(v.getBySeqno())` on the
value a write would move. -/
def rangeContains (u : SeqRange) (v : Option (OrderedStoredValue κ)) : Bool :=
  v.any fun v => u.contains v.bySeqno

/-- The step of the list a write makes while `u` is the locked range. -/
def Write.toEvent (u : SeqRange) (l : BasicLinkedList κ) : Write κ → Event κ
  | .addNewStoredValue itm seqno => .addNewStoredValue itm seqno
  | .updateStoredValue id itm seqno => .updateStoredValue id itm (rangeContains u (htValue id l)) seqno
  | .softDeleteStoredValue id onlyMarkDeleted seqno =>
    .softDeleteStoredValue id onlyMarkDeleted (rangeContains u (htValue id l)) seqno
  | .commitStoredValue k seqno => .commitStoredValue k (rangeContains u (findForUpdate k l).2) seqno
  | .abortStoredValue k seqno => .abortStoredValue k (rangeContains u (findForUpdate k l).1) seqno
  | .addNewAbort k objectSize seqno => .addNewAbort k objectSize seqno
  | .visit id expired => .visit id expired

/-- The seqno `purgeTombstones` locks from, when a run of `purgeStaleItems`
gets as far as its lock: that of the value it starts at, unless above
`purgeUpToSeqno`. -/
def purgeStartSeqno (l : BasicLinkedList κ) : Option Int :=
  if l.highSeqno < 2 then none
  else
    match l.purgeFrom with
    | [] => none
    | startIt :: _ => if l.highSeqno - 1 < startIt.bySeqno then none else some startIt.bySeqno

/-- `purgeStaleItems` with the lock `purgeTombstones` takes: a partial lock
from its start to `purgeUpToSeqno`, under which it purges only when granted
from that start, and which its `RangeGuard` releases at the end. -/
def lockedPurgeStaleItems (isKeyLogicallyDeleted : κ → Int → Bool) (shouldPause : Nat → Bool)
    (r : LockedRanges) (l : BasicLinkedList κ) : Except String (LockedRanges × Nat × BasicLinkedList κ) :=
  match purgeStartSeqno l with
  | none => do
    let res ← purgeStaleItems isKeyLogicallyDeleted shouldPause none l
    pure (r, res)
  | some startSeqno => do
    let (r, range) ← r.tryLockRange startSeqno (l.highSeqno - 1) .partialRange
    let lockedEnd := range.bind fun (_, locked) => if locked.begin = startSeqno then some locked.endVal else none
    let res ← purgeStaleItems isKeyLogicallyDeleted shouldPause lockedEnd l
    let r ← match range with
      | some (g, _) => r.release g true
      | none => pure r
    pure (r, res)

end EphemeralVBucket

open EphemeralVBucket RangeIteratorLL

/-- The list, the range locks on it, and the range iterator, if one exists. -/
structure RangeRead (κ : Type) where
  list : BasicLinkedList κ
  locks : LockedRanges
  reader : Option RangeIteratorLL

/-- What happens: a front-end write, a purge, the creation of the iterator,
one turn of the loop of its `operator++`, or its destruction. -/
inductive ReadEvent (κ : Type) where
  | write (w : Write κ)
  | purgeStaleItems (isKeyLogicallyDeleted : κ → Int → Bool) (shouldPause : Nat → Bool)
  | makeRangeIterator
  | increment
  | destroy

namespace RangeRead

variable {κ : Type} [DecidableEq κ]

/-- No value, no lock, no iterator. -/
def empty : RangeRead κ := ⟨BasicLinkedList.empty, LockedRanges.empty, none⟩

/-- What the client reads once the iterator stops short of its end: the
address and seqno of `*it`. -/
def read (it : RangeIteratorLL) (l : BasicLinkedList κ) : Except String (Option (Nat × Int)) :=
  if it.curr = it.endSeqno then .ok none else (it.deref l).map fun o => some (stamp o)

/-- A step, and what the client reads in it; `none` for a step the source
ends with an exception or undefined behaviour. -/
def readStep (s : RangeRead κ) : ReadEvent κ → Option (RangeRead κ × Option (Nat × Int))
  | .write w => (step s.list (w.toEvent s.locks.unionedRange s.list)).map fun l => ({ s with list := l }, none)
  | .purgeStaleItems isKeyLogicallyDeleted shouldPause =>
    match lockedPurgeStaleItems isKeyLogicallyDeleted shouldPause s.locks s.list with
    | .ok (r, _, l) => some ({ s with list := l, locks := r }, none)
    | .error _ => none
  | .makeRangeIterator =>
    match s.reader with
    | some _ => none
    | none =>
      match create s.list s.locks with
      | .ok (r, none) => some ({ s with locks := r }, none)
      | .ok (r, some it) =>
        match read it s.list with
        | .ok o => some ({ s with locks := r, reader := some it }, o)
        | .error _ => none
      | .error _ => none
  | .increment =>
    match s.reader with
    | none => none
    | some it =>
      match it.incrementTurn s.list s.locks with
      | .ok (r, it, true) => some ({ s with locks := r, reader := some it }, none)
      | .ok (r, it, false) =>
        match read it s.list with
        | .ok o => some ({ s with locks := r, reader := some it }, o)
        | .error _ => none
      | .error _ => none
  | .destroy =>
    match s.reader with
    | none => none
    | some it =>
      match it.rangeGuard with
      | none => some ({ s with reader := none }, none)
      | some g =>
        match s.locks.release g false with
        | .ok r => some ({ s with locks := r, reader := none }, none)
        | .error _ => none

end RangeRead

/-- The vbucket with its range reads: from no value, lock or iterator, any
step that returns, labelled with what the client reads in it. -/
def rangeReadSystem {κ : Type} [DecidableEq κ] : TransitionSystem (RangeRead κ) (ReadEvent κ × Option (Nat × Int)) where
  init s := s = RangeRead.empty
  next s a s' := RangeRead.readStep s a.1 = some (s', a.2)

end KvEngine.Ephemeral
