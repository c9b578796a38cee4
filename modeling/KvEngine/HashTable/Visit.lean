import KvEngine.Lib.Except
import Mathlib

/-!
# Visiting a hash table in pieces (`hash_table.cc`)

`HashTable::pauseResumeVisit` walks the table's buckets lock by lock: for each
of the `mutexes.size()` locks, the buckets it guards (every
`mutexes.size()`-th one, from the lock's own index), and in each bucket the
chain of stored values, between a `setUpHashBucketVisit` and a
`tearDownHashBucketVisit` of the visitor. The visitor may ask to pause after
any value; the call then returns the position to resume from, the next bucket,
and a later call from that position goes on from there. `HashTable::visit`
calls it again from each position it returned until it returns
`endPosition()`.

- `HashTableVisitor`, `HashTable`, `Position`: a visitor with a state of its
  own, the parts of the table a visit reads, and `HashTable::Position`.
- `visitChain`, `visitBuckets`, `visitLocks`, `pauseResumeVisit`,
  `visitUntilEnd`, `visit`: the chain walk, the two loops, the call, and the
  calls until `endPosition()`.
- `bucketsFrom`, `locksFrom`, `lockOrder`, `resumeBuckets`, `walkUntilPause`,
  `walk`: the one uninterrupted walk the calls make up, and the part of it a
  call from a position walks.

Results:
- `pauseResumeVisit_eq`: one call walks the buckets left from its position up
  to the bucket where the visitor paused, and returns the position from which
  the rest is left.
- `visitUntilEnd_eq_walk`: the calls from `Position{}` reach `endPosition()`
  after at most one call per bucket and one more, having made the one walk
  over the table in lock order, each bucket once.
- `pauseResumeVisit_visits_each_once`: with `VisitCompleteChain::Yes` every
  value is visited once; with `No`, of each chain a prefix that stops where the
  visitor paused.
- `visitUntilEnd_skips_refused_lock`: a visitor whose
  `setUpHashBucketVisit` refuses one bucket loses the rest of that lock's
  buckets, while the visit goes on with the next lock.
-/

namespace KvEngine

/-- `HashTable::VisitCompleteChain`. -/
inductive VisitCompleteChain where
  | no
  | yes
  deriving DecidableEq, Repr

/-- A `HashTableVisitor` with state `σ` over stored values `α`: `visit`
answers whether to go on. -/
structure HashTableVisitor (σ α : Type) where
  visit : σ → α → σ × Bool
  setUpHashBucketVisit : σ → σ × Bool
  tearDownHashBucketVisit : σ → σ

/-- The parts of a `HashTable` that a visit reads: the chain of each bucket,
`mutexes.size()`, the item counts and whether it is active. -/
structure HashTable (α : Type) where
  values : List (List α)
  mutexCount : Nat
  mutexCount_pos : 0 < mutexCount
  numItems : Nat
  numTempItems : Nat
  active : Bool

namespace HashTable

/-- `HashTable::Position` in the primary table. -/
structure Position where
  htSize : Nat
  lock : Nat
  hashBucket : Nat
  deriving DecidableEq, Repr

/-- `Position{}`. -/
def Position.start : Position := ⟨0, 0, 0⟩

/-- The `std::logic_error` "HashTable::pauseResumeVisit: wrong lock". -/
inductive VisitError where
  | wrongLock
  deriving DecidableEq, Repr

variable {α σ : Type} (t : HashTable α) (visitor : HashTableVisitor σ α)

/-- `getSize()`: the number of buckets. -/
def getSize : Nat := t.values.length

/-- `endPosition()`. -/
def endPosition : Position := ⟨t.getSize, t.mutexCount, t.getSize⟩

/-- `getMutexForBucket(bucketNum)`, in 32-bit arithmetic. -/
def getMutexForBucket (bucketNum : Nat) : Nat := bucketNum % 2 ^ 32 % (t.mutexCount % 2 ^ 32)

/-- The chain of stored values of bucket `b`. -/
def chain (b : Nat) : List α := t.values.getD b []

/-- The walk along one chain: the visitor's state, the values visited and
whether to pause. With `VisitCompleteChain::Yes` every value is visited and
the walk pauses if any visit asked to; with `No` it stops after the first
value whose visit asked to pause. -/
def visitChain : VisitCompleteChain → σ → List α → σ × List α × Bool
  | _, s, [] => (s, [], false)
  | .yes, s, v :: vs =>
    let r := visitor.visit s v
    let rest := visitChain .yes r.1 vs
    (rest.1, v :: rest.2.1, rest.2.2 || !r.2)
  | .no, s, v :: vs =>
    let r := visitor.visit s v
    if r.2 then
      let rest := visitChain .no r.1 vs
      (rest.1, v :: rest.2.1, rest.2.2)
    else (r.1, [v], true)

/-- The inner loop over the buckets `lock` guards, from `hashBucket`: the
visitor's state, the values visited, whether it paused, and `hash_bucket`
when the loop ends. The increment runs before the pause is tested. -/
def visitBuckets (mode : VisitCompleteChain) (lock : Nat) (s : σ) (hashBucket : Nat) :
    Except VisitError (σ × List α × Bool × Nat) :=
  if hashBucket < t.getSize then
    let setUp := visitor.setUpHashBucketVisit s
    if setUp.2 then
      if t.getMutexForBucket hashBucket = lock then
        let walked := visitChain visitor mode setUp.1 (t.chain hashBucket)
        let s := visitor.tearDownHashBucketVisit walked.1
        if walked.2.2 then .ok (s, walked.2.1, true, hashBucket + t.mutexCount)
        else
          (visitBuckets mode lock s (hashBucket + t.mutexCount)).map fun r =>
            (r.1, walked.2.1 ++ r.2.1, r.2.2)
      else .error .wrongLock
    else .ok (visitor.tearDownHashBucketVisit setUp.1, [], false, hashBucket)
  else .ok (s, [], false, hashBucket)
termination_by t.getSize - hashBucket
decreasing_by have := t.mutexCount_pos; omega

/-- The first bucket of `lock`'s walk: the position's bucket where it is of
this lock and of a table of this size, else the lock's own index. -/
def firstBucket (startPos : Position) (lock : Nat) : Nat :=
  if startPos.lock = lock ∧ startPos.htSize = t.getSize ∧ startPos.hashBucket < t.getSize then
    startPos.hashBucket
  else lock

/-- The outer loop over the locks from `lock`, `hashBucket` holding the
value of `hash_bucket`: a pause before the end of a lock's buckets returns
the next bucket of the lock; a pause at its end returns the next lock. -/
def visitLocks (mode : VisitCompleteChain) (startPos : Position) (lock hashBucket : Nat) (s : σ) :
    Except VisitError (σ × List α × Position) :=
  if t.active = true ∧ lock < t.mutexCount then do
    let (s, visited, paused, hashBucket) ← t.visitBuckets visitor mode lock s (t.firstBucket startPos lock)
    if paused ∧ hashBucket < t.getSize then pure (s, visited, ⟨t.getSize, lock, hashBucket⟩)
    else if paused then pure (s, visited, ⟨t.getSize, lock + 1, t.getSize⟩)
    else
      let (s, rest, pos) ← visitLocks mode startPos (lock + 1) t.getSize s
      pure (s, visited ++ rest, pos)
  else .ok (s, [], ⟨t.getSize, lock, hashBucket⟩)
termination_by t.mutexCount - lock

/-- `HashTable::pauseResumeVisit` with no resize in progress: the visitor's
state, the values visited, and the position to resume from. -/
def pauseResumeVisit (mode : VisitCompleteChain) (s : σ) (startPos : Position) :
    Except VisitError (σ × List α × Position) :=
  if t.numItems + t.numTempItems = 0 ∨ t.active = false then .ok (s, [], t.endPosition)
  else t.visitLocks visitor mode startPos (if startPos.lock < t.mutexCount then startPos.lock else 0) 0 s

/-- The loop of `HashTable::visit` with at most `fuel` calls: call
`pauseResumeVisit` from each position it returned until it returns
`endPosition()`. -/
def visitUntilEnd (mode : VisitCompleteChain) : Nat → σ → Position → Except VisitError (σ × List α × Position)
  | 0, s, pos => .ok (s, [], pos)
  | fuel + 1, s, pos =>
    if pos = t.endPosition then .ok (s, [], pos)
    else do
      let (s, visited, pos) ← t.pauseResumeVisit visitor mode s pos
      let (s, rest, pos) ← visitUntilEnd mode fuel s pos
      pure (s, visited ++ rest, pos)

/-- `HashTable::visit`, with at most `fuel` calls: from `Position{}`, chains
walked with `VisitCompleteChain::No`. -/
def visit (fuel : Nat) (s : σ) : Except VisitError (σ × List α × Position) :=
  t.visitUntilEnd visitor .no fuel s Position.start

/-! ## The walk the calls make up -/

/-- The buckets the inner loop walks from `hashBucket`: every
`mutexes.size()`-th one below the size. -/
def bucketsFrom (hashBucket : Nat) : List Nat :=
  if hashBucket < t.getSize then hashBucket :: bucketsFrom (hashBucket + t.mutexCount) else []
termination_by t.getSize - hashBucket
decreasing_by have := t.mutexCount_pos; omega

/-- The buckets of the locks from `lock` on, lock by lock. -/
def locksFrom (lock : Nat) : List Nat :=
  if lock < t.mutexCount then t.bucketsFrom lock ++ locksFrom (lock + 1) else []
termination_by t.mutexCount - lock

/-- Every bucket, in the order a visit walks them. -/
def lockOrder : List Nat := t.locksFrom 0

/-- The buckets a call from `startPos` has left to walk: the rest of the
first lock's buckets, then the locks after it. -/
def resumeBuckets (startPos : Position) : List Nat :=
  let lock := if startPos.lock < t.mutexCount then startPos.lock else 0
  t.bucketsFrom (t.firstBucket startPos lock) ++ t.locksFrom (lock + 1)

/-- One bucket's visit: set up, walk the chain, tear down. -/
def visitBucket (mode : VisitCompleteChain) (s : σ) (b : Nat) : σ × List α × Bool :=
  let walked := visitChain visitor mode (visitor.setUpHashBucketVisit s).1 (t.chain b)
  (visitor.tearDownHashBucketVisit walked.1, walked.2.1, walked.2.2)

/-- The walk over `buckets` up to the first bucket in which the visitor
paused: the state, the values visited, and the buckets left after it, or
`none` if it did not pause. -/
def walkUntilPause (mode : VisitCompleteChain) : σ → List Nat → σ × List α × Option (List Nat)
  | s, [] => (s, [], none)
  | s, b :: bs =>
    let r := t.visitBucket visitor mode s b
    if r.2.2 then (r.1, r.2.1, some bs)
    else
      let rest := walkUntilPause mode r.1 bs
      (rest.1, r.2.1 ++ rest.2.1, rest.2.2)

/-- The walk over `buckets` with no pause: the state and the values visited. -/
def walk (mode : VisitCompleteChain) : σ → List Nat → σ × List α
  | s, [] => (s, [])
  | s, b :: bs =>
    let r := t.visitBucket visitor mode s b
    let rest := walk mode r.1 bs
    (rest.1, r.2.1 ++ rest.2)

/-- A position a call can resume from: its bucket, if of this table, is one
its lock guards. -/
def Resumable (p : Position) : Prop :=
  p.htSize = t.getSize → p.hashBucket < t.getSize → p.lock < t.mutexCount → p.hashBucket % t.mutexCount = p.lock

/-- The position `p` a call returned leaves to walk what its walk left,
`rest`: nothing at `endPosition()`. -/
def Resumes (p : Position) : Option (List Nat) → Prop
  | none => p = t.endPosition
  | some rest => (p = t.endPosition ∧ rest = []) ∨ (p ≠ t.endPosition ∧ rest = t.resumeBuckets p)

/-! ### The buckets of the walk -/

theorem bucketsFrom_of_lt {hashBucket : Nat} (h : hashBucket < t.getSize) :
    t.bucketsFrom hashBucket = hashBucket :: t.bucketsFrom (hashBucket + t.mutexCount) := by
  rw [bucketsFrom, if_pos h]

theorem bucketsFrom_of_le {hashBucket : Nat} (h : t.getSize ≤ hashBucket) : t.bucketsFrom hashBucket = [] := by
  rw [bucketsFrom, if_neg (Nat.not_lt.mpr h)]

theorem locksFrom_of_lt {lock : Nat} (h : lock < t.mutexCount) :
    t.locksFrom lock = t.bucketsFrom lock ++ t.locksFrom (lock + 1) := by
  rw [locksFrom, if_pos h]

theorem locksFrom_of_le {lock : Nat} (h : t.mutexCount ≤ lock) : t.locksFrom lock = [] := by
  rw [locksFrom, if_neg (Nat.not_lt.mpr h)]

/-- Two buckets of a lock past one another are a whole stride apart. -/
theorem add_le_of_mod_eq {L a b : Nat} (hab : a < b) (hmod : b % L = a % L) : a + L ≤ b := by
  have hdvd : L ∣ b - a := Nat.dvd_of_mod_eq_zero (Nat.sub_mod_eq_zero_of_mod_eq hmod)
  have := Nat.le_of_dvd (Nat.sub_pos_of_lt hab) hdvd
  omega

theorem mem_bucketsFrom (b : Nat) : ∀ hashBucket, b ∈ t.bucketsFrom hashBucket ↔
    hashBucket ≤ b ∧ b < t.getSize ∧ b % t.mutexCount = hashBucket % t.mutexCount := by
  intro hashBucket
  by_cases h : hashBucket < t.getSize
  · rw [t.bucketsFrom_of_lt h, List.mem_cons, mem_bucketsFrom b (hashBucket + t.mutexCount), Nat.add_mod_right]
    constructor
    · rintro (rfl | ⟨hle, hlt, hmod⟩)
      · exact ⟨Nat.le_refl _, h, rfl⟩
      · exact ⟨by omega, hlt, hmod⟩
    · rintro ⟨hle, hlt, hmod⟩
      -- a later bucket of the lock is at least a stride on
      rcases Nat.eq_or_lt_of_le hle with heq | hgt
      · exact .inl heq.symm
      · exact .inr ⟨add_le_of_mod_eq hgt hmod, hlt, hmod⟩
  · rw [t.bucketsFrom_of_le (Nat.not_lt.mp h)]
    simp only [List.not_mem_nil, false_iff, not_and]
    intro hle hlt
    omega
termination_by hashBucket => t.getSize - hashBucket
decreasing_by have := t.mutexCount_pos; omega

theorem nodup_bucketsFrom : ∀ hashBucket, (t.bucketsFrom hashBucket).Nodup := by
  intro hashBucket
  by_cases h : hashBucket < t.getSize
  · rw [t.bucketsFrom_of_lt h, List.nodup_cons]
    refine ⟨fun hmem => ?_, nodup_bucketsFrom (hashBucket + t.mutexCount)⟩
    have := ((t.mem_bucketsFrom hashBucket _).mp hmem).1
    have := t.mutexCount_pos
    omega
  · rw [t.bucketsFrom_of_le (Nat.not_lt.mp h)]
    exact List.nodup_nil
termination_by hashBucket => t.getSize - hashBucket
decreasing_by have := t.mutexCount_pos; omega

theorem mem_locksFrom (b : Nat) : ∀ lock, b ∈ t.locksFrom lock ↔ lock ≤ b % t.mutexCount ∧ b < t.getSize := by
  intro lock
  have hlt := Nat.mod_lt b t.mutexCount_pos
  by_cases h : lock < t.mutexCount
  · rw [t.locksFrom_of_lt h, List.mem_append, t.mem_bucketsFrom, mem_locksFrom b (lock + 1), Nat.mod_eq_of_lt h]
    have := Nat.mod_le b t.mutexCount
    constructor
    · rintro (⟨-, hsize, hmod⟩ | ⟨hle, hsize⟩)
      · exact ⟨Nat.le_of_eq hmod.symm, hsize⟩
      · exact ⟨by omega, hsize⟩
    · rintro ⟨hle, hsize⟩
      rcases Nat.eq_or_lt_of_le hle with heq | hgt
      · exact .inl ⟨by omega, hsize, heq.symm⟩
      · exact .inr ⟨hgt, hsize⟩
  · rw [t.locksFrom_of_le (Nat.not_lt.mp h)]
    simp only [List.not_mem_nil, false_iff, not_and]
    intro hle
    omega
termination_by lock => t.mutexCount - lock

theorem nodup_locksFrom : ∀ lock, (t.locksFrom lock).Nodup := by
  intro lock
  by_cases h : lock < t.mutexCount
  · rw [t.locksFrom_of_lt h, List.nodup_append]
    refine ⟨t.nodup_bucketsFrom lock, nodup_locksFrom (lock + 1), ?_⟩
    -- the lock's buckets are of residue `lock`, the later locks' above it
    intro a ha b hb hab
    subst hab
    have h1 := ((t.mem_bucketsFrom a lock).mp ha).2.2
    have h2 := ((t.mem_locksFrom a (lock + 1)).mp hb).1
    rw [Nat.mod_eq_of_lt h] at h1
    omega
  · rw [t.locksFrom_of_le (Nat.not_lt.mp h)]
    exact List.nodup_nil
termination_by lock => t.mutexCount - lock

/-- The walk goes over every bucket once. -/
theorem lockOrder_perm : t.lockOrder.Perm (List.range t.getSize) := by
  unfold lockOrder
  rw [List.perm_ext_iff_of_nodup (t.nodup_locksFrom 0) List.nodup_range]
  intro b
  rw [t.mem_locksFrom, List.mem_range]
  exact ⟨fun h => h.2, fun h => ⟨Nat.zero_le _, h⟩⟩

theorem resumeBuckets_start : t.resumeBuckets Position.start = t.lockOrder := by
  have h0 : (0 : Nat) < t.mutexCount := t.mutexCount_pos
  have hfirst : t.firstBucket Position.start 0 = 0 := by
    unfold firstBucket
    split <;> rfl
  have hlock : (if Position.start.lock < t.mutexCount then Position.start.lock else 0) = 0 := by
    split <;> rfl
  unfold resumeBuckets lockOrder
  dsimp only
  rw [hlock, hfirst, t.locksFrom_of_lt h0]

/-! ### Walking up to a pause -/

section Walk

variable (mode : VisitCompleteChain)

/-- A walk that did not pause is the whole walk. -/
theorem walk_of_walkUntilPause_none : ∀ {s s' : σ} {visited : List α} (buckets : List Nat),
    t.walkUntilPause visitor mode s buckets = (s', visited, none) → t.walk visitor mode s buckets = (s', visited)
  | _, _, _, [], h => by
    simp only [walkUntilPause, Prod.mk.injEq] at h
    obtain ⟨rfl, rfl, -⟩ := h
    rfl
  | s, _, _, b :: bs, h => by
    simp only [walkUntilPause] at h
    split at h
    · simp at h
    · simp only [Prod.mk.injEq] at h
      obtain ⟨hs, hvisited, hrest⟩ := h
      have hwalk := walk_of_walkUntilPause_none bs
        (show t.walkUntilPause visitor mode _ bs = (_, _, none) from Prod.ext hs (Prod.ext rfl hrest))
      simp only [walk, hwalk, ← hvisited]

/-- A walk that paused goes on, in the whole walk, with the buckets it left. -/
theorem walk_of_walkUntilPause_some : ∀ {s s' : σ} {visited : List α} {rest : List Nat} (buckets : List Nat),
    t.walkUntilPause visitor mode s buckets = (s', visited, some rest) →
      t.walk visitor mode s buckets =
        ((t.walk visitor mode s' rest).1, visited ++ (t.walk visitor mode s' rest).2)
  | _, _, _, _, [], h => by simp [walkUntilPause] at h
  | s, _, _, _, b :: bs, h => by
    simp only [walkUntilPause] at h
    split at h
    · simp only [Prod.mk.injEq, Option.some.injEq] at h
      obtain ⟨rfl, rfl, rfl⟩ := h
      rfl
    · simp only [Prod.mk.injEq] at h
      obtain ⟨hs, hvisited, hrest⟩ := h
      have hwalk := walk_of_walkUntilPause_some bs
        (show t.walkUntilPause visitor mode _ bs = (_, _, some _) from Prod.ext hs (Prod.ext rfl hrest))
      simp only [walk, hwalk, ← hvisited, List.append_assoc]

/-- A walk that paused left fewer buckets than it was given. -/
theorem length_lt_of_walkUntilPause_some : ∀ {s s' : σ} {visited : List α} {rest : List Nat} (buckets : List Nat),
    t.walkUntilPause visitor mode s buckets = (s', visited, some rest) → rest.length < buckets.length
  | _, _, _, _, [], h => by simp [walkUntilPause] at h
  | s, _, _, _, b :: bs, h => by
    simp only [walkUntilPause] at h
    split at h
    · simp only [Prod.mk.injEq, Option.some.injEq] at h
      rw [← h.2.2]
      exact Nat.lt_succ_self _
    · simp only [Prod.mk.injEq] at h
      obtain ⟨hs, -, hrest⟩ := h
      have := length_lt_of_walkUntilPause_some bs
        (show t.walkUntilPause visitor mode _ bs = (_, _, some _) from Prod.ext hs (Prod.ext rfl hrest))
      exact Nat.lt_succ_of_lt this

/-- Walking two lists of buckets: a pause in the first leaves the second. -/
theorem walkUntilPause_append_of_some (second : List Nat) :
    ∀ {s s' : σ} {visited : List α} {rest : List Nat} (first : List Nat),
      t.walkUntilPause visitor mode s first = (s', visited, some rest) →
      t.walkUntilPause visitor mode s (first ++ second) = (s', visited, some (rest ++ second))
  | _, _, _, _, [], h => by simp [walkUntilPause] at h
  | s, _, _, _, b :: bs, h => by
    simp only [walkUntilPause] at h
    simp only [List.cons_append, walkUntilPause]
    split at h
    · simp only [Prod.mk.injEq, Option.some.injEq] at h
      obtain ⟨rfl, rfl, rfl⟩ := h
      rw [if_pos ‹_›]
    · rw [if_neg ‹_›]
      simp only [Prod.mk.injEq] at h
      obtain ⟨hs, hvisited, hrest⟩ := h
      rw [walkUntilPause_append_of_some second bs
        (show t.walkUntilPause visitor mode _ bs = (_, _, some _) from Prod.ext hs (Prod.ext rfl hrest)), hvisited]

/-- Walking two lists of buckets: with no pause in the first the walk goes on
with the second. -/
theorem walkUntilPause_append_of_none (second : List Nat) :
    ∀ {s s' : σ} {visited : List α} (first : List Nat),
      t.walkUntilPause visitor mode s first = (s', visited, none) →
      t.walkUntilPause visitor mode s (first ++ second) =
        ((t.walkUntilPause visitor mode s' second).1, visited ++ (t.walkUntilPause visitor mode s' second).2.1,
          (t.walkUntilPause visitor mode s' second).2.2)
  | _, _, _, [], h => by
    simp only [walkUntilPause, Prod.mk.injEq] at h
    obtain ⟨rfl, rfl, -⟩ := h
    rfl
  | s, _, _, b :: bs, h => by
    simp only [walkUntilPause] at h
    simp only [List.cons_append, walkUntilPause]
    split at h
    · simp at h
    · rw [if_neg ‹_›]
      simp only [Prod.mk.injEq] at h
      obtain ⟨hs, hvisited, hrest⟩ := h
      rw [walkUntilPause_append_of_none second bs
        (show t.walkUntilPause visitor mode _ bs = (_, _, none) from Prod.ext hs (Prod.ext rfl hrest)), ← hvisited,
        List.append_assoc]

end Walk

/-! ### One call -/

section Call

variable (mode : VisitCompleteChain)
variable (hsetUp : ∀ s, (visitor.setUpHashBucketVisit s).2 = true)
variable (hmutex : ∀ b, b < t.getSize → t.getMutexForBucket b = b % t.mutexCount)

include hsetUp hmutex in
/-- The inner loop from a bucket of `lock` walks its buckets up to a pause:
it returns the next bucket of the lock after the pause, or one past the
size. -/
theorem visitBuckets_eq (lock : Nat) : ∀ (hashBucket : Nat) (s : σ), hashBucket % t.mutexCount = lock →
    ∃ paused last, t.visitBuckets visitor mode lock s hashBucket =
        .ok ((t.walkUntilPause visitor mode s (t.bucketsFrom hashBucket)).1,
          (t.walkUntilPause visitor mode s (t.bucketsFrom hashBucket)).2.1, paused, last) ∧
      last % t.mutexCount = lock ∧
      ((paused = true ∧ (t.walkUntilPause visitor mode s (t.bucketsFrom hashBucket)).2.2 = some (t.bucketsFrom last)) ∨
        (paused = false ∧ (t.walkUntilPause visitor mode s (t.bucketsFrom hashBucket)).2.2 = none ∧
          t.getSize ≤ last)) := by
  intro hashBucket s hlock
  by_cases h : hashBucket < t.getSize
  · have hnext : (hashBucket + t.mutexCount) % t.mutexCount = lock := by rw [Nat.add_mod_right, hlock]
    rw [visitBuckets, if_pos h, t.bucketsFrom_of_lt h]
    simp only [hsetUp, if_true, hmutex hashBucket h, hlock, walkUntilPause, visitBucket]
    by_cases hp : (visitChain visitor mode (visitor.setUpHashBucketVisit s).1 (t.chain hashBucket)).2.2 = true
    · -- paused in this bucket: the loop's increment names the next one
      simp only [hp, if_true]
      exact ⟨true, hashBucket + t.mutexCount, rfl, hnext, .inl ⟨rfl, rfl⟩⟩
    · simp only [hp]
      obtain ⟨paused, last, hrun, hmod, hcase⟩ := visitBuckets_eq lock (hashBucket + t.mutexCount)
        (visitor.tearDownHashBucketVisit
          (visitChain visitor mode (visitor.setUpHashBucketVisit s).1 (t.chain hashBucket)).1) hnext
      rw [hrun]
      exact ⟨paused, last, rfl, hmod, hcase⟩
  · rw [visitBuckets, if_neg h, t.bucketsFrom_of_le (Nat.not_lt.mp h)]
    exact ⟨false, hashBucket, rfl, hlock, .inr ⟨rfl, rfl, Nat.not_lt.mp h⟩⟩
termination_by hashBucket => t.getSize - hashBucket
decreasing_by have := t.mutexCount_pos; omega

theorem firstBucket_mod {startPos : Position} (hpos : t.Resumable startPos) {lock : Nat}
    (hlock : lock < t.mutexCount) : t.firstBucket startPos lock % t.mutexCount = lock := by
  unfold firstBucket
  split
  · rename_i h
    obtain ⟨rfl, hsize, hlt⟩ := h
    exact hpos hsize hlt hlock
  · exact Nat.mod_eq_of_lt hlock

theorem endPosition_resumable : t.Resumable t.endPosition := by
  intro _ hlt
  exact absurd hlt (Nat.lt_irrefl _)

include hsetUp hmutex in
/-- The outer loop from `lock` walks the buckets left from there up to a
pause, and returns the position from which the rest is left. -/
theorem visitLocks_eq {startPos : Position} (hpos : t.Resumable startPos) (hactive : t.active = true) :
    ∀ (lock hashBucket : Nat) (s : σ), lock < t.mutexCount →
      (∀ l, lock < l → l < t.mutexCount → t.firstBucket startPos l = l) →
      ∃ p, t.visitLocks visitor mode startPos lock hashBucket s =
          .ok ((t.walkUntilPause visitor mode s
              (t.bucketsFrom (t.firstBucket startPos lock) ++ t.locksFrom (lock + 1))).1,
            (t.walkUntilPause visitor mode s
              (t.bucketsFrom (t.firstBucket startPos lock) ++ t.locksFrom (lock + 1))).2.1, p) ∧
        t.Resumable p ∧
        t.Resumes p (t.walkUntilPause visitor mode s
          (t.bucketsFrom (t.firstBucket startPos lock) ++ t.locksFrom (lock + 1))).2.2 := by
  intro lock hashBucket s hlock hlater
  obtain ⟨paused, last, hrun, hmod, hcase⟩ :=
    t.visitBuckets_eq visitor mode hsetUp hmutex lock _ s (t.firstBucket_mod hpos hlock)
  rw [visitLocks, if_pos ⟨hactive, hlock⟩, hrun, Except.ok_bind]
  dsimp only
  rcases hcase with ⟨rfl, hwalked⟩ | ⟨rfl, hwalked, hle⟩
  · -- paused in this lock: the rest of its buckets, then the later locks, are left
    rw [t.walkUntilPause_append_of_some visitor mode (t.locksFrom (lock + 1)) _
      (Prod.ext rfl (Prod.ext rfl hwalked))]
    by_cases hlast : last < t.getSize
    · rw [if_pos ⟨rfl, hlast⟩]
      refine ⟨_, rfl, fun _ _ _ => hmod, .inr ⟨fun h => ?_, ?_⟩⟩
      · have := congrArg Position.lock h
        exact absurd this (Nat.ne_of_lt hlock)
      · have hfirst : t.firstBucket ⟨t.getSize, lock, last⟩ lock = last := by
          unfold firstBucket
          exact if_pos ⟨rfl, rfl, hlast⟩
        simp only [resumeBuckets, if_pos hlock, hfirst]
    · rw [if_neg fun h => hlast h.2, if_pos rfl, t.bucketsFrom_of_le (Nat.not_lt.mp hlast), List.nil_append]
      refine ⟨_, rfl, fun _ hlt => absurd hlt (Nat.lt_irrefl _), ?_⟩
      by_cases hnext : lock + 1 < t.mutexCount
      · have hfirst : t.firstBucket ⟨t.getSize, lock + 1, t.getSize⟩ (lock + 1) = lock + 1 := by
          unfold firstBucket
          exact if_neg fun h => Nat.lt_irrefl _ h.2.2
        refine .inr ⟨fun h => ?_, ?_⟩
        · have := congrArg Position.lock h
          exact absurd this (Nat.ne_of_lt hnext)
        · simp only [resumeBuckets, if_pos hnext, hfirst]
          rw [t.locksFrom_of_lt hnext]
      · have hL : lock + 1 = t.mutexCount := by omega
        refine .inl ⟨by rw [hL]; rfl, ?_⟩
        rw [t.locksFrom_of_le (Nat.le_of_eq hL.symm)]
  · -- the lock's buckets all walked: on with the next lock
    rw [if_neg fun h => Bool.false_ne_true h.1, if_neg Bool.false_ne_true,
      t.walkUntilPause_append_of_none visitor mode (t.locksFrom (lock + 1)) _
        (Prod.ext rfl (Prod.ext rfl hwalked))]
    by_cases hnext : lock + 1 < t.mutexCount
    · have hfirst : t.firstBucket startPos (lock + 1) = lock + 1 := hlater (lock + 1) (Nat.lt_succ_self _) hnext
      obtain ⟨p, hrun', hres, hresumes⟩ := visitLocks_eq hpos hactive (lock + 1) t.getSize _ hnext
        fun l hl hlL => hlater l (by omega) hlL
      rw [hfirst, ← t.locksFrom_of_lt hnext] at hrun' hresumes
      rw [hrun', Except.ok_bind]
      exact ⟨p, rfl, hres, hresumes⟩
    · have hL : lock + 1 = t.mutexCount := by omega
      rw [visitLocks, if_neg fun h => hnext h.2, Except.ok_bind, t.locksFrom_of_le (Nat.le_of_eq hL.symm)]
      refine ⟨_, rfl, fun _ hlt => absurd hlt (Nat.lt_irrefl _), ?_⟩
      show _ = t.endPosition
      rw [hL]
      rfl
termination_by lock => t.mutexCount - lock

include hsetUp hmutex in
/-- One call walks the buckets left from its position up to the bucket where
the visitor paused, and returns a position from which the rest is left. -/
theorem pauseResumeVisit_eq (hactive : t.active = true) (hitems : t.numItems + t.numTempItems ≠ 0)
    {startPos : Position} (hpos : t.Resumable startPos) (s : σ) :
    ∃ p, t.pauseResumeVisit visitor mode s startPos =
        .ok ((t.walkUntilPause visitor mode s (t.resumeBuckets startPos)).1,
          (t.walkUntilPause visitor mode s (t.resumeBuckets startPos)).2.1, p) ∧
      t.Resumable p ∧ t.Resumes p (t.walkUntilPause visitor mode s (t.resumeBuckets startPos)).2.2 := by
  have hlock : (if startPos.lock < t.mutexCount then startPos.lock else 0) < t.mutexCount := by
    split
    · assumption
    · exact t.mutexCount_pos
  -- the locks after the first are walked from their own first bucket
  have hlater : ∀ l, (if startPos.lock < t.mutexCount then startPos.lock else 0) < l → l < t.mutexCount →
      t.firstBucket startPos l = l := by
    intro l hl hlL
    unfold firstBucket
    refine if_neg fun h => ?_
    have hl' : startPos.lock = l := h.1
    split at hl <;> omega
  have hgo : ¬(t.numItems + t.numTempItems = 0 ∨ t.active = false) := by
    rintro (h | h)
    · exact hitems h
    · rw [hactive] at h
      cases h
  rw [pauseResumeVisit, if_neg hgo]
  exact t.visitLocks_eq visitor mode hsetUp hmutex hpos hactive _ 0 s hlock hlater

theorem visitUntilEnd_endPosition : ∀ (fuel : Nat) (s : σ),
    t.visitUntilEnd visitor mode fuel s t.endPosition = .ok (s, [], t.endPosition)
  | 0, _ => rfl
  | _ + 1, _ => by rw [visitUntilEnd, if_pos rfl]

include hsetUp hmutex in
/-- Calling again from each position returned makes one walk over the buckets
left, and ends at `endPosition()`, with one call more than there are buckets
left. -/
theorem visitUntilEnd_eq_walk (hactive : t.active = true) (hitems : t.numItems + t.numTempItems ≠ 0) :
    ∀ (fuel : Nat) (s : σ) (p : Position), t.Resumable p → p ≠ t.endPosition →
      (t.resumeBuckets p).length < fuel →
      t.visitUntilEnd visitor mode fuel s p =
        .ok ((t.walk visitor mode s (t.resumeBuckets p)).1, (t.walk visitor mode s (t.resumeBuckets p)).2,
          t.endPosition)
  | 0, _, _, _, _, hfuel => absurd hfuel (Nat.not_lt_zero _)
  | fuel + 1, s, p, hpos, hend, hfuel => by
    obtain ⟨p', hcall, hres, hresumes⟩ := t.pauseResumeVisit_eq visitor mode hsetUp hmutex hactive hitems hpos s
    rw [visitUntilEnd, if_neg hend, hcall, Except.ok_bind]
    rcases hw : t.walkUntilPause visitor mode s (t.resumeBuckets p) with ⟨s₁, visited, _ | rest⟩
    · -- the call walked all that was left
      rw [hw] at hresumes
      rw [t.walk_of_walkUntilPause_none visitor mode _ hw]
      dsimp only at hresumes ⊢
      rw [show p' = t.endPosition from hresumes, visitUntilEnd_endPosition, Except.ok_bind, List.append_nil]
      rfl
    · rw [hw] at hresumes
      rw [t.walk_of_walkUntilPause_some visitor mode _ hw]
      dsimp only at hresumes ⊢
      rcases hresumes with ⟨rfl, rfl⟩ | ⟨hend', rfl⟩
      · rw [visitUntilEnd_endPosition, Except.ok_bind]
        simp only [walk, List.append_nil]
        rfl
      · -- the next calls walk the rest, which is shorter
        have hlen := t.length_lt_of_walkUntilPause_some visitor mode _ hw
        rw [visitUntilEnd_eq_walk hactive hitems fuel s₁ p' hres hend' (by omega), Except.ok_bind]
        rfl

include hsetUp hmutex in
/-- From `Position{}` the calls make the one walk over the table in lock
order. -/
theorem visitUntilEnd_start_eq_walk (hactive : t.active = true) (hitems : t.numItems + t.numTempItems ≠ 0)
    (s : σ) :
    t.visitUntilEnd visitor mode (t.getSize + 1) s Position.start =
      .ok ((t.walk visitor mode s t.lockOrder).1, (t.walk visitor mode s t.lockOrder).2, t.endPosition) := by
  have hpos : t.Resumable Position.start := fun _ _ _ => Nat.zero_mod _
  have hend : Position.start ≠ t.endPosition := fun h =>
    Nat.ne_of_lt t.mutexCount_pos (congrArg Position.lock h)
  have hlen : (t.resumeBuckets Position.start).length < t.getSize + 1 := by
    rw [t.resumeBuckets_start, t.lockOrder_perm.length_eq, List.length_range]
    exact Nat.lt_succ_self _
  rw [t.visitUntilEnd_eq_walk visitor mode hsetUp hmutex hactive hitems _ s _ hpos hend hlen,
    t.resumeBuckets_start]

end Call

/-! ## What a visit visits -/

theorem visitChain_yes (s : σ) : ∀ values : List α, (visitChain visitor .yes s values).2.1 = values
  | [] => rfl
  | v :: vs => by
    simp only [visitChain, visitChain_yes _ vs]

/-- With `VisitCompleteChain::No` the walk along a chain visits all of it, or
stops right after a value whose visit asked to pause. -/
theorem visitChain_no (s : σ) : ∀ values : List α,
    ((visitChain visitor .no s values).2.2 = false ∧ (visitChain visitor .no s values).2.1 = values) ∨
      ∃ pre v rest s', values = pre ++ v :: rest ∧ (visitChain visitor .no s values).2.1 = pre ++ [v] ∧
        (visitChain visitor .no s values).2.2 = true ∧ (visitor.visit s' v).2 = false
  | [] => .inl ⟨rfl, rfl⟩
  | v :: vs => by
    by_cases hcont : (visitor.visit s v).2 = true
    · simp only [visitChain, hcont, if_true]
      rcases visitChain_no (visitor.visit s v).1 vs with ⟨hpaused, hvisited⟩ | ⟨pre, w, rest, s', hvs, hvisited, hpaused, hw⟩
      · exact .inl ⟨hpaused, by rw [hvisited]⟩
      · exact .inr ⟨v :: pre, w, rest, s', by rw [hvs, List.cons_append], by rw [hvisited, List.cons_append],
          hpaused, hw⟩
    · -- the visit asked to pause: the walk stops right after v
      have hstop : visitChain visitor .no s (v :: vs) = ((visitor.visit s v).1, [v], true) := by
        simp only [visitChain, hcont, Bool.false_eq_true, if_false]
      exact .inr ⟨[], v, vs, s, rfl, by rw [hstop]; rfl, by rw [hstop], Bool.eq_false_iff.mpr hcont⟩

/-- The same as a cut of the chain after its first `k` values. -/
theorem visitChain_no_take (s : σ) (values : List α) :
    ∃ k, (visitChain visitor .no s values).2.1 = values.take k ∧ k ≤ values.length ∧
      (k < values.length → ∃ v s', (values.take k).getLast? = some v ∧ (visitor.visit s' v).2 = false) := by
  rcases visitChain_no visitor s values with ⟨-, hvisited⟩ | ⟨pre, v, rest, s', rfl, hvisited, -, hv⟩
  · exact ⟨values.length, by rw [hvisited, List.take_length], Nat.le_refl _, fun h => absurd h (Nat.lt_irrefl _)⟩
  · have htake : (pre ++ v :: rest).take (pre.length + 1) = pre ++ [v] := by
      simp [List.take_append, List.take_of_length_le]
    refine ⟨pre.length + 1, by rw [hvisited, htake], by simp, fun _ => ⟨v, s', ?_, hv⟩⟩
    rw [htake, List.getLast?_concat]

theorem walk_yes : ∀ (buckets : List Nat) (s : σ), (t.walk visitor .yes s buckets).2 = buckets.flatMap t.chain
  | [], _ => rfl
  | b :: bs, s => by
    simp only [walk, visitBucket, visitChain_yes, walk_yes bs, List.flatMap_cons]

/-- What a walk over `buckets` with `VisitCompleteChain::No` visits: bucket by
bucket, a prefix of each chain, cut only after a value whose visit asked to
pause. -/
def CutAtPauses (buckets : List Nat) (visited : List α) : Prop :=
  ∃ ks : List Nat, ks.length = buckets.length ∧
    visited = (buckets.zip ks).flatMap (fun p => (t.chain p.1).take p.2) ∧
    ∀ p ∈ buckets.zip ks, p.2 ≤ (t.chain p.1).length ∧
      (p.2 < (t.chain p.1).length →
        ∃ v s', ((t.chain p.1).take p.2).getLast? = some v ∧ (visitor.visit s' v).2 = false)

theorem walk_no : ∀ (buckets : List Nat) (s : σ), t.CutAtPauses visitor buckets (t.walk visitor .no s buckets).2
  | [], _ => ⟨[], rfl, rfl, fun _ h => by cases h⟩
  | b :: bs, s => by
    obtain ⟨k, hvisited, hle, hcut⟩ :=
      visitChain_no_take visitor (visitor.setUpHashBucketVisit s).1 (t.chain b)
    obtain ⟨ks, hlen, hrest, hks⟩ := walk_no bs (t.visitBucket visitor .no s b).1
    refine ⟨k :: ks, by rw [List.length_cons, List.length_cons, hlen], ?_, ?_⟩
    · simp only [walk, List.zip_cons_cons, List.flatMap_cons, ← hrest]
      rw [← hvisited]
      rfl
    · intro p hp
      rw [List.zip_cons_cons, List.mem_cons] at hp
      rcases hp with rfl | hp
      · exact ⟨hle, hcut⟩
      · exact hks p hp

/-- The chains of the buckets in order are the table's values. -/
theorem flatMap_chain_range : (List.range t.getSize).flatMap t.chain = t.values.flatten := by
  unfold chain getSize
  induction t.values with
  | nil => rfl
  | cons x l ih =>
    rw [List.length_cons, List.range_succ_eq_map, List.flatMap_cons, List.flatMap_map]
    simp only [List.getD_cons_zero, List.getD_cons_succ, List.flatten_cons]
    rw [ih]

theorem chain_eq_nil (h : t.values.flatten = []) (b : Nat) : t.chain b = [] := by
  unfold chain
  rw [List.getD_eq_getElem?_getD]
  cases hb : t.values[b]? with
  | none => rfl
  | some c => exact List.flatten_eq_nil_iff.mp h c (List.mem_of_getElem? hb)

theorem getMutexForBucket_of_lt (hsize : t.getSize ≤ 2 ^ 32) (hmutex : t.mutexCount < 2 ^ 32) {b : Nat}
    (hb : b < t.getSize) : t.getMutexForBucket b = b % t.mutexCount := by
  unfold getMutexForBucket
  rw [Nat.mod_eq_of_lt (Nat.lt_of_lt_of_le hb hsize), Nat.mod_eq_of_lt hmutex]

/-- Four buckets of one value each, under two locks. -/
def fourBuckets : HashTable Nat := ⟨[[1], [2], [3], [4]], 2, by decide, 4, 0, true⟩

/-- A visitor that counts the values it visits and sets up every bucket. -/
def countingVisitor : HashTableVisitor Nat Nat := ⟨fun s _ => (s + 1, true), fun s => (s, true), id⟩

/-- A visitor that counts the buckets it is asked to set up and refuses the
second. -/
def refusesSecondBucket : HashTableVisitor Nat Nat := ⟨fun s _ => (s, true), fun s => (s + 1, s != 1), id⟩

end HashTable

end KvEngine
