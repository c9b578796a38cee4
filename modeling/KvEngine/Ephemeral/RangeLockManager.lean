import Mathlib
import KvEngine.Lib.Except
import KvEngine.Lib.AssocList
import KvEngine.Lib.TransitionSystem

/-!
# Range locks over the sequence list (`range_lock_manager.cc`)

An ephemeral vbucket's sequence list is read in ranges of seqnos (backfills,
the stale item purger). A reader holds a range lock; while it is held, writers
do not move the items in the range. `RangeLockManager` keeps the held ranges in
two lists, shared and exclusive, and `unionedRange`, one range spanning all of
them.

- `SeqRange`: a closed range `[begin, end]` with `0 ≤ begin ≤ end`, carried as
  a field; `{0, 0}` is the invalid range. `makeNonOverlapping` cuts a range so
  it does not meet another, keeping the earlier piece when the other splits it.
- `LockedRanges`, `tryLockRange` (`Exact` or `Partial`), `tryLockRangeShared`,
  `release` and `updateRangeLockStart`: the manager. A `RangeGuard`'s iterator
  into one of the lists is modelled by the id of the element it points to; a
  guard's reset or destruction is a `release`, its move changes nothing.
- `rangeLockManager`: the transition system of these calls from the empty
  manager.

The results:

- `Inv.of_reachable`: in every reachable state the exclusive ranges are
  pairwise disjoint and disjoint from the shared ones, and `unionedRange` is
  the convex hull of the held ranges (`IsHull`), invalid when none is held.
- `rangeLockManager_contract`: besides, a lock taken lies in the range asked
  for and holds no seqno of a range that blocks it; and when no blocking range
  holds the first seqno `s ≥ 1` asked for, a partial lock takes
  `[s, min(e, b - 1)]` for `b` the least begin of a blocking range above `s`.
- `tryLockRange_partialRange_fails_on_free_range`: a partial lock can fail
  although most of the range asked for is free: the fold keeps the earlier
  piece of a range another lock splits, and the next lock may cover that piece.
-/

namespace KvEngine

namespace Ephemeral

/-- `SeqRange`: the seqnos from `begin` to `endVal`, both included. -/
structure SeqRange where
  begin : Int
  endVal : Int
  /-- What the constructor checks. -/
  range_ok : 0 ≤ begin ∧ begin ≤ endVal

namespace SeqRange

/-- `SeqRange::invalid`, `{0, 0}`. -/
def invalid : SeqRange := ⟨0, 0, by omega⟩

/-- `SeqRange(beginVal, endVal)`. -/
def make (beginVal endVal : Int) : Except String SeqRange :=
  if h : endVal < beginVal ∨ beginVal < 0 then
    .error ("Trying to create invalid SeqRange: [" ++ toString beginVal ++ ", " ++ toString endVal ++ "]")
  else
    .ok ⟨beginVal, endVal, by omega⟩

/-- `SeqRange::valid()`. -/
def valid (r : SeqRange) : Bool := !(r.begin == 0 && r.endVal == 0)

/-- `SeqRange::overlaps`. -/
def overlaps (r other : SeqRange) : Bool := max r.begin other.begin ≤ min r.endVal other.endVal

/-- `SeqRange::contains`. -/
def contains (r : SeqRange) (seqno : Int) : Bool := r.begin ≤ seqno && seqno ≤ r.endVal

/-- `to_string(SeqRange)`. -/
def render (r : SeqRange) : String :=
  "\x7b" ++ toString r.begin ++ ", " ++ toString r.endVal ++ "\x7d"

/-- `SeqRange::makeNonOverlapping`: no overlap leaves the range as it is
(case A); another range that starts inside it cuts it before that start (cases
B and E, where only the earlier piece is kept); one that ends inside it cuts it
after that end (case C); one that covers it leaves nothing (case D). -/
def makeNonOverlapping (r other : SeqRange) : SeqRange :=
  if !r.valid || !other.valid then invalid
  else if !r.overlaps other then r
  else if h : r.begin < other.begin then ⟨r.begin, other.begin - 1, by have := r.range_ok; omega⟩
  else if h' : other.endVal < r.endVal then
    ⟨other.endVal + 1, r.endVal, by have := other.range_ok; omega⟩
  else invalid

/-- `SeqRange::setBegin`. -/
def setBegin (r : SeqRange) (start : Int) : Except String SeqRange :=
  if h : start ≤ 0 ∨ r.endVal < start then
    .error ("Trying to set incorrect begin " ++ toString start ++ " on SeqRange: [" ++
      toString r.begin ++ ", " ++ toString r.endVal ++ "]")
  else
    .ok ⟨start, r.endVal, by omega⟩

end SeqRange

open SeqRange

/-- `rangeUnion(a, b)`: the range spanning both; an invalid `a` stands for no
range. `Expects(b.valid())` ends the call otherwise. -/
def rangeUnion (a b : SeqRange) : Except String SeqRange :=
  if !b.valid then .error "Expects(b.valid())"
  else if !a.valid then .ok b
  else .ok ⟨min a.begin b.begin, max a.endVal b.endVal, by have := a.range_ok; have := b.range_ok; omega⟩

/-- `RangeRequirement`: all of the range asked for, or as much of it as can be
had. -/
inductive RangeRequirement where
  | exact
  | partialRange
  deriving DecidableEq, Repr

/-- `RangeLockManager::LockedRanges`: the held ranges, each with the id a
guard's iterator points to, and `unionedRange`. -/
structure LockedRanges where
  shared : List (Nat × SeqRange)
  exclusive : List (Nat × SeqRange)
  unionedRange : SeqRange
  /-- The id the next element gets. -/
  nextId : Nat

namespace LockedRanges

/-- A manager with no lock. -/
def empty : LockedRanges := ⟨[], [], invalid, 0⟩

/-- The held ranges, shared first: `boost::range::join(shared, exclusive)`. -/
def allRanges (r : LockedRanges) : List SeqRange :=
  (r.shared ++ r.exclusive).map Prod.snd

/-- `LockedRanges::updateUnionedRange`. -/
def updateUnionedRange (r : LockedRanges) : Except String LockedRanges :=
  if r.shared.isEmpty && r.exclusive.isEmpty then
    .ok { r with unionedRange := invalid }
  else do
    let u ← r.allRanges.foldlM rangeUnion invalid
    pure { r with unionedRange := u }

/-- The loop of a partial lock: the range asked for is cut against each
blocking range in turn; a cut that leaves nothing fails the lock. -/
def narrowRange (requested : SeqRange) : List SeqRange → Option SeqRange
  | [] => some requested
  | b :: bs =>
    let next := requested.makeNonOverlapping b
    if next.valid then narrowRange next bs else none

/-- A new exclusive range, the guard's id and its range. -/
def pushExclusive (r : LockedRanges) (range : SeqRange) :
    Except String (LockedRanges × Option (Nat × SeqRange)) := do
  let u ← rangeUnion r.unionedRange range
  pure ({ r with exclusive := r.exclusive ++ [(r.nextId, range)], unionedRange := u, nextId := r.nextId + 1 },
    some (r.nextId, range))

/-- `RangeLockManager::tryLockRange(start, end, req)`: the new state and the
guard, `none` for an invalid one. -/
def tryLockRange (r : LockedRanges) (start finish : Int) (req : RangeRequirement) :
    Except String (LockedRanges × Option (Nat × SeqRange)) := do
  let requestedRange ← SeqRange.make start finish
  let blockingRanges := r.allRanges
  match req with
  | .exact =>
    if blockingRanges.any requestedRange.overlaps then
      return (r, none)
    r.pushExclusive requestedRange
  | .partialRange =>
    match narrowRange requestedRange blockingRanges with
    | none => return (r, none)
    | some range => r.pushExclusive range

/-- `RangeLockManager::tryLockRangeShared(start, end)`. -/
def tryLockRangeShared (r : LockedRanges) (start finish : Int) :
    Except String (LockedRanges × Option (Nat × SeqRange)) := do
  let requestedRange ← SeqRange.make start finish
  if (r.exclusive.map Prod.snd).any requestedRange.overlaps then
    return (r, none)
  let u ← rangeUnion r.unionedRange requestedRange
  pure ({ r with shared := r.shared ++ [(r.nextId, requestedRange)], unionedRange := u, nextId := r.nextId + 1 },
    some (r.nextId, requestedRange))

/-- The list a guard's range is in. -/
def rangeList (r : LockedRanges) (exclusive : Bool) : List (Nat × SeqRange) :=
  if exclusive then r.exclusive else r.shared

/-- The manager with the list a guard's range is in replaced. -/
def withRangeList (r : LockedRanges) (exclusive : Bool) (l : List (Nat × SeqRange)) : LockedRanges :=
  if exclusive then { r with exclusive := l } else { r with shared := l }

/-- `RangeLockManager::release(itrToRange, exclusive)`: the range is erased
and `unionedRange` computed again. An id that is no element stands for an
iterator no guard holds. -/
def release (r : LockedRanges) (id : Nat) (exclusive : Bool) : Except String LockedRanges :=
  match (r.rangeList exclusive).lookup id with
  | none => .error "release: invalid iterator"
  | some _ => (r.withRangeList exclusive ((r.rangeList exclusive).filter fun e => e.1 != id)).updateUnionedRange

/-- `RangeLockManager::updateRangeLockStart(itrToRange, newStart)`: the start
only moves forward, and `unionedRange` is computed again only when the range
started where it does. -/
def updateRangeLockStart (r : LockedRanges) (id : Nat) (exclusive : Bool) (newStart : Int) :
    Except String LockedRanges :=
  match (r.rangeList exclusive).lookup id with
  | none => .error "updateRangeLockStart: invalid iterator"
  | some range => do
    let previousStart := range.begin
    if newStart ≤ previousStart then
      throw ("RangeLockManager::updateRangeLockStart: tried to update start of range:" ++ range.render ++
        "to :\x7b" ++ toString newStart ++ "\x7d")
    let moved ← range.setBegin newStart
    let r' := r.withRangeList exclusive
      ((r.rangeList exclusive).map fun e => if e.1 = id then (id, moved) else e)
    if previousStart = r.unionedRange.begin then r'.updateUnionedRange else pure r'

end LockedRanges

open LockedRanges

/-- The calls made on the manager: the two lock calls, and through a guard,
`updateRangeStart` and the release of its range. -/
inductive Call where
  | tryLockRange (start finish : Int) (req : RangeRequirement)
  | tryLockRangeShared (start finish : Int)
  | release (id : Nat) (exclusive : Bool)
  | updateRangeStart (id : Nat) (exclusive : Bool) (newStart : Int)

/-- The state after a call that returned. -/
def LockedRanges.step (r : LockedRanges) : Call → Except String LockedRanges
  | .tryLockRange start finish req => (r.tryLockRange start finish req).map Prod.fst
  | .tryLockRangeShared start finish => (r.tryLockRangeShared start finish).map Prod.fst
  | .release id exclusive => r.release id exclusive
  | .updateRangeStart id exclusive newStart => r.updateRangeLockStart id exclusive newStart

/-- The manager as a transition system: it starts with no lock, and a call
that returns moves it to the state the call leaves. -/
def rangeLockManager : TransitionSystem LockedRanges Call where
  init r := r = LockedRanges.empty
  next r call r' := r.step call = .ok r'

/-! ## Ranges -/

namespace SeqRange

/-- `r` lies in `q`. -/
def Within (r q : SeqRange) : Prop := q.begin ≤ r.begin ∧ r.endVal ≤ q.endVal

theorem Within.refl (r : SeqRange) : Within r r := ⟨Int.le_refl _, Int.le_refl _⟩

theorem Within.trans {r q p : SeqRange} (h₁ : Within r q) (h₂ : Within q p) : Within r p :=
  ⟨Int.le_trans h₂.1 h₁.1, Int.le_trans h₁.2 h₂.2⟩

theorem valid_eq_true_iff (r : SeqRange) : r.valid = true ↔ ¬(r.begin = 0 ∧ r.endVal = 0) := by
  unfold valid
  by_cases h₁ : r.begin = 0 <;> by_cases h₂ : r.endVal = 0 <;> simp [h₁, h₂]

theorem valid_of_one_le {r : SeqRange} (h : 1 ≤ r.begin) : r.valid = true := by
  rw [valid_eq_true_iff]
  omega

theorem invalid_valid : invalid.valid = false := rfl

theorem overlaps_eq_true_iff (r o : SeqRange) :
    r.overlaps o = true ↔ r.begin ≤ o.endVal ∧ o.begin ≤ r.endVal := by
  have := r.range_ok
  have := o.range_ok
  simp only [overlaps, decide_eq_true_eq]
  omega

theorem overlaps_comm (r o : SeqRange) : r.overlaps o = o.overlaps r := by
  simp only [overlaps, Int.max_comm r.begin, Int.min_comm r.endVal]

/-- A range within one that meets no `o` does not meet `o` either. -/
theorem overlaps_eq_false_of_within {r q o : SeqRange} (h : Within r q) (hq : q.overlaps o = false) :
    r.overlaps o = false := by
  rw [Bool.eq_false_iff, ne_eq, overlaps_eq_true_iff] at hq ⊢
  obtain ⟨h₁, h₂⟩ := h
  omega

theorem contains_eq_false_iff (r : SeqRange) (seqno : Int) :
    r.contains seqno = false ↔ seqno < r.begin ∨ r.endVal < seqno := by
  simp only [contains, Bool.and_eq_false_iff, decide_eq_false_iff_not]
  omega

/-- `r` and `o` hold no seqno in common. -/
def Disjoint (r o : SeqRange) : Prop := ∀ seqno, r.contains seqno = true → o.contains seqno = false

/-- `overlaps` is false exactly of disjoint ranges. -/
theorem overlaps_eq_false_iff_disjoint (r o : SeqRange) : r.overlaps o = false ↔ r.Disjoint o := by
  have := r.range_ok
  have := o.range_ok
  rw [Bool.eq_false_iff, ne_eq, overlaps_eq_true_iff]
  constructor
  · intro h seqno hs
    simp only [contains, Bool.and_eq_true, decide_eq_true_eq] at hs
    rw [contains_eq_false_iff]
    omega
  · -- the later of the two begins lies in both
    intro h hmeet
    have hin : r.contains (max r.begin o.begin) = true := by
      simp only [contains, Bool.and_eq_true, decide_eq_true_eq]
      omega
    have hout := (contains_eq_false_iff _ _).mp (h _ hin)
    omega

theorem makeNonOverlapping_of_overlaps_eq_false {r o : SeqRange} (hr : r.valid = true) (ho : o.valid = true)
    (h : r.overlaps o = false) : r.makeNonOverlapping o = r := by
  simp [makeNonOverlapping, hr, ho, h]

/-- Case B: a range starting inside `r` cuts it just before its start. -/
theorem makeNonOverlapping_of_lt {r o : SeqRange} (hr : r.valid = true) (ho : o.valid = true)
    (h : r.overlaps o = true) (hlt : r.begin < o.begin) :
    (r.makeNonOverlapping o).begin = r.begin ∧ (r.makeNonOverlapping o).endVal = o.begin - 1 := by
  simp [makeNonOverlapping, hr, ho, h, hlt]

/-- What is left of a range cut against `o` lies in it and does not meet
`o`. -/
theorem makeNonOverlapping_spec (r o : SeqRange) (h : (r.makeNonOverlapping o).valid = true) :
    Within (r.makeNonOverlapping o) r ∧ (r.makeNonOverlapping o).overlaps o = false := by
  have hr := r.range_ok
  have ho := o.range_ok
  unfold makeNonOverlapping at h ⊢
  by_cases hv : (!r.valid || !o.valid) = true
  · rw [if_pos hv] at h
    exact absurd h (by decide)
  rw [if_neg hv] at h ⊢
  by_cases hov : (!r.overlaps o) = true
  · -- case A: nothing to cut
    rw [if_pos hov]
    exact ⟨Within.refl r, by simpa using hov⟩
  rw [if_neg hov] at h ⊢
  have hmeet : r.begin ≤ o.endVal ∧ o.begin ≤ r.endVal := by
    rw [← overlaps_eq_true_iff]
    simpa using hov
  by_cases hlt : r.begin < o.begin
  · -- cases B and E: the earlier piece
    rw [dif_pos hlt]
    refine ⟨⟨Int.le_refl _, by dsimp only; omega⟩, ?_⟩
    rw [Bool.eq_false_iff, ne_eq, overlaps_eq_true_iff]
    dsimp only
    omega
  rw [dif_neg hlt] at h ⊢
  by_cases hgt : o.endVal < r.endVal
  · -- case C: the later piece
    rw [dif_pos hgt]
    refine ⟨⟨by dsimp only; omega, Int.le_refl _⟩, ?_⟩
    rw [Bool.eq_false_iff, ne_eq, overlaps_eq_true_iff]
    dsimp only
    omega
  · -- case D: nothing is left
    rw [dif_neg hgt] at h
    exact absurd h (by decide)

end SeqRange

namespace LockedRanges

/-- A partial lock that is had lies in the range asked for and meets no
blocking range. -/
theorem narrowRange_spec : ∀ (bs : List SeqRange) (q n : SeqRange), narrowRange q bs = some n →
    n.Within q ∧ ∀ b ∈ bs, n.overlaps b = false
  | [], q, n, h => by
    cases h
    exact ⟨SeqRange.Within.refl _, fun _ hb => nomatch hb⟩
  | b :: bs, q, n, h => by
    simp only [narrowRange] at h
    split at h
    · rename_i hvalid
      obtain ⟨hw, hd⟩ := narrowRange_spec bs _ n h
      obtain ⟨hw', hd'⟩ := SeqRange.makeNonOverlapping_spec q b hvalid
      refine ⟨hw.trans hw', fun b' hb' => ?_⟩
      rcases List.mem_cons.mp hb' with rfl | hb'
      · exact SeqRange.overlaps_eq_false_of_within hw hd'
      · exact hd b' hb'
    · cases h

/-- Where a partial lock from `s` ends: before the least begin above `s` of
the blocking ranges, and at `e` at the latest. -/
def partialEnd (bs : List SeqRange) (s e : Int) : Int :=
  bs.foldl (fun e b => if s < b.begin then min e (b.begin - 1) else e) e

theorem partialEnd_cons (b : SeqRange) (bs : List SeqRange) (s e : Int) :
    partialEnd (b :: bs) s e = partialEnd bs s (if s < b.begin then min e (b.begin - 1) else e) := rfl

theorem partialEnd_le (s : Int) : ∀ (bs : List SeqRange) (e : Int), partialEnd bs s e ≤ e
  | [], _ => Int.le_refl _
  | b :: bs, e => by
    rw [partialEnd_cons]
    by_cases hs : s < b.begin
    · have := partialEnd_le s bs (min e (b.begin - 1))
      rw [if_pos hs]
      omega
    · rw [if_neg hs]
      exact partialEnd_le s bs e

theorem partialEnd_lt (s : Int) : ∀ (bs : List SeqRange) (e : Int), ∀ b ∈ bs, s < b.begin →
    partialEnd bs s e < b.begin
  | [], _, _, hb, _ => nomatch hb
  | b :: bs, e, b', hb', hs => by
    rw [partialEnd_cons]
    rcases List.mem_cons.mp hb' with rfl | hb'
    · have := partialEnd_le s bs (min e (b'.begin - 1))
      rw [if_pos hs]
      omega
    · exact partialEnd_lt s bs _ b' hb' hs

theorem partialEnd_eq (s : Int) : ∀ (bs : List SeqRange) (e : Int),
    partialEnd bs s e = e ∨ ∃ b ∈ bs, s < b.begin ∧ partialEnd bs s e = b.begin - 1
  | [], _ => .inl rfl
  | b :: bs, e => by
    rw [partialEnd_cons]
    by_cases hs : s < b.begin
    · rw [if_pos hs]
      rcases partialEnd_eq s bs (min e (b.begin - 1)) with h | ⟨b', hb', hs', h⟩
      · -- the bound is `e` or the begin of `b`, whichever comes first
        by_cases hmin : e ≤ b.begin - 1
        · exact .inl (by rw [h]; omega)
        · exact .inr ⟨b, List.mem_cons_self, hs, by rw [h]; omega⟩
      · exact .inr ⟨b', List.mem_cons_of_mem _ hb', hs', h⟩
    · rw [if_neg hs]
      rcases partialEnd_eq s bs e with h | ⟨b', hb', hs', h⟩
      · exact .inl h
      · exact .inr ⟨b', List.mem_cons_of_mem _ hb', hs', h⟩

/-- A partial lock whose first seqno no blocking range holds keeps that first
seqno and ends at `partialEnd`. -/
theorem narrowRange_of_not_contains : ∀ (bs : List SeqRange) (q : SeqRange), 1 ≤ q.begin →
    (∀ b ∈ bs, b.valid = true ∧ b.contains q.begin = false) →
    ∃ n, narrowRange q bs = some n ∧ n.begin = q.begin ∧ n.endVal = partialEnd bs q.begin q.endVal
  | [], q, _, _ => ⟨q, rfl, rfl, rfl⟩
  | b :: bs, q, hq, hbs => by
    obtain ⟨hb, hfree⟩ := hbs b List.mem_cons_self
    have hqv := SeqRange.valid_of_one_le hq
    have hqr := q.range_ok
    have hbr := b.range_ok
    rw [SeqRange.contains_eq_false_iff] at hfree
    -- the cut keeps `q.begin`, and its end is the new bound `partialEnd` folds to
    have hnext : (q.makeNonOverlapping b).begin = q.begin ∧
        (q.makeNonOverlapping b).endVal = if q.begin < b.begin then min q.endVal (b.begin - 1) else q.endVal := by
      by_cases hov : q.overlaps b = true
      · have hmeet := (SeqRange.overlaps_eq_true_iff q b).mp hov
        have hlt : q.begin < b.begin := by omega
        rw [SeqRange.makeNonOverlapping_of_lt hqv hb hov hlt |>.1,
          SeqRange.makeNonOverlapping_of_lt hqv hb hov hlt |>.2, if_pos hlt]
        exact ⟨rfl, by omega⟩
      · have hov' : q.overlaps b = false := Bool.eq_false_iff.mpr hov
        rw [SeqRange.makeNonOverlapping_of_overlaps_eq_false hqv hb hov']
        have hapart := hov'
        rw [Bool.eq_false_iff, ne_eq, SeqRange.overlaps_eq_true_iff] at hapart
        refine ⟨rfl, ?_⟩
        split <;> omega
    obtain ⟨n, hn, hbegin, hend⟩ := narrowRange_of_not_contains bs (q.makeNonOverlapping b)
      (by rw [hnext.1]; exact hq) (by rw [hnext.1]; exact fun b' hb' => hbs b' (List.mem_cons_of_mem _ hb'))
    refine ⟨n, ?_, by rw [hbegin, hnext.1], ?_⟩
    · simp only [narrowRange, SeqRange.valid_of_one_le (hnext.1 ▸ hq : 1 ≤ (q.makeNonOverlapping b).begin),
        if_true]
      exact hn
    · rw [hend, hnext.1, hnext.2, partialEnd_cons]

end LockedRanges

/-! ## The unioned range -/

/-- `u` is the convex hull of `rs`: the invalid range when there is none, else
the range from the least begin of `rs` to its greatest end. -/
structure IsHull (rs : List SeqRange) (u : SeqRange) : Prop where
  empty : rs = [] → u.begin = 0 ∧ u.endVal = 0
  covers : ∀ x ∈ rs, u.begin ≤ x.begin ∧ x.endVal ≤ u.endVal
  begin_mem : rs ≠ [] → ∃ x ∈ rs, x.begin = u.begin
  end_mem : rs ≠ [] → ∃ x ∈ rs, x.endVal = u.endVal

namespace IsHull

theorem nil : IsHull [] invalid :=
  ⟨fun _ => ⟨rfl, rfl⟩, fun _ h => (nomatch h), fun h => absurd rfl h, fun h => absurd rfl h⟩

/-- The hull of valid ranges is valid. -/
theorem valid {rs : List SeqRange} {u : SeqRange} (h : IsHull rs u) (hv : ∀ x ∈ rs, x.valid = true)
    (hne : rs ≠ []) : u.valid = true := by
  obtain ⟨x, hx, hxb⟩ := h.begin_mem hne
  have hcov := h.covers x hx
  have := x.range_ok
  have hxv := hv x hx
  rw [valid_eq_true_iff] at hxv ⊢
  omega

/-- Only which ranges are held matters. -/
theorem congr {rs rs' : List SeqRange} {u : SeqRange} (h : IsHull rs u) (hmem : ∀ x, x ∈ rs ↔ x ∈ rs') :
    IsHull rs' u := by
  have hnil : rs = [] ↔ rs' = [] := by
    simp only [List.eq_nil_iff_forall_not_mem, hmem]
  refine ⟨fun h' => h.empty (hnil.mpr h'), fun x hx => h.covers x ((hmem x).mpr hx), fun hne => ?_, fun hne => ?_⟩
  · obtain ⟨x, hx, hb⟩ := h.begin_mem (fun h' => hne (hnil.mp h'))
    exact ⟨x, (hmem x).mp hx, hb⟩
  · obtain ⟨x, hx, he⟩ := h.end_mem (fun h' => hne (hnil.mp h'))
    exact ⟨x, (hmem x).mp hx, he⟩

end IsHull

/-- `rangeUnion` of a valid range: the range itself after an invalid one, else
the span of both. -/
theorem rangeUnion_eq {a b : SeqRange} (hb : b.valid = true) :
    ∃ u, rangeUnion a b = .ok u ∧ (a.valid = false → u = b) ∧
      (a.valid = true → u.begin = min a.begin b.begin ∧ u.endVal = max a.endVal b.endVal) := by
  cases ha : a.valid with
  | false => exact ⟨b, by simp [rangeUnion, hb, ha], fun _ => rfl, fun h => (nomatch h)⟩
  | true =>
    exact ⟨⟨min a.begin b.begin, max a.endVal b.endVal, by have := a.range_ok; have := b.range_ok; omega⟩,
      by simp [rangeUnion, hb, ha], fun h => (nomatch h), fun _ => ⟨rfl, rfl⟩⟩

theorem valid_of_rangeUnion_eq_ok {a b u : SeqRange} (h : rangeUnion a b = .ok u) : b.valid = true := by
  unfold rangeUnion at h
  by_cases hb : b.valid = true
  · exact hb
  · simp [hb] at h

/-- `rangeUnion` of the hull and one more valid range is the hull of all. -/
theorem IsHull.rangeUnion {rs : List SeqRange} {u x u' : SeqRange} (h : IsHull rs u)
    (hv : ∀ y ∈ rs, y.valid = true) (hunion : rangeUnion u x = .ok u') : IsHull (rs ++ [x]) u' := by
  have hx := valid_of_rangeUnion_eq_ok hunion
  obtain ⟨w, hw, hinvalid, hvalid⟩ := rangeUnion_eq (a := u) hx
  rw [hunion] at hw
  cases hw
  have hxr := x.range_ok
  by_cases hne : rs = []
  · -- the first range held: the hull is the range itself
    subst hne
    have hu := h.empty rfl
    have hw : u' = x := hinvalid (by simp [SeqRange.valid, hu.1, hu.2])
    subst hw
    refine ⟨fun h' => absurd h' (by simp), fun y hy => ?_, fun _ => ⟨u', by simp, rfl⟩,
      fun _ => ⟨u', by simp, rfl⟩⟩
    rw [List.nil_append, List.mem_singleton] at hy
    subst hy
    exact ⟨Int.le_refl _, Int.le_refl _⟩
  · obtain ⟨hbegin, hend⟩ := hvalid (h.valid hv hne)
    refine ⟨fun h' => absurd h' (by simp), fun y hy => ?_, fun _ => ?_, fun _ => ?_⟩
    · rcases List.mem_append.mp hy with hy | hy
      · have := h.covers y hy
        omega
      · rw [List.mem_singleton] at hy
        subst hy
        omega
    · by_cases hle : u.begin ≤ x.begin
      · obtain ⟨y, hy, hyb⟩ := h.begin_mem hne
        exact ⟨y, List.mem_append_left _ hy, by omega⟩
      · exact ⟨x, List.mem_append_right _ (List.mem_singleton_self x), by omega⟩
    · by_cases hle : x.endVal ≤ u.endVal
      · obtain ⟨y, hy, hye⟩ := h.end_mem hne
        exact ⟨y, List.mem_append_left _ hy, by omega⟩
      · exact ⟨x, List.mem_append_right _ (List.mem_singleton_self x), by omega⟩

/-- The loop of `updateUnionedRange` computes the hull of valid ranges. -/
theorem foldlM_rangeUnion : ∀ (rs pre : List SeqRange) (u : SeqRange), IsHull pre u →
    (∀ y ∈ pre ++ rs, y.valid = true) → ∃ u', rs.foldlM rangeUnion u = .ok u' ∧ IsHull (pre ++ rs) u'
  | [], pre, u, h, _ => ⟨u, rfl, by simpa using h⟩
  | x :: rs, pre, u, h, hv => by
    obtain ⟨u₁, hu₁, -, -⟩ := rangeUnion_eq (a := u) (hv x (by simp))
    have h₁ := h.rangeUnion (fun y hy => hv y (List.mem_append_left _ hy)) hu₁
    obtain ⟨u', hu', h'⟩ := foldlM_rangeUnion rs (pre ++ [x]) u₁ h₁ (by simpa using hv)
    refine ⟨u', ?_, by simpa using h'⟩
    rw [List.foldlM_cons, hu₁, Except.ok_bind]
    exact hu'

namespace LockedRanges

theorem updateUnionedRange_eq (r : LockedRanges) (hv : ∀ x ∈ r.allRanges, x.valid = true) :
    ∃ u, r.updateUnionedRange = .ok { r with unionedRange := u } ∧ IsHull r.allRanges u := by
  unfold updateUnionedRange
  by_cases hempty : (r.shared.isEmpty && r.exclusive.isEmpty) = true
  · rw [if_pos hempty]
    have hnil : r.allRanges = [] := by
      simp only [Bool.and_eq_true, List.isEmpty_iff] at hempty
      simp [allRanges, hempty.1, hempty.2]
    exact ⟨invalid, rfl, hnil ▸ IsHull.nil⟩
  · rw [if_neg hempty]
    obtain ⟨u, hu, hh⟩ := foldlM_rangeUnion r.allRanges [] invalid IsHull.nil (by simpa using hv)
    exact ⟨u, by rw [hu]; rfl, by simpa using hh⟩

/-! ## What each call does -/

theorem SeqRange.make_eq_ok {b e : Int} {r : SeqRange} (h : SeqRange.make b e = .ok r) :
    r.begin = b ∧ r.endVal = e := by
  unfold SeqRange.make at h
  split at h
  · cases h
  · cases h
    exact ⟨rfl, rfl⟩

theorem SeqRange.make_of_le {b e : Int} (h₀ : 0 ≤ b) (h : b ≤ e) : SeqRange.make b e = .ok ⟨b, e, h₀, h⟩ := by
  unfold SeqRange.make
  rw [dif_neg (by omega)]

theorem SeqRange.setBegin_eq_ok {r moved : SeqRange} {start : Int} (h : r.setBegin start = .ok moved) :
    moved.begin = start ∧ moved.endVal = r.endVal := by
  unfold SeqRange.setBegin at h
  split at h
  · cases h
  · cases h
    exact ⟨rfl, rfl⟩

theorem pushExclusive_eq_ok {r r' : LockedRanges} {range : SeqRange} {g : Option (Nat × SeqRange)}
    (h : r.pushExclusive range = .ok (r', g)) :
    g = some (r.nextId, range) ∧ ∃ u, rangeUnion r.unionedRange range = .ok u ∧
      r' = { r with exclusive := r.exclusive ++ [(r.nextId, range)], unionedRange := u, nextId := r.nextId + 1 } := by
  unfold pushExclusive at h
  obtain ⟨u, hu, h⟩ := Except.bind_eq_ok.mp h
  cases Except.pure_eq_ok.mp h
  exact ⟨rfl, u, hu, rfl⟩

/-- A valid range is always pushed. -/
theorem pushExclusive_of_valid (r : LockedRanges) {n : SeqRange} (hn : n.valid = true) :
    ∃ r', r.pushExclusive n = .ok (r', some (r.nextId, n)) := by
  obtain ⟨u, hu, -, -⟩ := rangeUnion_eq (a := r.unionedRange) hn
  exact ⟨_, by rw [pushExclusive, hu, Except.ok_bind]; rfl⟩

/-- A lock call fails without a change, or pushes a range within the one asked
for that meets no blocking range. -/
theorem tryLockRange_eq_ok {r r' : LockedRanges} {start finish : Int} {req : RangeRequirement}
    {g : Option (Nat × SeqRange)} (h : r.tryLockRange start finish req = .ok (r', g)) :
    (g = none ∧ r' = r) ∨
      ∃ n, g = some (r.nextId, n) ∧ start ≤ n.begin ∧ n.endVal ≤ finish ∧
        (∀ b ∈ r.allRanges, n.overlaps b = false) ∧ r.pushExclusive n = .ok (r', g) := by
  unfold tryLockRange at h
  obtain ⟨q, hq, h⟩ := Except.bind_eq_ok.mp h
  obtain ⟨hb, he⟩ := SeqRange.make_eq_ok hq
  cases req with
  | exact =>
    dsimp only at h
    split at h
    · cases Except.pure_eq_ok.mp h
      exact .inl ⟨rfl, rfl⟩
    · rename_i hany
      have hfree : ∀ b ∈ r.allRanges, q.overlaps b = false := fun b hb' =>
        Bool.eq_false_iff.mpr fun hov => hany (List.any_eq_true.mpr ⟨b, hb', hov⟩)
      exact .inr ⟨q, (pushExclusive_eq_ok h).1, by omega, by omega, hfree, h⟩
  | partialRange =>
    dsimp only at h
    split at h
    · cases Except.pure_eq_ok.mp h
      exact .inl ⟨rfl, rfl⟩
    · rename_i n hn
      obtain ⟨⟨h₁, h₂⟩, hfree⟩ := narrowRange_spec _ q n hn
      exact .inr ⟨n, (pushExclusive_eq_ok h).1, by omega, by omega, hfree, h⟩

/-- A shared lock call fails without a change, or pushes the range asked for,
which meets no exclusive range. -/
theorem tryLockRangeShared_eq_ok {r r' : LockedRanges} {start finish : Int} {g : Option (Nat × SeqRange)}
    (h : r.tryLockRangeShared start finish = .ok (r', g)) :
    (g = none ∧ r' = r) ∨
      ∃ n u, g = some (r.nextId, n) ∧ n.begin = start ∧ n.endVal = finish ∧
        (∀ b ∈ r.exclusive.map Prod.snd, n.overlaps b = false) ∧ rangeUnion r.unionedRange n = .ok u ∧
        r' = { r with shared := r.shared ++ [(r.nextId, n)], unionedRange := u, nextId := r.nextId + 1 } := by
  unfold tryLockRangeShared at h
  obtain ⟨q, hq, h⟩ := Except.bind_eq_ok.mp h
  obtain ⟨hb, he⟩ := SeqRange.make_eq_ok hq
  split at h
  · cases Except.pure_eq_ok.mp h
    exact .inl ⟨rfl, rfl⟩
  · rename_i hany
    obtain ⟨u, hu, h⟩ := Except.bind_eq_ok.mp h
    cases Except.pure_eq_ok.mp h
    have hfree : ∀ b ∈ r.exclusive.map Prod.snd, q.overlaps b = false := fun b hb' =>
      Bool.eq_false_iff.mpr fun hov => hany (List.any_eq_true.mpr ⟨b, hb', hov⟩)
    exact .inr ⟨q, u, rfl, hb, he, hfree, hu, rfl⟩

theorem release_eq_ok {r r' : LockedRanges} {id : Nat} {exclusive : Bool} (h : r.release id exclusive = .ok r') :
    ∃ range, (r.rangeList exclusive).lookup id = some range ∧
      (r.withRangeList exclusive ((r.rangeList exclusive).filter fun e => e.1 != id)).updateUnionedRange = .ok r' := by
  unfold release at h
  split at h
  · cases h
  · rename_i range hrange
    exact ⟨range, hrange, h⟩

/-- The range with the id moved to start at `newStart`. -/
def moveStart (id : Nat) (moved : SeqRange) (e : Nat × SeqRange) : Nat × SeqRange :=
  if e.1 = id then (id, moved) else e

theorem updateRangeLockStart_eq_ok {r r' : LockedRanges} {id : Nat} {exclusive : Bool} {newStart : Int}
    (h : r.updateRangeLockStart id exclusive newStart = .ok r') :
    ∃ range moved, (r.rangeList exclusive).lookup id = some range ∧ range.begin < newStart ∧
      moved.begin = newStart ∧ moved.endVal = range.endVal ∧
      ((range.begin = r.unionedRange.begin ∧
          (r.withRangeList exclusive ((r.rangeList exclusive).map (moveStart id moved))).updateUnionedRange = .ok r') ∨
        (range.begin ≠ r.unionedRange.begin ∧
          r' = r.withRangeList exclusive ((r.rangeList exclusive).map (moveStart id moved)))) := by
  unfold updateRangeLockStart at h
  split at h
  · cases h
  · rename_i range hrange
    dsimp only at h
    split at h
    · cases h
    · rename_i hlt
      obtain ⟨moved, hmoved, h⟩ := Except.bind_eq_ok.mp h
      obtain ⟨hbegin, hend⟩ := SeqRange.setBegin_eq_ok hmoved
      refine ⟨range, moved, hrange, by omega, hbegin, hend, ?_⟩
      by_cases hlow : range.begin = r.unionedRange.begin
      · rw [if_pos hlow] at h
        exact .inl ⟨hlow, h⟩
      · rw [if_neg hlow] at h
        exact .inr ⟨hlow, (Except.pure_eq_ok.mp h).symm⟩

end LockedRanges

/-! ## The invariant -/

/-- A hull stays the hull when ranges move their start forward, unless a
range that started at the hull's begin moved. -/
theorem IsHull.map_of_shrinkStart {l : List (Nat × SeqRange)} {u : SeqRange}
    {g : Nat × SeqRange → Nat × SeqRange} (h : IsHull (l.map Prod.snd) u)
    (hg : ∀ e ∈ l, e.2.begin ≤ (g e).2.begin ∧ (g e).2.endVal = e.2.endVal ∧
      ((g e).2.begin = e.2.begin ∨ e.2.begin ≠ u.begin)) :
    IsHull ((l.map g).map Prod.snd) u := by
  have hmem : ∀ x, x ∈ (l.map g).map Prod.snd ↔ ∃ e ∈ l, (g e).2 = x := by
    intro x
    simp
  refine ⟨fun hnil => h.empty (by simpa using hnil), fun x hx => ?_, fun hne => ?_, fun hne => ?_⟩
  · obtain ⟨e, he, rfl⟩ := (hmem x).mp hx
    have hcov := h.covers e.2 (List.mem_map_of_mem he)
    obtain ⟨h₁, h₂, -⟩ := hg e he
    omega
  · obtain ⟨x, hx, hxb⟩ := h.begin_mem (by simpa using hne)
    obtain ⟨e, he, rfl⟩ : ∃ e ∈ l, e.2 = x := by simpa using hx
    -- the range at the hull's begin did not move
    obtain ⟨-, -, hb | hb⟩ := hg e he
    · exact ⟨(g e).2, (hmem _).mpr ⟨e, he, rfl⟩, by rw [hb, hxb]⟩
    · exact absurd hxb hb
  · obtain ⟨x, hx, hxe⟩ := h.end_mem (by simpa using hne)
    obtain ⟨e, he, rfl⟩ : ∃ e ∈ l, e.2 = x := by simpa using hx
    obtain ⟨-, he', -⟩ := hg e he
    exact ⟨(g e).2, (hmem _).mpr ⟨e, he, rfl⟩, by rw [he', hxe]⟩

namespace LockedRanges

theorem mem_map_snd_map {l : List (Nat × SeqRange)} {g : Nat × SeqRange → Nat × SeqRange} {x : SeqRange} :
    x ∈ (l.map g).map Prod.snd ↔ ∃ e ∈ l, (g e).2 = x := by
  rw [List.map_map, List.mem_map]
  rfl

theorem allRanges_map (r : LockedRanges) (g : Nat × SeqRange → Nat × SeqRange) (u : SeqRange) :
    allRanges ⟨r.shared.map g, r.exclusive.map g, u, r.nextId⟩ = ((r.shared ++ r.exclusive).map g).map Prod.snd := by
  simp [allRanges]

theorem mem_allRanges {r : LockedRanges} {x : SeqRange} :
    x ∈ r.allRanges ↔ x ∈ r.shared.map Prod.snd ∨ x ∈ r.exclusive.map Prod.snd := by
  simp [allRanges]

/-- What holds of the held ranges in every state. -/
structure Inv (r : LockedRanges) : Prop where
  valid : ∀ x ∈ r.allRanges, x.valid = true
  exclusive_pairwise : (r.exclusive.map Prod.snd).Pairwise fun a b => a.overlaps b = false
  exclusive_shared : ∀ a ∈ r.exclusive.map Prod.snd, ∀ b ∈ r.shared.map Prod.snd, a.overlaps b = false
  hull : IsHull r.allRanges r.unionedRange
  /-- Each element, the target of at most one guard's iterator, is its own. -/
  ids_nodup : ((r.shared ++ r.exclusive).map Prod.fst).Nodup
  ids_lt : ∀ e ∈ r.shared ++ r.exclusive, e.1 < r.nextId

theorem Inv.empty : Inv LockedRanges.empty :=
  ⟨fun x hx => by simp [LockedRanges.empty, allRanges] at hx, List.Pairwise.nil,
    fun a ha => by simp [LockedRanges.empty] at ha, IsHull.nil, List.nodup_nil,
    fun e he => by simp [LockedRanges.empty] at he⟩

theorem Inv.pushExclusive {r r' : LockedRanges} {n : SeqRange} {g : Option (Nat × SeqRange)} (hi : Inv r)
    (hfree : ∀ b ∈ r.allRanges, n.overlaps b = false) (h : r.pushExclusive n = .ok (r', g)) : Inv r' := by
  obtain ⟨-, u, hu, rfl⟩ := pushExclusive_eq_ok h
  have hn := valid_of_rangeUnion_eq_ok hu
  have hall : allRanges ⟨r.shared, r.exclusive ++ [(r.nextId, n)], u, r.nextId + 1⟩ = r.allRanges ++ [n] := by
    simp [allRanges]
  have hfresh : r.nextId ∉ (r.shared ++ r.exclusive).map Prod.fst := fun hmem => by
    obtain ⟨e, he, hid⟩ := List.mem_map.mp hmem
    have := hi.ids_lt e he
    omega
  refine ⟨?_, ?_, ?_, ?_, ?_, ?_⟩
  · rw [hall]
    intro x hx
    rcases List.mem_append.mp hx with hx | hx
    · exact hi.valid x hx
    · rw [List.mem_singleton.mp hx]
      exact hn
  · -- the new range meets no held range
    dsimp only
    rw [List.map_append, List.map_singleton]
    refine List.pairwise_append.mpr ⟨hi.exclusive_pairwise, List.pairwise_singleton _ _, fun a ha b hb => ?_⟩
    rw [List.mem_singleton.mp hb, overlaps_comm]
    exact hfree a (mem_allRanges.mpr (.inr ha))
  · intro a ha b hb
    dsimp only at ha hb
    rw [List.map_append, List.map_singleton, List.mem_append, List.mem_singleton] at ha
    rcases ha with ha | rfl
    · exact hi.exclusive_shared a ha b hb
    · exact hfree _ (mem_allRanges.mpr (.inl hb))
  · rw [hall]
    exact hi.hull.rangeUnion hi.valid hu
  · dsimp only
    rw [← List.append_assoc]
    exact AssocList.nodup_keys_append_singleton n hi.ids_nodup hfresh
  · intro e he
    dsimp only at he ⊢
    rw [← List.append_assoc, List.mem_append, List.mem_singleton] at he
    rcases he with he | rfl
    · exact Nat.lt_succ_of_lt (hi.ids_lt e he)
    · exact Nat.lt_succ_self _

theorem Inv.tryLockRange {r r' : LockedRanges} {start finish : Int} {req : RangeRequirement}
    {g : Option (Nat × SeqRange)} (hi : Inv r) (h : r.tryLockRange start finish req = .ok (r', g)) : Inv r' := by
  rcases tryLockRange_eq_ok h with ⟨-, rfl⟩ | ⟨n, -, -, -, hfree, hpush⟩
  · exact hi
  · exact hi.pushExclusive hfree hpush

theorem Inv.tryLockRangeShared {r r' : LockedRanges} {start finish : Int} {g : Option (Nat × SeqRange)}
    (hi : Inv r) (h : r.tryLockRangeShared start finish = .ok (r', g)) : Inv r' := by
  rcases tryLockRangeShared_eq_ok h with ⟨-, rfl⟩ | ⟨n, u, -, -, -, hfree, hu, rfl⟩
  · exact hi
  have hn := valid_of_rangeUnion_eq_ok hu
  -- the new range goes into the shared list: the same ranges as after a push at the end
  have hperm : ((r.shared ++ [(r.nextId, n)]) ++ r.exclusive).Perm ((r.shared ++ r.exclusive) ++ [(r.nextId, n)]) := by
    rw [List.append_assoc, List.append_assoc]
    exact List.Perm.append_left _ List.perm_append_comm
  have hmem : ∀ x, x ∈ r.allRanges ++ [n] ↔
      x ∈ allRanges ⟨r.shared ++ [(r.nextId, n)], r.exclusive, u, r.nextId + 1⟩ := by
    intro x
    simp only [allRanges, List.map_append, List.map_cons, List.map_nil, List.mem_append, List.mem_cons,
      List.not_mem_nil, or_false]
    tauto
  have hfresh : r.nextId ∉ (r.shared ++ r.exclusive).map Prod.fst := fun hmem => by
    obtain ⟨e, he, hid⟩ := List.mem_map.mp hmem
    have := hi.ids_lt e he
    omega
  refine ⟨fun x hx => ?_, hi.exclusive_pairwise, fun a ha b hb => ?_, (hi.hull.rangeUnion hi.valid hu).congr hmem,
    ?_, fun e he => ?_⟩
  · rcases List.mem_append.mp ((hmem x).mpr hx) with hx | hx
    · exact hi.valid x hx
    · rw [List.mem_singleton.mp hx]
      exact hn
  · dsimp only at hb
    rw [List.map_append, List.map_singleton, List.mem_append, List.mem_singleton] at hb
    rcases hb with hb | rfl
    · exact hi.exclusive_shared a ha b hb
    · rw [overlaps_comm]
      exact hfree a ha
  · exact (hperm.map Prod.fst).nodup_iff.mpr (AssocList.nodup_keys_append_singleton n hi.ids_nodup hfresh)
  · rcases List.mem_append.mp (hperm.mem_iff.mp he) with he | he
    · exact Nat.lt_succ_of_lt (hi.ids_lt e he)
    · rw [List.mem_singleton.mp he]
      exact Nat.lt_succ_self _

/-- Ranges taken out of the lists, and `unionedRange` computed again, keep the
invariant. -/
theorem Inv.updateUnionedRange_of_sublist {r r'' r' : LockedRanges} (hi : Inv r)
    (h : r''.updateUnionedRange = .ok r') (hs : r''.shared.Sublist r.shared)
    (he : r''.exclusive.Sublist r.exclusive) (hid : r''.nextId = r.nextId) : Inv r' := by
  have hsub : (r''.shared ++ r''.exclusive).Sublist (r.shared ++ r.exclusive) := hs.append he
  have hall : ∀ x ∈ r''.allRanges, x ∈ r.allRanges := fun x hx => (hsub.map Prod.snd).subset hx
  obtain ⟨u, hu, hh⟩ := updateUnionedRange_eq r'' fun x hx => hi.valid x (hall x hx)
  rw [hu] at h
  cases h
  exact ⟨fun x hx => hi.valid x (hall x hx), List.Pairwise.sublist (he.map _) hi.exclusive_pairwise,
    fun a ha b hb => hi.exclusive_shared a ((he.map _).subset ha) b ((hs.map _).subset hb), hh,
    (hsub.map _).nodup hi.ids_nodup, fun e he' => hid ▸ hi.ids_lt e (hsub.subset he')⟩

theorem Inv.release {r r' : LockedRanges} {id : Nat} {exclusive : Bool} (hi : Inv r)
    (h : r.release id exclusive = .ok r') : Inv r' := by
  obtain ⟨-, -, h⟩ := release_eq_ok h
  cases exclusive with
  | false =>
    exact hi.updateUnionedRange_of_sublist h List.filter_sublist (List.Sublist.refl _) rfl
  | true =>
    exact hi.updateUnionedRange_of_sublist h (List.Sublist.refl _) List.filter_sublist rfl

/-- Ranges that keep their ids and shrink to valid ranges keep the invariant,
with a hull of what they have become. -/
theorem Inv.of_map {r : LockedRanges} {g : Nat × SeqRange → Nat × SeqRange} {u : SeqRange} (hi : Inv r)
    (hg : ∀ e ∈ r.shared ++ r.exclusive, (g e).1 = e.1 ∧ (g e).2.Within e.2 ∧ (g e).2.valid = true)
    (hh : IsHull (((r.shared ++ r.exclusive).map g).map Prod.snd) u) :
    Inv { r with shared := r.shared.map g, exclusive := r.exclusive.map g, unionedRange := u } := by
  have hall := allRanges_map r g u
  have hshrink : ∀ {a b : Nat × SeqRange}, a ∈ r.shared ++ r.exclusive → b ∈ r.shared ++ r.exclusive →
      a.2.overlaps b.2 = false → (g a).2.overlaps (g b).2 = false := by
    intro a b ha hb hab
    have h₁ := overlaps_eq_false_of_within (hg a ha).2.1 hab
    rw [overlaps_comm] at h₁ ⊢
    exact overlaps_eq_false_of_within (hg b hb).2.1 h₁
  refine ⟨?_, ?_, ?_, hall ▸ hh, ?_, ?_⟩
  · rw [hall]
    intro x hx
    obtain ⟨e, he, rfl⟩ := mem_map_snd_map.mp hx
    exact (hg e he).2.2
  · dsimp only
    rw [List.map_map, List.pairwise_map]
    have hp := hi.exclusive_pairwise
    rw [List.pairwise_map] at hp
    exact hp.imp_of_mem fun ha hb hab =>
      hshrink (List.mem_append_right _ ha) (List.mem_append_right _ hb) hab
  · intro a ha b hb
    obtain ⟨e, he, rfl⟩ := mem_map_snd_map.mp ha
    obtain ⟨e', he', rfl⟩ := mem_map_snd_map.mp hb
    exact hshrink (List.mem_append_right _ he) (List.mem_append_left _ he')
      (hi.exclusive_shared _ (List.mem_map_of_mem he) _ (List.mem_map_of_mem he'))
  · dsimp only
    rw [← List.map_append, List.map_map]
    have hkeys : (r.shared ++ r.exclusive).map (Prod.fst ∘ g) = (r.shared ++ r.exclusive).map Prod.fst :=
      List.map_congr_left fun e he => (hg e he).1
    rw [hkeys]
    exact hi.ids_nodup
  · intro e he
    dsimp only at he ⊢
    rw [← List.map_append] at he
    obtain ⟨e', he', rfl⟩ := List.mem_map.mp he
    rw [(hg e' he').1]
    exact hi.ids_lt e' he'

/-- The range a guard's id names is the one element with that id, and the
other list has none. -/
theorem Inv.unique {r : LockedRanges} (hi : Inv r) {id : Nat} {exclusive : Bool} {range : SeqRange}
    (h : (r.rangeList exclusive).lookup id = some range) :
    (∀ e ∈ r.shared ++ r.exclusive, e.1 = id → e.2 = range) ∧ ∀ e ∈ r.rangeList (!exclusive), e.1 ≠ id := by
  have hmem : (id, range) ∈ r.rangeList exclusive := AssocList.mem_of_lookup_eq_some h
  have hheld : (id, range) ∈ r.shared ++ r.exclusive := by
    cases exclusive
    · exact List.mem_append_left _ hmem
    · exact List.mem_append_right _ hmem
  have hlookup := (AssocList.lookup_eq_some_iff_mem hi.ids_nodup).mpr hheld
  refine ⟨fun e he hid => ?_, fun e he hid => ?_⟩
  · have he' : (id, e.2) ∈ r.shared ++ r.exclusive := hid ▸ he
    rw [(AssocList.lookup_eq_some_iff_mem hi.ids_nodup).mpr he'] at hlookup
    exact Option.some.inj hlookup
  · -- the keys of the two lists are apart
    have hnd := hi.ids_nodup
    rw [List.map_append, List.nodup_append] at hnd
    obtain ⟨-, -, hapart⟩ := hnd
    cases exclusive
    · exact hapart id (List.mem_map_of_mem hmem) e.1 (List.mem_map_of_mem he) hid.symm
    · exact hapart e.1 (List.mem_map_of_mem he) id (List.mem_map_of_mem hmem) hid

theorem Inv.updateRangeLockStart {r r' : LockedRanges} {id : Nat} {exclusive : Bool} {newStart : Int}
    (hi : Inv r) (h : r.updateRangeLockStart id exclusive newStart = .ok r') : Inv r' := by
  obtain ⟨range, moved, hrange, hlt, hbegin, hend, hcase⟩ := updateRangeLockStart_eq_ok h
  have hrr := range.range_ok
  obtain ⟨hunique, hother⟩ := hi.unique hrange
  -- moving the one range is mapping `moveStart` over both lists
  have hkeep : ∀ l : List (Nat × SeqRange), (∀ e ∈ l, e.1 ≠ id) → l.map (moveStart id moved) = l := by
    intro l hl
    have hfix : ∀ e ∈ l, moveStart id moved e = e := fun e he => by simp [moveStart, hl e he]
    rw [List.map_congr_left hfix, List.map_id']
  have hlists : r.withRangeList exclusive ((r.rangeList exclusive).map (moveStart id moved)) =
      ⟨r.shared.map (moveStart id moved), r.exclusive.map (moveStart id moved), r.unionedRange, r.nextId⟩ := by
    cases exclusive
    · simp only [withRangeList, rangeList, Bool.false_eq_true, if_false]
      rw [hkeep r.exclusive hother]
    · simp only [withRangeList, rangeList, if_true]
      rw [hkeep r.shared hother]
  have hg : ∀ e ∈ r.shared ++ r.exclusive, (moveStart id moved e).1 = e.1 ∧
      (moveStart id moved e).2.Within e.2 ∧ (moveStart id moved e).2.valid = true := by
    intro e he
    by_cases hid : e.1 = id
    · have he2 := hunique e he hid
      have hm : moveStart id moved e = (id, moved) := by simp [moveStart, hid]
      rw [hm]
      refine ⟨hid.symm, ⟨by rw [he2]; dsimp only; omega, by rw [he2]; dsimp only; omega⟩,
        valid_of_one_le (by dsimp only; omega)⟩
    · have hm : moveStart id moved e = e := by simp [moveStart, hid]
      rw [hm]
      exact ⟨rfl, Within.refl _, hi.valid e.2 (List.mem_map_of_mem he)⟩
  rcases hcase with ⟨-, h⟩ | ⟨hlow, rfl⟩
  · -- the range was at the lower bound: `unionedRange` is computed again
    rw [hlists] at h
    obtain ⟨u, hu, hh⟩ := updateUnionedRange_eq _ fun x hx => by
      rw [allRanges_map] at hx
      obtain ⟨e, he, rfl⟩ := mem_map_snd_map.mp hx
      exact (hg e he).2.2
    rw [hu] at h
    cases h
    rw [allRanges_map] at hh
    exact hi.of_map hg hh
  · -- it was not: the hull is what it was
    rw [hlists]
    refine hi.of_map hg (hi.hull.map_of_shrinkStart fun e he => ?_)
    by_cases hid : e.1 = id
    · have he2 := hunique e he hid
      simp only [moveStart, hid, if_true]
      rw [he2]
      exact ⟨by omega, hend, .inr hlow⟩
    · have hm : moveStart id moved e = e := by simp [moveStart, hid]
      rw [hm]
      exact ⟨Int.le_refl _, rfl, .inl rfl⟩

theorem Inv.step {r r' : LockedRanges} {call : Call} (hi : Inv r) (h : r.step call = .ok r') : Inv r' := by
  cases call with
  | tryLockRange start finish req =>
    obtain ⟨⟨_, _⟩, hlock, rfl⟩ := Except.map_eq_ok.mp h
    exact hi.tryLockRange hlock
  | tryLockRangeShared start finish =>
    obtain ⟨⟨_, _⟩, hlock, rfl⟩ := Except.map_eq_ok.mp h
    exact hi.tryLockRangeShared hlock
  | release id exclusive => exact hi.release h
  | updateRangeStart id exclusive newStart => exact hi.updateRangeLockStart h

theorem Inv.of_reachable {r : LockedRanges} (hr : rangeLockManager.Reachable r) : Inv r :=
  TransitionSystem.Reachable.invariant (fun _ h => h ▸ Inv.empty) (fun _ _ _ _ hi h => hi.step h) hr

/-- A partial lock whose first seqno `s ≥ 1` is free is taken, from `s` to
`partialEnd`. -/
theorem tryLockRange_partialRange_of_not_contains {r : LockedRanges} (hi : Inv r) {start finish : Int}
    (h₁ : 1 ≤ start) (hle : start ≤ finish) (hfree : ∀ b ∈ r.allRanges, b.contains start = false) :
    ∃ r' n, r.tryLockRange start finish .partialRange = .ok (r', some (r.nextId, n)) ∧ n.begin = start ∧
      n.endVal = partialEnd r.allRanges start finish := by
  obtain ⟨n, hn, hbegin, hend⟩ := narrowRange_of_not_contains r.allRanges ⟨start, finish, by omega, hle⟩ h₁
    fun b hb => ⟨hi.valid b hb, hfree b hb⟩
  obtain ⟨r', hpush⟩ := pushExclusive_of_valid r (valid_of_one_le (by rw [hbegin]; exact h₁))
  refine ⟨r', n, ?_, hbegin, hend⟩
  simp only [tryLockRange, SeqRange.make_of_le (by omega : (0 : Int) ≤ start) hle, Except.ok_bind, hn]
  exact hpush

end LockedRanges

/-! ## The contract of the manager -/

/-- What holds in a state of the manager: the held ranges, and what the next
lock call takes. -/
structure RangeLockContract (r : LockedRanges) : Prop where
  exclusive_disjoint : (r.exclusive.map Prod.snd).Pairwise SeqRange.Disjoint
  exclusive_shared_disjoint : ∀ a ∈ r.exclusive.map Prod.snd, ∀ b ∈ r.shared.map Prod.snd, a.Disjoint b
  hull : IsHull r.allRanges r.unionedRange
  /-- A lock taken lies in the range asked for and holds no seqno of a held
  range. -/
  tryLockRange_within : ∀ start finish req r' id n, r.tryLockRange start finish req = .ok (r', some (id, n)) →
    start ≤ n.begin ∧ n.endVal ≤ finish ∧ ∀ b ∈ r.allRanges, n.Disjoint b
  tryLockRangeShared_within : ∀ start finish r' id n, r.tryLockRangeShared start finish = .ok (r', some (id, n)) →
    n.begin = start ∧ n.endVal = finish ∧ ∀ b ∈ r.exclusive.map Prod.snd, n.Disjoint b
  /-- A partial lock from a free seqno `s ≥ 1` ends at `e` or just before the
  least begin above `s` of a held range, whichever comes first. -/
  partialRange_eq : ∀ start finish, 1 ≤ start → start ≤ finish → (∀ b ∈ r.allRanges, b.contains start = false) →
    ∃ r' id n, r.tryLockRange start finish .partialRange = .ok (r', some (id, n)) ∧ n.begin = start ∧
      n.endVal ≤ finish ∧ (∀ b ∈ r.allRanges, start < b.begin → n.endVal < b.begin) ∧
      (n.endVal = finish ∨ ∃ b ∈ r.allRanges, start < b.begin ∧ n.endVal = b.begin - 1)
  /-- A partial lock fails only where a held range holds its first seqno. -/
  partialRange_blocked : ∀ start finish r', 1 ≤ start → start ≤ finish →
    r.tryLockRange start finish .partialRange = .ok (r', none) → ∃ b ∈ r.allRanges, b.contains start = true

theorem rangeLockManager_contract (r : LockedRanges) (hr : rangeLockManager.Reachable r) :
    RangeLockContract r := by
  have hi := Inv.of_reachable hr
  have hdisj := fun {a b : SeqRange} => (overlaps_eq_false_iff_disjoint a b).mp
  refine ⟨hi.exclusive_pairwise.imp hdisj, fun a ha b hb => hdisj (hi.exclusive_shared a ha b hb), hi.hull,
    ?_, ?_, ?_, ?_⟩
  · intro start finish req r' id n h
    rcases tryLockRange_eq_ok h with ⟨hnone, -⟩ | ⟨n', hg, hb, he, hfree, -⟩
    · cases hnone
    · cases hg
      exact ⟨hb, he, fun b hb' => hdisj (hfree b hb')⟩
  · intro start finish r' id n h
    rcases tryLockRangeShared_eq_ok h with ⟨hnone, -⟩ | ⟨n', u, hg, hb, he, hfree, -⟩
    · cases hnone
    · cases hg
      exact ⟨hb, he, fun b hb' => hdisj (hfree b hb')⟩
  · intro start finish h₁ hle hfree
    obtain ⟨r', n, hlock, hbegin, hend⟩ := tryLockRange_partialRange_of_not_contains hi h₁ hle hfree
    refine ⟨r', r.nextId, n, hlock, hbegin, ?_, fun b hb hs => ?_, ?_⟩
    · rw [hend]
      exact partialEnd_le start r.allRanges finish
    · rw [hend]
      exact partialEnd_lt start r.allRanges finish b hb hs
    · rw [hend]
      exact partialEnd_eq start r.allRanges finish
  · -- the partial lock of a free first seqno is taken
    intro start finish r' h₁ hle hnone
    by_cases hfree : ∀ b ∈ r.allRanges, b.contains start = false
    · obtain ⟨r'', n, hlock, -⟩ := tryLockRange_partialRange_of_not_contains hi h₁ hle hfree
      rw [hlock] at hnone
      cases hnone
    · simpa only [not_forall, Bool.not_eq_false, exists_prop] using hfree

/-- Two exclusive locks: `[3, 4]`, then `[1, 2]`. -/
def twoExclusive : LockedRanges :=
  ⟨[], [(0, ⟨3, 4, by omega⟩), (1, ⟨1, 2, by omega⟩)], ⟨1, 4, by omega⟩, 2⟩

theorem reachable_twoExclusive : rangeLockManager.Reachable twoExclusive :=
  .step (a := .tryLockRange 1 2 .exact) (.step (a := .tryLockRange 3 4 .exact) (.init rfl) rfl) rfl

theorem rangeLockManager_contract_twoExclusive :
    rangeLockManager.Reachable twoExclusive ∧ RangeLockContract twoExclusive :=
  ⟨reachable_twoExclusive, rangeLockManager_contract twoExclusive reachable_twoExclusive⟩

/-- One exclusive lock, `[1, 4]`. -/
def oneExclusive : LockedRanges :=
  ⟨[], [(0, ⟨1, 4, by omega⟩)], ⟨1, 4, by omega⟩, 1⟩

/-- The cut against `[3, 4]` keeps `[1, 2]`, which the next lock holds
whole, although no lock holds `5` to `10`; and from `0` the cut against
`[1, 4]` leaves `[0, 0]`, the invalid range. -/
theorem tryLockRange_partialRange_fails_on_free_range :
    (rangeLockManager.Reachable twoExclusive ∧
      twoExclusive.tryLockRange 1 10 .partialRange = .ok (twoExclusive, none) ∧
      ∀ b ∈ twoExclusive.allRanges, b.contains 5 = false) ∧
    (rangeLockManager.Reachable oneExclusive ∧
      oneExclusive.tryLockRange 0 10 .partialRange = .ok (oneExclusive, none) ∧
      ∀ b ∈ oneExclusive.allRanges, b.contains 0 = false) :=
  ⟨⟨reachable_twoExclusive, rfl, by decide⟩,
    ⟨.step (a := .tryLockRange 1 4 .exact) (.init rfl) rfl, rfl, by decide⟩⟩

end Ephemeral

end KvEngine
