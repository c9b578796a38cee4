import Mathlib
import KvEngine.Ephemeral.RangeReadFrame

/-!
# The range read is safe in every interleaving

What the iterator relies on, as one invariant of the vbucket with its range
reads (`RangeRead.Inv`): the list is in order with exact replacement pointers
and every pointer forward (`Wf`, `Replacements`, `ReadOrder`); the range locks
keep the manager's invariant, with no exclusive range held between two steps
(the purger's lock lives within its step); and an iterator short of its end
(`Reading`) stands on a value of the list at `curr()`, a value of the list is at
`back()`, it holds the one shared range, exactly `[curr(), back()]`, and
`count()` bounds the values left in that range.

Each kind of step keeps the invariant (`Inv.readStep`): a front-end write and a
purge because they are not seen in the locked range (`viewOf_write`,
`viewOf_purgeStaleItems`), a turn of `operator++` because it moves to the next
value and the start of the lock with it. So it holds in every reachable state
(`inv_of_reachable`), and from it: a turn of `operator++` short of the end
never fails (`increment_progress`), and takes one off `count()`, which never
wraps.
-/

namespace KvEngine.Ephemeral

open BasicLinkedList OrderedStoredValue EphemeralVBucket RangeIteratorLL

/-! ## One reader's lock -/

namespace LockedRanges

variable {r : LockedRanges}

/-- With no range held, `unionedRange` is `{0, 0}`. -/
theorem Inv.unionedRange_of_nil (hi : r.Inv) (hs : r.shared = []) (he : r.exclusive = []) :
    r.unionedRange.begin = 0 ∧ r.unionedRange.endVal = 0 :=
  hi.hull.empty (by simp [allRanges, hs, he])

/-- With one range held, `unionedRange` is that range. -/
theorem Inv.unionedRange_of_single (hi : r.Inv) {g : Nat} {range : SeqRange} (hs : r.shared = [(g, range)])
    (he : r.exclusive = []) : r.unionedRange.begin = range.begin ∧ r.unionedRange.endVal = range.endVal := by
  have hall : r.allRanges = [range] := by simp [allRanges, hs, he]
  have hh := hi.hull
  rw [hall] at hh
  obtain ⟨x, hx, hxb⟩ := hh.begin_mem (List.cons_ne_nil _ _)
  obtain ⟨y, hy, hye⟩ := hh.end_mem (List.cons_ne_nil _ _)
  rw [List.mem_singleton] at hx hy
  subst hx hy
  exact ⟨hxb.symm, hye.symm⟩

/-- A shared lock on free seqnos is granted: the range asked for is pushed. -/
theorem tryLockRangeShared_of_free (hi : r.Inv) (he : r.exclusive = []) {start finish : Int}
    (h₁ : 1 ≤ start) (hle : start ≤ finish) :
    ∃ r' range, r.tryLockRangeShared start finish = .ok (r', some (r.nextId, range)) ∧
      range.begin = start ∧ range.endVal = finish ∧ r'.shared = r.shared ++ [(r.nextId, range)] ∧
      r'.exclusive = [] ∧ r'.Inv := by
  obtain ⟨range, hmake, hb, he'⟩ : ∃ range : SeqRange, SeqRange.make start finish = .ok range ∧
      range.begin = start ∧ range.endVal = finish := ⟨_, SeqRange.make_of_le (by omega) hle, rfl, rfl⟩
  obtain ⟨u, hu, -, -⟩ := rangeUnion_eq (a := r.unionedRange) (SeqRange.valid_of_one_le (r := range) (by omega))
  have hlock : r.tryLockRangeShared start finish =
      .ok ({ r with shared := r.shared ++ [(r.nextId, range)], unionedRange := u, nextId := r.nextId + 1 },
        some (r.nextId, range)) := by
    rw [tryLockRangeShared, hmake, Except.ok_bind, he]
    simp [hu]
  exact ⟨_, range, hlock, hb, he', rfl, he, hi.tryLockRangeShared hlock⟩

/-- The reader's release of the one shared range leaves no range. -/
theorem release_of_single (hi : r.Inv) {g : Nat} {range : SeqRange} (hs : r.shared = [(g, range)])
    (he : r.exclusive = []) :
    ∃ r', r.release g false = .ok r' ∧ r'.shared = [] ∧ r'.exclusive = [] ∧ r'.Inv := by
  obtain ⟨u, hu, -⟩ := updateUnionedRange_eq { r with shared := [] } (fun x hx => by simp [allRanges, he] at hx)
  have hrel : r.release g false = .ok { r with shared := [], unionedRange := u } := by
    simp only [release, rangeList, hs, Bool.false_eq_true, if_false, List.lookup_cons, beq_self_eq_true,
      List.filter_cons, bne_self_eq_false, List.filter_nil]
    exact hu
  exact ⟨_, hrel, rfl, he, hi.release hrel⟩

/-- `updateRangeStart` of the one shared range, which spans `unionedRange`,
to a later seqno within it. -/
theorem updateRangeLockStart_of_single (hi : r.Inv) {g : Nat} {range : SeqRange}
    (hs : r.shared = [(g, range)]) (he : r.exclusive = []) {newStart : Int} (hlt : range.begin < newStart)
    (hle : newStart ≤ range.endVal) :
    ∃ r' moved, r.updateRangeLockStart g false newStart = .ok r' ∧ r'.shared = [(g, moved)] ∧
      moved.begin = newStart ∧ moved.endVal = range.endVal ∧ r'.exclusive = [] ∧ r'.Inv := by
  have h₀ := range.range_ok
  obtain ⟨moved, hset, hmb, hme⟩ : ∃ moved, range.setBegin newStart = .ok moved ∧ moved.begin = newStart ∧
      moved.endVal = range.endVal :=
    ⟨⟨newStart, range.endVal, by omega, hle⟩, by rw [SeqRange.setBegin, dif_neg (by omega)], rfl, rfl⟩
  have hbegin : range.begin = r.unionedRange.begin := ((hi.unionedRange_of_single hs he).1).symm
  obtain ⟨u, hu, -⟩ := updateUnionedRange_eq { r with shared := [(g, moved)] }
    (fun x hx => by
      simp only [allRanges, he, List.append_nil, List.map_cons, List.map_nil, List.mem_singleton] at hx
      exact hx ▸ SeqRange.valid_of_one_le (r := moved) (by omega))
  have hupd : r.updateRangeLockStart g false newStart = .ok { r with shared := [(g, moved)], unionedRange := u } := by
    simp only [updateRangeLockStart, rangeList, hs, Bool.false_eq_true, if_false, List.lookup_cons,
      beq_self_eq_true, if_neg (show ¬newStart ≤ range.begin by omega), hset, Except.ok_bind, if_pos hbegin]
    simpa [withRangeList] using hu
  exact ⟨_, moved, hupd, rfl, hmb, hme, he, hi.updateRangeLockStart hupd⟩

theorem updateUnionedRange_lists {r' : LockedRanges} (h : r.updateUnionedRange = .ok r') :
    r'.shared = r.shared ∧ r'.exclusive = r.exclusive := by
  unfold updateUnionedRange at h
  split at h
  · cases h
    exact ⟨rfl, rfl⟩
  · obtain ⟨u, -, h⟩ := Except.bind_eq_ok.mp h
    cases Except.pure_eq_ok.mp h
    exact ⟨rfl, rfl⟩

end LockedRanges

/-! ## The list under a reader -/

namespace BasicLinkedList

variable {κ : Type} {l : BasicLinkedList κ}

/-- A stale value's replacement is a value of the list. -/
theorem Replacements.exists_replacement (hr : Replacements l) {x : OrderedStoredValue κ} (hx : x ∈ l.seqList)
    {rid : Nat} (h : x.getReplacementIfStale = some rid) : ∃ y ∈ l.seqList, y.id = rid := by
  obtain ⟨-, hrep⟩ := getReplacementIfStale_eq_some.mp h
  obtain ⟨y, hy, hyid, -⟩ := hr.target_mem rid (mem_replacementIds.mpr ⟨x, hx, hrep⟩)
  exact ⟨y, hy, hyid⟩

/-- Read to the last seqno, a value is skipped exactly when it is stale with a
replacement. -/
theorem skippedIn_of_le (hw : Wf l) (hr : Replacements l) {back : Int}
    (hback : ∀ y ∈ l.seqList, y.bySeqno ≤ back) {x : OrderedStoredValue κ} (hx : x ∈ l.seqList) :
    skippedIn l.seqList back x = x.getReplacementIfStale.isSome := by
  cases h : x.getReplacementIfStale with
  | none => simp [skippedIn, h]
  | some rid =>
    obtain ⟨y, hy, rfl⟩ := hr.exists_replacement hx h
    simp [skippedIn, h, ListIter.find_eq_of_mem hw.ids_nodup hy, hback y hy]

/-- The last value is not skipped: no value comes after it. -/
theorem getReplacementIfStale_getLast (hw : Wf l) (hr : Replacements l) (ho : ReadOrder l)
    {b : OrderedStoredValue κ} (hb : l.seqList.getLast? = some b) : b.getReplacementIfStale = none := by
  cases h : b.getReplacementIfStale with
  | none => rfl
  | some rid =>
    have hbmem := List.mem_of_getLast? hb
    obtain ⟨y, hy, rfl⟩ := hr.exists_replacement hbmem h
    have hlt := ho.later b hbmem y hy h
    have hle := hw.increasing.le_of_getLast? hb hy
    omega

/-- The value after `x` in the list, when a later value exists. -/
theorem exists_next (hw : Wf l) {x y : OrderedStoredValue κ} (hx : x ∈ l.seqList) (hy : y ∈ l.seqList)
    (hxy : x.bySeqno < y.bySeqno) :
    ∃ pre nxt post, l.seqList = pre ++ x :: nxt :: post ∧ nxt.bySeqno ≤ y.bySeqno ∧
      ListIter.nextAfter OrderedStoredValue.id x.id l.seqList = some nxt := by
  obtain ⟨pre, rest, hl⟩ := List.append_of_mem hx
  have hinc := hw.increasing
  have hnd : (l.seqList.map OrderedStoredValue.id).Nodup := hw.ids_nodup
  rw [hl] at hinc hnd
  have hpre : ∀ c ∈ pre, c.bySeqno < x.bySeqno := fun c hc =>
    (List.pairwise_append.mp hinc).2.2 c hc x List.mem_cons_self
  have hrest : ListIter.Increasing OrderedStoredValue.bySeqno (x :: rest) := (List.pairwise_append.mp hinc).2.1
  -- `y` is past `x`, so `x` is not the last value
  have hyrest : y ∈ rest := by
    rw [hl] at hy
    rcases List.mem_append.mp hy with hy | hy
    · exact absurd (hpre y hy) (by omega)
    · rcases List.mem_cons.mp hy with rfl | hy
      · omega
      · exact hy
  obtain ⟨nxt, post, rfl⟩ : ∃ nxt post, rest = nxt :: post := by
    cases rest with
    | nil => exact absurd hyrest List.not_mem_nil
    | cons nxt post => exact ⟨nxt, post, rfl⟩
  have hle : nxt.bySeqno ≤ y.bySeqno := hrest.of_cons.le_of_mem_cons hyrest
  have hids : ∀ c ∈ pre, c.id ≠ x.id := by
    rw [List.map_append, List.nodup_append] at hnd
    exact fun c hc => hnd.2.2 c.id (List.mem_map_of_mem hc) x.id List.mem_cons_self
  refine ⟨pre, nxt, post, hl, hle, ?_⟩
  rw [hl]
  exact ListIter.nextAfter_append_cons hids

/-- Nothing below the start of a read is read. -/
theorem filter_inRange_of_lt {pre : List (OrderedStoredValue κ)} {lo back : Int}
    (hpre : ∀ c ∈ pre, c.bySeqno < lo) : pre.filter (inRange lo back) = [] :=
  List.filter_eq_nil_iff.mpr fun c hc hin => by
    have := hpre c hc
    rw [inRange_eq_true] at hin
    omega

/-- Read from the seqno of a value of an increasing list, that value comes
first. -/
theorem filter_inRange_at {xs pre post : List (OrderedStoredValue κ)} {x : OrderedStoredValue κ} {back : Int}
    (hinc : ListIter.Increasing OrderedStoredValue.bySeqno xs) (hl : xs = pre ++ x :: post) (hx : x.bySeqno ≤ back) :
    xs.filter (inRange x.bySeqno back) = x :: post.filter (inRange x.bySeqno back) := by
  rw [hl] at hinc ⊢
  have hpre : pre.filter (inRange x.bySeqno back) = [] := filter_inRange_of_lt fun c hc =>
    (List.pairwise_append.mp hinc).2.2 c hc x List.mem_cons_self
  rw [List.filter_append, hpre, List.nil_append, List.filter_cons_of_pos (inRange_eq_true.mpr ⟨le_refl _, hx⟩)]

/-- Past the value at `curr()`, the next value of the list starts what is left
to read. -/
theorem filter_inRange_next {pre post : List (OrderedStoredValue κ)} {x nxt : OrderedStoredValue κ}
    {back : Int} (hinc : ListIter.Increasing OrderedStoredValue.bySeqno (pre ++ x :: nxt :: post))
    (hx : x.bySeqno ≤ back) :
    (pre ++ x :: nxt :: post).filter (inRange x.bySeqno back) =
      x :: (pre ++ x :: nxt :: post).filter (inRange nxt.bySeqno back) := by
  have hpre : ∀ c ∈ pre, c.bySeqno < x.bySeqno := fun c hc =>
    (List.pairwise_append.mp hinc).2.2 c hc x List.mem_cons_self
  have hrest : ListIter.Increasing OrderedStoredValue.bySeqno (x :: nxt :: post) := (List.pairwise_append.mp hinc).2.1
  have hxn : x.bySeqno < nxt.bySeqno := hrest.lt_of_cons List.mem_cons_self
  have hpost : ∀ c ∈ nxt :: post, x.bySeqno < c.bySeqno := fun c hc => hrest.lt_of_cons hc
  have hpost' : ∀ c ∈ nxt :: post, nxt.bySeqno ≤ c.bySeqno := fun c hc => hrest.of_cons.le_of_mem_cons hc
  have hxin : inRange x.bySeqno back x = true := inRange_eq_true.mpr ⟨le_refl _, hx⟩
  have hxout : ¬inRange nxt.bySeqno back x = true := fun hin => by
    rw [inRange_eq_true] at hin
    omega
  -- nothing of `pre` is read from either start
  rw [List.filter_append, List.filter_append, filter_inRange_of_lt hpre,
    filter_inRange_of_lt fun c hc => lt_trans (hpre c hc) hxn, List.nil_append, List.nil_append,
    List.filter_cons_of_pos hxin, List.filter_cons_of_neg hxout]
  -- from either start, the rest is read alike
  refine congrArg _ (List.filter_congr fun c hc => ?_)
  have h₁ := hpost c hc
  have h₂ := hpost' c hc
  simp only [inRange, decide_eq_true (le_of_lt h₁), decide_eq_true h₂]

/-- A value in the range of a view is in every list seen alike. -/
theorem exists_of_viewOf_eq {xs xs' : List (OrderedStoredValue κ)} {lo back : Int}
    (h : viewOf xs' lo back = viewOf xs lo back) {x : OrderedStoredValue κ} (hx : x ∈ xs)
    (hin : inRange lo back x = true) : ∃ x' ∈ xs', x'.id = x.id ∧ x'.bySeqno = x.bySeqno := by
  have hmem : (x.id, x.bySeqno, skippedIn xs back x) ∈ viewOf xs' lo back := by
    rw [h]
    exact List.mem_map.mpr ⟨x, List.mem_filter.mpr ⟨hx, hin⟩, rfl⟩
  obtain ⟨x', hx', heq⟩ := List.mem_map.mp hmem
  exact ⟨x', (List.mem_filter.mp hx').1, congrArg Prod.fst heq, congrArg (fun e => e.2.1) heq⟩

theorem length_viewOf (xs : List (OrderedStoredValue κ)) (lo back : Int) :
    (viewOf xs lo back).length = (xs.filter (inRange lo back)).length :=
  List.length_map _

end BasicLinkedList

/-! ## The iterator short of its end -/

namespace RangeIteratorLL

variable {κ : Type} {l l' : BasicLinkedList κ} {r r' : LockedRanges} {it : RangeIteratorLL}

/-- An iterator short of its end, reading the list `l` under the locks `r`. -/
structure Reading (it : RangeIteratorLL) (l : BasicLinkedList κ) (r : LockedRanges) : Prop where
  /-- `curr() < end()`. -/
  curr_le_back : it.curr ≤ it.back
  /-- `currIt` is at a value of the list, whose seqno is `curr()`. -/
  at_curr : ∃ x ∈ l.seqList, it.currIt = some x.id ∧ x.bySeqno = it.curr
  /-- A value of the list is at `back()`. -/
  at_back : ∃ y ∈ l.seqList, y.bySeqno = it.back
  /-- The `RangeGuard` holds the one shared range, `[curr(), back()]`. -/
  guard : ∃ g range, it.rangeGuard = some g ∧ r.shared = [(g, range)] ∧ range.begin = it.curr ∧
    range.endVal = it.back
  /-- `count()` is at least the number of values left to read. -/
  remaining : (l.seqList.filter (inRange it.curr it.back)).length ≤ it.numRemaining

theorem Reading.curr_lt_endSeqno (h : it.Reading l r) : it.curr < it.endSeqno := by
  have := h.curr_le_back
  unfold back at this
  unfold endSeqno
  omega

/-- The locked range is the one the iterator reads. -/
theorem Reading.unionedRange_contains (h : it.Reading l r) (hi : r.Inv) (he : r.exclusive = [])
    (x : OrderedStoredValue κ) : r.unionedRange.contains x.bySeqno = inRange it.curr it.back x := by
  obtain ⟨g, range, -, hs, hb, he'⟩ := h.guard
  obtain ⟨hub, hue⟩ := hi.unionedRange_of_single hs he
  simp only [SeqRange.contains, inRange, hub, hue, hb, he']

/-- What the reader relies on is what it sees: a list seen alike, under the
same shared ranges, is read alike. -/
theorem Reading.of_viewOf (h : it.Reading l r)
    (hv : viewOf l'.seqList it.curr it.back = viewOf l.seqList it.curr it.back) (hs : r'.shared = r.shared) :
    it.Reading l' r' := by
  obtain ⟨x, hx, hcur, hxs⟩ := h.at_curr
  obtain ⟨y, hy, hys⟩ := h.at_back
  have hle := h.curr_le_back
  obtain ⟨x', hx', hid, hseq⟩ := exists_of_viewOf_eq hv hx (inRange_eq_true.mpr ⟨hxs.ge, by omega⟩)
  obtain ⟨y', hy', -, hseq'⟩ := exists_of_viewOf_eq hv hy (inRange_eq_true.mpr ⟨by omega, hys.le⟩)
  refine ⟨hle, ⟨x', hx', by rw [hcur, hid], by rw [hseq, hxs]⟩, ⟨y', hy', by rw [hseq', hys]⟩,
    by rw [hs]; exact h.guard, ?_⟩
  rw [← length_viewOf, hv, length_viewOf]
  exact h.remaining

/-- `*it` on a value of the list, short of the end. -/
theorem deref_of_mem (hnd : l.ids.Nodup) {x : OrderedStoredValue κ} (hx : x ∈ l.seqList)
    (hcur : it.currIt = some x.id) (hlt : it.curr < it.endSeqno) : it.deref l = .ok x := by
  rw [deref, if_neg (not_le.mpr hlt), hcur, Option.bind_some, ListIter.find_eq_of_mem hnd hx]

/-- `itrRangeContainsAnUpdatedVersion` on a value of the list is `skippedIn`:
the replacement it reads is never freed. -/
theorem itrRangeContainsAnUpdatedVersion_of_mem (hw : Wf l) (hr : Replacements l) {x : OrderedStoredValue κ}
    (hx : x ∈ l.seqList) (hcur : it.currIt = some x.id) (hlt : it.curr < it.endSeqno) :
    it.itrRangeContainsAnUpdatedVersion l = .ok (skippedIn l.seqList it.back x) := by
  rw [itrRangeContainsAnUpdatedVersion, deref_of_mem hw.ids_nodup hx hcur hlt, Except.ok_bind]
  cases h : x.getReplacementIfStale with
  | none => simp [skippedIn, h, Except.pure_eq_ok]
  | some rid =>
    obtain ⟨y, hy, rfl⟩ := hr.exists_replacement hx h
    simp [skippedIn, h, ListIter.find_eq_of_mem hw.ids_nodup hy, Except.pure_eq_ok]

theorem Reading.numRemaining_pos (h : it.Reading l r) : 0 < it.numRemaining := by
  obtain ⟨x, hx, -, hxs⟩ := h.at_curr
  have hin : x ∈ l.seqList.filter (inRange it.curr it.back) :=
    List.mem_filter.mpr ⟨hx, inRange_eq_true.mpr ⟨hxs.ge, hxs ▸ h.curr_le_back⟩⟩
  exact lt_of_lt_of_le (List.length_pos_of_mem hin) h.remaining

/-- The last turn: past `back()` the lock is released and the range closed. -/
theorem Reading.incrOperatorHelper_of_back (h : it.Reading l r) (hi : r.Inv) (he : r.exclusive = [])
    (hb : it.curr = it.back) :
    ∃ r' it', it.incrOperatorHelper l r = .ok (r', it') ∧ it'.curr = it'.endSeqno ∧
      it'.endSeqno = it.endSeqno ∧ it'.rangeGuard = none ∧ it'.numRemaining + 1 = it.numRemaining ∧
      r'.shared = [] ∧ r'.exclusive = [] ∧ r'.Inv := by
  obtain ⟨g, range, hg, hs, -, -⟩ := h.guard
  obtain ⟨r', hrel, hs', he', hi'⟩ := LockedRanges.release_of_single hi hs he
  have hlt := h.curr_lt_endSeqno
  have h₀ := it.itrRange.range_ok
  unfold curr back endSeqno at *
  obtain ⟨closed, hset, hcb, hce⟩ : ∃ closed, it.itrRange.setBegin it.itrRange.endVal = .ok closed ∧
      closed.begin = it.itrRange.endVal ∧ closed.endVal = it.itrRange.endVal :=
    ⟨⟨it.itrRange.endVal, it.itrRange.endVal, by omega, le_refl _⟩,
      by rw [SeqRange.setBegin, dif_neg (by omega)], rfl, rfl⟩
  refine ⟨r', { it with numRemaining := it.numRemaining - 1, rangeGuard := none, itrRange := closed }, ?_,
    hcb.trans hce.symm, hce, rfl, ?_, hs', he', hi'⟩
  · simp only [incrOperatorHelper, curr, endSeqno, hb, if_true, hg, hrel, Except.ok_bind, hset]
    rw [if_neg (by omega)]
    rfl
  · have := h.numRemaining_pos
    simp only
    omega

/-- `incrOperatorHelper` short of `back()`, from what each call it makes
returns. -/
theorem incrOperatorHelper_of_next {x nxt : OrderedStoredValue κ} {g : Nat} {itrRange' : SeqRange}
    (hlt : it.curr < it.endSeqno) (hne : it.curr ≠ it.back) (hcur : it.currIt = some x.id)
    (hnext : ListIter.nextAfter OrderedStoredValue.id x.id l.seqList = some nxt) (hg : it.rangeGuard = some g)
    (hupd : r.updateRangeLockStart g false nxt.bySeqno = .ok r')
    (hset : it.itrRange.setBegin nxt.bySeqno = .ok itrRange') :
    it.incrOperatorHelper l r =
      .ok (r', { it with numRemaining := it.numRemaining - 1, currIt := some nxt.id, itrRange := itrRange' }) := by
  unfold curr back endSeqno at *
  simp only [incrOperatorHelper, curr, endSeqno, if_neg (not_le.mpr hlt), if_neg hne, hcur, Option.bind_some,
    hnext, hg, hupd, hset, Except.ok_bind]
  rfl

/-- A turn short of `back()`: the iterator moves to the next value of the
list, and the start of its lock with it. -/
theorem Reading.incrOperatorHelper_of_lt (h : it.Reading l r) (hw : Wf l) (hi : r.Inv) (he : r.exclusive = [])
    (hb : it.curr < it.back) :
    ∃ x nxt r' it', x ∈ l.seqList ∧ it.currIt = some x.id ∧ x.bySeqno = it.curr ∧ nxt ∈ l.seqList ∧
      it.incrOperatorHelper l r = .ok (r', it') ∧ it'.currIt = some nxt.id ∧ it'.curr = nxt.bySeqno ∧
      x.bySeqno < nxt.bySeqno ∧
      it'.back = it.back ∧ it'.numRemaining + 1 = it.numRemaining ∧
      l.seqList.filter (inRange it.curr it.back) = x :: l.seqList.filter (inRange it'.curr it.back) ∧
      it'.Reading l r' ∧ r'.exclusive = [] ∧ r'.Inv := by
  obtain ⟨x, hx, hcur, hxs⟩ := h.at_curr
  obtain ⟨y, hy, hys⟩ := h.at_back
  obtain ⟨g, range, hg, hs, hrb, hre⟩ := h.guard
  obtain ⟨pre, nxt, post, hl, hny, hnext⟩ := exists_next hw hx hy (by omega)
  have hinc := hw.increasing
  rw [hl] at hinc
  have hrest : ListIter.Increasing OrderedStoredValue.bySeqno (x :: nxt :: post) := (List.pairwise_append.mp hinc).2.1
  have hxn : x.bySeqno < nxt.bySeqno := hrest.lt_of_cons List.mem_cons_self
  have hnmem : nxt ∈ l.seqList := by
    rw [hl]
    simp
  -- the lock and the range both start at the next value
  obtain ⟨r', moved, hupd, hs', hmb, hme, he', hi'⟩ :=
    LockedRanges.updateRangeLockStart_of_single hi hs he (show range.begin < nxt.bySeqno by omega)
      (show nxt.bySeqno ≤ range.endVal by omega)
  have h₀ := it.itrRange.range_ok
  have hlt := h.curr_lt_endSeqno
  have hpos := h.numRemaining_pos
  have hrem := h.remaining
  unfold curr back endSeqno at *
  obtain ⟨itrRange', hset, hib, hie⟩ : ∃ itrRange', it.itrRange.setBegin nxt.bySeqno = .ok itrRange' ∧
      itrRange'.begin = nxt.bySeqno ∧ itrRange'.endVal = it.itrRange.endVal :=
    ⟨⟨nxt.bySeqno, it.itrRange.endVal, by omega, by omega⟩, by rw [SeqRange.setBegin, dif_neg (by omega)], rfl, rfl⟩
  have hhelper := incrOperatorHelper_of_next (l := l) hlt (by unfold curr back; omega) hcur hnext hg hupd hset
  -- what is left to read is what was left, but `x`
  have hfilter : l.seqList.filter (inRange it.itrRange.begin (it.itrRange.endVal - 1)) =
      x :: l.seqList.filter (inRange itrRange'.begin (it.itrRange.endVal - 1)) := by
    have h' := filter_inRange_next hinc (show x.bySeqno ≤ it.itrRange.endVal - 1 by omega)
    rwa [← hl, hxs, ← hib] at h'
  refine ⟨x, nxt, r', _, hx, hcur, hxs, hnmem, hhelper, rfl, hib, hxn, by simp only [hie], by simp only; omega,
    hfilter, ⟨?_, ⟨nxt, hnmem, rfl, hib.symm⟩, ⟨y, hy, ?_⟩, ⟨g, moved, hg, hs', ?_, ?_⟩, ?_⟩, he', hi'⟩
  · simp only [curr, back, hib, hie]
    omega
  · simp only [back, hie]
    exact hys
  · simp only [curr, hmb, hib]
  · simp only [back, hme, hie, hre]
  · have hlen := congrArg List.length hfilter
    rw [List.length_cons] at hlen
    simp only [curr, back, hie]
    omega

/-- One turn of `operator++` on an iterator short of its end never fails: it
takes one off `count()`, and either closes the range past `back()`, or moves to
the next value, which it skips when `itrRangeContainsAnUpdatedVersion`. -/
theorem Reading.incrementTurn (h : it.Reading l r) (hw : Wf l) (hr : Replacements l) (hi : r.Inv)
    (he : r.exclusive = []) :
    ∃ r' it' again, it.incrementTurn l r = .ok (r', it', again) ∧ it'.numRemaining + 1 = it.numRemaining ∧
      it'.back = it.back ∧ r'.Inv ∧ r'.exclusive = [] ∧
      ((it.curr = it.back ∧ it'.curr = it'.endSeqno ∧ it'.rangeGuard = none ∧ r'.shared = [] ∧ again = false) ∨
        (∃ x nxt, x ∈ l.seqList ∧ it.currIt = some x.id ∧ x.bySeqno = it.curr ∧ nxt ∈ l.seqList ∧
          it'.currIt = some nxt.id ∧ it'.curr = nxt.bySeqno ∧ x.bySeqno < nxt.bySeqno ∧
          l.seqList.filter (inRange it.curr it.back) = x :: l.seqList.filter (inRange it'.curr it.back) ∧
          it'.Reading l r' ∧ again = skippedIn l.seqList it.back nxt)) := by
  rcases lt_or_eq_of_le h.curr_le_back with hlt | heq
  · obtain ⟨x, nxt, r', it', hx, hcur, hxs, hn, hhelper, hncur, hnseq, hxn, hback, hnum, hfilter, hrd', he', hi'⟩ :=
      h.incrOperatorHelper_of_lt hw hi he hlt
    have hne : it'.curr ≠ it'.endSeqno := ne_of_lt hrd'.curr_lt_endSeqno
    have hagain := itrRangeContainsAnUpdatedVersion_of_mem hw hr hn hncur hrd'.curr_lt_endSeqno
    rw [hback] at hagain
    refine ⟨r', it', skippedIn l.seqList it.back nxt, ?_, hnum, hback, hi', he',
      .inr ⟨x, nxt, hx, hcur, hxs, hn, hncur, hnseq, hxn, hfilter, hrd', rfl⟩⟩
    simp only [RangeIteratorLL.incrementTurn, hhelper, Except.ok_bind, if_neg hne, hagain]
    rfl
  · obtain ⟨r', it', hhelper, hfin, hend, hg, hnum, hs', he', hi'⟩ := h.incrOperatorHelper_of_back hi he heq
    refine ⟨r', it', false, ?_, hnum, ?_, hi', he', .inl ⟨heq, hfin, hg, hs', rfl⟩⟩
    · simp only [RangeIteratorLL.incrementTurn, hhelper, Except.ok_bind, if_pos hfin]
      rfl
    · unfold back
      unfold endSeqno at hend
      rw [hend]

/-- The constructor and `create` on a list in order, while no range is held:
an empty list gives an iterator at its end; otherwise the iterator is at the
first value not skipped, reads up to the last value, and holds that range. -/
theorem create_eq (hw : Wf l) (hr : Replacements l) (ho : ReadOrder l) (hi : r.Inv) (hs : r.shared = [])
    (he : r.exclusive = []) :
    (l.seqList = [] ∧ create l r = .ok (r, some ⟨none, SeqRange.invalid, 0, none⟩)) ∨
    ∃ pre c post b r' it, l.seqList = pre ++ c :: post ∧ (∀ x ∈ pre, x.getReplacementIfStale.isSome) ∧
      c.getReplacementIfStale = none ∧ l.seqList.getLast? = some b ∧ create l r = .ok (r', some it) ∧
      it.currIt = some c.id ∧ it.curr = c.bySeqno ∧ it.back = b.bySeqno ∧ it.numRemaining = l.seqList.length ∧
      it.Reading l r' ∧ r'.Inv ∧ r'.exclusive = [] := by
  by_cases hhigh : l.highSeqno < 1
  · -- no value was ever written
    have hnil : l.seqList = [] := List.eq_nil_iff_forall_not_mem.mpr fun x hx => by
      have := ho.pos x hx
      have := hw.bySeqno_le x hx
      omega
    refine .inl ⟨hnil, ?_⟩
    simp [create, construct, hhigh, show ¬0 < l.highSeqno by omega]
  · right
    obtain ⟨o, ho', -⟩ := hw.high_mem (by omega)
    obtain ⟨b, hb⟩ : ∃ b, l.seqList.getLast? = some b := by
      cases h : l.seqList.getLast? with
      | none => exact absurd (List.getLast?_eq_none_iff.mp h ▸ ho') List.not_mem_nil
      | some b => exact ⟨b, rfl⟩
    have hbmem := List.mem_of_getLast? hb
    -- the last value is not skipped, so the constructor finds a first one
    obtain ⟨c, hc⟩ : ∃ c, l.seqList.find? (fun o => o.getReplacementIfStale.isNone) = some c := by
      cases h : l.seqList.find? (fun o => o.getReplacementIfStale.isNone) with
      | none =>
        exact absurd (by simp [getReplacementIfStale_getLast hw hr ho hb]) (List.find?_eq_none.mp h b hbmem)
      | some c => exact ⟨c, rfl⟩
    obtain ⟨hcp, pre, post, hl, hpre⟩ := List.find?_eq_some_iff_append.mp hc
    have hcmem : c ∈ l.seqList := List.mem_of_find?_eq_some hc
    have hcb := hw.increasing.le_of_getLast? hb hcmem
    have hc1 := ho.pos c hcmem
    obtain ⟨r', range, hlock, hrb, hre, hs', he', hi'⟩ :=
      LockedRanges.tryLockRangeShared_of_free hi he (show 1 ≤ c.bySeqno by omega) hcb
    obtain ⟨itrRange, hmake, hib, hie⟩ : ∃ itrRange, SeqRange.make c.bySeqno (b.bySeqno + 1) = .ok itrRange ∧
        itrRange.begin = c.bySeqno ∧ itrRange.endVal = b.bySeqno + 1 :=
      ⟨⟨c.bySeqno, b.bySeqno + 1, by omega, by omega⟩, LockedRanges.SeqRange.make_of_le (by omega) (by omega),
        rfl, rfl⟩
    have hcreate : create l r = .ok (r', some ⟨some c.id, itrRange, l.seqList.length, some r.nextId⟩) := by
      simp [create, construct, hhigh, hc, hb, hlock, hmake, Except.pure_eq_ok]
    refine ⟨pre, c, post, b, r', _, hl, fun x hx => by simpa using hpre x hx, by simpa using hcp, hb, hcreate,
      rfl, hib, by simp [back, hie], rfl, ⟨?_, ⟨c, hcmem, rfl, hib.symm⟩, ⟨b, hbmem, ?_⟩,
        ⟨r.nextId, range, rfl, by rw [hs', hs, List.nil_append], ?_, ?_⟩, ?_⟩, hi', he'⟩
    · simp only [curr, back, hib, hie]
      omega
    · simp only [back, hie]
      omega
    · simp only [curr, hrb, hib]
    · simp only [back, hre, hie]
      omega
    · exact List.length_filter_le _ _

/-- Past its end the iterator cannot move: `operator++` throws. -/
theorem incrementTurn_of_end (hend : it.curr = it.endSeqno) (res : LockedRanges × RangeIteratorLL × Bool) :
    it.incrementTurn l r ≠ .ok res := by
  intro h
  obtain ⟨⟨r₁, it₁⟩, hhelper, -⟩ := Except.bind_eq_ok.mp h
  rw [incrOperatorHelper, if_pos (le_of_eq hend.symm)] at hhelper
  cases hhelper

end RangeIteratorLL

/-! ## The purger's lock -/

namespace EphemeralVBucket

variable {κ : Type} [DecidableEq κ] {l l' : BasicLinkedList κ} {r r' : LockedRanges}

omit [DecidableEq κ] in
/-- The purge starts at or after the seqno `purgeTombstones` locks from. -/
theorem le_of_purgeStartSeqno (hw : Wf l) {start : Int} (h : purgeStartSeqno l = some start) :
    ∀ x ∈ l.purgeFrom, start ≤ x.bySeqno := by
  unfold purgeStartSeqno at h
  split_ifs at h
  split at h
  · cases h
  · rename_i startIt rest hpf
    split_ifs at h
    cases h
    have hinc : ListIter.Increasing OrderedStoredValue.bySeqno l.purgeFrom :=
      hw.increasing.sublist (purgeFrom_suffix l).sublist
    rw [hpf] at hinc
    intro x hx
    rw [hpf] at hx
    exact hinc.le_of_mem_cons hx

/-- A purge under its lock keeps the lock invariant, holds no range after it
and leaves the shared ones; it purges under a lock that ends below each range
held, or from a start above it. -/
theorem lockedPurgeStaleItems_spec (hw : Wf l) (hi : r.Inv) (he : r.exclusive = []) {f : κ → Int → Bool}
    {shouldPause : Nat → Bool} {n : Nat} (h : lockedPurgeStaleItems f shouldPause r l = .ok (r', n, l')) :
    r'.Inv ∧ r'.exclusive = [] ∧ r'.shared = r.shared ∧
      ∃ lockedEnd, purgeStaleItems f shouldPause lockedEnd l = .ok (n, l') ∧
        ∀ m, lockedEnd = some m → ∀ range ∈ r.allRanges,
          m < range.begin ∨ ∀ x ∈ l.purgeFrom, range.endVal < x.bySeqno := by
  unfold lockedPurgeStaleItems at h
  split at h
  · -- nothing to lock
    obtain ⟨res, hres, h⟩ := Except.bind_eq_ok.mp h
    cases Except.pure_eq_ok.mp h
    exact ⟨hi, he, rfl, none, hres, fun _ hm => by cases hm⟩
  · rename_i startSeqno hstart
    obtain ⟨⟨r₁, range⟩, hlock, h₁⟩ := Except.bind_eq_ok.mp h
    obtain ⟨res, hres, h₂⟩ := Except.bind_eq_ok.mp h₁
    have hi₁ := hi.tryLockRange hlock
    rcases LockedRanges.tryLockRange_eq_ok hlock with ⟨rfl, rfl⟩ | ⟨locked, rfl, hb, -, hfree, hpush⟩
    · -- refused: the purge runs with no lock
      cases Except.pure_eq_ok.mp h₂
      exact ⟨hi, he, rfl, none, hres, fun _ hm => by cases hm⟩
    · obtain ⟨r₂, hrel, h₃⟩ := Except.bind_eq_ok.mp h₂
      cases Except.pure_eq_ok.mp h₃
      obtain ⟨-, u, -, rfl⟩ := LockedRanges.pushExclusive_eq_ok hpush
      -- the guard releases the one exclusive range, the purger's
      obtain ⟨-, -, hupd⟩ := LockedRanges.release_eq_ok hrel
      obtain ⟨hs₂, he₂⟩ := LockedRanges.updateUnionedRange_lists hupd
      refine ⟨hi₁.release hrel, ?_, hs₂, _, hres, fun m hm b hb' => ?_⟩
      · rw [he₂]
        simp [LockedRanges.withRangeList, LockedRanges.rangeList, he]
      · simp only [Option.bind_some] at hm
        split_ifs at hm with hbegin
        cases hm
        have hov := hfree b hb'
        rw [Bool.eq_false_iff, ne_eq, SeqRange.overlaps_eq_true_iff] at hov
        rcases lt_or_ge locked.endVal b.begin with hlt | hge
        · exact .inl hlt
        · exact .inr fun x hx => by
            have := le_of_purgeStartSeqno hw hstart x hx
            omega

end EphemeralVBucket

/-! ## The invariant of the vbucket with its range reads -/

namespace RangeRead

variable {κ : Type} {s s' : RangeRead κ} {o : Option (Nat × Int)}

/-- Between two steps the iterator is short of its end, or at it with its lock
released; with no iterator, no shared range is held. -/
def ReaderOk (l : BasicLinkedList κ) (r : LockedRanges) : Option RangeIteratorLL → Prop
  | none => r.shared = []
  | some it => it.Reading l r ∨ (it.curr = it.endSeqno ∧ it.rangeGuard = none ∧ r.shared = [])

/-- A change of the list and the locks that keeps the shared ranges, and what a
reader short of its end reads, keeps the reader in step. -/
theorem ReaderOk.of_viewOf {l l' : BasicLinkedList κ} {r r' : LockedRanges} {rd : Option RangeIteratorLL}
    (hro : ReaderOk l r rd) (hs : r'.shared = r.shared)
    (hv : ∀ it : RangeIteratorLL, it.Reading l r →
      viewOf l'.seqList it.curr it.back = viewOf l.seqList it.curr it.back) :
    ReaderOk l' r' rd := by
  cases rd with
  | none => exact hs.trans hro
  | some it =>
    rcases hro with hread | ⟨hend, hg, hnil⟩
    · exact .inl (hread.of_viewOf (hv it hread) hs)
    · exact .inr ⟨hend, hg, hs.trans hnil⟩

/-- What every reachable state keeps. -/
structure Inv (s : RangeRead κ) : Prop where
  wf : Wf s.list
  replacements : Replacements s.list
  order : ReadOrder s.list
  locks : s.locks.Inv
  /-- The purger's exclusive lock is released within its step. -/
  exclusive_nil : s.locks.exclusive = []
  reader : ReaderOk s.list s.locks s.reader

theorem inv_empty : (empty : RangeRead κ).Inv :=
  ⟨empty_wf, empty_replacements, empty_readOrder, LockedRanges.Inv.empty, rfl, rfl⟩

/-- At its end the client reads nothing. -/
theorem read_of_end {it : RangeIteratorLL} {l : BasicLinkedList κ} (hend : it.curr = it.endSeqno) :
    read it l = .ok none := by
  rw [read, if_pos hend]

/-- Short of its end the client reads the value at `currIt`. -/
theorem read_of_reading {it : RangeIteratorLL} {l : BasicLinkedList κ} {r : LockedRanges} (hnd : l.ids.Nodup)
    (h : it.Reading l r) : ∃ x ∈ l.seqList, it.currIt = some x.id ∧ read it l = .ok (some (stamp x)) := by
  obtain ⟨x, hx, hcur, -⟩ := h.at_curr
  have hlt := h.curr_lt_endSeqno
  refine ⟨x, hx, hcur, ?_⟩
  rw [read, if_neg (ne_of_lt hlt), deref_of_mem hnd hx hcur hlt]
  rfl

variable [DecidableEq κ]

/-- What a step does, by its event. -/
theorem readStep_cases {e : ReadEvent κ} (h : s.readStep e = some (s', o)) :
    (∃ w l', e = .write w ∧ step s.list (w.toEvent s.locks.unionedRange s.list) = some l' ∧
      s' = { s with list := l' } ∧ o = none) ∨
    (∃ f shouldPause r n l', e = .purgeStaleItems f shouldPause ∧
      lockedPurgeStaleItems f shouldPause s.locks s.list = .ok (r, n, l') ∧
      s' = { s with list := l', locks := r } ∧ o = none) ∨
    (e = .makeRangeIterator ∧ s.reader = none ∧ ∃ r,
      (create s.list s.locks = .ok (r, none) ∧ s' = { s with locks := r } ∧ o = none) ∨
      (∃ it, create s.list s.locks = .ok (r, some it) ∧ read it s.list = .ok o ∧
        s' = { s with locks := r, reader := some it })) ∨
    (e = .increment ∧ ∃ it r it' again, s.reader = some it ∧ it.incrementTurn s.list s.locks = .ok (r, it', again) ∧
      s' = { s with locks := r, reader := some it' } ∧ (again = true → o = none) ∧
      (again = false → read it' s.list = .ok o)) ∨
    (e = .destroy ∧ o = none ∧ ∃ it, s.reader = some it ∧
      ((it.rangeGuard = none ∧ s' = { s with reader := none }) ∨
        ∃ g r, it.rangeGuard = some g ∧ s.locks.release g false = .ok r ∧ s' = { s with locks := r, reader := none })) := by
  cases e with
  | write w =>
    obtain ⟨l', hl', hs'⟩ := Option.map_eq_some_iff.mp h
    cases hs'
    exact .inl ⟨w, l', rfl, hl', rfl, rfl⟩
  | purgeStaleItems f shouldPause =>
    simp only [readStep] at h
    split at h
    · rename_i r n l' hp
      cases h
      exact .inr (.inl ⟨f, shouldPause, r, n, l', rfl, hp, rfl, rfl⟩)
    · cases h
  | makeRangeIterator =>
    simp only [readStep] at h
    split at h
    · cases h
    · rename_i hn
      split at h
      · rename_i r hc
        cases h
        exact .inr (.inr (.inl ⟨rfl, hn, r, .inl ⟨hc, rfl, rfl⟩⟩))
      · rename_i r it hc
        split at h
        · rename_i o' hread
          cases h
          exact .inr (.inr (.inl ⟨rfl, hn, r, .inr ⟨it, hc, hread, rfl⟩⟩))
        · cases h
      · cases h
  | increment =>
    simp only [readStep] at h
    split at h
    · cases h
    · rename_i it hrd
      split at h
      · rename_i r it' hturn
        cases h
        exact .inr (.inr (.inr (.inl ⟨rfl, it, r, it', true, hrd, hturn, rfl, fun _ => rfl, (fun h => by cases h)⟩)))
      · rename_i r it' hturn
        split at h
        · rename_i o' hread
          cases h
          exact .inr (.inr (.inr (.inl ⟨rfl, it, r, it', false, hrd, hturn, rfl, (fun h => by cases h),
            fun _ => hread⟩)))
        · cases h
      · cases h
  | destroy =>
    simp only [readStep] at h
    split at h
    · cases h
    · rename_i it hrd
      split at h
      · rename_i hg
        cases h
        exact .inr (.inr (.inr (.inr ⟨rfl, rfl, it, hrd, .inl ⟨hg, rfl⟩⟩)))
      · rename_i g hg
        split at h
        · rename_i r hrel
          cases h
          exact .inr (.inr (.inr (.inr ⟨rfl, rfl, it, hrd, .inr ⟨g, r, hg, hrel, rfl⟩⟩)))
        · cases h

/-- A front-end write is not seen by the reader: the locked range is the one
it reads. -/
theorem Inv.viewOf_write (hi : s.Inv) {it : RangeIteratorLL} (hread : it.Reading s.list s.locks) {w : Write κ}
    {l' : BasicLinkedList κ} (h : step s.list (w.toEvent s.locks.unionedRange s.list) = some l') :
    viewOf l'.seqList it.curr it.back = viewOf s.list.seqList it.curr it.back := by
  obtain ⟨y, hy, hys⟩ := hread.at_back
  have hback : it.back ≤ s.list.highSeqno := hys ▸ hi.wf.bySeqno_le y hy
  exact EphemeralVBucket.viewOf_write hi.wf hi.order (hread.unionedRange_contains hi.locks hi.exclusive_nil) hback h

/-- A purge is not seen by the reader: the purger's lock keeps it off the
reader's range. -/
theorem Inv.viewOf_purge (hi : s.Inv) {it : RangeIteratorLL} (hread : it.Reading s.list s.locks)
    {f : κ → Int → Bool} {shouldPause : Nat → Bool} {r : LockedRanges} {n : Nat} {l' : BasicLinkedList κ}
    (h : lockedPurgeStaleItems f shouldPause s.locks s.list = .ok (r, n, l')) :
    viewOf l'.seqList it.curr it.back = viewOf s.list.seqList it.curr it.back := by
  obtain ⟨-, -, -, lockedEnd, hpurge, hoff⟩ := lockedPurgeStaleItems_spec hi.wf hi.locks hi.exclusive_nil h
  obtain ⟨g, range, -, hsr, hrb, hre⟩ := hread.guard
  have hmem : range ∈ s.locks.allRanges := by simp [LockedRanges.allRanges, hsr]
  exact viewOf_purgeStaleItems hi.wf hi.replacements
    (fun m hm => (hoff m hm range hmem).imp (fun hlt => hrb ▸ hlt) fun habove x hx => hre ▸ habove x hx) hpurge

theorem Inv.write (hi : s.Inv) {w : Write κ} {l' : BasicLinkedList κ}
    (h : step s.list (w.toEvent s.locks.unionedRange s.list) = some l') : Inv { s with list := l' } := by
  refine ⟨hi.wf.step h, hi.replacements.step hi.wf h, hi.order.step hi.wf h, hi.locks, hi.exclusive_nil, ?_⟩
  show ReaderOk l' s.locks s.reader
  exact hi.reader.of_viewOf rfl fun _ hread => hi.viewOf_write hread h

theorem Inv.purge (hi : s.Inv) {f : κ → Int → Bool} {shouldPause : Nat → Bool} {r : LockedRanges} {n : Nat}
    {l' : BasicLinkedList κ} (h : lockedPurgeStaleItems f shouldPause s.locks s.list = .ok (r, n, l')) :
    Inv { s with list := l', locks := r } := by
  obtain ⟨hi', he', hs', lockedEnd, hpurge, -⟩ := lockedPurgeStaleItems_spec hi.wf hi.locks hi.exclusive_nil h
  refine ⟨hi.wf.purgeStaleItems hpurge, hi.replacements.purgeStaleItems hi.wf hpurge,
    hi.order.purgeStaleItems hi.wf hpurge, hi', he', ?_⟩
  show ReaderOk l' r s.reader
  exact hi.reader.of_viewOf hs' fun _ hread => hi.viewOf_purge hread h

omit [DecidableEq κ] in
/-- The iterator `create` makes reads the list from its first value not
skipped, or is at its end on an empty list. -/
theorem Inv.create (hi : s.Inv) (hn : s.reader = none) {r : LockedRanges} {itOpt : Option RangeIteratorLL}
    (h : create s.list s.locks = .ok (r, itOpt)) :
    ∃ it, itOpt = some it ∧ Inv { s with locks := r, reader := some it } := by
  have hs : s.locks.shared = [] := by
    have hro := hi.reader
    rw [hn] at hro
    exact hro
  rcases create_eq hi.wf hi.replacements hi.order hi.locks hs hi.exclusive_nil with
    ⟨-, hc⟩ | ⟨-, -, -, -, r', it, -, -, -, -, hc, -, -, -, -, hread, hi', he'⟩
  · rw [hc] at h
    simp only [Except.ok.injEq, Prod.mk.injEq] at h
    obtain ⟨rfl, rfl⟩ := h
    exact ⟨_, rfl, hi.wf, hi.replacements, hi.order, hi.locks, hi.exclusive_nil, .inr ⟨rfl, rfl, hs⟩⟩
  · rw [hc] at h
    simp only [Except.ok.injEq, Prod.mk.injEq] at h
    obtain ⟨rfl, rfl⟩ := h
    exact ⟨it, rfl, hi.wf, hi.replacements, hi.order, hi', he', .inl hread⟩

omit [DecidableEq κ] in
/-- A turn of `operator++` keeps the iterator short of its end, or ends it
with its lock released. -/
theorem Inv.increment (hi : s.Inv) {it it' : RangeIteratorLL} {r : LockedRanges} {again : Bool}
    (hrd : s.reader = some it) (h : it.incrementTurn s.list s.locks = .ok (r, it', again)) :
    Inv { s with locks := r, reader := some it' } := by
  have hro := hi.reader
  rw [hrd] at hro
  rcases hro with hread | ⟨hend, -, -⟩
  · obtain ⟨r₁, it₁, again₁, hturn, -, -, hi₁, he₁, hcase⟩ :=
      hread.incrementTurn hi.wf hi.replacements hi.locks hi.exclusive_nil
    rw [hturn] at h
    simp only [Except.ok.injEq, Prod.mk.injEq] at h
    obtain ⟨rfl, rfl, rfl⟩ := h
    refine ⟨hi.wf, hi.replacements, hi.order, hi₁, he₁, ?_⟩
    rcases hcase with ⟨-, hfin, hg, hs, -⟩ | ⟨-, -, -, -, -, -, -, -, -, -, hread', -⟩
    · exact .inr ⟨hfin, hg, hs⟩
    · exact .inl hread'
  · exact absurd h (incrementTurn_of_end hend _)

omit [DecidableEq κ] in
/-- The destructor releases the iterator's lock, if it holds one. -/
theorem Inv.destroy (hi : s.Inv) {it : RangeIteratorLL} (hrd : s.reader = some it) :
    (it.rangeGuard = none → Inv { s with reader := none }) ∧
      ∀ g r, it.rangeGuard = some g → s.locks.release g false = .ok r → Inv { s with locks := r, reader := none } := by
  have hro := hi.reader
  rw [hrd] at hro
  constructor
  · intro hg
    rcases hro with hread | ⟨-, -, hs⟩
    · obtain ⟨g, -, hg', -⟩ := hread.guard
      rw [hg] at hg'
      cases hg'
    · exact ⟨hi.wf, hi.replacements, hi.order, hi.locks, hi.exclusive_nil, hs⟩
  · intro g r hg hrel
    rcases hro with hread | ⟨-, hg', -⟩
    · obtain ⟨g', range, hg', hs, -, -⟩ := hread.guard
      rw [hg] at hg'
      cases hg'
      obtain ⟨r', hrel', hs', he', hi'⟩ := LockedRanges.release_of_single hi.locks hs hi.exclusive_nil
      rw [hrel] at hrel'
      cases hrel'
      exact ⟨hi.wf, hi.replacements, hi.order, hi', he', hs'⟩
    · rw [hg] at hg'
      cases hg'

/-- Every step keeps the invariant. -/
theorem Inv.readStep {e : ReadEvent κ} (hi : s.Inv) (h : s.readStep e = some (s', o)) : s'.Inv := by
  rcases readStep_cases h with ⟨w, l', -, hl', rfl, -⟩ | ⟨f, shouldPause, r, n, l', -, hp, rfl, -⟩ |
    ⟨-, hn, r, ⟨hc, -, -⟩ | ⟨it, hc, -, rfl⟩⟩ | ⟨-, it, r, it', again, hrd, hturn, rfl, -, -⟩ |
    ⟨-, -, it, hrd, ⟨hg, rfl⟩ | ⟨g, r, hg, hrel, rfl⟩⟩
  · exact hi.write hl'
  · exact hi.purge hp
  · -- `create` is never told to try later here
    obtain ⟨_, hnone, -⟩ := hi.create hn hc
    cases hnone
  · obtain ⟨it', hit, hi'⟩ := hi.create hn hc
    cases hit
    exact hi'
  · exact hi.increment hrd hturn
  · exact (hi.destroy hrd).1 hg
  · exact (hi.destroy hrd).2 g r hg hrel

/-- The invariant holds in every reachable state. -/
theorem inv_of_reachable (h : rangeReadSystem.Reachable s) : s.Inv :=
  TransitionSystem.Reachable.invariant (fun _ hs => hs ▸ inv_empty) (fun _ _ _ _ hi hn => hi.readStep hn) h

/-- In every reachable state a turn of `operator++` on an iterator short of its
end returns: it throws nothing and reads no freed value, and it takes one off
`count()`, which never wraps. -/
theorem increment_progress (hs : rangeReadSystem.Reachable s) {it : RangeIteratorLL} (hrd : s.reader = some it)
    (hlt : it.curr < it.endSeqno) :
    ∃ s' o it', s.readStep .increment = some (s', o) ∧ s'.reader = some it' ∧
      it'.numRemaining + 1 = it.numRemaining := by
  have hi := inv_of_reachable hs
  have hro := hi.reader
  rw [hrd] at hro
  rcases hro with hread | ⟨hend, -, -⟩
  · obtain ⟨r, it', again, hturn, hnum, -, -, -, hcase⟩ :=
      hread.incrementTurn hi.wf hi.replacements hi.locks hi.exclusive_nil
    -- what the client reads where the loop stops
    obtain ⟨o, hread'⟩ : ∃ o, read it' s.list = .ok o := by
      rcases hcase with ⟨-, hfin, -⟩ | ⟨-, -, -, -, -, -, -, -, -, -, hread', -⟩
      · exact ⟨none, read_of_end hfin⟩
      · obtain ⟨x, -, -, hx⟩ := read_of_reading hi.wf.ids_nodup hread'
        exact ⟨_, hx⟩
    cases again with
    | true => exact ⟨{ s with locks := r, reader := some it' }, none, it', by simp [readStep, hrd, hturn], rfl, hnum⟩
    | false => exact ⟨{ s with locks := r, reader := some it' }, o, it', by simp [readStep, hrd, hturn, hread'], rfl,
        hnum⟩
  · exact absurd hend (ne_of_lt hlt)

/-- Two values written, at seqnos 1 and 2, and no iterator. -/
def twoValues : RangeRead Nat :=
  ⟨addNewStoredValue ⟨1, 1, false, .committedViaMutation, 3⟩ 2
    (addNewStoredValue ⟨0, 1, false, .committedViaMutation, 3⟩ 1 BasicLinkedList.empty), LockedRanges.empty, none⟩

/-- `twoValues` read by a new iterator: at the first value, holding `[1, 2]`. -/
def readingTwo : RangeRead Nat :=
  ((twoValues.readStep .makeRangeIterator).map Prod.fst).getD twoValues

theorem reachable_twoValues : rangeReadSystem.Reachable twoValues :=
  .step (.step (.init rfl) (a := (.write (.addNewStoredValue ⟨0, 1, false, .committedViaMutation, 3⟩ 1), none)) rfl)
    (a := (.write (.addNewStoredValue ⟨1, 1, false, .committedViaMutation, 3⟩ 2), none)) rfl

theorem reachable_readingTwo : rangeReadSystem.Reachable readingTwo :=
  .step reachable_twoValues (a := (.makeRangeIterator, some (1, 1))) rfl

theorem increment_progress_readingTwo :
    ∃ s' o it', readingTwo.readStep .increment = some (s', o) ∧ s'.reader = some it' ∧ it'.numRemaining + 1 = 2 :=
  increment_progress reachable_readingTwo rfl (by decide)

end RangeRead

end KvEngine.Ephemeral
