import Mathlib
import KvEngine.Ephemeral.RangeReadSafety

/-!
# A range read returns a snapshot

A backfill reads an ephemeral vbucket through a `RangeIteratorLL` while the
front end keeps writing and the purger keeps freeing stale values. The
iterator's lock is what makes the read a snapshot: a write that would move a
value inside the locked range leaves it there, stale, and appends its
replacement past the range; the purger's lock keeps it off the range. So what
the read returns does not depend on how the other steps interleave with its
turns.

`read_snapshot`: from a reachable state, the values a read returns, from its
creation to its end, are the address and seqno of each value of the list at
creation that is not stale with a replacement, in seqno order (`snapshot`).
`read_turns_le`: a read takes at most as many turns of `operator++` as the
list had values at creation; with `increment_progress` (each turn short of the
end returns), every read ends.

Both rest on one accounting (`Accounted`), kept by every step but the
destructor: what the read has returned, followed by what it has still to
return (`ahead`), is the snapshot; and the turns taken plus `count()` is the
number of values at creation.
-/

namespace KvEngine.Ephemeral

open BasicLinkedList OrderedStoredValue EphemeralVBucket RangeIteratorLL

/-- Whether a step is a turn of `operator++`. -/
def ReadEvent.isIncrement {κ : Type} : ReadEvent κ → Bool
  | .increment => true
  | _ => false

namespace RangeRead

variable {κ : Type} {l : BasicLinkedList κ} {it it' : RangeIteratorLL}

/-- What a read of `l` returns, by the iterator's contract: the address and
seqno of each value that is not stale with a replacement, in list order. -/
def snapshot (l : BasicLinkedList κ) : List (Nat × Int) :=
  (l.seqList.filter fun x => x.getReplacementIfStale.isNone).map stamp

/-- What the iterator has still to return: the values it sees past `curr()`
that it will not skip. -/
def ahead (it : RangeIteratorLL) (l : BasicLinkedList κ) : List (Nat × Int) :=
  ((viewOf l.seqList it.curr it.back).filter fun e => decide (it.curr < e.2.1) && !e.2.2).map
    fun e => (e.1, e.2.1)

theorem ahead_eq (it : RangeIteratorLL) (l : BasicLinkedList κ) :
    ahead it l = (((l.seqList.filter (inRange it.curr it.back)).filter
      fun x => decide (it.curr < x.bySeqno) && !skippedIn l.seqList it.back x)).map stamp := by
  simp only [ahead, viewOf, List.filter_map, List.map_map]
  rfl

/-- A list seen alike has the same values ahead. -/
theorem ahead_of_viewOf {l' : BasicLinkedList κ}
    (h : viewOf l'.seqList it.curr it.back = viewOf l.seqList it.curr it.back) : ahead it l' = ahead it l := by
  rw [ahead, ahead, h]

/-- Nothing is ahead once `curr()` is at `back()` or past it. -/
theorem ahead_of_back_le (h : it.back ≤ it.curr) : ahead it l = [] := by
  rw [ahead_eq, List.filter_filter, List.map_eq_nil_iff, List.filter_eq_nil_iff]
  intro x _ hx
  simp only [Bool.and_eq_true, inRange_eq_true, decide_eq_true_eq] at hx
  omega

/-- A turn to the next value: it returns that value unless it skips it. -/
theorem ahead_turn (hw : Wf l) {x nxt : OrderedStoredValue κ}
    (hfilter : l.seqList.filter (inRange it.curr it.back) = x :: l.seqList.filter (inRange it'.curr it.back))
    (hx : x.bySeqno = it.curr) (hnxt : nxt ∈ l.seqList) (hnseq : it'.curr = nxt.bySeqno)
    (hnle : nxt.bySeqno ≤ it.back) (hxn : x.bySeqno < nxt.bySeqno) (hback : it'.back = it.back) :
    ahead it l = (if skippedIn l.seqList it.back nxt then [] else [stamp nxt]) ++ ahead it' l := by
  obtain ⟨pre, post, hl⟩ := List.append_of_mem hnxt
  have hpost : ∀ y ∈ post, nxt.bySeqno < y.bySeqno := by
    have hinc := hw.increasing
    rw [hl] at hinc
    exact fun y hy => (show ListIter.Increasing OrderedStoredValue.bySeqno (nxt :: post) from
      (List.pairwise_append.mp hinc).2.1).lt_of_cons hy
  rw [ahead_eq, ahead_eq, hfilter, hback, hnseq, filter_inRange_at hw.increasing hl hnle]
  -- `x` is where the iterator was, `nxt` where it is: neither is past `curr()`
  rw [List.filter_cons_of_neg (by simp [hx]), List.filter_cons, List.filter_cons_of_neg (by simp)]
  have hrest : (post.filter (inRange nxt.bySeqno it.back)).filter
        (fun y => decide (it.curr < y.bySeqno) && !skippedIn l.seqList it.back y) =
      (post.filter (inRange nxt.bySeqno it.back)).filter
        (fun y => decide (nxt.bySeqno < y.bySeqno) && !skippedIn l.seqList it.back y) := by
    refine List.filter_congr fun y hy => ?_
    have hlt := hpost y (List.mem_filter.mp hy).1
    simp only [decide_eq_true (show it.curr < y.bySeqno by omega), decide_eq_true hlt]
  cases hskip : skippedIn l.seqList it.back nxt <;> simp [decide_eq_true (show it.curr < nxt.bySeqno by omega), hrest]

/-- At its creation the read returns its first value and has the rest of the
snapshot ahead. -/
theorem snapshot_of_start (hw : Wf l) (hr : Replacements l) {pre post : List (OrderedStoredValue κ)}
    {c b : OrderedStoredValue κ} (hl : l.seqList = pre ++ c :: post)
    (hpre : ∀ x ∈ pre, x.getReplacementIfStale.isSome) (hc : c.getReplacementIfStale = none)
    (hb : l.seqList.getLast? = some b) (hcurr : it.curr = c.bySeqno) (hback : it.back = b.bySeqno) :
    snapshot l = stamp c :: ahead it l := by
  have hle : ∀ y ∈ l.seqList, y.bySeqno ≤ b.bySeqno := fun y hy => hw.increasing.le_of_getLast? hb hy
  have hmem : ∀ y ∈ c :: post, y ∈ l.seqList := fun y hy => by
    rw [hl]
    exact List.mem_append_right _ hy
  have hinc := hw.increasing
  rw [hl] at hinc
  have hpost : ∀ y ∈ post, c.bySeqno < y.bySeqno := fun y hy =>
    (show ListIter.Increasing OrderedStoredValue.bySeqno (c :: post) from
      (List.pairwise_append.mp hinc).2.1).lt_of_cons hy
  -- everything after `c` is in the range read
  have hread : post.filter (inRange c.bySeqno b.bySeqno) = post := List.filter_eq_self.mpr fun y hy =>
    inRange_eq_true.mpr ⟨le_of_lt (hpost y hy), hle y (hmem y (List.mem_cons_of_mem _ hy))⟩
  -- nothing before `c` is in the snapshot
  have hsnap : l.seqList.filter (fun x => x.getReplacementIfStale.isNone) =
      c :: post.filter (fun x => x.getReplacementIfStale.isNone) := by
    have hnil : pre.filter (fun x => x.getReplacementIfStale.isNone) = [] :=
      List.filter_eq_nil_iff.mpr fun x hx => by simpa [Option.isSome_iff_ne_none] using hpre x hx
    rw [hl, List.filter_append, hnil, List.nil_append, List.filter_cons_of_pos (by simp [hc])]
  -- past `c`, a value is skipped exactly when it is stale with a replacement
  have hahead : (c :: post).filter (fun x => decide (c.bySeqno < x.bySeqno) && !skippedIn l.seqList b.bySeqno x) =
      post.filter (fun x => x.getReplacementIfStale.isNone) := by
    rw [List.filter_cons_of_neg (by simp)]
    refine List.filter_congr fun y hy => ?_
    rw [decide_eq_true (hpost y hy), skippedIn_of_le hw hr hle (hmem y (List.mem_cons_of_mem _ hy))]
    simp
  rw [snapshot, ahead_eq, hcurr, hback, filter_inRange_at hw.increasing hl (hle c (hmem c List.mem_cons_self)),
    hread, hsnap, hahead, List.map_cons]

theorem filterMap_snd_append (pre : List (ReadEvent κ × Option (Nat × Int))) (e : ReadEvent κ)
    (o : Option (Nat × Int)) : (pre ++ [(e, o)]).filterMap Prod.snd = pre.filterMap Prod.snd ++ o.toList := by
  cases o <;> simp

variable {T : BasicLinkedList κ} {o₀ : Option (Nat × Int)} {s s' : RangeRead κ}
  {pre : List (ReadEvent κ × Option (Nat × Int))}

/-- The accounting of a read made on the list `T`, which returned `o₀` at its
creation, after the steps `pre`: what it has returned, then what is ahead, is
the snapshot of `T`, and the turns it took plus `count()` is the number of
values of `T`. -/
structure Accounted (T : BasicLinkedList κ) (o₀ : Option (Nat × Int)) (s : RangeRead κ)
    (pre : List (ReadEvent κ × Option (Nat × Int))) : Prop where
  inv : s.Inv
  reading : ∃ it, s.reader = some it ∧ o₀.toList ++ pre.filterMap Prod.snd ++ ahead it s.list = snapshot T ∧
    pre.countP (fun a => a.1.isIncrement) + it.numRemaining = T.seqList.length

/-- A step that returns `o` and moves `o` from what is ahead to what was
returned keeps the accounting of the output. -/
theorem output_step {a a' : List (Nat × Int)} {e : ReadEvent κ} {o : Option (Nat × Int)}
    (hout : o₀.toList ++ pre.filterMap Prod.snd ++ a = snapshot T) (ha : a = o.toList ++ a') :
    o₀.toList ++ (pre ++ [(e, o)]).filterMap Prod.snd ++ a' = snapshot T := by
  rw [← hout, ha, filterMap_snd_append]
  simp only [List.append_assoc]

theorem countP_step (pre : List (ReadEvent κ × Option (Nat × Int))) (e : ReadEvent κ) (o : Option (Nat × Int)) :
    (pre ++ [(e, o)]).countP (fun a => a.1.isIncrement) =
      pre.countP (fun a => a.1.isIncrement) + e.isIncrement.toNat := by
  rw [List.countP_append, List.countP_singleton]
  cases e.isIncrement <;> rfl

/-- A write or a purge leaves what is ahead of the reader. -/
theorem ahead_frame {it : RangeIteratorLL} (hro : ReaderOk s.list s.locks (some it))
    {l' : BasicLinkedList κ} (hview : it.Reading s.list s.locks →
      viewOf l'.seqList it.curr it.back = viewOf s.list.seqList it.curr it.back) :
    ahead it l' = ahead it s.list := by
  rcases hro with hread | ⟨hend, -, -⟩
  · exact ahead_of_viewOf (hview hread)
  · have hle : it.back ≤ it.curr := by
      unfold back endSeqno at *
      omega
    rw [ahead_of_back_le hle, ahead_of_back_le hle]

variable [DecidableEq κ]

omit [DecidableEq κ] in
/-- A turn of `operator++` short of the end takes what it returns off the
front of what is ahead of the reader, and one off `count()`. -/
theorem ahead_incrementTurn (hi : s.Inv) (hread : it.Reading s.list s.locks) {r : LockedRanges} {again : Bool}
    {o : Option (Nat × Int)} (hturn : it.incrementTurn s.list s.locks = .ok (r, it', again))
    (hnone : again = true → o = none) (hsome : again = false → read it' s.list = .ok o) :
    ahead it s.list = o.toList ++ ahead it' s.list ∧ it'.numRemaining + 1 = it.numRemaining := by
  obtain ⟨r₁, it₁, again₁, hturn₁, hnum, hback, -, -, hcase⟩ :=
    hread.incrementTurn hi.wf hi.replacements hi.locks hi.exclusive_nil
  rw [hturn₁] at hturn
  simp only [Except.ok.injEq, Prod.mk.injEq] at hturn
  obtain ⟨rfl, rfl, rfl⟩ := hturn
  refine ⟨?_, hnum⟩
  rcases hcase with ⟨hb, hfin, -, -, rfl⟩ | ⟨x, nxt, -, -, hxs, hn, hncur, hnseq, hxn, hfilter, hread', rfl⟩
  · -- the last turn returns nothing, and nothing was or is ahead
    have ho : o = none := by
      have := hsome rfl
      rw [read_of_end hfin] at this
      cases this
      rfl
    subst ho
    have hend : it₁.back ≤ it₁.curr := by
      unfold back endSeqno at *
      omega
    rw [ahead_of_back_le (le_of_eq hb.symm), ahead_of_back_le hend]
    rfl
  · -- a turn to `nxt`, which it returns unless it skips it
    have hnle : nxt.bySeqno ≤ it.back := hnseq ▸ hback ▸ hread'.curr_le_back
    have hahead := ahead_turn hi.wf hfilter hxs hn hnseq hnle hxn hback
    cases hskip : skippedIn s.list.seqList it.back nxt
    · have ho : o = some (stamp nxt) := by
        have := hsome hskip
        rw [read, if_neg (ne_of_lt hread'.curr_lt_endSeqno),
          deref_of_mem hi.wf.ids_nodup hn hncur hread'.curr_lt_endSeqno] at this
        cases this
        rfl
      subst ho
      rw [hahead, hskip]
      rfl
    · have ho : o = none := hnone hskip
      subst ho
      rw [hahead, hskip]
      rfl

/-- Every step but the destructor keeps the accounting. -/
theorem Accounted.readStep (h : Accounted T o₀ s pre) {e : ReadEvent κ} {o : Option (Nat × Int)}
    (hd : e ≠ .destroy) (hs : s.readStep e = some (s', o)) : Accounted T o₀ s' (pre ++ [(e, o)]) := by
  obtain ⟨hi, it, hrd, hout, hcount⟩ := h
  have hro := hi.reader
  rw [hrd] at hro
  refine ⟨hi.readStep hs, ?_⟩
  rcases readStep_cases hs with ⟨w, l', rfl, hl', rfl, rfl⟩ | ⟨f, shouldPause, r, n, l', rfl, hp, rfl, rfl⟩ |
    ⟨-, hn, -⟩ | ⟨rfl, it₀, r, it', again, hrd₀, hturn, rfl, hnone, hsome⟩ | ⟨rfl, -⟩
  · -- a write returns nothing and is not seen
    refine ⟨it, hrd, output_step hout (ahead_frame hro fun hread => hi.viewOf_write hread hl').symm, ?_⟩
    rw [countP_step]
    exact hcount
  · -- so is a purge
    refine ⟨it, hrd, output_step hout (ahead_frame hro fun hread => hi.viewOf_purge hread hp).symm, ?_⟩
    rw [countP_step]
    exact hcount
  · rw [hrd] at hn
    cases hn
  · rw [hrd] at hrd₀
    cases hrd₀
    rcases hro with hread | ⟨hend, -, -⟩
    · obtain ⟨hahead, hnum⟩ := ahead_incrementTurn hi hread hturn hnone hsome
      refine ⟨it', rfl, output_step hout hahead, ?_⟩
      -- one more turn, one fewer in `count()`
      rw [countP_step]
      change _ + 1 + _ = _
      omega
    · exact absurd hturn (incrementTurn_of_end hend _)
  · exact absurd rfl hd

/-- A run with no destructor keeps the accounting. -/
theorem Accounted.run (h : Accounted T o₀ s pre) {s₂ : RangeRead κ} {run : List (ReadEvent κ × Option (Nat × Int))}
    (hrun : rangeReadSystem.Run s run s₂) (hd : ∀ a ∈ run, a.1 ≠ .destroy) : Accounted T o₀ s₂ (pre ++ run) :=
  TransitionSystem.Run.invariant (p := fun a => a.1 ≠ .destroy) (fun _ _ _ _ hp h hn => h.readStep hp hn) hrun hd h

/-- The accounting starts at the iterator's creation. -/
theorem accounted_of_create (hs : rangeReadSystem.Reachable s)
    (hc : s.readStep .makeRangeIterator = some (s', o₀)) : Accounted s.list o₀ s' [] := by
  have hi := inv_of_reachable hs
  rcases readStep_cases hc with ⟨_, _, he, -⟩ | ⟨_, _, _, _, _, he, -⟩ | ⟨-, hn, r, ⟨hcr, -⟩ | ⟨it, hcr, hread, rfl⟩⟩ |
    ⟨he, -⟩ | ⟨he, -⟩
  · cases he
  · cases he
  · obtain ⟨_, hnone, -⟩ := hi.create hn hcr
    cases hnone
  · obtain ⟨it', hit, hi'⟩ := hi.create hn hcr
    cases hit
    refine ⟨hi', it, rfl, ?_⟩
    have hs' : s.locks.shared = [] := by
      have hro := hi.reader
      rw [hn] at hro
      exact hro
    rcases create_eq hi.wf hi.replacements hi.order hi.locks hs' hi.exclusive_nil with
      ⟨hnil, hc'⟩ | ⟨pre, c, post, b, r', it', hl, hpre, hcris, hb, hc', hcur, hcurr, hback, hnum, hreading, -, -⟩
    · -- an empty list: nothing to return
      rw [hc'] at hcr
      simp only [Except.ok.injEq, Prod.mk.injEq, Option.some.injEq] at hcr
      obtain ⟨-, rfl⟩ := hcr
      rw [read_of_end rfl] at hread
      cases hread
      refine ⟨?_, by simp [hnil]⟩
      rw [ahead_of_back_le (by decide), snapshot, hnil]
      rfl
    · -- the first value is returned, the rest is ahead
      rw [hc'] at hcr
      simp only [Except.ok.injEq, Prod.mk.injEq, Option.some.injEq] at hcr
      obtain ⟨-, rfl⟩ := hcr
      have hcmem : c ∈ s.list.seqList := by
        rw [hl]
        exact List.mem_append_right _ List.mem_cons_self
      have hlt := hreading.curr_lt_endSeqno
      rw [read, if_neg (ne_of_lt hlt), deref_of_mem hi.wf.ids_nodup hcmem hcur hlt] at hread
      cases hread
      refine ⟨?_, by simp [hnum]⟩
      rw [snapshot_of_start hi.wf hi.replacements hl hpre hcris hb hcurr hback]
      rfl
  · cases he
  · cases he

/-- A read returns a snapshot: from a reachable state, whatever writes and
purges run between its steps, the values a read returns from its creation to
its end are the address and seqno of each value of the list at creation that
is not stale with a replacement, in list (so seqno) order. -/
theorem read_snapshot (hs : rangeReadSystem.Reachable s) {s₁ s₂ : RangeRead κ} {o₀ : Option (Nat × Int)}
    (hc : s.readStep .makeRangeIterator = some (s₁, o₀)) {run : List (ReadEvent κ × Option (Nat × Int))}
    (hrun : rangeReadSystem.Run s₁ run s₂) (hd : ∀ a ∈ run, a.1 ≠ .destroy) {it : RangeIteratorLL}
    (hrd : s₂.reader = some it) (hend : it.curr = it.endSeqno) :
    o₀.toList ++ run.filterMap Prod.snd = snapshot s.list := by
  obtain ⟨-, it', hrd', hout, -⟩ := (accounted_of_create hs hc).run hrun hd
  rw [hrd] at hrd'
  cases hrd'
  have hle : it.back ≤ it.curr := by
    unfold back endSeqno at *
    omega
  rwa [ahead_of_back_le hle, List.append_nil, List.nil_append] at hout

/-- While `readingTwo` reads, the front end updates its first value (inside
the locked range, so the value stays, stale, and its replacement is appended at
seqno 3); then the iterator turns to the second value and past the end. -/
def updateRun : List (ReadEvent Nat × Option (Nat × Int)) :=
  [(.write (.updateStoredValue 1 ⟨0, 1, false, .committedViaMutation, 4⟩ 3), none), (.increment, some (2, 2)),
    (.increment, none)]

theorem run_updateRun :
    ∃ s₂, rangeReadSystem.Run readingTwo updateRun s₂ ∧ ∃ it, s₂.reader = some it ∧ it.curr = it.endSeqno :=
  ⟨_, .cons rfl (.cons rfl (.cons rfl (.nil _))), _, rfl, rfl⟩

theorem read_snapshot_updateRun : (some (1, 1)).toList ++ updateRun.filterMap Prod.snd = snapshot twoValues.list := by
  obtain ⟨s₂, hrun, it, hrd, hend⟩ := run_updateRun
  exact read_snapshot reachable_twoValues rfl hrun (by simp [updateRun]) hrd hend

example : snapshot twoValues.list = [(1, 1), (2, 2)] := rfl

/-- A read ends: it takes at most as many turns of `operator++` as the list
had values at its creation. -/
theorem read_turns_le (hs : rangeReadSystem.Reachable s) {s₁ s₂ : RangeRead κ} {o₀ : Option (Nat × Int)}
    (hc : s.readStep .makeRangeIterator = some (s₁, o₀)) {run : List (ReadEvent κ × Option (Nat × Int))}
    (hrun : rangeReadSystem.Run s₁ run s₂) (hd : ∀ a ∈ run, a.1 ≠ .destroy) :
    run.countP (fun a => a.1.isIncrement) ≤ s.list.seqList.length := by
  obtain ⟨-, it, -, -, hcount⟩ := (accounted_of_create hs hc).run hrun hd
  rw [List.nil_append] at hcount
  omega

theorem read_turns_le_updateRun : updateRun.countP (fun a => a.1.isIncrement) ≤ twoValues.list.seqList.length := by
  obtain ⟨s₂, hrun, -⟩ := run_updateRun
  exact read_turns_le reachable_twoValues rfl hrun (by simp [updateRun])

end RangeRead

end KvEngine.Ephemeral
