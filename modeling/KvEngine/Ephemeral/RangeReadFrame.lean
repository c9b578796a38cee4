import Mathlib
import KvEngine.Ephemeral.RangeRead
import KvEngine.Ephemeral.SeqListStale

/-!
# What a range read sees, and the steps that leave it

A range iterator reads the values of the list with seqnos from where it is to
its `back()`, and skips a stale value whose replacement it will still reach
(`itrRangeContainsAnUpdatedVersion`). `viewOf` is what it sees there: the
address and seqno of each value in the range, and whether it skips it.

- `ReadOrder`: what a range read relies on of the seqnos besides `Wf`: they
  are positive, and the replacement a stale value points at comes after it.
  Every step of the list keeps it (`ReadOrder.step`).
- The view after an edit of the list: an update in place that keeps the
  address and seqno and what is skipped (`viewOf_modify`), a value appended
  above the range (`viewOf_append`), a value outside the range erased that no
  value in it points at below `back` (`viewOf_erase`).
- `Shape`, `lockedStep_cases`: what a front-end write does when its
  `rangeContains` is read off a locked range: a value moves only from outside
  it.
- `viewOf_write` and `viewOf_purgeStaleItems`: a write while the reader's
  range is locked, and a purge that stays off that range, leave the view.
-/

namespace KvEngine.Ephemeral

open OrderedStoredValue

namespace OrderedStoredValue

variable {κ : Type}

@[simp] theorem getReplacementIfStale_markStale (n : Option Nat) (o : OrderedStoredValue κ) :
    (o.markStale n).getReplacementIfStale = n := by
  simp [getReplacementIfStale, markStale]

@[simp] theorem getReplacementIfStale_setStaleReplacement (b : Bool) (o : OrderedStoredValue κ) :
    (o.setStaleReplacement b).getReplacementIfStale = o.getReplacementIfStale := rfl

theorem getReplacementIfStale_of_live {o : OrderedStoredValue κ} (h : o.stale = false) :
    o.getReplacementIfStale = none := by
  simp [getReplacementIfStale, h]

theorem getReplacementIfStale_eq_some {o : OrderedStoredValue κ} {r : Nat} :
    o.getReplacementIfStale = some r ↔ o.stale = true ∧ o.replacement = some r := by
  unfold getReplacementIfStale
  cases o.stale <;> simp

end OrderedStoredValue

namespace BasicLinkedList

variable {κ : Type} {l l' : BasicLinkedList κ}

/-! ## The order of replacements -/

/-- What a range read relies on of the seqnos besides `Wf`: they are
positive, and the replacement a stale value points at comes after it. -/
structure ReadOrder (l : BasicLinkedList κ) : Prop where
  high_nonneg : 0 ≤ l.highSeqno
  pos : ∀ o ∈ l.seqList, 0 < o.bySeqno
  later : ∀ x ∈ l.seqList, ∀ y ∈ l.seqList, x.getReplacementIfStale = some y.id → x.bySeqno < y.bySeqno

theorem empty_readOrder : ReadOrder (empty : BasicLinkedList κ) :=
  ⟨le_refl _, fun _ h => absurd h List.not_mem_nil, fun _ h => absurd h List.not_mem_nil⟩

/-- Where a value of `l'` comes from: a value of `l` at the same address and
seqno that points where it did, nowhere, or at a value above `l`'s high seqno;
or it is new, above the high seqno, and points nowhere. -/
def Origin (l l' : BasicLinkedList κ) (x' : OrderedStoredValue κ) : Prop :=
  (∃ x ∈ l.seqList, x'.id = x.id ∧ x'.bySeqno = x.bySeqno ∧
    (x'.getReplacementIfStale = x.getReplacementIfStale ∨ x'.getReplacementIfStale = none ∨
      ∃ y' ∈ l'.seqList, x'.getReplacementIfStale = some y'.id ∧ l.highSeqno < y'.bySeqno)) ∨
  (l.highSeqno < x'.bySeqno ∧ x'.getReplacementIfStale = none)

theorem origin_self {x : OrderedStoredValue κ} (hx : x ∈ l.seqList) : Origin l l' x :=
  .inl ⟨x, hx, rfl, rfl, .inl rfl⟩

/-- A list whose values all come from `l` keeps the order of replacements. -/
theorem ReadOrder.of_origin (ho : ReadOrder l) (hw : Wf l) (hnd : l'.ids.Nodup)
    (hhigh : l.highSeqno ≤ l'.highSeqno) (h : ∀ x' ∈ l'.seqList, Origin l l' x') : ReadOrder l' := by
  have h₀ := ho.high_nonneg
  refine ⟨by omega, fun x' hx' => ?_, fun x' hx' y' hy' hxy => ?_⟩
  · rcases h x' hx' with ⟨x, hx, -, hseq, -⟩ | ⟨hlt, -⟩
    · rw [hseq]
      exact ho.pos x hx
    · omega
  · -- a value above the high seqno comes after every value of `l`
    have habove : ∀ x ∈ l.seqList, l.highSeqno < y'.bySeqno → x.bySeqno < y'.bySeqno := fun x hx hlt => by
      have := hw.bySeqno_le x hx
      omega
    rcases h x' hx' with ⟨x, hx, -, hseq, hp | hp | ⟨y'', hy'', hp, hlt⟩⟩ | ⟨-, hp⟩
    · rw [hp] at hxy
      rw [hseq]
      rcases h y' hy' with ⟨y, hy, hid, hyseq, -⟩ | ⟨hlt, -⟩
      · rw [hyseq]
        exact ho.later x hx y hy (hid ▸ hxy)
      · exact habove x hx hlt
    · rw [hp] at hxy
      cases hxy
    · have hyy : y'' = y' := List.inj_on_of_nodup_map hnd hy'' hy' (Option.some.inj (hp.symm.trans hxy))
      rw [hseq]
      exact habove x hx (hyy ▸ hlt)
    · rw [hp] at hxy
      cases hxy

theorem ReadOrder.setPausedPurgePoint (ho : ReadOrder l) (p : Option Nat) :
    ReadOrder { l with pausedPurgePoint := p } :=
  ⟨ho.high_nonneg, ho.pos, ho.later⟩

/-- Updating values in place, keeping their address and seqno, and leaving
each pointing where it did or nowhere. -/
theorem ReadOrder.of_modify (ho : ReadOrder l) {k : Nat} {f : OrderedStoredValue κ → OrderedStoredValue κ}
    (hs : l'.seqList = ListIter.modify OrderedStoredValue.id l.seqList k f) (hhigh : l'.highSeqno = l.highSeqno)
    (hf : ∀ a ∈ l.seqList, a.id = k → (f a).id = a.id ∧ (f a).bySeqno = a.bySeqno ∧
      ((f a).getReplacementIfStale = a.getReplacementIfStale ∨ (f a).getReplacementIfStale = none)) :
    ReadOrder l' := by
  -- each value is the image of one of `l`
  have himage : ∀ x' ∈ l'.seqList, ∃ a ∈ l.seqList, x'.id = a.id ∧ x'.bySeqno = a.bySeqno ∧
      (x'.getReplacementIfStale = a.getReplacementIfStale ∨ x'.getReplacementIfStale = none) := by
    intro x' hx'
    rw [hs] at hx'
    obtain ⟨a, ha, rfl⟩ := List.mem_map.mp hx'
    by_cases hk : a.id = k
    · rw [if_pos hk]
      exact ⟨a, ha, hf a ha hk⟩
    · rw [if_neg hk]
      exact ⟨a, ha, rfl, rfl, .inl rfl⟩
  refine ⟨hhigh ▸ ho.high_nonneg, fun x' hx' => ?_, fun x' hx' y' hy' hxy => ?_⟩
  · obtain ⟨a, ha, -, hseq, -⟩ := himage x' hx'
    rw [hseq]
    exact ho.pos a ha
  · obtain ⟨a, ha, -, hseq, hp | hp⟩ := himage x' hx'
    · obtain ⟨b, hb, hid, hbseq, -⟩ := himage y' hy'
      rw [hseq, hbseq]
      exact ho.later a ha b hb (by rw [← hp, hxy, hid])
    · rw [hp] at hxy
      cases hxy

/-- Taking values off the list. -/
theorem ReadOrder.of_sublist (ho : ReadOrder l) (hs : l'.seqList.Sublist l.seqList)
    (hhigh : l'.highSeqno = l.highSeqno) : ReadOrder l' :=
  ⟨hhigh ▸ ho.high_nonneg, fun o h => ho.pos o (hs.subset h),
    fun x hx y hy => ho.later x (hs.subset hx) y (hs.subset hy)⟩

theorem ReadOrder.written {keepsCount : Bool} (ho : ReadOrder l) (hw : Wf l) (h : Written l l' keepsCount) :
    ReadOrder l' := by
  have hnd := (hw.written h).ids_nodup
  cases h with
  | append n _ hstale _ _ hseq hhigh hhigh' _ _ =>
    refine ho.of_origin hw hnd (by omega) fun x' hx' => ?_
    rw [hseq] at hx'
    rcases List.mem_append.mp hx' with hx | hx
    · exact origin_self hx
    · rw [List.mem_singleton.mp hx]
      exact .inr ⟨hhigh, getReplacementIfStale_of_live hstale⟩
  | move v n _ _ _ _ hstale _ _ hseq hhigh hhigh' _ _ =>
    refine ho.of_origin hw hnd (by omega) fun x' hx' => ?_
    rw [hseq] at hx'
    rcases List.mem_append.mp hx' with hx | hx
    · exact origin_self ((ListIter.erase_sublist _ _).subset hx)
    · rw [List.mem_singleton.mp hx]
      exact .inr ⟨hhigh, getReplacementIfStale_of_live hstale⟩
  | replace v n _ _ _ _ hstale _ hseq hhigh hhigh' _ _ =>
    refine ho.of_origin hw hnd (by omega) fun x' hx' => ?_
    have hn : n.setStaleReplacement true ∈ l'.seqList := by
      rw [hseq]
      exact List.mem_append_right _ (List.mem_singleton_self _)
    rw [hseq] at hx'
    rcases List.mem_append.mp hx' with hx | hx
    · -- the value marked stale points at the new one
      obtain ⟨a, ha, rfl | rfl⟩ := ListIter.exists_of_mem_modify hx
      · exact origin_self ha
      · exact .inl ⟨a, ha, rfl, rfl, .inr (.inr ⟨_, hn, getReplacementIfStale_markStale _ _, hhigh⟩)⟩
    · rw [List.mem_singleton.mp hx]
      exact .inr ⟨hhigh, by rw [getReplacementIfStale_setStaleReplacement, getReplacementIfStale_of_live hstale]⟩

theorem ReadOrder.markItemStale_none (ho : ReadOrder l) (v : OrderedStoredValue κ) :
    ReadOrder (l.markItemStale v none) :=
  ho.of_modify (seqList_markItemStale_none v) rfl fun _ _ _ => ⟨rfl, rfl, .inr (getReplacementIfStale_markStale _ _)⟩

theorem ReadOrder.updateValue_committed (ho : ReadOrder l) (hw : Wf l) {p : OrderedStoredValue κ}
    (hp : p ∈ l.seqList) (c : CommittedState) : ReadOrder (l.updateValue { p with committed := c }) := by
  refine ho.of_modify rfl rfl fun a ha hk => ?_
  rw [List.inj_on_of_nodup_map hw.ids_nodup ha hp hk]
  exact ⟨rfl, rfl, .inl rfl⟩

theorem ReadOrder.purgeListElem (ho : ReadOrder l) (it : OrderedStoredValue κ) (isStale isReplaced : Bool) :
    ReadOrder (l.purgeListElem it isStale isReplaced) := by
  have hs := seqList_purgeListElem (l := l) it isStale isReplaced
  have herase : ReadOrder { l with seqList := ListIter.erase OrderedStoredValue.id l.seqList it.id } :=
    ho.of_sublist (ListIter.erase_sublist _ _) rfl
  split at hs
  · -- freeing a stale value clears its replacement's bit in place
    exact herase.of_modify hs (highSeqno_purgeListElem _ _ _) fun _ _ _ => ⟨rfl, rfl, .inl rfl⟩
  · exact ho.of_sublist (hs ▸ ListIter.erase_sublist _ _) (highSeqno_purgeListElem _ _ _)

section Steps

open EphemeralVBucket

variable [DecidableEq κ]

theorem ReadOrder.dropKey (ho : ReadOrder l) (hw : Wf l) (k : κ) : ReadOrder (EphemeralVBucket.dropKey k l) :=
  (dropKey_induction (fun l₁ => Wf l₁ ∧ ReadOrder l₁) (fun _ h => h.1.ids_nodup) (k := k)
    (fun _ v h _ _ _ => ⟨h.1.markItemStale v none, h.2.markItemStale_none v⟩) ⟨hw, ho⟩).2

theorem ReadOrder.purgeOne (ho : ReadOrder l) (hw : Wf l) {f : κ → Int → Bool} {it : OrderedStoredValue κ}
    (hit : it ∈ l.seqList) : ReadOrder (purgeOne (droppedCollectionCallback f) it l).2 := by
  rcases purgeOne_cases hw.ids_nodup hit with hres | ⟨-, -, hres⟩ | ⟨-, -, hres⟩ | ⟨-, -, -, cur, -, -, hres⟩ <;>
    rw [hres] <;> dsimp only
  · exact ho
  · exact ho.purgeListElem _ _ _
  · exact ho.dropKey hw _
  · exact (ho.dropKey hw _).purgeListElem _ _ _

theorem ReadOrder.purgeStaleItems (ho : ReadOrder l) (hw : Wf l) {f : κ → Int → Bool} {shouldPause : Nat → Bool}
    {lockedEnd : Option Int} {n : Nat} (h : EphemeralVBucket.purgeStaleItems f shouldPause lockedEnd l = .ok (n, l')) :
    ReadOrder l' :=
  (purgeStaleItems_wf_induction (fun _ l₁ => ReadOrder l₁) (fun _ _ p h₁ => h₁.setPausedPurgePoint p)
    (fun _ _ _ hw₁ ho₁ hit _ => ho₁.purgeOne hw₁ hit) hw ho h).2.2

/-- Every step of the list keeps the order of replacements. -/
theorem ReadOrder.step (ho : ReadOrder l) (hw : Wf l) {e : Event κ} (h : EphemeralVBucket.step l e = some l') :
    ReadOrder l' := by
  rcases step_cases hw.ids_nodup h with hwr | ⟨_, _, _, _, -, -, hwr⟩ | ⟨l₁, p, hwr, hp, -, rfl⟩ |
    ⟨v, -, -, rfl⟩ | rfl | ⟨_, _, _, _, -, hpurge⟩
  · exact ho.written hw hwr
  · exact ho.written hw hwr
  · exact (ho.written hw hwr).updateValue_committed (hw.written hwr) hp _
  · exact ho.markItemStale_none v
  · exact ho
  · exact ho.purgeStaleItems hw hpurge

end Steps

/-! ## What a reader sees -/

/-- `itrRangeContainsAnUpdatedVersion` of a value, over the values `xs`: it is
stale and points at a value of `xs` at most `back`. -/
def skippedIn (xs : List (OrderedStoredValue κ)) (back : Int) (x : OrderedStoredValue κ) : Bool :=
  (x.getReplacementIfStale.bind (ListIter.find OrderedStoredValue.id xs)).any fun y => y.bySeqno ≤ back

/-- The seqnos from `lo` to `back`. -/
def inRange (lo back : Int) (x : OrderedStoredValue κ) : Bool := lo ≤ x.bySeqno && x.bySeqno ≤ back

/-- What a reader of the seqnos from `lo` to `back` sees of `xs`: the address
and seqno of each value there, and whether it skips it. -/
def viewOf (xs : List (OrderedStoredValue κ)) (lo back : Int) : List (Nat × Int × Bool) :=
  (xs.filter (inRange lo back)).map fun x => (x.id, x.bySeqno, skippedIn xs back x)

theorem inRange_eq_true {lo back : Int} {x : OrderedStoredValue κ} : inRange lo back x = true ↔ lo ≤ x.bySeqno ∧ x.bySeqno ≤ back := by
  simp [inRange]

/-- Two lists are seen alike when the values in the range are those of the
first, each at the same address and seqno and skipped alike. -/
theorem viewOf_eq_of_map {xs xs' : List (OrderedStoredValue κ)} {lo back : Int} {g : OrderedStoredValue κ → OrderedStoredValue κ}
    (hrange : xs'.filter (inRange lo back) = (xs.filter (inRange lo back)).map g)
    (hg : ∀ x ∈ xs, inRange lo back x = true →
      (g x).id = x.id ∧ (g x).bySeqno = x.bySeqno ∧ skippedIn xs' back (g x) = skippedIn xs back x) :
    viewOf xs' lo back = viewOf xs lo back := by
  unfold viewOf
  rw [hrange, List.map_map]
  refine List.map_congr_left fun x hx => ?_
  obtain ⟨hxs, hx⟩ := List.mem_filter.mp hx
  obtain ⟨hid, hseq, hskip⟩ := hg x hxs hx
  simp only [Function.comp_apply, hid, hseq, hskip]

/-- An update in place that keeps addresses and seqnos is seen through
`find` alike, so it changes no other value's skip. -/
theorem skippedIn_modify {xs : List (OrderedStoredValue κ)} {k : Nat} {f : OrderedStoredValue κ → OrderedStoredValue κ}
    (hf : ∀ a ∈ xs, a.id = k → (f a).id = a.id ∧ (f a).bySeqno = a.bySeqno) (back : Int) (x : OrderedStoredValue κ) :
    skippedIn (ListIter.modify OrderedStoredValue.id xs k f) back x = skippedIn xs back x := by
  unfold skippedIn
  cases x.getReplacementIfStale with
  | none => rfl
  | some r =>
    simp only [Option.bind_some]
    rw [ListIter.find_modify (fun a ha hk => (hf a ha hk).1)]
    cases hy : ListIter.find OrderedStoredValue.id xs r with
    | none => rfl
    | some y =>
      simp only [Option.map_some, Option.any_some]
      split_ifs with hyk
      · rw [(hf y (ListIter.mem_of_find_eq_some hy).1 hyk).2]
      · rfl

/-- An update in place that keeps the address, seqno and skip of the value it
updates leaves the view. -/
theorem viewOf_modify {xs : List (OrderedStoredValue κ)} {k : Nat} {f : OrderedStoredValue κ → OrderedStoredValue κ}
    (hf : ∀ a ∈ xs, a.id = k → (f a).id = a.id ∧ (f a).bySeqno = a.bySeqno) {lo back : Int}
    (hskip : ∀ a ∈ xs, a.id = k → inRange lo back a = true → skippedIn xs back (f a) = skippedIn xs back a) :
    viewOf (ListIter.modify OrderedStoredValue.id xs k f) lo back = viewOf xs lo back := by
  have hseq : ∀ a ∈ xs, (if a.id = k then f a else a).bySeqno = a.bySeqno := fun a ha => by
    split_ifs with hk
    · exact (hf a ha hk).2
    · rfl
  refine viewOf_eq_of_map (g := fun a => if a.id = k then f a else a) ?_ fun x hx hin => ?_
  · unfold ListIter.modify
    rw [List.filter_map]
    congr 1
    refine List.filter_congr fun a ha => ?_
    simp only [Function.comp_apply, inRange, hseq a ha]
  · rw [skippedIn_modify hf]
    split_ifs with hk
    · exact ⟨(hf x hx hk).1, (hf x hx hk).2, hskip x hx hk hin⟩
    · exact ⟨rfl, rfl, rfl⟩

/-- A value above `back` is seen by no reader up to `back`. -/
theorem skippedIn_append {xs : List (OrderedStoredValue κ)} {n : OrderedStoredValue κ} {back : Int}
    (hn : back < n.bySeqno) (x : OrderedStoredValue κ) : skippedIn (xs ++ [n]) back x = skippedIn xs back x := by
  unfold skippedIn
  cases x.getReplacementIfStale with
  | none => rfl
  | some r =>
    simp only [Option.bind_some, ListIter.find_append]
    cases ListIter.find OrderedStoredValue.id xs r with
    | some y => rfl
    | none =>
      -- the look-up can only find `n`, above the range
      simp only [Option.none_or, ListIter.find, List.find?_singleton]
      split_ifs
      · simp only [Option.any_some, Option.any_none, decide_eq_false_iff_not, not_le]
        exact hn
      · rfl

theorem viewOf_append {xs : List (OrderedStoredValue κ)} {n : OrderedStoredValue κ} {lo back : Int}
    (hn : back < n.bySeqno) : viewOf (xs ++ [n]) lo back = viewOf xs lo back := by
  refine viewOf_eq_of_map (g := id) ?_ fun x _ _ => ⟨rfl, rfl, skippedIn_append hn x⟩
  rw [List.map_id, List.filter_append, List.filter_singleton]
  have hout : inRange lo back n = false := by
    simp only [inRange, Bool.and_eq_false_iff, decide_eq_false_iff_not, not_le]
    exact .inr hn
  rw [hout, cond_false, List.append_nil]

/-- Erasing a value changes the skip only of a value pointing at it. -/
theorem skippedIn_erase {xs : List (OrderedStoredValue κ)} (hnd : (xs.map OrderedStoredValue.id).Nodup)
    {a : OrderedStoredValue κ} (ha : a ∈ xs) {back : Int} {x : OrderedStoredValue κ}
    (hpointed : x.getReplacementIfStale = some a.id → back < a.bySeqno) :
    skippedIn (ListIter.erase OrderedStoredValue.id xs a.id) back x = skippedIn xs back x := by
  unfold skippedIn
  cases hr : x.getReplacementIfStale with
  | none => rfl
  | some r =>
    simp only [Option.bind_some]
    by_cases hra : r = a.id
    · -- what pointed at `a` did not see it up to `back`
      subst hra
      rw [ListIter.find_erase_self hnd, ListIter.find_eq_of_mem hnd ha]
      simp only [Option.any_none, Option.any_some, Bool.false_eq, decide_eq_false_iff_not, not_le]
      exact hpointed hr
    · rw [ListIter.find_erase_of_ne hra]

/-- Erasing a value outside the range leaves the view when no value in the
range points at it with a seqno up to `back`. -/
theorem viewOf_erase {xs : List (OrderedStoredValue κ)} (hnd : (xs.map OrderedStoredValue.id).Nodup)
    {a : OrderedStoredValue κ} (ha : a ∈ xs) {lo back : Int} (hout : inRange lo back a = false)
    (hpointed : ∀ x ∈ xs, inRange lo back x = true → x.getReplacementIfStale = some a.id → back < a.bySeqno) :
    viewOf (ListIter.erase OrderedStoredValue.id xs a.id) lo back = viewOf xs lo back := by
  refine viewOf_eq_of_map (g := id) ?_ fun x hx hin => ⟨rfl, rfl, skippedIn_erase hnd ha (hpointed x hx hin)⟩
  -- `a` is not in the range, so erasing it erases nothing there
  rw [List.map_id]
  obtain ⟨b, pre, post, -, hb, hsplit, herase⟩ := List.exists_of_eraseP ha (p := fun c => decide (c.id = a.id))
    (by simp)
  have hba : b = a := List.inj_on_of_nodup_map hnd (hsplit ▸ List.mem_append_right _ List.mem_cons_self) ha
    (by simpa using hb)
  unfold ListIter.erase
  rw [herase, hsplit, hba, List.filter_append, List.filter_append, List.filter_cons, hout, if_neg Bool.false_ne_true]

/-- Releasing a live value from the hash table is not seen. -/
theorem viewOf_markItemStale_none (hnd : l.ids.Nodup) {v : OrderedStoredValue κ} (hv : v ∈ l.seqList)
    (hvs : v.stale = false) (lo back : Int) :
    viewOf (l.markItemStale v none).seqList lo back = viewOf l.seqList lo back := by
  rw [seqList_markItemStale_none]
  refine viewOf_modify (f := markStale none) (fun _ _ _ => ⟨rfl, rfl⟩) fun a ha hav _ => ?_
  rw [List.inj_on_of_nodup_map hnd ha hv hav]
  simp [skippedIn, getReplacementIfStale_of_live hvs]

/-- Completing a prepare in place is not seen. -/
theorem viewOf_updateValue_committed (hnd : l.ids.Nodup) {p : OrderedStoredValue κ} (hp : p ∈ l.seqList)
    (c : CommittedState) (lo back : Int) :
    viewOf (l.updateValue { p with committed := c }).seqList lo back = viewOf l.seqList lo back := by
  -- what is at `p`'s address is `p`
  have hat : ∀ a ∈ l.seqList, a.id = p.id → a = p := fun a ha hap => List.inj_on_of_nodup_map hnd ha hp hap
  refine viewOf_modify (fun a ha hap => ?_) fun a ha hap _ => ?_ <;> rw [hat a ha hap]
  · exact ⟨rfl, rfl⟩
  · rfl

section Purges

open EphemeralVBucket

variable [DecidableEq κ] {lo back : Int}

omit [DecidableEq κ] in
/-- Freeing a value outside the range that no stale value points at is not
seen. -/
theorem viewOf_purgeListElem (hw : Wf l) (hr : Replacements l) {cur : OrderedStoredValue κ}
    (hcur : cur ∈ l.seqList) (hsr : cur.staleReplacement = false) (hout : inRange lo back cur = false)
    (isStale isReplaced : Bool) :
    viewOf (l.purgeListElem cur isStale isReplaced).seqList lo back = viewOf l.seqList lo back := by
  -- a value pointed at has its bit set, so no value points at `cur`
  have hfree : ∀ x ∈ l.seqList, x.getReplacementIfStale ≠ some cur.id := fun x hx hxc => by
    obtain ⟨-, hrepl⟩ := getReplacementIfStale_eq_some.mp hxc
    obtain ⟨o, ho, hoid, hflag⟩ := hr.target_mem cur.id (mem_replacementIds.mpr ⟨x, hx, hrepl⟩)
    rw [List.inj_on_of_nodup_map hw.ids_nodup ho hcur hoid, hsr] at hflag
    cases hflag
  have herase := viewOf_erase hw.ids_nodup hcur hout fun x hx _ hxc => absurd hxc (hfree x hx)
  rw [seqList_purgeListElem]
  split
  · -- freeing a stale value clears its replacement's bit in place
    rw [viewOf_modify (f := setStaleReplacement false) (fun _ _ _ => ⟨rfl, rfl⟩) fun _ _ _ _ => rfl, herase]
  · exact herase

theorem viewOf_dropKey (hnd : l.ids.Nodup) (k : κ) :
    viewOf (EphemeralVBucket.dropKey k l).seqList lo back = viewOf l.seqList lo back :=
  (dropKey_induction (fun l₁ => l₁.ids = l.ids ∧ viewOf l₁.seqList lo back = viewOf l.seqList lo back)
    (fun _ h => h.1 ▸ hnd) (k := k)
    (fun _ v h hv hvs _ => ⟨by rw [ids_markItemStale, h.1],
      by rw [viewOf_markItemStale_none (h.1 ▸ hnd) hv hvs, h.2]⟩) ⟨rfl, rfl⟩).2

theorem stamps_dropKey (hnd : l.ids.Nodup) (k : κ) : (EphemeralVBucket.dropKey k l).stamps = l.stamps :=
  dropKey_induction (fun l₁ => l₁.stamps = l.stamps)
    (fun l₁ h => by rw [ids_eq_stamps, h, ← ids_eq_stamps]; exact hnd) (k := k)
    (fun _ v h _ _ _ => by rw [stamps_markItemStale, h]) rfl

/-- One value of a purge only takes values off the list. -/
theorem stamps_purgeOne_sublist (hnd : l.ids.Nodup) {f : κ → Int → Bool} {it : OrderedStoredValue κ}
    (hit : it ∈ l.seqList) : (purgeOne (droppedCollectionCallback f) it l).2.stamps.Sublist l.stamps := by
  rcases purgeOne_cases hnd hit with hres | ⟨-, -, hres⟩ | ⟨-, -, hres⟩ | ⟨-, -, -, cur, -, -, hres⟩ <;>
    rw [hres] <;> dsimp only
  · rw [stamps_purgeListElem]
    exact (ListIter.erase_sublist _ _).map stamp
  · rw [stamps_dropKey hnd]
  · rw [stamps_purgeListElem, ← stamps_dropKey hnd it.key]
    exact (ListIter.erase_sublist _ _).map stamp

/-- One value of a purge, outside the range, is not seen. -/
theorem viewOf_purgeOne (hw : Wf l) (hr : Replacements l) {f : κ → Int → Bool} {it : OrderedStoredValue κ}
    (hit : it ∈ l.seqList) (hout : inRange lo back it = false) :
    viewOf (purgeOne (droppedCollectionCallback f) it l).2.seqList lo back = viewOf l.seqList lo back := by
  rcases purgeOne_cases hw.ids_nodup hit with hres | ⟨-, hsr, hres⟩ | ⟨-, -, hres⟩ |
    ⟨-, -, hsr, cur, hcur, horigin, hres⟩ <;> rw [hres] <;> dsimp only
  · exact viewOf_purgeListElem hw hr hit hsr hout _ _
  · exact viewOf_dropKey hw.ids_nodup _
  · -- the value found at the address is `it`, released or not
    have hcsr : cur.staleReplacement = false := by rcases horigin with rfl | rfl <;> exact hsr
    have hcout : inRange lo back cur = false := by rcases horigin with rfl | rfl <;> exact hout
    rw [viewOf_purgeListElem (hw.dropKey _) (hr.dropKey hw _) hcur hcsr hcout, viewOf_dropKey hw.ids_nodup]

/-- A purge is not seen when its lock ends below the range or it starts
above it. -/
theorem viewOf_purgeStaleItems (hw : Wf l) (hr : Replacements l) {f : κ → Int → Bool}
    {shouldPause : Nat → Bool} {lockedEnd : Option Int} {n : Nat}
    (hoff : ∀ m, lockedEnd = some m → m < lo ∨ ∀ x ∈ l.purgeFrom, back < x.bySeqno)
    (h : EphemeralVBucket.purgeStaleItems f shouldPause lockedEnd l = .ok (n, l')) :
    viewOf l'.seqList lo back = viewOf l.seqList lo back := by
  -- the invariant of the run: the pointers are exact, and values only leave, unseen
  let P : Nat → BasicLinkedList κ → Prop := fun _ l₁ =>
    Replacements l₁ ∧ l₁.stamps.Sublist l.stamps ∧ viewOf l₁.seqList lo back = viewOf l.seqList lo back
  refine (purgeStaleItems_wf_induction P (fun _ _ p h₁ => ⟨h₁.1.setPausedPurgePoint p, h₁.2⟩) ?_ hw
    ⟨hr, List.Sublist.refl _, rfl⟩ h).2.2.2.2
  rintro _ l₁ it hw₁ ⟨hr₁, hsub, hview⟩ hit hreached
  have hout : inRange lo back it = false := by
    obtain ⟨m, hm, hle⟩ := hreached.locked
    rw [Bool.eq_false_iff, ne_eq, inRange_eq_true]
    rintro ⟨hlo, hhi⟩
    rcases hoff m hm with hlt | habove
    · omega
    · -- `it` is at the seqno the value of its address had where the run started
      obtain ⟨x, hx, hxid⟩ := List.mem_map.mp hreached.from_start
      obtain ⟨y, hy, hyst⟩ := List.mem_map.mp (hsub.subset (List.mem_map_of_mem (f := stamp) hit))
      have hyx : y = x := List.inj_on_of_nodup_map hw.ids_nodup hy ((purgeFrom_suffix l).subset hx)
        ((congrArg Prod.fst hyst).trans hxid.symm)
      have hseq : y.bySeqno = it.bySeqno := congrArg Prod.snd hyst
      rw [hyx] at hseq
      have := habove x hx
      omega
  exact ⟨hr₁.purgeOne hw₁ hit, (stamps_purgeOne_sublist hw₁.ids_nodup hit).trans hsub,
    (viewOf_purgeOne hw₁ hr₁ hit hout).trans hview⟩

end Purges

end BasicLinkedList

namespace EphemeralVBucket

open BasicLinkedList

variable {κ : Type} [DecidableEq κ] {l l' : BasicLinkedList κ}

/-! ## Writes under a locked range -/

/-- What a front-end write does to the list while `u` is the locked range: a
new value at the back; the hash table's value `v`, off `u`, moved to the back;
or `v` left in place, marked stale, and replaced by a new value at the back. -/
inductive Shape (u : SeqRange) (l l' : BasicLinkedList κ) : Prop
  | append (n : OrderedStoredValue κ) (hseq : l'.seqList = l.seqList ++ [n]) (hhigh : l.highSeqno < n.bySeqno)
  | move (v n : OrderedStoredValue κ) (hv : v ∈ l.seqList) (hfree : u.contains v.bySeqno = false)
      (hseq : l'.seqList = ListIter.erase OrderedStoredValue.id l.seqList v.id ++ [n])
      (hhigh : l.highSeqno < n.bySeqno)
  | replace (v n : OrderedStoredValue κ) (hv : v ∈ l.seqList) (hvs : v.stale = false) (hid : n.id = l.freshId)
      (hseq : l'.seqList = ListIter.modify OrderedStoredValue.id l.seqList v.id (markStale (some n.id)) ++
        [n.setStaleReplacement true])
      (hhigh : l.highSeqno < n.bySeqno)

omit [DecidableEq κ] in
theorem rangeContains_some (u : SeqRange) (v : OrderedStoredValue κ) :
    rangeContains u (some v) = u.contains v.bySeqno := rfl

omit [DecidableEq κ] in
theorem shape_addNewStoredValue (u : SeqRange) (itm : Item κ) {seqno : Int} (hs : l.highSeqno < seqno) :
    Shape u l (addNewStoredValue itm seqno l) :=
  .append (itm.toStoredValue l.freshId seqno) (by simp [addNewStoredValue]) hs

omit [DecidableEq κ] in
theorem shape_addNewAbort (u : SeqRange) (k : κ) (objectSize : Nat) {seqno : Int} (hs : l.highSeqno < seqno) :
    Shape u l (addNewAbort k objectSize seqno l) :=
  .append ((⟨k, objectSize, true, .prepareAborted, 0⟩ : Item κ).toStoredValue l.freshId seqno)
    (by simp [addNewAbort, updateSeqListPostAbort]) hs

omit [DecidableEq κ] in
theorem shape_updateStoredValue {v : OrderedStoredValue κ} (hnd : l.ids.Nodup) (hv : v ∈ l.seqList)
    (hvs : v.stale = false) (u : SeqRange) (itm : Item κ) {seqno : Int} (hs : l.highSeqno < seqno) :
    Shape u l (updateStoredValue v itm (rangeContains u (some v)) seqno l) := by
  rw [rangeContains_some]
  cases hrc : u.contains v.bySeqno with
  | false =>
    -- off the locked range: moved to the back and updated there
    let n : OrderedStoredValue κ := { v with
      deleted := itm.deleted, committed := itm.committed, valueSize := itm.valueSize, bySeqno := seqno }
    refine .move v n hv hrc ?_ hs
    simp only [updateStoredValue, updateListElem_false, seqList_updateHighSeqno, seqList_updateNumDeletedItems,
      seqList_updateValue]
    exact seqList_updateValue_moved (v := v) (n := n) hnd rfl
  | true =>
    exact .replace v (itm.toStoredValue l.freshId seqno) hv hvs rfl
      (seqList_markItemStale_append (v := v) (n := itm.toStoredValue l.freshId seqno) (by simp) freshId_not_mem
        (freshId_ne hv)) hs

omit [DecidableEq κ] in
theorem shape_softDeleteStoredValue {v : OrderedStoredValue κ} (hnd : l.ids.Nodup) (hv : v ∈ l.seqList)
    (hvs : v.stale = false) (u : SeqRange) {onlyMarkDeleted : Bool} {seqno : Int} (hs : l.highSeqno < seqno)
    (h : softDeleteStoredValue v onlyMarkDeleted (rangeContains u (some v)) seqno l = .ok l') : Shape u l l' := by
  rw [rangeContains_some] at h
  unfold softDeleteStoredValue softDelete at h
  cases hrc : u.contains v.bySeqno with
  | false =>
    rw [hrc, updateListElem_false] at h
    dsimp only at h
    split at h
    · cases h
    · cases h
      let n : OrderedStoredValue κ := { v with
        deleted := true, valueSize := if onlyMarkDeleted then v.valueSize else 0,
        committed := .committedViaMutation, bySeqno := seqno }
      refine .move v n hv hrc ?_ hs
      simp only [seqList_updateHighSeqno, seqList_updateValue, seqList_updateNumDeletedItems]
      exact seqList_updateValue_moved (v := v) (n := n) hnd rfl
  | true =>
    rw [hrc, updateListElem_true] at h
    dsimp only [replaceByCopy] at h
    split at h
    · cases h
    · cases h
      let n : OrderedStoredValue κ := { v with
        id := l.freshId, replacement := none, staleReplacement := false, deleted := true,
        valueSize := if onlyMarkDeleted then v.valueSize else 0, committed := .committedViaMutation,
        bySeqno := seqno }
      refine .replace v n hv hvs rfl ?_ hs
      refine seqList_markItemStale_append (v := v) (n := n) ?_ freshId_not_mem (freshId_ne hv)
      simp only [seqList_updateHighSeqno, seqList_updateValue, seqList_updateNumDeletedItems, seqList_appendToList]
      exact seqList_updateValue_appended (n := n) (a := { v with
        id := l.freshId, replacement := none, staleReplacement := false }) rfl rfl

omit [DecidableEq κ] in
theorem shape_abortStoredValue {p : OrderedStoredValue κ} (hnd : l.ids.Nodup) (hp : p ∈ l.seqList)
    (hps : p.stale = false) (u : SeqRange) {seqno : Int} (hs : l.highSeqno < seqno)
    (h : abortStoredValue p (rangeContains u (some p)) seqno l = .ok l') : Shape u l l' := by
  rw [rangeContains_some] at h
  unfold abortStoredValue at h
  split at h
  · cases h
  cases hrc : u.contains p.bySeqno with
  | false =>
    rw [hrc, updateListElem_false] at h
    cases h
    let n : OrderedStoredValue κ := { p with bySeqno := seqno, committed := .prepareAborted }
    refine .move p n hp hrc ?_ hs
    simp only [updateSeqListPostAbort, seqList_updateHighSeqno, seqList_updateNumDeletedItems, seqList_updateValue]
    exact seqList_updateValue_moved (v := p) (n := n) hnd rfl
  | true =>
    rw [hrc, updateListElem_true] at h
    cases h
    let n : OrderedStoredValue κ := { p with
      id := l.freshId, replacement := none, staleReplacement := false, bySeqno := seqno,
      committed := .prepareAborted }
    refine .replace p n hp hps rfl ?_ hs
    refine seqList_markItemStale_append (v := p) (n := n) ?_ freshId_not_mem (freshId_ne hp)
    simp only [updateSeqListPostAbort, seqList_updateHighSeqno, seqList_updateNumDeletedItems,
      seqList_updateValue, seqList_appendToList]
    exact seqList_updateValue_appended (n := n) (a := replaceByCopy p l) rfl rfl

/-- A commit under a locked range: the write of the prepare's item, then the
prepare completed in place. -/
theorem shape_commitStoredValue {k : κ} (hw : Wf l) (u : SeqRange) {seqno : Int} (hs : l.highSeqno < seqno)
    (h : commitStoredValue k (rangeContains u (findForUpdate k l).2) seqno l = .ok l') :
    ∃ l₁ p, Shape u l l₁ ∧ Wf l₁ ∧ p ∈ l₁.seqList ∧ l' = l₁.updateValue { p with committed := .prepareCommitted } := by
  unfold commitStoredValue at h
  split at h
  · cases h
  next p committed hfind =>
    have hp : (findForUpdate k l).1 = some p := by rw [hfind]
    obtain ⟨hpm, -, -⟩ := findForUpdate_fst hp
    have hc₀ : (findForUpdate k l).2 = committed := by rw [hfind]
    rw [hc₀] at h
    cases h
    cases hc : committed with
    | none =>
      exact ⟨_, p, shape_addNewStoredValue u _ hs, hw.written (written_addNewStoredValue _ hs),
        mem_addNewStoredValue hpm _ _, rfl⟩
    | some c =>
      have hc' : (findForUpdate k l).2 = some c := by rw [hfind, hc]
      obtain ⟨hcm, hcs, -⟩ := findForUpdate_snd hc'
      have hne : p.id ≠ c.id := (findForUpdate_id_ne hw.ids_nodup hp hc').symm
      exact ⟨_, p, shape_updateStoredValue hw.ids_nodup hcm hcs u _ hs,
        hw.written (written_updateStoredValue hw.ids_nodup hcm hcs _ _ hs), mem_updateStoredValue hpm hne _ _ _, rfl⟩

/-- What a front-end write does while `u` is the locked range: one of the
shapes, a commit, the release of a live value, or nothing. -/
theorem lockedStep_cases (hw : Wf l) {u : SeqRange} {w : Write κ} (h : step l (w.toEvent u l) = some l') :
    Shape u l l' ∨
    (∃ l₁ p, Shape u l l₁ ∧ Wf l₁ ∧ p ∈ l₁.seqList ∧ l' = l₁.updateValue { p with committed := .prepareCommitted }) ∨
    (∃ v ∈ l.seqList, v.stale = false ∧ l' = l.markItemStale v none) ∨
    l' = l := by
  have hnd := hw.ids_nodup
  cases w with
  | addNewStoredValue itm seqno =>
    simp only [Write.toEvent, step] at h
    split_ifs at h with hs
    cases h
    exact .inl (shape_addNewStoredValue u itm hs)
  | updateStoredValue id itm seqno =>
    simp only [Write.toEvent, step] at h
    split at h
    next v hv =>
      rw [hv] at h
      split_ifs at h with hg
      cases h
      obtain ⟨hvm, hvs⟩ := htValue_spec hv
      exact .inl (shape_updateStoredValue hnd hvm hvs u itm hg.1)
    next => cases h
  | softDeleteStoredValue id onlyMarkDeleted seqno =>
    simp only [Write.toEvent, step] at h
    split at h
    next v hv =>
      rw [hv] at h
      split_ifs at h with hs
      obtain ⟨hvm, hvs⟩ := htValue_spec hv
      exact .inl (shape_softDeleteStoredValue hnd hvm hvs u hs (Except.toOption_eq_some.mp h))
    next => cases h
  | commitStoredValue k seqno =>
    simp only [Write.toEvent, step] at h
    split_ifs at h with hs
    exact .inr (.inl (shape_commitStoredValue hw u hs (Except.toOption_eq_some.mp h)))
  | abortStoredValue k seqno =>
    simp only [Write.toEvent, step] at h
    split at h
    next p hp =>
      rw [hp] at h
      split_ifs at h with hs
      obtain ⟨hpm, hps, -⟩ := findForUpdate_fst hp
      exact .inl (shape_abortStoredValue hnd hpm hps u hs (Except.toOption_eq_some.mp h))
    next => cases h
  | addNewAbort k objectSize seqno =>
    simp only [Write.toEvent, step] at h
    split_ifs at h with hs
    cases h
    exact .inl (shape_addNewAbort u k objectSize hs)
  | visit id expired =>
    simp only [Write.toEvent, step] at h
    obtain ⟨v, hv, rfl⟩ := Option.map_eq_some_iff.mp h
    obtain ⟨hvm, hvs⟩ := htValue_spec hv
    unfold visit
    split_ifs
    · exact .inr (.inr (.inl ⟨v, hvm, hvs, rfl⟩))
    · exact .inr (.inr (.inr rfl))

/-! ## Writes a reader does not see -/

section Frame

variable {u : SeqRange} {lo back : Int}

omit [DecidableEq κ] in
/-- A write in one of the shapes, while the reader's range `[lo, back]`, up
to the high seqno, is the locked range, is not seen by the reader. -/
theorem Shape.viewOf (hw : Wf l) (ho : ReadOrder l)
    (hu : ∀ x : OrderedStoredValue κ, u.contains x.bySeqno = inRange lo back x) (hback : back ≤ l.highSeqno)
    (h : Shape u l l') : viewOf l'.seqList lo back = viewOf l.seqList lo back := by
  cases h with
  | append n hseq hhigh =>
    rw [hseq]
    exact viewOf_append (by omega)
  | move v n hv hfree hseq hhigh =>
    rw [hseq, viewOf_append (by omega)]
    rw [hu] at hfree
    refine viewOf_erase hw.ids_nodup hv hfree fun x hx hin hxv => ?_
    -- what points at `v` comes before it, and `v` is off the range
    have hlt := ho.later x hx v hv hxv
    rw [inRange_eq_true] at hin
    rw [Bool.eq_false_iff, ne_eq, inRange_eq_true] at hfree
    omega
  | replace v n hv hvs hid hseq hhigh =>
    rw [hseq, viewOf_append (n := n.setStaleReplacement true) (show back < n.bySeqno by omega)]
    refine viewOf_modify (f := markStale (some n.id)) (fun _ _ _ => ⟨rfl, rfl⟩) fun a ha hav _ => ?_
    -- `v` now points at the new value, which the list does not hold yet
    rw [List.inj_on_of_nodup_map hw.ids_nodup ha hv hav]
    have hfresh : ListIter.find OrderedStoredValue.id l.seqList n.id = none := by
      rw [ListIter.find, List.find?_eq_none]
      intro b hb
      rw [hid]
      simpa using freshId_ne hb
    simp [skippedIn, getReplacementIfStale_of_live hvs, hfresh]

/-- A front-end write while the reader's range is the locked range is not
seen by the reader. -/
theorem viewOf_write (hw : Wf l) (ho : ReadOrder l)
    (hu : ∀ x : OrderedStoredValue κ, u.contains x.bySeqno = inRange lo back x) (hback : back ≤ l.highSeqno)
    {w : Write κ} (h : step l (w.toEvent u l) = some l') : viewOf l'.seqList lo back = viewOf l.seqList lo back := by
  rcases lockedStep_cases hw h with hs | ⟨l₁, p, hs, hw₁, hp, rfl⟩ | ⟨v, hv, hvs, rfl⟩ | rfl
  · exact hs.viewOf hw ho hu hback
  · rw [viewOf_updateValue_committed hw₁.ids_nodup hp, hs.viewOf hw ho hu hback]
  · exact viewOf_markItemStale_none hw.ids_nodup hv hvs lo back
  · rfl

end Frame

end EphemeralVBucket

end KvEngine.Ephemeral
