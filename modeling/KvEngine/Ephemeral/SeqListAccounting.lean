import Mathlib
import KvEngine.Ephemeral.SeqListWf

/-!
# The counters of the sequence list

`BasicLinkedList` keeps four counters beside the list instead of walking it:
`numStaleItems`, `staleSize` and `staleMetaDataSize` of its stale values, and
`numDeletedItems` of its deleted values. `Accounting` says each equals what
it counts in the list (`Counter.recount`).

- `Accounting.step`: a step keeps `Accounting` unless it aborts a deleted
  prepare, or purges with a callback that drops a live value.
  `accounting_of_reachable_clean` gives `Accounting` over every run of such
  steps (`cleanSystem`).
- `staleBound_of_reachable`: over every run, with no restriction, the stale
  counters never fall below what they count, so the subtractions of
  `purgeListElem` never go below zero.
-/

namespace KvEngine.Ephemeral

open OrderedStoredValue

namespace Counter

variable {κ : Type}

/-- Whether a value counts towards the counter: the stale values for the
first three, the deleted ones for `numDeletedItems`. -/
def counts : Counter → OrderedStoredValue κ → Bool
  | .numDeletedItems, o => o.deleted
  | _, o => o.stale

/-- What a counted value adds: one, its `size()` or its `metaDataSize()`. -/
def weight : Counter → OrderedStoredValue κ → Nat
  | .staleSize, o => o.size
  | .staleMetaDataSize, o => o.metaDataSize
  | _, _ => 1

/-- The share of one value in the counter. -/
def part (c : Counter) (o : OrderedStoredValue κ) : Nat := if c.counts o then c.weight o else 0

/-- The counter recomputed over a list of values. -/
def recount (c : Counter) (xs : List (OrderedStoredValue κ)) : Nat := ListIter.tally c.counts c.weight xs

/-- A live value counts for its deleted bit only. -/
theorem part_of_live (c : Counter) {o : OrderedStoredValue κ} (h : o.stale = false) :
    c.part o = c.deletedShare o.deleted := by
  cases c <;> cases hd : o.deleted <;> simp [part, counts, weight, deletedShare, h, hd]

/-- A value marked stale counts for its deleted bit and its stale share. -/
theorem part_markStale (c : Counter) (n : Option Nat) (o : OrderedStoredValue κ) :
    c.part (o.markStale n) = c.deletedShare o.deleted + c.staleShare o := by
  cases c <;> cases hd : o.deleted <;>
    simp [part, counts, weight, deletedShare, staleShare, markStale, OrderedStoredValue.size,
      OrderedStoredValue.metaDataSize, hd]

/-- A stale value counts for its deleted bit and its stale share. -/
theorem part_of_stale (c : Counter) {o : OrderedStoredValue κ} (h : o.stale = true) :
    c.part o = c.deletedShare o.deleted + c.staleShare o := by
  cases c <;> cases hd : o.deleted <;> simp [part, counts, weight, deletedShare, staleShare, h, hd]

@[simp] theorem recount_nil (c : Counter) : c.recount ([] : List (OrderedStoredValue κ)) = 0 := rfl

theorem recount_cons (c : Counter) (o : OrderedStoredValue κ) (xs : List (OrderedStoredValue κ)) :
    c.recount (o :: xs) = c.part o + c.recount xs :=
  ListIter.tally_cons o xs

theorem recount_append (c : Counter) (xs ys : List (OrderedStoredValue κ)) :
    c.recount (xs ++ ys) = c.recount xs + c.recount ys :=
  ListIter.tally_append xs ys

theorem recount_singleton (c : Counter) (o : OrderedStoredValue κ) : c.recount [o] = c.part o := by
  rw [recount_cons, recount_nil, Nat.add_zero]

/-- The counters do not read the stale-replacement bit nor the committed
state. -/
theorem recount_modify_of_forall (c : Counter) {f : OrderedStoredValue κ → OrderedStoredValue κ}
    (hstale : ∀ o, (f o).stale = o.stale) (hdel : ∀ o, (f o).deleted = o.deleted) (hsize : ∀ o, (f o).size = o.size)
    (hmeta : ∀ o, (f o).metaDataSize = o.metaDataSize) (xs : List (OrderedStoredValue κ)) (k : Nat) :
    c.recount (ListIter.modify OrderedStoredValue.id xs k f) = c.recount xs := by
  refine ListIter.tally_modify_of_forall (fun o => ?_) (fun o => ?_) xs
  · cases c <;> simp only [counts, hstale, hdel]
  · cases c <;> simp only [weight, hsize, hmeta]

/-- Updating a value in place, in a list with distinct addresses, changes a
counter by its share. -/
theorem recount_modify (c : Counter) {xs : List (OrderedStoredValue κ)} {o : OrderedStoredValue κ}
    (hnd : (xs.map OrderedStoredValue.id).Nodup) (ho : o ∈ xs) (f : OrderedStoredValue κ → OrderedStoredValue κ) :
    c.recount (ListIter.modify OrderedStoredValue.id xs o.id f) + c.part o = c.recount xs + c.part (f o) :=
  ListIter.tally_modify hnd ho f

theorem recount_erase (c : Counter) {xs : List (OrderedStoredValue κ)} {o : OrderedStoredValue κ}
    (hnd : (xs.map OrderedStoredValue.id).Nodup) (ho : o ∈ xs) :
    c.recount xs = c.part o + c.recount (ListIter.erase OrderedStoredValue.id xs o.id) :=
  ListIter.tally_eq_erase hnd ho

end Counter

namespace BasicLinkedList

variable {κ : Type} {l l' : BasicLinkedList κ}

/-- Every counter equals what it counts in the list. -/
def Accounting (l : BasicLinkedList κ) : Prop := ∀ c, l.counter c = c.recount l.seqList

/-- The stale counters are at least what they count in the list. -/
def StaleBound (l : BasicLinkedList κ) : Prop :=
  ∀ c, c ≠ .numDeletedItems → c.recount l.seqList ≤ l.counter c

theorem empty_accounting : Accounting (empty : BasicLinkedList κ) := by
  intro c
  cases c <;> rfl

theorem Accounting.staleBound (ha : Accounting l) : StaleBound l :=
  fun c _ => le_of_eq (ha c).symm

/-- A value of the list is counted: its share is at most the counter. -/
theorem part_le_recount {c : Counter} (hnd : l.ids.Nodup) {o : OrderedStoredValue κ} (ho : o ∈ l.seqList) :
    c.part o ≤ c.recount l.seqList := by
  rw [c.recount_erase hnd ho]
  omega

theorem counter_updateNumDeletedItems_false (d : Bool) (c : Counter) :
    (l.updateNumDeletedItems false d).counter c = l.counter c + c.deletedShare d := by
  rw [updateNumDeletedItems_eq]
  cases c <;> cases d <;> rfl

/-- `updateNumDeletedItems` moves `numDeletedItems` from the old bit to the
new one, when a deleted old value is counted. -/
theorem counter_updateNumDeletedItems (a b : Bool) (h : a = true → 1 ≤ l.numDeletedItems) (c : Counter) :
    (l.updateNumDeletedItems a b).counter c + c.deletedShare a = l.counter c + c.deletedShare b := by
  rw [updateNumDeletedItems_eq]
  cases a <;> cases b
  case true.false =>
    have h1 := h rfl
    cases c
    case numDeletedItems =>
      simp [counter, Counter.deletedShare]
      omega
    all_goals rfl
  all_goals cases c <;> rfl

/-- Completing a prepare in place changes no recount. -/
theorem recount_updateValue_committed (hnd : l.ids.Nodup) {p : OrderedStoredValue κ} (hp : p ∈ l.seqList)
    (cs : CommittedState) (c : Counter) :
    c.recount (l.updateValue { p with committed := cs }).seqList = c.recount l.seqList := by
  have hr := c.recount_modify hnd hp fun _ => { p with committed := cs }
  have hpart : c.part { p with committed := cs } = c.part p := by cases c <;> rfl
  rw [seqList_updateValue]
  change c.recount (ListIter.modify OrderedStoredValue.id l.seqList p.id fun _ => { p with committed := cs }) = _
  omega

/-- Releasing a live value adds its stale share to the recount, as
`markItemStale` adds it to the counter. -/
theorem recount_markItemStale_none (hnd : l.ids.Nodup) {v : OrderedStoredValue κ} (hv : v ∈ l.seqList)
    (hvs : v.stale = false) (c : Counter) :
    c.recount (l.markItemStale v none).seqList = c.recount l.seqList + c.staleShare v := by
  have hr := c.recount_modify hnd hv (markStale none)
  rw [c.part_of_live hvs, c.part_markStale _ v] at hr
  rw [seqList_markItemStale_none]
  omega

/-! ### The writes keep the counts -/

theorem Accounting.written (ha : Accounting l) (hw : Wf l) (h : Written l l' true) : Accounting l' := by
  intro c
  cases h with
  | append n _ hstale _ _ hseq _ _ hcount _ =>
    rw [hcount, counter_updateNumDeletedItems_false, hseq, c.recount_append, c.recount_singleton,
      c.part_of_live hstale, ha c]
  | move v n b hv hvs _ hstale _ _ hseq _ _ hcount hkeeps =>
    have hb : b = v.deleted := by simpa using hkeeps.symm
    subst hb
    -- a deleted `v` is counted, so the decrement is exact
    have hdel : v.deleted = true → 1 ≤ l.numDeletedItems := fun hd => by
      have hle := part_le_recount (c := .numDeletedItems) hw.ids_nodup hv
      rw [← ha .numDeletedItems, Counter.part_of_live _ hvs, hd] at hle
      exact hle
    have hc := counter_updateNumDeletedItems v.deleted n.deleted hdel c
    have hr := c.recount_erase hw.ids_nodup hv
    rw [c.part_of_live hvs] at hr
    rw [hcount, hseq, c.recount_append, c.recount_singleton, c.part_of_live hstale]
    have := ha c
    omega
  | replace v n b hv hvs _ hstale _ hseq _ _ hcount hkeeps =>
    have hb : b = false := by simpa using hkeeps.symm
    subst hb
    have hr := c.recount_modify hw.ids_nodup hv (markStale (some n.id))
    rw [c.part_of_live hvs, c.part_markStale _ v] at hr
    rw [hcount, counter_updateNumDeletedItems_false, hseq, c.recount_append, c.recount_singleton]
    have hn : c.part (n.setStaleReplacement true) = c.deletedShare n.deleted := c.part_of_live hstale
    have := ha c
    omega

theorem Accounting.updateValue_committed (ha : Accounting l) (hw : Wf l) {p : OrderedStoredValue κ}
    (hp : p ∈ l.seqList) (cs : CommittedState) : Accounting (l.updateValue { p with committed := cs }) := by
  intro c
  rw [counter_updateValue, recount_updateValue_committed hw.ids_nodup hp, ha c]

theorem Accounting.markItemStale_none (ha : Accounting l) (hw : Wf l) {v : OrderedStoredValue κ}
    (hv : v ∈ l.seqList) (hvs : v.stale = false) : Accounting (l.markItemStale v none) := by
  intro c
  rw [counter_markItemStale, recount_markItemStale_none hw.ids_nodup hv hvs, ha c]

theorem Accounting.setPausedPurgePoint (ha : Accounting l) (p : Option Nat) :
    Accounting { l with pausedPurgePoint := p } :=
  fun c => (counter_setPausedPurgePoint p c).trans (ha c)


/-! ### Purging a value -/

theorem Counter.deletedShare_of_ne {c : Counter} (hc : c ≠ .numDeletedItems) (b : Bool) : c.deletedShare b = 0 := by
  cases c
  case numDeletedItems => exact absurd rfl hc
  all_goals rfl

/-- `purgeListElem` takes the value's deleted bit off `numDeletedItems`, and
its stale share off the stale counters when the caller read it stale. -/
theorem counter_purgeListElem (it : OrderedStoredValue κ) (isStale isReplaced : Bool) (c : Counter) :
    (l.purgeListElem it isStale isReplaced).counter c =
      l.counter c - (c.deletedShare it.deleted + if isStale then c.staleShare it else 0) := by
  cases c
  case numDeletedItems =>
    show (l.purgeListElem it isStale isReplaced).numDeletedItems = _
    rw [numDeletedItems_purgeListElem]
    cases it.deleted <;> cases isStale <;> rfl
  all_goals
    rw [counter_purgeListElem_of_ne _ _ _ (by decide), Counter.deletedShare_of_ne (by decide), Nat.zero_add]
    cases isStale <;> rfl

/-- The value leaves every recount. -/
theorem recount_purgeListElem (hnd : l.ids.Nodup) {it : OrderedStoredValue κ} (hit : it ∈ l.seqList)
    (isStale isReplaced : Bool) (c : Counter) :
    c.recount (l.purgeListElem it isStale isReplaced).seqList + c.part it = c.recount l.seqList := by
  rw [c.recount_erase hnd hit, seqList_purgeListElem]
  split
  · rw [c.recount_modify_of_forall (f := setStaleReplacement false) (fun _ => rfl) (fun _ => rfl) (fun _ => rfl)
      (fun _ => rfl)]
    omega
  · omega

/-- What is in the list after a purge was there, up to the stale-replacement
bit. -/
theorem exists_of_mem_purgeListElem {it o' : OrderedStoredValue κ} {isStale isReplaced : Bool}
    (h : o' ∈ (l.purgeListElem it isStale isReplaced).seqList) :
    ∃ o ∈ l.seqList, o' = o ∨ o' = o.setStaleReplacement false := by
  rw [seqList_purgeListElem] at h
  split at h
  · obtain ⟨o, ho, heq⟩ := ListIter.exists_of_mem_modify h
    exact ⟨o, (ListIter.erase_sublist _ _).subset ho, heq⟩
  · exact ⟨o', (ListIter.erase_sublist _ _).subset h, .inl rfl⟩

/-- Purging a stale value read as stale keeps the counts exact. -/
theorem Accounting.purgeListElem_stale (ha : Accounting l) (hw : Wf l) {it : OrderedStoredValue κ}
    (hit : it ∈ l.seqList) (hs : it.stale = true) (isReplaced : Bool) :
    Accounting (l.purgeListElem it true isReplaced) := by
  intro c
  have hc := counter_purgeListElem (l := l) it true isReplaced c
  have hr := recount_purgeListElem hw.ids_nodup hit true isReplaced c
  have hle := part_le_recount (c := c) hw.ids_nodup hit
  rw [c.part_of_stale hs] at hr hle
  rw [if_pos rfl, ha c] at hc
  omega

/-! ### The stale counters never fall below what they count -/

/-- A write moves each stale counter by what it moves the recount, whatever
the deleted bits: the stale counters never see them. -/
theorem counter_add_recount_of_written {keepsCount : Bool} (hw : Wf l) (h : Written l l' keepsCount) {c : Counter}
    (hc : c ≠ .numDeletedItems) : l'.counter c + c.recount l.seqList = l.counter c + c.recount l'.seqList := by
  have hd := Counter.deletedShare_of_ne hc
  cases h with
  | append n _ hstale _ _ hseq _ _ hcount _ =>
    rw [hcount, counter_updateNumDeletedItems_of_ne _ _ hc, hseq, c.recount_append, c.recount_singleton,
      c.part_of_live hstale, hd, Nat.add_zero]
  | move v n b hv hvs _ hstale _ _ hseq _ _ hcount _ =>
    have hr := c.recount_erase hw.ids_nodup hv
    rw [c.part_of_live hvs, hd, Nat.zero_add] at hr
    rw [hcount, counter_updateNumDeletedItems_of_ne _ _ hc, hseq, c.recount_append, c.recount_singleton,
      c.part_of_live hstale, hd, Nat.add_zero, ← hr]
  | replace v n b hv hvs _ hstale _ hseq _ _ hcount _ =>
    -- `v` stays, now stale: the counter and the recount both gain its share
    have hr := c.recount_modify hw.ids_nodup hv (markStale (some n.id))
    rw [c.part_of_live hvs, c.part_markStale _ v, hd, Nat.zero_add] at hr
    have hn : c.part (n.setStaleReplacement true) = 0 :=
      (c.part_of_live (o := n.setStaleReplacement true) hstale).trans (hd _)
    rw [hcount, counter_updateNumDeletedItems_of_ne _ _ hc, hseq, c.recount_append, c.recount_singleton, hn]
    omega

theorem StaleBound.written {keepsCount : Bool} (hb : StaleBound l) (hw : Wf l) (h : Written l l' keepsCount) :
    StaleBound l' := by
  intro c hc
  have hmove := counter_add_recount_of_written hw h hc
  have := hb c hc
  omega

theorem StaleBound.updateValue_committed (hb : StaleBound l) (hw : Wf l) {p : OrderedStoredValue κ}
    (hp : p ∈ l.seqList) (cs : CommittedState) : StaleBound (l.updateValue { p with committed := cs }) := by
  intro c hc
  rw [counter_updateValue, recount_updateValue_committed hw.ids_nodup hp]
  exact hb c hc

theorem StaleBound.markItemStale_none (hb : StaleBound l) (hw : Wf l) {v : OrderedStoredValue κ}
    (hv : v ∈ l.seqList) (hvs : v.stale = false) : StaleBound (l.markItemStale v none) := by
  intro c hc
  rw [counter_markItemStale, recount_markItemStale_none hw.ids_nodup hv hvs]
  exact Nat.add_le_add_right (hb c hc) _

/-- Purging a value takes off the stale counters at most what it counted,
whether or not the caller read it stale. -/
theorem StaleBound.purgeListElem (hb : StaleBound l) (hw : Wf l) {it : OrderedStoredValue κ}
    (hit : it ∈ l.seqList) {isStale : Bool} (hs : isStale = true → it.stale = true) (isReplaced : Bool) :
    StaleBound (l.purgeListElem it isStale isReplaced) := by
  intro c hc
  have hcnt := counter_purgeListElem (l := l) it isStale isReplaced c
  have hr := recount_purgeListElem hw.ids_nodup hit isStale isReplaced c
  have hle := hb c hc
  rw [Counter.deletedShare_of_ne hc, Nat.zero_add] at hcnt
  cases isStale with
  | false =>
    rw [if_neg (by decide), Nat.sub_zero] at hcnt
    omega
  | true =>
    have hpart := c.part_of_stale (hs rfl)
    rw [Counter.deletedShare_of_ne hc, Nat.zero_add] at hpart
    have hin := part_le_recount (c := c) hw.ids_nodup hit
    rw [if_pos rfl] at hcnt
    omega

theorem StaleBound.setPausedPurgePoint (hb : StaleBound l) (p : Option Nat) :
    StaleBound { l with pausedPurgePoint := p } :=
  fun c hc => (hb c hc).trans_eq (counter_setPausedPurgePoint p c).symm


end BasicLinkedList

namespace EphemeralVBucket

variable {κ : Type} [DecidableEq κ]

/-- The steps that keep the counters exact: an abort of a prepare that is not
deleted, and a purge whose callback finds no live value's key logically
deleted. -/
def Event.Clean (l : BasicLinkedList κ) : Event κ → Prop
  | .abortStoredValue k _ _ => ∀ p, (findForUpdate k l).1 = some p → p.deleted = false
  | .purgeStaleItems isKeyLogicallyDeleted _ _ =>
    ∀ o ∈ l.seqList, o.stale = false → isKeyLogicallyDeleted o.key o.bySeqno = false
  | _ => True

/-- The list's system restricted to the steps that keep the counters exact. -/
def cleanSystem : TransitionSystem (BasicLinkedList κ) (Event κ) where
  init l := l = BasicLinkedList.empty
  next l e l' := step l e = some l' ∧ e.Clean l

end EphemeralVBucket

namespace BasicLinkedList

variable {κ : Type} {l l' : BasicLinkedList κ}

/-! ### Every step -/

open EphemeralVBucket

variable [DecidableEq κ]

theorem StaleBound.dropKey (hb : StaleBound l) (hw : Wf l) (k : κ) : StaleBound (EphemeralVBucket.dropKey k l) :=
  (dropKey_induction (fun l₁ => Wf l₁ ∧ StaleBound l₁) (fun _ h => h.1.ids_nodup) (k := k)
    (fun _ v h hv hvs _ => ⟨h.1.markItemStale v none, h.2.markItemStale_none h.1 hv hvs⟩) ⟨hw, hb⟩).2

theorem StaleBound.purgeStaleItems (hb : StaleBound l) (hw : Wf l) {f : κ → Int → Bool}
    {shouldPause : Nat → Bool} {lockedEnd : Option Int} {n : Nat}
    (h : EphemeralVBucket.purgeStaleItems f shouldPause lockedEnd l = .ok (n, l')) : StaleBound l' := by
  refine (purgeStaleItems_wf_induction (fun _ l₁ => StaleBound l₁) (fun _ _ p h₁ => h₁.setPausedPurgePoint p)
    ?_ hw hb h).2.2
  intro _ l₁ it hw₁ hb₁ hit _
  rcases purgeOne_cases hw₁.ids_nodup hit with hres | ⟨hs, -, hres⟩ | ⟨-, -, hres⟩ |
    ⟨-, -, -, cur, hcur, -, hres⟩ <;> rw [hres] <;> dsimp only
  · exact hb₁
  · exact hb₁.purgeListElem hw₁ hit (fun _ => hs) _
  · exact hb₁.dropKey hw₁ _
  · -- a value dropped by the callback is purged as read before it: not stale
    exact (hb₁.dropKey hw₁ _).purgeListElem (hw₁.dropKey _) hcur (fun h => absurd h (by decide)) _

theorem StaleBound.step (hb : StaleBound l) (hw : Wf l) {e : Event κ}
    (h : EphemeralVBucket.step l e = some l') : StaleBound l' := by
  rcases step_cases hw.ids_nodup h with hwr | ⟨_, _, _, _, -, -, hwr⟩ | ⟨l₁, p, hwr, hp, -, rfl⟩ |
    ⟨v, hv, hvs, rfl⟩ | rfl | ⟨_, _, _, _, -, hpurge⟩
  · exact hb.written hw hwr
  · exact hb.written hw hwr
  · exact (hb.written hw hwr).updateValue_committed (hw.written hwr) hp _
  · exact hb.markItemStale_none hw hv hvs
  · exact hb
  · exact hb.purgeStaleItems hw hpurge

/-- A purge whose callback drops no live value keeps the counts exact: it
purges stale values only, read as stale. -/
theorem Accounting.purgeStaleItems_clean (ha : Accounting l) (hw : Wf l) {f : κ → Int → Bool}
    (hclean : ∀ o ∈ l.seqList, o.stale = false → f o.key o.bySeqno = false) {shouldPause : Nat → Bool}
    {lockedEnd : Option Int} {n : Nat} (h : EphemeralVBucket.purgeStaleItems f shouldPause lockedEnd l = .ok (n, l')) :
    Accounting l' := by
  -- the callback's answer stays clean: what stays keeps its key, seqno and stale bit
  let P : Nat → BasicLinkedList κ → Prop := fun _ l₁ => Accounting l₁ ∧
    ∀ o ∈ l₁.seqList, o.stale = false → f o.key o.bySeqno = false
  refine (purgeStaleItems_wf_induction P (fun _ _ p h₁ => ⟨h₁.1.setPausedPurgePoint p, h₁.2⟩) ?_ hw ⟨ha, hclean⟩
    h).2.2.1
  rintro _ l₁ it hw₁ ⟨ha₁, hclean₁⟩ hit -
  rcases purgeOne_cases hw₁.ids_nodup hit with hres | ⟨hs, -, hres⟩ | ⟨hs, hf, -⟩ | ⟨hs, hf, -⟩
  · rw [hres]
    exact ⟨ha₁, hclean₁⟩
  · rw [hres]
    refine ⟨ha₁.purgeListElem_stale hw₁ hit hs _, fun o' ho' hlive => ?_⟩
    obtain ⟨o, ho, heq | heq⟩ := exists_of_mem_purgeListElem ho'
    all_goals
      rw [heq] at hlive ⊢
      exact hclean₁ o ho hlive
  · exact absurd hf (by rw [hclean₁ it hit hs]; decide)
  · exact absurd hf (by rw [hclean₁ it hit hs]; decide)

theorem Accounting.step (ha : Accounting l) (hw : Wf l) {e : Event κ} (hclean : e.Clean l)
    (h : EphemeralVBucket.step l e = some l') : Accounting l' := by
  rcases step_cases hw.ids_nodup h with hwr | ⟨k, rc, seqno, p, rfl, hp, hwr⟩ | ⟨l₁, p, hwr, hp, -, rfl⟩ |
    ⟨v, hv, hvs, rfl⟩ | rfl | ⟨f, shouldPause, lockedEnd, n, rfl, hpurge⟩
  · exact ha.written hw hwr
  · -- the prepare aborted is not deleted
    have hpd : p.deleted = false := hclean p hp
    rw [hpd] at hwr
    exact ha.written hw hwr
  · exact (ha.written hw hwr).updateValue_committed (hw.written hwr) hp _
  · exact ha.markItemStale_none hw hv hvs
  · exact ha
  · exact ha.purgeStaleItems_clean hw hclean hpurge

end BasicLinkedList

namespace EphemeralVBucket

open BasicLinkedList

section Abort

variable {κ : Type} {l l' : BasicLinkedList κ}

/-! ### An abort of a deleted prepare -/

theorem counter_updateSeqListPostAbort_none (n : OrderedStoredValue κ) (L : BasicLinkedList κ) (c : Counter) :
    (updateSeqListPostAbort none n L).counter c = L.counter c + c.deletedShare n.deleted := by
  show ((L.updateNumDeletedItems false n.deleted).updateHighSeqno n).counter c = _
  rw [counter_updateHighSeqno]
  exact counter_updateNumDeletedItems_false n.deleted c

theorem counter_updateSeqListPostAbort_some {o n : OrderedStoredValue κ} (hd : o.deleted = n.deleted)
    (L : BasicLinkedList κ) (c : Counter) : (updateSeqListPostAbort (some o) n L).counter c = L.counter c := by
  show ((L.updateNumDeletedItems o.deleted n.deleted).updateHighSeqno n).counter c = _
  rw [counter_updateHighSeqno, hd, updateNumDeletedItems_self]

@[simp] theorem seqList_updateSeqListPostAbort (o : Option (OrderedStoredValue κ)) (n : OrderedStoredValue κ)
    (L : BasicLinkedList κ) : (updateSeqListPostAbort o n L).seqList = L.seqList := by
  simp [updateSeqListPostAbort]

/-- An abort in place: `updateSeqListPostAbort` is told there is no old value
and counts the prepare's deleted bit again, while the list holds the same
deleted values. -/
theorem abortStoredValue_inPlace_deleted (hnd : l.ids.Nodup) {p : OrderedStoredValue κ} (hp : p ∈ l.seqList)
    (hps : p.stale = false) {seqno : Int} (h : abortStoredValue p false seqno l = .ok l') :
    l'.numDeletedItems = l.numDeletedItems + Counter.numDeletedItems.deletedShare p.deleted ∧
      Counter.numDeletedItems.recount l'.seqList = Counter.numDeletedItems.recount l.seqList := by
  unfold abortStoredValue at h
  split at h
  · cases h
  simp only [updateListElem_false] at h
  cases h
  let n : OrderedStoredValue κ := { p with bySeqno := seqno, committed := .prepareAborted }
  refine ⟨?_, ?_⟩
  · show (updateSeqListPostAbort none n _).counter .numDeletedItems = _
    rw [counter_updateSeqListPostAbort_none, counter_updateValue]
    rfl
  · rw [seqList_updateSeqListPostAbort, seqList_updateValue]
    dsimp only
    rw [seqList_updateValue_moved (v := p) (n := n) hnd rfl]
    have hr := Counter.numDeletedItems.recount_erase hnd hp
    have hn : Counter.numDeletedItems.part n = Counter.numDeletedItems.part p := by
      rw [Counter.part_of_live _ hps, Counter.part_of_live (o := n) _ hps]
    rw [Counter.recount_append, Counter.recount_singleton, hn, hr]
    omega

/-- An abort in a locked range: the copy appended as the abort counts from
the prepare's deleted bit, so is never counted, while the list holds one
value more with that bit. -/
theorem abortStoredValue_locked_deleted (hnd : l.ids.Nodup) {p : OrderedStoredValue κ} (hp : p ∈ l.seqList)
    (hps : p.stale = false) {seqno : Int} (h : abortStoredValue p true seqno l = .ok l') :
    l'.numDeletedItems = l.numDeletedItems ∧
      Counter.numDeletedItems.recount l'.seqList =
        Counter.numDeletedItems.recount l.seqList + Counter.numDeletedItems.deletedShare p.deleted := by
  unfold abortStoredValue at h
  split at h
  · cases h
  simp only [updateListElem_true] at h
  cases h
  let n : OrderedStoredValue κ := { replaceByCopy p l with bySeqno := seqno, committed := .prepareAborted }
  have hd : p.deleted = n.deleted := rfl
  refine ⟨?_, ?_⟩
  · show ((updateSeqListPostAbort (some p) n _).markItemStale p (some n.id)).counter .numDeletedItems = _
    rw [counter_markItemStale, counter_updateSeqListPostAbort_some hd, counter_updateValue, counter_appendToList]
    rfl
  · have hpn : p.id ≠ l.freshId := freshId_ne hp
    have hseq : ((updateSeqListPostAbort (some p) n ((l.appendToList (replaceByCopy p l)).updateValue n)).markItemStale p
        (some n.id)).seqList = ListIter.modify OrderedStoredValue.id l.seqList p.id (markStale (some n.id)) ++
          [n.setStaleReplacement true] := by
      refine seqList_markItemStale_append (v := p) (n := n) ?_ freshId_not_mem hpn
      rw [seqList_updateSeqListPostAbort, seqList_updateValue, seqList_appendToList]
      exact seqList_updateValue_appended (n := n) (a := replaceByCopy p l) rfl rfl
    rw [hseq]
    have hr := Counter.numDeletedItems.recount_modify hnd hp (markStale (some n.id))
    rw [Counter.part_of_live _ hps, Counter.part_markStale] at hr
    have hn : Counter.numDeletedItems.part (n.setStaleReplacement true) = Counter.numDeletedItems.deletedShare p.deleted :=
      Counter.part_of_live (o := n.setStaleReplacement true) _ hps
    rw [Counter.recount_append, Counter.recount_singleton, hn]
    have hs : Counter.numDeletedItems.staleShare p = 0 := rfl
    omega

end Abort

variable {κ : Type} [DecidableEq κ] {l l' : BasicLinkedList κ}

/-- An abort of a deleted prepare, the prepare of a SyncDelete, puts
`numDeletedItems` off by one while the stale counters stay exact: in place it
counts the prepare a second time, and in a locked range it never counts the
deleted copy that replaces it. -/
theorem abortStoredValue_numDeletedItems_drift (ha : Accounting l) (hw : Wf l) {k : κ} {p : OrderedStoredValue κ}
    (hp : (findForUpdate k l).1 = some p) (hpd : p.deleted = true) {rangeContains : Bool} {seqno : Int}
    (h : step l (.abortStoredValue k rangeContains seqno) = some l') :
    (∀ c, c ≠ .numDeletedItems → l'.counter c = c.recount l'.seqList) ∧
    (rangeContains = false → l'.numDeletedItems = Counter.numDeletedItems.recount l'.seqList + 1) ∧
    (rangeContains = true → l'.numDeletedItems + 1 = Counter.numDeletedItems.recount l'.seqList) := by
  obtain ⟨hpm, hps, -⟩ := findForUpdate_fst hp
  simp only [step, hp] at h
  split_ifs at h with hs
  have hab := Except.toOption_eq_some.mp h
  have hcount : l.numDeletedItems = Counter.numDeletedItems.recount l.seqList := ha .numDeletedItems
  have hone : Counter.numDeletedItems.deletedShare p.deleted = 1 := by rw [hpd]; rfl
  refine ⟨fun c hc => ?_, fun hrc => ?_, fun hrc => ?_⟩
  · -- the stale counters move with their recounts
    have hmove := counter_add_recount_of_written hw (written_abortStoredValue hw.ids_nodup hpm hps hs hab) hc
    have := ha c
    omega
  · subst hrc
    obtain ⟨hc, hr⟩ := abortStoredValue_inPlace_deleted hw.ids_nodup hpm hps hab
    omega
  · subst hrc
    obtain ⟨hc, hr⟩ := abortStoredValue_locked_deleted hw.ids_nodup hpm hps hab
    omega

/-- The prepare of a SyncDelete, added at seqno 1. -/
def syncDeletePrepared : BasicLinkedList Nat := addNewStoredValue ⟨0, 1, true, .pending, 0⟩ 1 BasicLinkedList.empty

/-- `syncDeletePrepared` aborted in place at seqno 2. -/
def syncDeleteAborted : BasicLinkedList Nat :=
  (step syncDeletePrepared (.abortStoredValue 0 false 2)).getD syncDeletePrepared

theorem abortStoredValue_numDeletedItems_drift_syncDelete :
    (Accounting syncDeletePrepared ∧ Wf syncDeletePrepared ∧
      step syncDeletePrepared (.abortStoredValue 0 false 2) = some syncDeleteAborted) ∧
    syncDeleteAborted.numDeletedItems = Counter.numDeletedItems.recount syncDeleteAborted.seqList + 1 :=
  have hw : Wf syncDeletePrepared := empty_wf.written (written_addNewStoredValue _ (by decide))
  have ha : Accounting syncDeletePrepared := empty_accounting.written empty_wf (written_addNewStoredValue _ (by decide))
  have hs : step syncDeletePrepared (.abortStoredValue 0 false 2) = some syncDeleteAborted := rfl
  ⟨⟨ha, hw, hs⟩, (abortStoredValue_numDeletedItems_drift ha hw
    (p := (⟨0, 1, true, .pending, 0⟩ : Item Nat).toStoredValue 1 1) rfl rfl hs).2.1 rfl⟩

/-- Over every run in which no abort hits a deleted prepare and no purge
finds a live value's key logically deleted, each of the four counters equals
what it counts in the list. -/
theorem accounting_of_reachable_clean (h : cleanSystem.Reachable l) : Accounting l := by
  have hboth : Wf l ∧ Accounting l :=
    TransitionSystem.Reachable.invariant (T := cleanSystem) (I := fun l => Wf l ∧ Accounting l)
      (fun _ h₀ => h₀ ▸ ⟨empty_wf, empty_accounting⟩)
      (fun _ _ _ _ hi hn => ⟨hi.1.step hn.1, hi.2.step hi.1 hn.2 hn.1⟩) h
  exact hboth.2

theorem accounting_of_reachable_clean_staleChain : cleanSystem.Reachable staleChain ∧ Accounting staleChain :=
  have h : cleanSystem.Reachable staleChain :=
    .step (.step (.init rfl) (a := .addNewStoredValue ⟨0, 1, false, .committedViaMutation, 3⟩ 1) ⟨rfl, trivial⟩)
      (a := .updateStoredValue 1 ⟨0, 1, false, .committedViaMutation, 4⟩ true 2) ⟨rfl, trivial⟩
  ⟨h, accounting_of_reachable_clean h⟩

/-- Over every run, with no restriction on the steps, the stale counters are
at least the count and the total sizes of the stale values in the list: the
subtractions of a purge never go below zero. -/
theorem staleBound_of_reachable (h : seqListSystem.Reachable l) : StaleBound l := by
  have hboth : Wf l ∧ StaleBound l :=
    TransitionSystem.Reachable.invariant (T := seqListSystem) (I := fun l => Wf l ∧ StaleBound l)
      (fun _ h₀ => h₀ ▸ ⟨empty_wf, empty_accounting.staleBound⟩)
      (fun _ _ _ _ hi hn => ⟨hi.1.step hn, hi.2.step hi.1 hn⟩) h
  exact hboth.2

theorem staleBound_of_reachable_staleChain : seqListSystem.Reachable staleChain ∧ StaleBound staleChain :=
  ⟨reachable_staleChain, staleBound_of_reachable reachable_staleChain⟩

end EphemeralVBucket

end KvEngine.Ephemeral
