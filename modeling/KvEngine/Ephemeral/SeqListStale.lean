import Mathlib
import KvEngine.Ephemeral.SeqListWf

/-!
# Stale values and their replacements

A value that a range read still needs stays in the list when the hash table
replaces it: `markStale` points it at its replacement and sets the
replacement's stale-replacement bit, and the destructor of the stale value,
run when the purger frees it, clears that bit through the pointer. The purger
never frees a value with the bit set. The pointer is therefore dereferenced
after the value it points at may have been freed unless the bit is exact.

`Replacements` says it is: a live value points nowhere, each value is the
replacement of at most one stale value, every replacement pointer leads to a
value of the list with the bit set, and a value with the bit set is pointed
at. `reachable_replacements` proves it of every state the list reaches: no
replacement pointer dangles, and clearing the bit through it is always a write
to a value of the list.
-/

namespace KvEngine.Ephemeral

open OrderedStoredValue

namespace BasicLinkedList

variable {κ : Type} {l l' : BasicLinkedList κ}

/-- The replacement pointers of the stale values of a list. -/
def replacementIds (xs : List (OrderedStoredValue κ)) : List Nat := xs.filterMap OrderedStoredValue.replacement

theorem mem_replacementIds {xs : List (OrderedStoredValue κ)} {r : Nat} :
    r ∈ replacementIds xs ↔ ∃ o ∈ xs, o.replacement = some r :=
  List.mem_filterMap

@[simp] theorem replacementIds_append (xs ys : List (OrderedStoredValue κ)) :
    replacementIds (xs ++ ys) = replacementIds xs ++ replacementIds ys :=
  List.filterMap_append

theorem replacementIds_singleton_of_none {o : OrderedStoredValue κ} (h : o.replacement = none) :
    replacementIds [o] = [] := by
  simp [replacementIds, h]

theorem replacementIds_perm {xs ys : List (OrderedStoredValue κ)} (h : xs.Perm ys) :
    (replacementIds xs).Perm (replacementIds ys) :=
  h.filterMap _

theorem replacementIds_cons (o : OrderedStoredValue κ) (xs : List (OrderedStoredValue κ)) :
    replacementIds (o :: xs) = o.replacement.toList ++ replacementIds xs := by
  cases h : o.replacement <;> simp [replacementIds, h]

/-- Updating values in place without touching their pointers. -/
theorem replacementIds_modify {xs : List (OrderedStoredValue κ)} {k : Nat}
    {f : OrderedStoredValue κ → OrderedStoredValue κ} (hf : ∀ a ∈ xs, a.id = k → (f a).replacement = a.replacement) :
    replacementIds (ListIter.modify OrderedStoredValue.id xs k f) = replacementIds xs := by
  unfold replacementIds ListIter.modify
  rw [List.filterMap_map]
  refine List.filterMap_congr fun a ha => ?_
  by_cases hk : a.id = k
  · simp only [Function.comp_apply, if_pos hk, hf a ha hk]
  · simp only [Function.comp_apply, if_neg hk]

/-- The replacement pointers are exact: a live value points nowhere; each
value is the replacement of at most one stale value; every pointer leads to a
value of the list that has its stale-replacement bit set; and a value with the
bit set is pointed at. -/
structure Replacements (l : BasicLinkedList κ) : Prop where
  live_unreplaced : ∀ o ∈ l.seqList, o.stale = false → o.replacement = none
  pointers_nodup : (replacementIds l.seqList).Nodup
  target_mem : ∀ r ∈ replacementIds l.seqList, ∃ o ∈ l.seqList, o.id = r ∧ o.staleReplacement = true
  flagged_pointed : ∀ o ∈ l.seqList, o.staleReplacement = true → o.id ∈ replacementIds l.seqList

theorem empty_replacements : Replacements (empty : BasicLinkedList κ) where
  live_unreplaced _ h := absurd h List.not_mem_nil
  pointers_nodup := List.nodup_nil
  target_mem _ h := absurd h List.not_mem_nil
  flagged_pointed _ h := absurd h List.not_mem_nil

/-- A step that keeps the pointers, keeps every value with the bit set (at its
address) and sets the bit on no other value keeps `Replacements`. -/
theorem Replacements.of_frame (hr : Replacements l)
    (hids : (replacementIds l'.seqList).Perm (replacementIds l.seqList))
    (hlive : ∀ o' ∈ l'.seqList, o'.stale = false → o'.replacement = none)
    (hkeep : ∀ o ∈ l.seqList, o.staleReplacement = true →
      ∃ o' ∈ l'.seqList, o'.id = o.id ∧ o'.staleReplacement = true)
    (hnew : ∀ o' ∈ l'.seqList, o'.staleReplacement = true →
      ∃ o ∈ l.seqList, o.id = o'.id ∧ o.staleReplacement = true) : Replacements l' := by
  constructor
  · exact hlive
  · exact hids.nodup_iff.mpr hr.pointers_nodup
  · intro r hrm
    obtain ⟨o, ho, hid, hflag⟩ := hr.target_mem r (hids.mem_iff.mp hrm)
    obtain ⟨o', ho', hid', hflag'⟩ := hkeep o ho hflag
    exact ⟨o', ho', hid'.trans hid, hflag'⟩
  · intro o' ho' hflag'
    obtain ⟨o, ho, hid, hflag⟩ := hnew o' ho' hflag'
    rw [← hid]
    exact hids.mem_iff.mpr (hr.flagged_pointed o ho hflag)

/-- Erasing a value that points nowhere keeps the pointers. -/
theorem replacementIds_erase_perm {xs : List (OrderedStoredValue κ)} {v : OrderedStoredValue κ}
    (hnd : (xs.map OrderedStoredValue.id).Nodup) (hv : v ∈ xs) (hnone : v.replacement = none) :
    (replacementIds (ListIter.erase OrderedStoredValue.id xs v.id)).Perm (replacementIds xs) := by
  have hperm := replacementIds_perm (ListIter.perm_cons_erase hnd hv)
  rw [replacementIds_cons, hnone] at hperm
  exact hperm.symm


/-! ### Each shape of a write -/

theorem Replacements.written {keepsCount : Bool} (hr : Replacements l) (hw : Wf l) (h : Written l l' keepsCount) :
    Replacements l' := by
  cases h with
  | append n _ _ hrepl hsr hseq _ _ _ _ =>
    refine hr.of_frame ?_ ?_ ?_ ?_
    · rw [hseq, replacementIds_append, replacementIds_singleton_of_none hrepl, List.append_nil]
    · intro o' ho' hlive
      rw [hseq, List.mem_append, List.mem_singleton] at ho'
      rcases ho' with ho' | rfl
      · exact hr.live_unreplaced o' ho' hlive
      · exact hrepl
    · intro o ho hflag
      exact ⟨o, by rw [hseq]; exact List.mem_append_left _ ho, rfl, hflag⟩
    · intro o' ho' hflag'
      rw [hseq, List.mem_append, List.mem_singleton] at ho'
      rcases ho' with ho' | rfl
      · exact ⟨o', ho', rfl, hflag'⟩
      · rw [hsr] at hflag'
        cases hflag'
  | move v n _ hv hvs hid _ hrepl hsr hseq _ _ _ _ =>
    have hvnone : v.replacement = none := hr.live_unreplaced v hv hvs
    refine hr.of_frame ?_ ?_ ?_ ?_
    · rw [hseq, replacementIds_append, replacementIds_singleton_of_none (hrepl.trans hvnone), List.append_nil]
      exact replacementIds_erase_perm hw.ids_nodup hv hvnone
    · intro o' ho' hlive
      rw [hseq, List.mem_append, List.mem_singleton] at ho'
      rcases ho' with ho' | rfl
      · exact hr.live_unreplaced o' ((ListIter.erase_sublist _ _).subset ho') hlive
      · exact hrepl.trans hvnone
    · -- a value with the bit set stays, or is `v`, whose bit `n` carries on
      intro o ho hflag
      by_cases hov : o.id = v.id
      · have hov' : o = v := List.inj_on_of_nodup_map hw.ids_nodup ho hv hov
        subst hov'
        exact ⟨n, by rw [hseq]; exact List.mem_append_right _ (List.mem_singleton_self _), hid, hsr.trans hflag⟩
      · exact ⟨o, by rw [hseq]; exact List.mem_append_left _ (ListIter.mem_erase_of_key_ne ho hov), rfl, hflag⟩
    · intro o' ho' hflag'
      rw [hseq, List.mem_append, List.mem_singleton] at ho'
      rcases ho' with ho' | rfl
      · exact ⟨o', (ListIter.erase_sublist _ _).subset ho', rfl, hflag'⟩
      · exact ⟨v, hv, hid.symm, hsr.symm.trans hflag'⟩
  | replace v n _ hv hvs hid hstale hrepl hseq _ _ _ _ =>
    have hvnone : v.replacement = none := hr.live_unreplaced v hv hvs
    -- the pointers: `v`'s now leads to `n`, the rest as before
    have hids : (replacementIds l'.seqList).Perm (n.id :: replacementIds l.seqList) := by
      have hmod := replacementIds_perm (ListIter.modify_perm (markStale (some n.id)) hw.ids_nodup hv)
      rw [replacementIds_cons] at hmod
      rw [hseq, replacementIds_append, replacementIds_singleton_of_none (o := n.setStaleReplacement true) hrepl,
        List.append_nil]
      exact hmod.trans ((replacementIds_erase_perm hw.ids_nodup hv hvnone).cons n.id)
    have hfresh : n.id ∉ replacementIds l.seqList := fun hmem => by
      obtain ⟨o, ho, hoid, -⟩ := hr.target_mem n.id hmem
      exact freshId_ne ho (hoid.trans hid)
    -- the value a value of `l` is after the write
    have himage : ∀ o ∈ l.seqList, ∃ o' ∈ l'.seqList, o'.id = o.id ∧ o'.staleReplacement = o.staleReplacement := by
      intro o ho
      refine ⟨if o.id = v.id then o.markStale (some n.id) else o, ?_, ?_, ?_⟩
      · rw [hseq]
        exact List.mem_append_left _ (List.mem_map_of_mem ho)
      all_goals split_ifs <;> rfl
    constructor
    · intro o' ho' hlive
      rw [hseq, List.mem_append, List.mem_singleton] at ho'
      rcases ho' with ho' | rfl
      · obtain ⟨o, ho, heq | heq⟩ := ListIter.exists_of_mem_modify ho'
        · rw [heq] at hlive ⊢
          exact hr.live_unreplaced o ho hlive
        · rw [heq] at hlive
          exact absurd hlive (by simp [markStale])
      · exact hrepl
    · exact hids.nodup_iff.mpr (List.nodup_cons.mpr ⟨hfresh, hr.pointers_nodup⟩)
    · intro r hrm
      rcases List.mem_cons.mp (hids.mem_iff.mp hrm) with rfl | hrm
      · exact ⟨n.setStaleReplacement true, by rw [hseq]; simp, rfl, rfl⟩
      · obtain ⟨o, ho, hoid, hflag⟩ := hr.target_mem r hrm
        obtain ⟨o', ho', hid', hflag'⟩ := himage o ho
        exact ⟨o', ho', hid'.trans hoid, hflag'.trans hflag⟩
    · intro o' ho' hflag'
      refine hids.mem_iff.mpr ?_
      rw [hseq, List.mem_append, List.mem_singleton] at ho'
      rcases ho' with ho' | rfl
      · -- marking stale keeps the address and the bit
        obtain ⟨o, ho, heq | heq⟩ := ListIter.exists_of_mem_modify ho'
        all_goals
          rw [heq] at hflag' ⊢
          exact List.mem_cons_of_mem _ (hr.flagged_pointed o ho hflag')
      · exact List.mem_cons_self


/-! ### Updates in place and purges -/

/-- Updating the value at an address in place, keeping its address, its
pointer and its bit, and making no stale value live. -/
theorem Replacements.of_modify (hr : Replacements l) {k : Nat} {f : OrderedStoredValue κ → OrderedStoredValue κ}
    (hs : l'.seqList = ListIter.modify OrderedStoredValue.id l.seqList k f)
    (hf : ∀ a ∈ l.seqList, a.id = k → (f a).id = a.id ∧ (f a).staleReplacement = a.staleReplacement ∧
      (f a).replacement = a.replacement ∧ ((f a).stale = false → a.stale = false)) : Replacements l' := by
  -- the value a value of `l` becomes
  have himage : ∀ a ∈ l.seqList, (if a.id = k then f a else a).id = a.id ∧
      (if a.id = k then f a else a).staleReplacement = a.staleReplacement := by
    intro a ha
    split_ifs with hk
    · exact ⟨(hf a ha hk).1, (hf a ha hk).2.1⟩
    · exact ⟨rfl, rfl⟩
  refine hr.of_frame ?_ ?_ ?_ ?_
  · rw [hs, replacementIds_modify fun a ha hk => (hf a ha hk).2.2.1]
  · intro o' ho' hlive
    rw [hs] at ho'
    obtain ⟨a, ha, rfl⟩ := List.mem_map.mp ho'
    split_ifs at hlive ⊢ with hk
    · obtain ⟨-, -, hrepl, hstale⟩ := hf a ha hk
      rw [hrepl]
      exact hr.live_unreplaced a ha (hstale hlive)
    · exact hr.live_unreplaced a ha hlive
  · intro o ho hflag
    refine ⟨if o.id = k then f o else o, by rw [hs]; exact List.mem_map_of_mem ho, (himage o ho).1, ?_⟩
    rw [(himage o ho).2, hflag]
  · intro o' ho' hflag'
    rw [hs] at ho'
    obtain ⟨a, ha, rfl⟩ := List.mem_map.mp ho'
    exact ⟨a, ha, (himage a ha).1.symm, (himage a ha).2.symm.trans hflag'⟩

theorem Replacements.setPausedPurgePoint (hr : Replacements l) (p : Option Nat) :
    Replacements { l with pausedPurgePoint := p } :=
  ⟨hr.live_unreplaced, hr.pointers_nodup, hr.target_mem, hr.flagged_pointed⟩

/-- Releasing a live value from the hash table. -/
theorem Replacements.markItemStale_none (hr : Replacements l) (hw : Wf l) {v : OrderedStoredValue κ}
    (hv : v ∈ l.seqList) (hvs : v.stale = false) : Replacements (l.markItemStale v none) := by
  refine hr.of_modify (seqList_markItemStale_none v) fun a ha hk => ⟨rfl, rfl, ?_, fun h => absurd h (by simp [markStale])⟩
  -- the only value at `v`'s address is `v`, which points nowhere
  rw [List.inj_on_of_nodup_map hw.ids_nodup ha hv hk, hr.live_unreplaced v hv hvs]
  rfl

/-- Completing a prepare in place. -/
theorem Replacements.updateValue_committed (hr : Replacements l) (hw : Wf l) {p : OrderedStoredValue κ}
    (hp : p ∈ l.seqList) (c : CommittedState) : Replacements (l.updateValue { p with committed := c }) := by
  refine hr.of_modify (seqList_updateValue _) fun a ha hk => ?_
  rw [List.inj_on_of_nodup_map hw.ids_nodup ha hp hk]
  exact ⟨rfl, rfl, rfl, id⟩

/-- Purging a value no stale value points at, and that points nowhere. -/
theorem Replacements.erase (hr : Replacements l) (hw : Wf l) {cur : OrderedStoredValue κ} (hcur : cur ∈ l.seqList)
    (hsr : cur.staleReplacement = false) (hnone : cur.replacement = none)
    (hs : l'.seqList = ListIter.erase OrderedStoredValue.id l.seqList cur.id) : Replacements l' := by
  refine hr.of_frame ?_ ?_ ?_ ?_
  · rw [hs]
    exact replacementIds_erase_perm hw.ids_nodup hcur hnone
  · intro o' ho' hlive
    rw [hs] at ho'
    exact hr.live_unreplaced o' ((ListIter.erase_sublist _ _).subset ho') hlive
  · -- a value with the bit set is not the one purged
    intro o ho hflag
    have hne : o.id ≠ cur.id := fun hid => by
      rw [List.inj_on_of_nodup_map hw.ids_nodup ho hcur hid, hsr] at hflag
      cases hflag
    exact ⟨o, by rw [hs]; exact ListIter.mem_erase_of_key_ne ho hne, rfl, hflag⟩
  · intro o' ho' hflag'
    rw [hs] at ho'
    exact ⟨o', (ListIter.erase_sublist _ _).subset ho', rfl, hflag'⟩

/-- Purging a stale value no other points at, which points at its
replacement: the replacement's bit is cleared, through a pointer that leads
to a value of the list. -/
theorem Replacements.erase_replaced (hr : Replacements l) (hw : Wf l) {cur : OrderedStoredValue κ}
    (hcur : cur ∈ l.seqList) (hsr : cur.staleReplacement = false) {r : Nat} (hrepl : cur.replacement = some r)
    (hs : l'.seqList = ListIter.modify OrderedStoredValue.id (ListIter.erase OrderedStoredValue.id l.seqList cur.id) r
      (setStaleReplacement false)) : Replacements l' := by
  let rest := ListIter.erase OrderedStoredValue.id l.seqList cur.id
  -- the pointers: `cur`'s leaves with it
  have hperm : (replacementIds l.seqList).Perm (r :: replacementIds rest) := by
    have h := replacementIds_perm (ListIter.perm_cons_erase hw.ids_nodup hcur)
    rwa [replacementIds_cons, hrepl] at h
  have hids : replacementIds l'.seqList = replacementIds rest := by
    rw [hs]
    exact replacementIds_modify fun _ _ _ => rfl
  have hnd : (r :: replacementIds rest).Nodup := hperm.nodup_iff.mp hr.pointers_nodup
  constructor
  · intro o' ho' hlive
    rw [hs] at ho'
    obtain ⟨a, ha, heq | heq⟩ := ListIter.exists_of_mem_modify ho'
    all_goals
      rw [heq] at hlive ⊢
      exact hr.live_unreplaced a ((ListIter.erase_sublist _ _).subset ha) hlive
  · rw [hids]
    exact (List.nodup_cons.mp hnd).2
  · intro r' hr'
    rw [hids] at hr'
    have hne : r' ≠ r := fun h => (List.nodup_cons.mp hnd).1 (h ▸ hr')
    obtain ⟨o, ho, hoid, hflag⟩ := hr.target_mem r' (hperm.mem_iff.mpr (List.mem_cons_of_mem _ hr'))
    have hocur : o.id ≠ cur.id := fun hid => by
      rw [List.inj_on_of_nodup_map hw.ids_nodup ho hcur hid, hsr] at hflag
      cases hflag
    refine ⟨o, ?_, hoid, hflag⟩
    rw [hs]
    exact ListIter.mem_modify_of_key_ne (ListIter.mem_erase_of_key_ne ho hocur) (hoid ▸ hne)
  · -- the bit left set is on a value some other stale value points at
    intro o' ho' hflag'
    rw [hids]
    rw [hs] at ho'
    obtain ⟨a, ha, rfl⟩ := List.mem_map.mp ho'
    split_ifs at hflag' ⊢ with hk
    · cases hflag'
    · have hmem := hperm.mem_iff.mp (hr.flagged_pointed a ((ListIter.erase_sublist _ _).subset ha) hflag')
      rcases List.mem_cons.mp hmem with h | h
      · exact absurd h hk
      · exact h

/-- `purgeListElem` of a value no stale value points at. -/
theorem Replacements.purgeListElem (hr : Replacements l) (hw : Wf l) {cur : OrderedStoredValue κ}
    (hcur : cur ∈ l.seqList) (hsr : cur.staleReplacement = false) (isStale isReplaced : Bool) :
    Replacements (l.purgeListElem cur isStale isReplaced) := by
  have hs := seqList_purgeListElem (l := l) cur isStale isReplaced
  cases hst : cur.stale with
  | false =>
    -- a live value points nowhere
    have hnone := hr.live_unreplaced cur hcur hst
    rw [hst, hnone] at hs
    exact hr.erase hw hcur hsr hnone hs
  | true =>
    cases hrp : cur.replacement with
    | none =>
      rw [hst, hrp] at hs
      exact hr.erase hw hcur hsr hrp hs
    | some r =>
      rw [hst, hrp] at hs
      exact hr.erase_replaced hw hcur hsr hrp hs


/-! ### Every step -/

open EphemeralVBucket

variable [DecidableEq κ]

theorem Replacements.dropKey (hr : Replacements l) (hw : Wf l) (k : κ) :
    Replacements (EphemeralVBucket.dropKey k l) :=
  (dropKey_induction (fun l₁ => Wf l₁ ∧ Replacements l₁) (fun _ h => h.1.ids_nodup) (k := k)
    (fun _ v h hv hvs _ => ⟨h.1.markItemStale v none, h.2.markItemStale_none h.1 hv hvs⟩) ⟨hw, hr⟩).2

/-- One value of a purge frees only a value no stale value points at. -/
theorem Replacements.purgeOne (hr : Replacements l) (hw : Wf l) {f : κ → Int → Bool} {it : OrderedStoredValue κ}
    (hit : it ∈ l.seqList) : Replacements (purgeOne (droppedCollectionCallback f) it l).2 := by
  rcases purgeOne_cases hw.ids_nodup hit with hres | ⟨-, hsr, hres⟩ | ⟨-, -, hres⟩ |
    ⟨-, -, hsr, cur, hcur, horigin, hres⟩ <;> rw [hres] <;> dsimp only
  · exact hr
  · exact hr.purgeListElem hw hit hsr _ _
  · exact hr.dropKey hw _
  · -- the value found at the address keeps `it`'s stale-replacement bit
    have hcsr : cur.staleReplacement = false := by rcases horigin with rfl | rfl <;> exact hsr
    exact (hr.dropKey hw _).purgeListElem (hw.dropKey _) hcur hcsr _ _

/-- A purge frees only values no stale value points at. -/
theorem Replacements.purgeStaleItems (hr : Replacements l) (hw : Wf l) {f : κ → Int → Bool}
    {shouldPause : Nat → Bool} {lockedEnd : Option Int} {n : Nat}
    (h : EphemeralVBucket.purgeStaleItems f shouldPause lockedEnd l = .ok (n, l')) : Replacements l' :=
  (purgeStaleItems_wf_induction (fun _ l₁ => Replacements l₁) (fun _ _ p h₁ => h₁.setPausedPurgePoint p)
    (fun _ _ _ hw₁ hr₁ hit _ => hr₁.purgeOne hw₁ hit) hw hr h).2.2

theorem Replacements.step (hr : Replacements l) (hw : Wf l) {e : Event κ}
    (h : EphemeralVBucket.step l e = some l') : Replacements l' := by
  rcases step_cases hw.ids_nodup h with hwr | ⟨_, _, _, _, -, -, hwr⟩ | ⟨l₁, p, hwr, hp, -, rfl⟩ |
    ⟨v, hv, hvs, rfl⟩ | rfl | ⟨_, _, _, _, -, hpurge⟩
  · exact hr.written hw hwr
  · exact hr.written hw hwr
  · exact (hr.written hw hwr).updateValue_committed (hw.written hwr) hp _
  · exact hr.markItemStale_none hw hv hvs
  · exact hr
  · exact hr.purgeStaleItems hw hpurge

end BasicLinkedList

namespace EphemeralVBucket

open BasicLinkedList

variable {κ : Type} [DecidableEq κ] {l : BasicLinkedList κ}

/-- In every list the vbucket reaches, the replacement pointers are exact: no
pointer of a stale value dangles, each value replaces at most one, and the
stale-replacement bit is set exactly on the values pointed at. -/
theorem reachable_replacements (h : seqListSystem.Reachable l) : Replacements l := by
  -- carried together with the order, whose distinct addresses it needs
  have hboth : Wf l ∧ Replacements l :=
    TransitionSystem.Reachable.invariant (I := fun l => Wf l ∧ Replacements l)
      (fun _ h₀ => h₀ ▸ ⟨empty_wf, empty_replacements⟩)
      (fun _ _ _ _ hi hn => ⟨hi.1.step hn, hi.2.step hi.1 hn⟩) h
  exact hboth.2

theorem reachable_replacements_staleChain : seqListSystem.Reachable staleChain ∧ Replacements staleChain :=
  ⟨reachable_staleChain, reachable_replacements reachable_staleChain⟩

end EphemeralVBucket

end KvEngine.Ephemeral
