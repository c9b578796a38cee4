import Mathlib
import KvEngine.Ephemeral.SeqListWf

/-!
# What a purge takes off the sequence list

`purgeStaleItems` walks the list below the high seqno. It frees the stale
values that no other stale value points at, and the values of the keys the
manifest reports logically deleted (`droppedCollectionCallback`), which it
first releases from the hash table with `dropKey`. Over every run of it, from
any list in seqno order:

- `purgeStaleItems_count_add_length`: the count it returns is the number of
  values that left the list.
- `purgeStaleItems_keeps_live`: a value the hash table holds, of a key that is
  not logically deleted, stays in the list and in the hash table, changed at
  most in its stale-replacement bit. A purge frees nothing a reader can still
  find.

Both are invariants of the loop carried by `purgeStaleItems_wf_induction`;
the step of each is one value of the purge, read through `purgeOne_cases`.
-/

namespace KvEngine.Ephemeral

open OrderedStoredValue

namespace BasicLinkedList

variable {κ : Type} {l : BasicLinkedList κ}

/-- `purgeListElem` takes exactly the value purged off the list. -/
theorem length_purgeListElem (hnd : l.ids.Nodup) {it : OrderedStoredValue κ} (hit : it ∈ l.seqList)
    (isStale isReplaced : Bool) : (l.purgeListElem it isStale isReplaced).seqList.length + 1 = l.seqList.length := by
  have hperm := (ListIter.perm_cons_erase hnd hit).length_eq
  rw [List.length_cons] at hperm
  rw [seqList_purgeListElem]
  split
  · rw [ListIter.modify, List.length_map, hperm]
  · rw [hperm]

/-- Every other value stays through `purgeListElem`; freeing a stale value
may clear the stale-replacement bit of the value it points at. -/
theorem mem_purgeListElem_of_id_ne {o it : OrderedStoredValue κ} (ho : o ∈ l.seqList) (hne : o.id ≠ it.id)
    (isStale isReplaced : Bool) :
    o ∈ (l.purgeListElem it isStale isReplaced).seqList ∨
      o.setStaleReplacement false ∈ (l.purgeListElem it isStale isReplaced).seqList := by
  have he := ListIter.mem_erase_of_key_ne ho hne
  rw [seqList_purgeListElem]
  split
  next r _ _ =>
    by_cases hr : o.id = r
    · exact .inr (ListIter.mem_modify_of_key_eq he hr)
    · exact .inl (ListIter.mem_modify_of_key_ne he hr)
  · exact .inl he

end BasicLinkedList

namespace EphemeralVBucket

open BasicLinkedList

variable {κ : Type} [DecidableEq κ] {l l' : BasicLinkedList κ}

/-- `dropKey` only marks values stale: the addresses stay. -/
theorem ids_dropKey {k : κ} (hnd : l.ids.Nodup) : (dropKey k l).ids = l.ids := by
  refine dropKey_induction (fun l₁ => l₁.ids = l.ids) (fun l₁ h₁ => ?_) (fun l₁ v h₁ _ _ _ => ?_) rfl
  · rw [h₁]
    exact hnd
  · rw [ids_markItemStale, h₁]

theorem length_dropKey {k : κ} (hnd : l.ids.Nodup) : (dropKey k l).seqList.length = l.seqList.length := by
  have h := congrArg List.length (ids_dropKey (k := k) hnd)
  simp only [ids, List.length_map] at h
  exact h

/-- One value of the purge keeps a value the hash table holds, of a key that
is not logically deleted, up to its stale-replacement bit. -/
theorem keeps_purgeOne (hnd : l.ids.Nodup) {f : κ → Int → Bool} {it x : OrderedStoredValue κ}
    (hit : it ∈ l.seqList) (hx : x ∈ l.seqList) (hxs : x.stale = false) (hkey : ∀ s, f x.key s = false) :
    x ∈ (purgeOne (droppedCollectionCallback f) it l).2.seqList ∨
      x.setStaleReplacement false ∈ (purgeOne (droppedCollectionCallback f) it l).2.seqList := by
  -- a value of another key is not `it`
  have hid : x.key ≠ it.key → x.id ≠ it.id := fun hk hid => hk (by rw [List.inj_on_of_nodup_map hnd hx hit hid])
  -- the key the callback drops is not `x`'s
  have hdrop : f it.key it.bySeqno = true → x.key ≠ it.key := fun hf hk => by
    rw [← hk, hkey] at hf
    cases hf
  rcases purgeOne_cases hnd hit with hres | ⟨hs, -, hres⟩ | ⟨-, hf, hres⟩ |
    ⟨-, hf, -, cur, hcur, horigin, hres⟩ <;> rw [hres] <;> dsimp only
  · exact .inl hx
  · -- the value purged is stale, so not `x`
    have hne : x.id ≠ it.id := fun hxid => by
      rw [List.inj_on_of_nodup_map hnd hx hit hxid, hs] at hxs
      cases hxs
    exact mem_purgeListElem_of_id_ne hx hne _ _
  · exact .inl (mem_dropKey_of_key_ne hnd hx (hdrop hf))
  · have hcid : cur.id = it.id := by rcases horigin with rfl | rfl <;> rfl
    rw [← hcid] at hid
    exact mem_purgeListElem_of_id_ne (mem_dropKey_of_key_ne hnd hx (hdrop hf)) (hid (hdrop hf)) _ _

/-- `purgeStaleItems` returns the number of values it took off the list. -/
theorem purgeStaleItems_count_add_length (hw : Wf l) {f : κ → Int → Bool} {shouldPause : Nat → Bool}
    {lockedEnd : Option Int} {n : Nat} (h : purgeStaleItems f shouldPause lockedEnd l = .ok (n, l')) :
    n + l'.seqList.length = l.seqList.length := by
  refine (purgeStaleItems_wf_induction (fun n l₁ => n + l₁.seqList.length = l.seqList.length)
    (fun _ _ _ h₁ => h₁) ?_ hw (Nat.zero_add _) h).2.2
  intro m l₁ it hw₁ hm hit _
  rcases purgeOne_cases hw₁.ids_nodup hit with hres | ⟨-, -, hres⟩ | ⟨-, -, hres⟩ |
    ⟨-, -, -, cur, hcur, -, hres⟩ <;> rw [hres] <;> dsimp only
  · exact hm
  · -- a stale value purged: one value fewer, one more counted
    have hlen := length_purgeListElem hw₁.ids_nodup hit true it.replacement.isSome
    rw [if_pos rfl]
    omega
  · rw [if_neg (by decide), length_dropKey hw₁.ids_nodup]
    exact hm
  · have hlen := length_purgeListElem (hw₁.dropKey it.key).ids_nodup hcur false false
    rw [length_dropKey hw₁.ids_nodup] at hlen
    rw [if_pos rfl]
    omega

/-- `staleChain` in seqno order. -/
theorem wf_staleChain : Wf staleChain where
  ids_nodup := by decide
  increasing := by
    unfold ListIter.Increasing
    decide
  bySeqno_le := by decide
  high_mem := by decide

/-- `staleChain` after a purge with nothing logically deleted, locked up to
seqno 1: the stale value is freed. -/
def purgedChain : BasicLinkedList Nat :=
  (step staleChain (.purgeStaleItems (fun _ _ => false) (fun _ => false) (some 1))).getD staleChain

theorem purgeStaleItems_count_add_length_staleChain :
    purgeStaleItems (fun _ _ => false) (fun _ => false) (some 1) staleChain = .ok (1, purgedChain) ∧
      1 + purgedChain.seqList.length = staleChain.seqList.length :=
  have h : purgeStaleItems (fun _ _ => false) (fun _ => false) (some 1) staleChain = .ok (1, purgedChain) := rfl
  ⟨h, purgeStaleItems_count_add_length wf_staleChain h⟩

/-- A purge never frees a value the hash table holds whose key is not
logically deleted: it stays in the list, not stale, and only a purge of the
stale value pointing at it may clear its stale-replacement bit. -/
theorem purgeStaleItems_keeps_live (hw : Wf l) {o : OrderedStoredValue κ} (ho : o ∈ l.seqList)
    (hlive : o.stale = false) {f : κ → Int → Bool} (hkey : ∀ s, f o.key s = false) {shouldPause : Nat → Bool}
    {lockedEnd : Option Int} {n : Nat} (h : purgeStaleItems f shouldPause lockedEnd l = .ok (n, l')) :
    o ∈ l'.seqList ∨ o.setStaleReplacement false ∈ l'.seqList := by
  -- the invariant: `o` or `o` with the bit cleared is in the list
  let P : Nat → BasicLinkedList κ → Prop := fun _ l₁ => o ∈ l₁.seqList ∨ o.setStaleReplacement false ∈ l₁.seqList
  refine (purgeStaleItems_wf_induction P (fun _ _ _ h₁ => h₁) ?_ hw (.inl ho) h).2.2
  intro _ l₁ it hw₁ hP hit _
  rcases hP with hx | hx
  · exact keeps_purgeOne hw₁.ids_nodup hit hx hlive hkey
  · -- clearing the bit again leaves it cleared
    exact .inr ((keeps_purgeOne hw₁.ids_nodup hit hx hlive hkey).elim id id)

/-- The value that replaced the stale one in `staleChain`. -/
def replacementValue : OrderedStoredValue Nat := ⟨2, 0, 2, false, .committedViaMutation, false, none, true, 1, 4⟩

theorem purgeStaleItems_keeps_live_staleChain :
    replacementValue ∈ staleChain.seqList ∧
      (replacementValue ∈ purgedChain.seqList ∨ replacementValue.setStaleReplacement false ∈ purgedChain.seqList) :=
  have ho : replacementValue ∈ staleChain.seqList := by decide
  have h : purgeStaleItems (fun _ _ => false) (fun _ => false) (some 1) staleChain = .ok (1, purgedChain) := rfl
  ⟨ho, purgeStaleItems_keeps_live wf_staleChain ho rfl (fun _ => rfl) h⟩

end EphemeralVBucket

end KvEngine.Ephemeral
