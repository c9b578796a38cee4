import Mathlib
import KvEngine.Ephemeral.SeqListOps

/-!
# The order of the sequence list over every run

Range reads and the purger walk `seqList` in seqno order, and the purge stops
below the high seqno so that the last value written stays. `Wf` says the list
is what that needs: distinct addresses, seqnos strictly increasing along the
list and at most the high seqno, and, once something was written, a value at
the high seqno. `reachable_wf` proves it of every state the list reaches,
with no assumption on the steps.

The proofs see a value only through its address and seqno (`stamp`): a write
appends a stamp above the high seqno to a sublist of the stamps
(`Wf.of_stamps_append`); marking values stale and completing a prepare keep
the stamps; a purge leaves a sublist that keeps the value at the high seqno
(`Wf.of_stamps_sublist`).
-/

namespace KvEngine.Ephemeral

open OrderedStoredValue

namespace BasicLinkedList

variable {κ : Type} {l l' : BasicLinkedList κ}

/-- A value's address and seqno. -/
def stamp (o : OrderedStoredValue κ) : Nat × Int := (o.id, o.bySeqno)

/-- The stamps of the list's values, in list order. -/
abbrev stamps (l : BasicLinkedList κ) : List (Nat × Int) := l.seqList.map stamp

/-- The list is in seqno order: distinct addresses, strictly increasing
seqnos up to the high seqno, and the high seqno on a value once one was
written. -/
structure Wf (l : BasicLinkedList κ) : Prop where
  ids_nodup : l.ids.Nodup
  increasing : ListIter.Increasing OrderedStoredValue.bySeqno l.seqList
  bySeqno_le : ∀ o ∈ l.seqList, o.bySeqno ≤ l.highSeqno
  high_mem : 0 < l.highSeqno → ∃ o ∈ l.seqList, o.bySeqno = l.highSeqno

theorem ids_eq_stamps (l : BasicLinkedList κ) : l.ids = l.stamps.map Prod.fst := by
  rw [List.map_map]
  rfl

theorem increasing_iff_stamps :
    ListIter.Increasing OrderedStoredValue.bySeqno l.seqList ↔ l.stamps.Pairwise fun p q => p.2 < q.2 := by
  rw [List.pairwise_map]
  rfl

theorem exists_of_mem_stamps {p : Nat × Int} (h : p ∈ l.stamps) : ∃ o ∈ l.seqList, o.bySeqno = p.2 := by
  obtain ⟨o, ho, rfl⟩ := List.mem_map.mp h
  exact ⟨o, ho, rfl⟩

theorem empty_wf : Wf (empty : BasicLinkedList κ) where
  ids_nodup := List.nodup_nil
  increasing := List.Pairwise.nil
  bySeqno_le _ h := absurd h List.not_mem_nil
  high_mem h := absurd h (lt_irrefl 0)

/-- A list whose stamps are some of those of an ordered list, with the same
high seqno and a value at it, is ordered. -/
theorem Wf.of_stamps_sublist (hw : Wf l) (hs : l'.stamps.Sublist l.stamps) (hhigh : l'.highSeqno = l.highSeqno)
    (hmem : 0 < l.highSeqno → ∃ o ∈ l'.seqList, o.bySeqno = l.highSeqno) : Wf l' := by
  constructor
  · rw [ids_eq_stamps]
    exact (hw.ids_nodup.sublist (by rw [ids_eq_stamps]; exact hs.map Prod.fst))
  · rw [increasing_iff_stamps]
    exact (increasing_iff_stamps.mp hw.increasing).sublist hs
  · intro o ho
    obtain ⟨o₀, ho₀, hseq⟩ := exists_of_mem_stamps (hs.subset (List.mem_map_of_mem (f := stamp) ho))
    rw [hhigh, ← show (stamp o).2 = o.bySeqno from rfl, ← hseq]
    exact hw.bySeqno_le o₀ ho₀
  · rw [hhigh]
    exact hmem

/-- A list whose stamps are a sublist of those of an ordered list followed by
a new address at a seqno above the high seqno, which becomes the high seqno,
is ordered. -/
theorem Wf.of_stamps_append (hw : Wf l) {r : List (Nat × Int)} {i : Nat} {s : Int}
    (hs : l'.stamps = r ++ [(i, s)]) (hps : r.Sublist l.stamps) (hi : i ∉ r.map Prod.fst)
    (hlt : l.highSeqno < s) (hhigh : l'.highSeqno = s) : Wf l' := by
  -- what the sublist keeps of the order
  have hnd : (r.map Prod.fst).Nodup := hw.ids_nodup.sublist (by rw [ids_eq_stamps]; exact hps.map Prod.fst)
  have hinc : r.Pairwise fun p q => p.2 < q.2 := (increasing_iff_stamps.mp hw.increasing).sublist hps
  have hle : ∀ p ∈ r, p.2 ≤ l.highSeqno := fun p hp => by
    obtain ⟨o, ho, hseq⟩ := exists_of_mem_stamps (hps.subset hp)
    rw [← hseq]
    exact hw.bySeqno_le o ho
  constructor
  · rw [ids_eq_stamps, hs, List.map_append]
    refine List.nodup_append.mpr ⟨hnd, List.nodup_singleton _, fun a ha b hb hab => ?_⟩
    rw [List.map_singleton, List.mem_singleton] at hb
    rw [hab, hb] at ha
    exact hi ha
  · rw [increasing_iff_stamps, hs]
    refine List.pairwise_append.mpr ⟨hinc, List.pairwise_singleton _ _, fun p hp q hq => ?_⟩
    rw [List.mem_singleton] at hq
    rw [hq]
    exact lt_of_le_of_lt (hle p hp) hlt
  · intro o ho
    have hmem : stamp o ∈ r ++ [(i, s)] := hs ▸ List.mem_map_of_mem ho
    rw [hhigh]
    rcases List.mem_append.mp hmem with hp | hp
    · exact le_trans (hle _ hp) hlt.le
    · rw [List.mem_singleton] at hp
      exact le_of_eq (congrArg Prod.snd hp)
  · intro _
    have hmem : (i, s) ∈ l'.stamps := by rw [hs]; exact List.mem_append_right _ (List.mem_singleton_self _)
    obtain ⟨o, ho, hseq⟩ := exists_of_mem_stamps hmem
    exact ⟨o, ho, hseq.trans hhigh.symm⟩

/-! ### The stamps through each operation -/

@[simp] theorem stamps_markItemStale (v : OrderedStoredValue κ) (n : Option Nat) :
    (l.markItemStale v n).stamps = l.stamps := by
  cases n with
  | none => exact ListIter.map_modify stamp (f := markStale none) (fun _ _ _ => rfl)
  | some r =>
    show ((ListIter.modify OrderedStoredValue.id (ListIter.modify OrderedStoredValue.id l.seqList v.id
      (markStale (some r))) r (setStaleReplacement true)).map stamp) = _
    rw [ListIter.map_modify stamp (f := setStaleReplacement true) (fun _ _ _ => rfl),
      ListIter.map_modify stamp (f := markStale (some r)) (fun _ _ _ => rfl)]

/-- Updating a value in place with one of the same stamp. -/
theorem stamps_updateValue {p p' : OrderedStoredValue κ} (hnd : l.ids.Nodup) (hp : p ∈ l.seqList)
    (hstamp : stamp p' = stamp p) : (l.updateValue p').stamps = l.stamps := by
  refine ListIter.map_modify stamp (fun a ha hid => ?_)
  -- the only value at the address is `p`
  have hap : a = p := List.inj_on_of_nodup_map hnd ha hp (hid.trans (congrArg Prod.fst hstamp))
  rw [hap]
  exact hstamp


/-- The same stamps and high seqno. -/
theorem Wf.of_stamps_eq (hw : Wf l) (hs : l'.stamps = l.stamps) (hhigh : l'.highSeqno = l.highSeqno) : Wf l' := by
  refine hw.of_stamps_sublist (hs ▸ List.Sublist.refl _) hhigh fun hpos => ?_
  obtain ⟨o, ho, hseq⟩ := hw.high_mem hpos
  have hmem : stamp o ∈ l'.stamps := by rw [hs]; exact List.mem_map_of_mem ho
  obtain ⟨o', ho', hseq'⟩ := exists_of_mem_stamps hmem
  exact ⟨o', ho', hseq'.trans hseq⟩

theorem Wf.written {keepsCount : Bool} (hw : Wf l) (h : Written l l' keepsCount) : Wf l' := by
  cases h with
  | append n hid _ _ _ hseq hhigh hhigh' _ _ =>
    refine hw.of_stamps_append (r := l.stamps) (i := n.id) (s := n.bySeqno) ?_ (List.Sublist.refl _) ?_ hhigh hhigh'
    · rw [stamps, hseq, List.map_append]
      rfl
    · rw [← ids_eq_stamps, hid]
      exact freshId_not_mem
  | move v n _ _ _ hid _ _ _ hseq hhigh hhigh' _ _ =>
    refine hw.of_stamps_append (r := (ListIter.erase OrderedStoredValue.id l.seqList v.id).map stamp) (i := n.id)
      (s := n.bySeqno) ?_ ((ListIter.erase_sublist _ _).map stamp) ?_ hhigh hhigh'
    · rw [stamps, hseq, List.map_append]
      rfl
    · -- the erased list keeps no value at `v`'s address
      rw [List.map_map, hid]
      intro hmem
      obtain ⟨c, hc, hcv⟩ := List.mem_map.mp hmem
      exact ListIter.key_ne_of_mem_erase hw.ids_nodup hc hcv
  | replace v n _ _ _ hid _ _ hseq hhigh hhigh' _ _ =>
    refine hw.of_stamps_append (r := l.stamps) (i := n.id) (s := n.bySeqno) ?_ (List.Sublist.refl _) ?_ hhigh hhigh'
    · rw [stamps, hseq, List.map_append, ListIter.map_modify stamp (f := markStale (some n.id)) (fun _ _ _ => rfl)]
      rfl
    · rw [← ids_eq_stamps, hid]
      exact freshId_not_mem

theorem Wf.markItemStale (hw : Wf l) (v : OrderedStoredValue κ) (n : Option Nat) : Wf (l.markItemStale v n) :=
  hw.of_stamps_eq (stamps_markItemStale v n) rfl

theorem Wf.updateValue_committed (hw : Wf l) {p : OrderedStoredValue κ} (hp : p ∈ l.seqList)
    (c : CommittedState) : Wf (l.updateValue { p with committed := c }) :=
  hw.of_stamps_eq (stamps_updateValue hw.ids_nodup hp rfl) rfl

theorem Wf.setPausedPurgePoint (hw : Wf l) (p : Option Nat) : Wf { l with pausedPurgePoint := p } :=
  hw.of_stamps_eq rfl rfl

theorem stamps_purgeListElem (it : OrderedStoredValue κ) (isStale isReplaced : Bool) :
    (l.purgeListElem it isStale isReplaced).stamps = (ListIter.erase OrderedStoredValue.id l.seqList it.id).map stamp := by
  rw [stamps, seqList_purgeListElem]
  split
  · exact ListIter.map_modify stamp (fun _ _ _ => rfl)
  · rfl

/-- Purging a value below the high seqno keeps the order. -/
theorem Wf.purgeListElem (hw : Wf l) {cur : OrderedStoredValue κ} (hcur : cur ∈ l.seqList)
    (hlt : cur.bySeqno < l.highSeqno) (isStale isReplaced : Bool) : Wf (l.purgeListElem cur isStale isReplaced) := by
  refine hw.of_stamps_sublist ?_ (highSeqno_purgeListElem _ _ _) fun hpos => ?_
  · rw [stamps_purgeListElem]
    exact (ListIter.erase_sublist _ _).map stamp
  · -- the value at the high seqno is not the one purged
    obtain ⟨o, ho, hseq⟩ := hw.high_mem hpos
    have hne : o.id ≠ cur.id := fun hid => by
      rw [List.inj_on_of_nodup_map hw.ids_nodup ho hcur hid] at hseq
      exact absurd hseq (ne_of_lt hlt)
    have hmem : stamp o ∈ (l.purgeListElem cur isStale isReplaced).stamps := by
      rw [stamps_purgeListElem]
      exact List.mem_map_of_mem (ListIter.mem_erase_of_key_ne ho hne)
    obtain ⟨o', ho', hseq'⟩ := exists_of_mem_stamps hmem
    exact ⟨o', ho', hseq'.trans hseq⟩

end BasicLinkedList

namespace EphemeralVBucket

open BasicLinkedList

variable {κ : Type} [DecidableEq κ] {l l' : BasicLinkedList κ}

theorem highSeqno_dropKey (k : κ) : (dropKey k l).highSeqno = l.highSeqno := by
  unfold dropKey dropStoredValue
  rcases findForUpdate k l with ⟨pending, committed⟩
  cases pending <;> cases committed <;> rfl

end EphemeralVBucket

namespace BasicLinkedList

open EphemeralVBucket

variable {κ : Type} [DecidableEq κ] {l l' : BasicLinkedList κ}

theorem Wf.dropKey (hw : Wf l) (k : κ) : Wf (EphemeralVBucket.dropKey k l) :=
  dropKey_induction Wf (fun _ h => h.ids_nodup) (k := k) (fun _ v h _ _ _ => h.markItemStale v none) hw

/-- One value of a purge below the high seqno keeps the order and the high
seqno. -/
theorem Wf.purgeOne (hw : Wf l) {f : κ → Int → Bool} {it : OrderedStoredValue κ} (hit : it ∈ l.seqList)
    (hlt : it.bySeqno < l.highSeqno) :
    Wf (purgeOne (droppedCollectionCallback f) it l).2 ∧
      (purgeOne (droppedCollectionCallback f) it l).2.highSeqno = l.highSeqno := by
  rcases purgeOne_cases hw.ids_nodup hit with hr | ⟨-, -, hr⟩ | ⟨-, -, hr⟩ | ⟨-, -, -, cur, hcur, horigin, hr⟩
  · rw [hr]
    exact ⟨hw, rfl⟩
  · rw [hr]
    exact ⟨hw.purgeListElem hit hlt _ _, highSeqno_purgeListElem _ _ _⟩
  · rw [hr]
    exact ⟨hw.dropKey _, highSeqno_dropKey _⟩
  · -- the released value keeps its seqno
    have hseq : cur.bySeqno = it.bySeqno := by rcases horigin with rfl | rfl <;> rfl
    have hhigh : (EphemeralVBucket.dropKey it.key l).highSeqno = l.highSeqno := highSeqno_dropKey _
    rw [hr]
    dsimp only
    refine ⟨(hw.dropKey _).purgeListElem hcur (by rw [hseq, hhigh]; exact hlt) _ _, ?_⟩
    rw [highSeqno_purgeListElem, hhigh]

/-- A run of `purgeStaleItems` keeps the order and the high seqno, and an
invariant of the count and the list that holds with nothing purged and that
one value of the purge keeps on an ordered list, for a value the run reaches. -/
theorem purgeStaleItems_wf_induction (P : Nat → BasicLinkedList κ → Prop)
    (hpaused : ∀ n l p, P n l → P n { l with pausedPurgePoint := p }) {f : κ → Int → Bool}
    {shouldPause : Nat → Bool} {lockedEnd : Option Int} {n : Nat}
    (hone : ∀ n l₁ it, Wf l₁ → P n l₁ → it ∈ l₁.seqList → Reached l lockedEnd it →
      P (if (purgeOne (droppedCollectionCallback f) it l₁).1 then n + 1 else n)
        (purgeOne (droppedCollectionCallback f) it l₁).2)
    (hw : Wf l) (hl : P 0 l) (h : EphemeralVBucket.purgeStaleItems f shouldPause lockedEnd l = .ok (n, l')) :
    Wf l' ∧ l'.highSeqno = l.highSeqno ∧ P n l' := by
  refine purgeStaleItems_count_induction (fun n l₁ => Wf l₁ ∧ l₁.highSeqno = l.highSeqno ∧ P n l₁)
    (fun n l₁ p h₁ => ⟨h₁.1.setPausedPurgePoint p, h₁.2.1, hpaused n l₁ p h₁.2.2⟩) ?_ ⟨hw, rfl, hl⟩ h
  rintro n l₁ it ⟨hw₁, hhigh, hP⟩ hit hreached
  have hlt : it.bySeqno < l₁.highSeqno := by
    rw [hhigh]
    exact hreached.lt_high
  obtain ⟨hw₂, hhigh₂⟩ := hw₁.purgeOne (f := f) hit hlt
  exact ⟨hw₂, hhigh₂.trans hhigh, hone n l₁ it hw₁ hP hit hreached⟩

/-- A purge keeps the order: what it removes is below the high seqno. -/
theorem Wf.purgeStaleItems (hw : Wf l) {f : κ → Int → Bool} {shouldPause : Nat → Bool}
    {lockedEnd : Option Int} {n : Nat} (h : EphemeralVBucket.purgeStaleItems f shouldPause lockedEnd l = .ok (n, l')) :
    Wf l' :=
  (purgeStaleItems_wf_induction (fun _ _ => True) (fun _ _ _ _ => trivial) (fun _ _ _ _ _ _ _ => trivial) hw
    trivial h).1

theorem Wf.step (hw : Wf l) {e : Event κ} (h : EphemeralVBucket.step l e = some l') : Wf l' := by
  rcases step_cases hw.ids_nodup h with hwr | ⟨_, _, _, _, -, -, hwr⟩ | ⟨l₁, p, hwr, hp, -, rfl⟩ |
    ⟨v, -, -, rfl⟩ | rfl | ⟨_, _, _, _, -, hpurge⟩
  · exact hw.written hwr
  · exact hw.written hwr
  · exact (hw.written hwr).updateValue_committed hp _
  · exact hw.markItemStale v none
  · exact hw
  · exact hw.purgeStaleItems hpurge

end BasicLinkedList

namespace EphemeralVBucket

open BasicLinkedList

variable {κ : Type} [DecidableEq κ] {l : BasicLinkedList κ}

/-- Every list the vbucket reaches is in seqno order: distinct addresses,
strictly increasing seqnos up to the high seqno, and a value at the high seqno
once one was written. -/
theorem reachable_wf (h : seqListSystem.Reachable l) : Wf l :=
  TransitionSystem.Reachable.invariant (I := Wf) (fun _ h₀ => h₀ ▸ empty_wf) (fun _ _ _ _ hw hn => hw.step hn) h

/-- One value written at seqno 1. -/
def oneValue : BasicLinkedList Nat := addNewStoredValue ⟨0, 1, false, .committedViaMutation, 3⟩ 1 BasicLinkedList.empty

/-- `oneValue` updated at seqno 2 inside a locked range: the old value stays,
stale, pointing at its replacement. -/
def staleChain : BasicLinkedList Nat :=
  (step oneValue (.updateStoredValue 1 ⟨0, 1, false, .committedViaMutation, 4⟩ true 2)).getD oneValue

theorem reachable_staleChain : seqListSystem.Reachable staleChain :=
  .step (.step (.init rfl) (a := .addNewStoredValue ⟨0, 1, false, .committedViaMutation, 3⟩ 1) rfl)
    (a := .updateStoredValue 1 ⟨0, 1, false, .committedViaMutation, 4⟩ true 2) rfl

theorem reachable_wf_staleChain : seqListSystem.Reachable staleChain ∧ Wf staleChain :=
  ⟨reachable_staleChain, reachable_wf reachable_staleChain⟩

end EphemeralVBucket

end KvEngine.Ephemeral
