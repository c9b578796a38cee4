import Mathlib
import KvEngine.Ephemeral.SeqList
import KvEngine.Lib.Except

/-!
# What each operation does to the sequence list

One lemma for each operation of `SeqList.lean` says what it does to the list,
the high seqno and the counters, so that the invariants proved over whole runs
never unfold an operation again.

- Every front-end write but the commit takes one of three shapes (`Written`):
  a new value appended; the hash table's value updated and moved to the back
  (`updateListElem`'s `Success`); or that value left in place, marked stale,
  and replaced by a new value at the back (`Append`).
- A commit is such a write followed by the prepare's completion in place
  (`commitStoredValue_spec`).
- `dropKey` and a visit of the tombstone purger mark live values stale in
  place (`dropKey_induction`).
- `step_cases` sums these up for a step of the system.
- A purge runs `purgeOne` over values (`purgeOne_cases`), and
  `purgeStaleItems_count_induction` carries an invariant of the count and the
  list through a whole run.
-/

namespace KvEngine.Ephemeral

open OrderedStoredValue

/-- The four counters `BasicLinkedList` keeps beside the list. -/
inductive Counter where
  | numStaleItems
  | staleSize
  | staleMetaDataSize
  | numDeletedItems
  deriving DecidableEq, Repr

namespace Counter

variable {κ : Type}

/-- What a deleted bit adds to a counter: one to `numDeletedItems`. -/
def deletedShare : Counter → Bool → Nat
  | .numDeletedItems, true => 1
  | _, _ => 0

/-- What `markItemStale` adds to a counter for the value it takes over. -/
def staleShare : Counter → OrderedStoredValue κ → Nat
  | .numStaleItems, _ => 1
  | .staleSize, v => v.size
  | .staleMetaDataSize, v => v.metaDataSize
  | .numDeletedItems, _ => 0

end Counter

namespace BasicLinkedList

variable {κ : Type} {l l' : BasicLinkedList κ}

/-- The value of a counter. -/
def counter (l : BasicLinkedList κ) : Counter → Nat
  | .numStaleItems => l.numStaleItems
  | .staleSize => l.staleSize
  | .staleMetaDataSize => l.staleMetaDataSize
  | .numDeletedItems => l.numDeletedItems

/-- The addresses of the list's values. -/
abbrev ids (l : BasicLinkedList κ) : List Nat := l.seqList.map OrderedStoredValue.id

/-! ### The list operations field by field -/

@[simp] theorem seqList_appendToList (v : OrderedStoredValue κ) :
    (l.appendToList v).seqList = l.seqList ++ [v] := rfl

@[simp] theorem highSeqno_appendToList (v : OrderedStoredValue κ) :
    (l.appendToList v).highSeqno = l.highSeqno := rfl

@[simp] theorem counter_appendToList (v : OrderedStoredValue κ) (c : Counter) :
    (l.appendToList v).counter c = l.counter c := by
  cases c <;> rfl

@[simp] theorem seqList_updateValue (v : OrderedStoredValue κ) :
    (l.updateValue v).seqList = ListIter.modify OrderedStoredValue.id l.seqList v.id fun _ => v := rfl

@[simp] theorem highSeqno_updateValue (v : OrderedStoredValue κ) :
    (l.updateValue v).highSeqno = l.highSeqno := rfl

@[simp] theorem counter_updateValue (v : OrderedStoredValue κ) (c : Counter) :
    (l.updateValue v).counter c = l.counter c := by
  cases c <;> rfl

@[simp] theorem seqList_updateHighSeqno (v : OrderedStoredValue κ) :
    (l.updateHighSeqno v).seqList = l.seqList := rfl

@[simp] theorem highSeqno_updateHighSeqno (v : OrderedStoredValue κ) :
    (l.updateHighSeqno v).highSeqno = v.bySeqno := rfl

@[simp] theorem counter_updateHighSeqno (v : OrderedStoredValue κ) (c : Counter) :
    (l.updateHighSeqno v).counter c = l.counter c := by
  cases c <;> rfl

@[simp] theorem counter_setPausedPurgePoint (p : Option Nat) (c : Counter) :
    ({ l with pausedPurgePoint := p } : BasicLinkedList κ).counter c = l.counter c := by
  cases c <;> rfl

@[simp] theorem updateListElem_true (v : OrderedStoredValue κ) : l.updateListElem true v = (.append, l) := rfl

@[simp] theorem updateListElem_false (v : OrderedStoredValue κ) :
    l.updateListElem false v = (.success, { l with
      pausedPurgePoint := ListIter.repoint l.pausedPurgePoint v.id
        ((ListIter.nextAfter OrderedStoredValue.id v.id l.seqList).map (·.id))
      seqList := ListIter.erase OrderedStoredValue.id l.seqList v.id ++ [v] }) := rfl

/-- `updateNumDeletedItems` as one record update. -/
theorem updateNumDeletedItems_eq (a b : Bool) (l : BasicLinkedList κ) :
    l.updateNumDeletedItems a b = { l with numDeletedItems :=
      if a && !b then l.numDeletedItems - 1 else if !a && b then l.numDeletedItems + 1 else l.numDeletedItems } := by
  unfold updateNumDeletedItems
  split_ifs <;> rfl

@[simp] theorem seqList_updateNumDeletedItems (a b : Bool) :
    (l.updateNumDeletedItems a b).seqList = l.seqList := by
  rw [updateNumDeletedItems_eq]

@[simp] theorem highSeqno_updateNumDeletedItems (a b : Bool) :
    (l.updateNumDeletedItems a b).highSeqno = l.highSeqno := by
  rw [updateNumDeletedItems_eq]

theorem counter_updateNumDeletedItems_of_ne (a b : Bool) {c : Counter} (hc : c ≠ .numDeletedItems) :
    (l.updateNumDeletedItems a b).counter c = l.counter c := by
  rw [updateNumDeletedItems_eq]
  cases c
  case numDeletedItems => exact absurd rfl hc
  all_goals rfl

@[simp] theorem updateNumDeletedItems_self (a : Bool) : l.updateNumDeletedItems a a = l := by
  cases a <;> rfl

/-- What `updateNumDeletedItems` leaves depends on the counters alone. -/
theorem counter_updateNumDeletedItems_congr (a b : Bool) {l₁ l₂ : BasicLinkedList κ}
    (h : ∀ c, l₁.counter c = l₂.counter c) (c : Counter) :
    (l₁.updateNumDeletedItems a b).counter c = (l₂.updateNumDeletedItems a b).counter c := by
  rw [updateNumDeletedItems_eq, updateNumDeletedItems_eq]
  cases c
  case numStaleItems => exact h .numStaleItems
  case staleSize => exact h .staleSize
  case staleMetaDataSize => exact h .staleMetaDataSize
  case numDeletedItems =>
    have hd : l₁.numDeletedItems = l₂.numDeletedItems := h .numDeletedItems
    simp only [counter]
    rw [hd]

@[simp] theorem highSeqno_markItemStale (v : OrderedStoredValue κ) (n : Option Nat) :
    (l.markItemStale v n).highSeqno = l.highSeqno := rfl

@[simp] theorem counter_markItemStale (v : OrderedStoredValue κ) (n : Option Nat) (c : Counter) :
    (l.markItemStale v n).counter c = l.counter c + c.staleShare v := by
  cases c <;> rfl

@[simp] theorem ids_markItemStale (v : OrderedStoredValue κ) (n : Option Nat) :
    (l.markItemStale v n).ids = l.ids := by
  cases n with
  | none => exact ListIter.map_modify OrderedStoredValue.id (f := markStale none) (fun _ _ _ => rfl)
  | some r =>
    show ((ListIter.modify OrderedStoredValue.id (ListIter.modify OrderedStoredValue.id l.seqList v.id
      (markStale (some r))) r (setStaleReplacement true)).map OrderedStoredValue.id) = _
    rw [ListIter.map_modify OrderedStoredValue.id (f := setStaleReplacement true) (fun _ _ _ => rfl),
      ListIter.map_modify OrderedStoredValue.id (f := markStale (some r)) (fun _ _ _ => rfl)]

theorem seqList_markItemStale_none (v : OrderedStoredValue κ) :
    (l.markItemStale v none).seqList = ListIter.modify OrderedStoredValue.id l.seqList v.id (markStale none) := rfl

/-- A value marked stale pointing at the new value `n` at the back of the
list: `n` is marked as its replacement. -/
theorem seqList_markItemStale_append {xs : List (OrderedStoredValue κ)} {v n : OrderedStoredValue κ}
    (hl : l.seqList = xs ++ [n]) (hfresh : n.id ∉ xs.map OrderedStoredValue.id) (hvn : v.id ≠ n.id) :
    (l.markItemStale v (some n.id)).seqList =
      ListIter.modify OrderedStoredValue.id xs v.id (markStale (some n.id)) ++ [n.setStaleReplacement true] := by
  have hmarked : ListIter.modify OrderedStoredValue.id (xs ++ [n]) v.id (markStale (some n.id)) =
      ListIter.modify OrderedStoredValue.id xs v.id (markStale (some n.id)) ++ [n] := by
    rw [ListIter.modify_append, ListIter.modify_of_forall_ne (l := [n])]
    simpa using hvn.symm
  have hids : n.id ∉ (ListIter.modify OrderedStoredValue.id xs v.id (markStale (some n.id))).map
      OrderedStoredValue.id := by
    rwa [ListIter.map_modify OrderedStoredValue.id (f := markStale (some n.id)) fun _ _ _ => rfl]
  show ListIter.modify OrderedStoredValue.id (ListIter.modify OrderedStoredValue.id l.seqList v.id
    (markStale (some n.id))) n.id (setStaleReplacement true) = _
  rw [hl, hmarked]
  exact ListIter.modify_append_singleton hids _

@[simp] theorem highSeqno_purgeListElem (it : OrderedStoredValue κ) (isStale isReplaced : Bool) :
    (l.purgeListElem it isStale isReplaced).highSeqno = l.highSeqno := by
  unfold purgeListElem
  dsimp only
  split_ifs <;> rfl

theorem seqList_purgeListElem (it : OrderedStoredValue κ) (isStale isReplaced : Bool) :
    (l.purgeListElem it isStale isReplaced).seqList =
      match it.stale, it.replacement with
      | true, some r => ListIter.modify OrderedStoredValue.id (ListIter.erase OrderedStoredValue.id l.seqList it.id) r
          (setStaleReplacement false)
      | _, _ => ListIter.erase OrderedStoredValue.id l.seqList it.id := by
  unfold purgeListElem
  dsimp only
  split_ifs <;> rfl

/-- The stale counters lose the value's share when the caller read it stale. -/
theorem counter_purgeListElem_of_ne (it : OrderedStoredValue κ) (isStale isReplaced : Bool) {c : Counter}
    (hc : c ≠ .numDeletedItems) :
    (l.purgeListElem it isStale isReplaced).counter c = if isStale then l.counter c - c.staleShare it else l.counter c := by
  unfold purgeListElem
  dsimp only
  cases c
  case numDeletedItems => exact absurd rfl hc
  all_goals split_ifs <;> rfl

theorem numDeletedItems_purgeListElem (it : OrderedStoredValue κ) (isStale isReplaced : Bool) :
    (l.purgeListElem it isStale isReplaced).numDeletedItems =
      if it.deleted then l.numDeletedItems - 1 else l.numDeletedItems := by
  unfold purgeListElem
  dsimp only
  split_ifs <;> rfl

/-- A fresh address is none of the list's. -/
theorem lt_freshId : ∀ {xs : List (OrderedStoredValue κ)} {o : OrderedStoredValue κ}, o ∈ xs →
    o.id < xs.foldr (fun o m => max o.id m) 0 + 1
  | a :: xs, o, ho => by
    rw [List.foldr_cons]
    rcases List.mem_cons.mp ho with rfl | ho
    · omega
    · have := lt_freshId ho
      omega

theorem freshId_not_mem : l.freshId ∉ l.ids := by
  intro h
  obtain ⟨o, ho, hid⟩ := List.mem_map.mp h
  have := lt_freshId ho
  rw [freshId] at hid
  omega

theorem freshId_ne {o : OrderedStoredValue κ} (ho : o ∈ l.seqList) : o.id ≠ l.freshId := by
  intro h
  apply freshId_not_mem (l := l)
  rw [← h]
  exact List.mem_map_of_mem ho

/-! ### The shapes of a write -/

/-- What a front-end write does to the list, in one of `updateListElem`'s
shapes: `n` is the value the hash table holds afterwards, written with a seqno
above the old high seqno, which becomes the high seqno. `b` is the deleted bit
the write passes to `updateNumDeletedItems` for what `n` replaces;
`keepsCount` says whether that is the bit of what the list counted (the bit of
`v` when `v` leaves the list, none when it stays). -/
inductive Written (l l' : BasicLinkedList κ) (keepsCount : Bool) : Prop
  /-- A new value at the back. -/
  | append (n : OrderedStoredValue κ) (hid : n.id = l.freshId) (hstale : n.stale = false)
      (hrepl : n.replacement = none) (hsr : n.staleReplacement = false)
      (hseq : l'.seqList = l.seqList ++ [n])
      (hhigh : l.highSeqno < n.bySeqno) (hhigh' : l'.highSeqno = n.bySeqno)
      (hcount : ∀ c, l'.counter c = (l.updateNumDeletedItems false n.deleted).counter c)
      (hkeeps : keepsCount = true)
  /-- The hash table's value `v`, updated to `n` and moved to the back. -/
  | move (v n : OrderedStoredValue κ) (b : Bool) (hv : v ∈ l.seqList) (hvs : v.stale = false)
      (hid : n.id = v.id) (hstale : n.stale = false) (hrepl : n.replacement = v.replacement)
      (hsr : n.staleReplacement = v.staleReplacement)
      (hseq : l'.seqList = ListIter.erase OrderedStoredValue.id l.seqList v.id ++ [n])
      (hhigh : l.highSeqno < n.bySeqno) (hhigh' : l'.highSeqno = n.bySeqno)
      (hcount : ∀ c, l'.counter c = (l.updateNumDeletedItems b n.deleted).counter c)
      (hkeeps : keepsCount = (b == v.deleted))
  /-- The hash table's value `v` left in place, marked stale, and replaced by
  `n` at the back. -/
  | replace (v n : OrderedStoredValue κ) (b : Bool) (hv : v ∈ l.seqList) (hvs : v.stale = false)
      (hid : n.id = l.freshId) (hstale : n.stale = false) (hrepl : n.replacement = none)
      (hseq : l'.seqList = ListIter.modify OrderedStoredValue.id l.seqList v.id (markStale (some n.id)) ++
        [n.setStaleReplacement true])
      (hhigh : l.highSeqno < n.bySeqno) (hhigh' : l'.highSeqno = n.bySeqno)
      (hcount : ∀ c, l'.counter c = (l.updateNumDeletedItems b n.deleted).counter c + c.staleShare v)
      (hkeeps : keepsCount = !b)

/-- `updateListElem`'s `Success`: the value moved to the back and updated
there. -/
theorem seqList_updateValue_moved {v n : OrderedStoredValue κ} (hnd : l.ids.Nodup) (hid : n.id = v.id) :
    ListIter.modify OrderedStoredValue.id (ListIter.erase OrderedStoredValue.id l.seqList v.id ++ [v]) n.id
      (fun _ => n) = ListIter.erase OrderedStoredValue.id l.seqList v.id ++ [n] := by
  have hfree : v.id ∉ (ListIter.erase OrderedStoredValue.id l.seqList v.id).map OrderedStoredValue.id :=
    fun h => by
      obtain ⟨c, hc, hcv⟩ := List.mem_map.mp h
      exact ListIter.key_ne_of_mem_erase hnd hc hcv
  rw [hid]
  exact ListIter.modify_append_singleton hfree _

/-- A new value at a fresh address, appended and then updated there. -/
theorem seqList_updateValue_appended {a n : OrderedStoredValue κ} (ha : a.id = l.freshId) (hid : n.id = a.id) :
    ListIter.modify OrderedStoredValue.id (l.seqList ++ [a]) n.id (fun _ => n) = l.seqList ++ [n] := by
  have hfree : a.id ∉ l.ids := by
    rw [ha]
    exact freshId_not_mem
  rw [hid]
  exact ListIter.modify_append_singleton hfree _

end BasicLinkedList

namespace EphemeralVBucket

open BasicLinkedList

variable {κ : Type} [DecidableEq κ] {l l' : BasicLinkedList κ}

/-! ### The writes -/

omit [DecidableEq κ] in
theorem written_addNewStoredValue (itm : Item κ) {seqno : Int} (hs : l.highSeqno < seqno) :
    Written l (addNewStoredValue itm seqno l) true :=
  .append (itm.toStoredValue l.freshId seqno) rfl rfl rfl rfl (by simp [addNewStoredValue]) hs
    (by simp [addNewStoredValue])
    (fun c => counter_updateNumDeletedItems_congr _ _ (fun c => by simp) c) rfl

omit [DecidableEq κ] in
theorem written_updateStoredValue {v : OrderedStoredValue κ} (hnd : l.ids.Nodup) (hv : v ∈ l.seqList)
    (hvs : v.stale = false) (itm : Item κ) (rangeContains : Bool) {seqno : Int} (hs : l.highSeqno < seqno) :
    Written l (updateStoredValue v itm rangeContains seqno l) true := by
  cases rangeContains with
  | false =>
    -- moved to the back and updated in place
    let n : OrderedStoredValue κ := { v with
      deleted := itm.deleted, committed := itm.committed, valueSize := itm.valueSize, bySeqno := seqno }
    refine .move v n v.deleted hv hvs rfl hvs rfl rfl ?_ hs rfl ?_ (by simp)
    · simp only [updateStoredValue, updateListElem_false, seqList_updateHighSeqno, seqList_updateNumDeletedItems,
        seqList_updateValue]
      exact seqList_updateValue_moved (v := v) (n := n) hnd rfl
    · intro c
      simp only [updateStoredValue, updateListElem_false, counter_updateHighSeqno]
      exact counter_updateNumDeletedItems_congr _ _ (fun c => by cases c <;> rfl) c
  | true =>
    -- left in place, stale, behind a new value
    have hvn : v.id ≠ l.freshId := freshId_ne hv
    refine .replace v (itm.toStoredValue l.freshId seqno) false hv hvs rfl rfl rfl ?_ hs rfl ?_ rfl
    · exact seqList_markItemStale_append (v := v) (n := itm.toStoredValue l.freshId seqno) (by simp)
        freshId_not_mem hvn
    · intro c
      simp only [updateStoredValue, updateListElem_true, counter_markItemStale, counter_updateHighSeqno]
      rw [counter_updateNumDeletedItems_congr _ _ (fun c => counter_appendToList _ c)]
      rfl

omit [DecidableEq κ] in
theorem written_softDeleteStoredValue {v : OrderedStoredValue κ} (hnd : l.ids.Nodup) (hv : v ∈ l.seqList)
    (hvs : v.stale = false) {onlyMarkDeleted rangeContains : Bool} {seqno : Int} (hs : l.highSeqno < seqno)
    (h : softDeleteStoredValue v onlyMarkDeleted rangeContains seqno l = .ok l') : Written l l' true := by
  unfold softDeleteStoredValue at h
  cases rangeContains with
  | false =>
    simp only [updateListElem_false] at h
    unfold softDelete at h
    split at h
    · cases h
    · cases h
      let n : OrderedStoredValue κ := { v with
        deleted := true, valueSize := if onlyMarkDeleted then v.valueSize else 0,
        committed := .committedViaMutation, bySeqno := seqno }
      refine .move v n v.deleted hv hvs rfl hvs rfl rfl ?_ hs rfl ?_ (by simp)
      · simp only [seqList_updateHighSeqno, seqList_updateValue, seqList_updateNumDeletedItems]
        exact seqList_updateValue_moved (v := v) (n := n) hnd rfl
      · intro c
        simp only [counter_updateHighSeqno, counter_updateValue]
        exact counter_updateNumDeletedItems_congr _ _ (fun c => by cases c <;> rfl) c
  | true =>
    simp only [updateListElem_true] at h
    unfold softDelete replaceByCopy at h
    split at h
    · cases h
    · cases h
      have hvn : v.id ≠ l.freshId := freshId_ne hv
      let n : OrderedStoredValue κ := { v with
        id := l.freshId, replacement := none, staleReplacement := false, deleted := true,
        valueSize := if onlyMarkDeleted then v.valueSize else 0, committed := .committedViaMutation,
        bySeqno := seqno }
      refine .replace v n false hv hvs rfl hvs rfl ?_ hs rfl ?_ rfl
      · refine seqList_markItemStale_append (v := v) (n := n) ?_ freshId_not_mem hvn
        simp only [seqList_updateHighSeqno, seqList_updateValue, seqList_updateNumDeletedItems,
          seqList_appendToList]
        exact seqList_updateValue_appended (n := n) (a := { v with
          id := l.freshId, replacement := none, staleReplacement := false }) rfl rfl
      · intro c
        simp only [counter_markItemStale, counter_updateHighSeqno, counter_updateValue]
        rw [counter_updateNumDeletedItems_congr _ _ (fun c => counter_appendToList _ c)]


omit [DecidableEq κ] in
theorem written_abortStoredValue {p : OrderedStoredValue κ} (hnd : l.ids.Nodup) (hp : p ∈ l.seqList)
    (hps : p.stale = false) {rangeContains : Bool} {seqno : Int} (hs : l.highSeqno < seqno)
    (h : abortStoredValue p rangeContains seqno l = .ok l') : Written l l' (!p.deleted) := by
  unfold abortStoredValue at h
  split at h
  · cases h
  cases rangeContains with
  | false =>
    simp only [updateListElem_false] at h
    cases h
    let n : OrderedStoredValue κ := { p with bySeqno := seqno, committed := .prepareAborted }
    refine .move p n false hp hps rfl hps rfl rfl ?_ hs rfl ?_ (by cases p.deleted <;> rfl)
    · simp only [updateSeqListPostAbort, seqList_updateHighSeqno, seqList_updateNumDeletedItems,
        seqList_updateValue]
      exact seqList_updateValue_moved (v := p) (n := n) hnd rfl
    · intro c
      simp only [updateSeqListPostAbort, counter_updateHighSeqno, Option.map_none, Option.getD_none]
      exact counter_updateNumDeletedItems_congr _ _ (fun c => by cases c <;> rfl) c
  | true =>
    simp only [updateListElem_true] at h
    cases h
    have hpn : p.id ≠ l.freshId := freshId_ne hp
    let n : OrderedStoredValue κ := { p with
      id := l.freshId, replacement := none, staleReplacement := false, bySeqno := seqno,
      committed := .prepareAborted }
    refine .replace p n p.deleted hp hps rfl hps rfl ?_ hs rfl ?_ rfl
    · refine seqList_markItemStale_append (v := p) (n := n) ?_ freshId_not_mem hpn
      simp only [updateSeqListPostAbort, seqList_updateHighSeqno, seqList_updateNumDeletedItems,
        seqList_updateValue, seqList_appendToList]
      exact seqList_updateValue_appended (n := n) (a := replaceByCopy p l) rfl rfl
    · intro c
      simp only [updateSeqListPostAbort, counter_markItemStale, counter_updateHighSeqno, Option.map_some,
        Option.getD_some]
      have hsame : ∀ c, ((l.appendToList (replaceByCopy p l)).updateValue n).counter c = l.counter c :=
        fun c => by simp
      exact congrArg (· + c.staleShare p) (counter_updateNumDeletedItems_congr _ _ hsame c)

omit [DecidableEq κ] in
theorem written_addNewAbort (k : κ) (objectSize : Nat) {seqno : Int} (hs : l.highSeqno < seqno) :
    Written l (addNewAbort k objectSize seqno l) true :=
  .append ((⟨k, objectSize, true, .prepareAborted, 0⟩ : Item κ).toStoredValue l.freshId seqno) rfl rfl rfl rfl
    (by simp [addNewAbort, updateSeqListPostAbort]) hs (by simp [addNewAbort, updateSeqListPostAbort])
    (fun c => by
      simp only [addNewAbort, updateSeqListPostAbort, counter_updateHighSeqno, Option.map_none,
        Option.getD_none]
      exact counter_updateNumDeletedItems_congr _ _ (fun c => counter_appendToList _ c) c) rfl

omit [DecidableEq κ] in
/-- The values of the list other than the one written stay. -/
theorem mem_updateStoredValue {o v : OrderedStoredValue κ} (ho : o ∈ l.seqList) (hne : o.id ≠ v.id)
    (itm : Item κ) (rangeContains : Bool) (seqno : Int) :
    o ∈ (updateStoredValue v itm rangeContains seqno l).seqList := by
  cases rangeContains with
  | false =>
    simp only [updateStoredValue, updateListElem_false, seqList_updateHighSeqno, seqList_updateNumDeletedItems,
      seqList_updateValue]
    exact ListIter.mem_modify_of_key_ne
      (List.mem_append_left _ (ListIter.mem_erase_of_key_ne ho hne)) hne
  | true =>
    simp only [updateStoredValue, updateListElem_true]
    exact ListIter.mem_modify_of_key_ne (ListIter.mem_modify_of_key_ne (by simp [ho]) hne) (freshId_ne ho)

omit [DecidableEq κ] in
theorem mem_addNewStoredValue {o : OrderedStoredValue κ} (ho : o ∈ l.seqList) (itm : Item κ) (seqno : Int) :
    o ∈ (addNewStoredValue itm seqno l).seqList := by
  simp [addNewStoredValue, ho]

/-! ### The hash table's values -/

omit [DecidableEq κ] in
theorem htValue_spec {id : Nat} {v : OrderedStoredValue κ} (h : htValue id l = some v) :
    v ∈ l.seqList ∧ v.stale = false := by
  refine ⟨List.mem_of_find?_eq_some h, ?_⟩
  have := List.find?_some h
  simp only [Bool.and_eq_true, Bool.not_eq_true'] at this
  exact this.2

theorem findForUpdate_fst {k : κ} {p : OrderedStoredValue κ} (h : (findForUpdate k l).1 = some p) :
    p ∈ l.seqList ∧ p.stale = false ∧ (p.isPending || p.isPrepareCompleted) = true := by
  refine ⟨List.mem_of_find?_eq_some h, ?_⟩
  have := List.find?_some h
  simp only [Bool.and_eq_true, Bool.not_eq_true'] at this
  exact ⟨this.1.1, this.2⟩

theorem findForUpdate_snd {k : κ} {c : OrderedStoredValue κ} (h : (findForUpdate k l).2 = some c) :
    c ∈ l.seqList ∧ c.stale = false ∧ (c.isPending || c.isPrepareCompleted) = false := by
  refine ⟨List.mem_of_find?_eq_some h, ?_⟩
  have := List.find?_some h
  simp only [Bool.and_eq_true, Bool.not_eq_true'] at this
  exact ⟨this.1.1, this.2⟩

theorem key_of_findForUpdate_fst {k : κ} {p : OrderedStoredValue κ} (h : (findForUpdate k l).1 = some p) :
    p.key = k := by
  have := List.find?_some h
  simp only [Bool.and_eq_true, beq_iff_eq] at this
  exact this.1.2

theorem key_of_findForUpdate_snd {k : κ} {c : OrderedStoredValue κ} (h : (findForUpdate k l).2 = some c) :
    c.key = k := by
  have := List.find?_some h
  simp only [Bool.and_eq_true, beq_iff_eq] at this
  exact this.1.2

/-- The prepare and the committed value of a key are two values of the list. -/
theorem findForUpdate_id_ne {k : κ} {p c : OrderedStoredValue κ} (hnd : l.ids.Nodup)
    (hp : (findForUpdate k l).1 = some p) (hc : (findForUpdate k l).2 = some c) : c.id ≠ p.id := by
  obtain ⟨hpm, -, hpn⟩ := findForUpdate_fst hp
  obtain ⟨hcm, -, hcn⟩ := findForUpdate_snd hc
  intro hid
  have hcp : c = p := List.inj_on_of_nodup_map hnd hcm hpm hid
  rw [hcp, hpn] at hcn
  cases hcn

/-- A commit: the write of the prepare's item, then the prepare completed in
place. -/
theorem commitStoredValue_spec {k : κ} (hnd : l.ids.Nodup) {rangeContains : Bool} {seqno : Int}
    (hs : l.highSeqno < seqno) (h : commitStoredValue k rangeContains seqno l = .ok l') :
    ∃ l₁ p, Written l l₁ true ∧ p ∈ l₁.seqList ∧ p.stale = false ∧
      l' = l₁.updateValue { p with committed := .prepareCommitted } := by
  unfold commitStoredValue at h
  split at h
  · cases h
  next p committed hfind =>
    have hp : (findForUpdate k l).1 = some p := by rw [hfind]
    obtain ⟨hpm, hps, -⟩ := findForUpdate_fst hp
    cases h
    cases hc : committed with
    | none =>
      exact ⟨_, p, written_addNewStoredValue _ hs, mem_addNewStoredValue hpm _ _, hps, rfl⟩
    | some c =>
      have hc' : (findForUpdate k l).2 = some c := by rw [hfind, hc]
      obtain ⟨hcm, hcs, -⟩ := findForUpdate_snd hc'
      have hne : p.id ≠ c.id := (findForUpdate_id_ne hnd hp hc').symm
      exact ⟨_, p, written_updateStoredValue hnd hcm hcs _ _ hs, mem_updateStoredValue hpm hne _ _ _, hps, rfl⟩

/-! ### Values released from the hash table -/

omit [DecidableEq κ] in
theorem mem_markItemStale_none {o v : OrderedStoredValue κ} (ho : o ∈ l.seqList) (hne : o.id ≠ v.id) :
    o ∈ (l.markItemStale v none).seqList :=
  ListIter.mem_modify_of_key_ne ho hne

omit [DecidableEq κ] in
theorem exists_of_mem_markItemStale_none {o' v : OrderedStoredValue κ}
    (h : o' ∈ (l.markItemStale v none).seqList) : ∃ o ∈ l.seqList, o' = o ∨ o' = o.markStale none :=
  ListIter.exists_of_mem_modify h

/-- `dropKey` releases at most the two values of a key: an invariant kept by
releasing a live value of the key is kept by `dropKey`. -/
theorem dropKey_induction (P : BasicLinkedList κ → Prop) (hnd : ∀ l, P l → l.ids.Nodup) {k : κ}
    (hmark : ∀ l v, P l → v ∈ l.seqList → v.stale = false → v.key = k → P (l.markItemStale v none))
    (hl : P l) : P (dropKey k l) := by
  unfold dropKey dropStoredValue
  rcases hf : findForUpdate k l with ⟨pending, committed⟩
  dsimp only
  cases pending with
  | none =>
    cases committed with
    | none => exact hl
    | some c =>
      have hc : (findForUpdate k l).2 = some c := by rw [hf]
      obtain ⟨hcm, hcs, -⟩ := findForUpdate_snd hc
      exact hmark l c hl hcm hcs (key_of_findForUpdate_snd hc)
  | some p =>
    have hp : (findForUpdate k l).1 = some p := by rw [hf]
    obtain ⟨hpm, hps, -⟩ := findForUpdate_fst hp
    have hl₁ := hmark l p hl hpm hps (key_of_findForUpdate_fst hp)
    cases committed with
    | none => exact hl₁
    | some c =>
      have hc : (findForUpdate k l).2 = some c := by rw [hf]
      obtain ⟨hcm, hcs, -⟩ := findForUpdate_snd hc
      exact hmark _ c hl₁ (mem_markItemStale_none hcm (findForUpdate_id_ne (hnd l hl) hp hc)) hcs
        (key_of_findForUpdate_snd hc)

/-- What is in the list after `dropKey` was there, or was released. -/
theorem exists_of_mem_dropKey {k : κ} {o' : OrderedStoredValue κ} (hnd : l.ids.Nodup)
    (h : o' ∈ (dropKey k l).seqList) : ∃ o ∈ l.seqList, o' = o ∨ o' = o.markStale none := by
  -- the invariant of the two releases: the same addresses, each value from one of `l`
  let Q : BasicLinkedList κ → Prop := fun l₁ =>
    l₁.ids = l.ids ∧ ∀ o' ∈ l₁.seqList, ∃ o ∈ l.seqList, o' = o ∨ o' = o.markStale none
  have hmark : ∀ l₁ v, Q l₁ → v ∈ l₁.seqList → v.stale = false → v.key = k → Q (l₁.markItemStale v none) := by
    rintro l₁ v ⟨hids, hfrom⟩ - - -
    refine ⟨by rw [ids_markItemStale, hids], fun o'' ho'' => ?_⟩
    obtain ⟨o', ho', h''⟩ := exists_of_mem_markItemStale_none ho''
    obtain ⟨o, ho, h'⟩ := hfrom o' ho'
    refine ⟨o, ho, ?_⟩
    rcases h'' with rfl | rfl <;> rcases h' with rfl | rfl
    · exact .inl rfl
    · exact .inr rfl
    · exact .inr rfl
    · exact .inr rfl
  have hQ : Q (dropKey k l) :=
    dropKey_induction Q (fun l₁ h₁ => h₁.1 ▸ hnd) hmark ⟨rfl, fun o' ho' => ⟨o', ho', .inl rfl⟩⟩
  exact hQ.2 o' h

/-- `dropKey` leaves the values of every other key. -/
theorem mem_dropKey_of_key_ne {k : κ} {x : OrderedStoredValue κ} (hnd : l.ids.Nodup) (hx : x ∈ l.seqList)
    (hk : x.key ≠ k) : x ∈ (dropKey k l).seqList := by
  let Q : BasicLinkedList κ → Prop := fun l₁ => l₁.ids = l.ids ∧ x ∈ l₁.seqList
  have hmark : ∀ l₁ v, Q l₁ → v ∈ l₁.seqList → v.stale = false → v.key = k → Q (l₁.markItemStale v none) := by
    rintro l₁ v ⟨hids, hx₁⟩ hv - hvk
    -- `v` is of key `k`, so not `x`
    have hnd₁ : l₁.ids.Nodup := by
      rw [hids]
      exact hnd
    have hne : x.id ≠ v.id := fun hid => by
      rw [List.inj_on_of_nodup_map hnd₁ hx₁ hv hid, hvk] at hk
      exact hk rfl
    exact ⟨by rw [ids_markItemStale, hids], mem_markItemStale_none hx₁ hne⟩
  exact (dropKey_induction Q (fun l₁ h₁ => h₁.1 ▸ hnd) hmark ⟨rfl, hx⟩).2

/-! ### A purge -/

/-- One value of a purge with the dropped-collection callback: nothing
happens; a stale value no other points at is purged; or a live value whose
key is logically deleted is released with its key, and then purged too unless
a stale value points at it. -/
theorem purgeOne_cases {f : κ → Int → Bool} {it : OrderedStoredValue κ} (hnd : l.ids.Nodup)
    (hit : it ∈ l.seqList) :
    purgeOne (droppedCollectionCallback f) it l = (false, l) ∨
    (it.stale = true ∧ it.staleReplacement = false ∧
      purgeOne (droppedCollectionCallback f) it l = (true, l.purgeListElem it true it.replacement.isSome)) ∨
    (it.stale = false ∧ f it.key it.bySeqno = true ∧
      purgeOne (droppedCollectionCallback f) it l = (false, dropKey it.key l)) ∨
    (it.stale = false ∧ f it.key it.bySeqno = true ∧ it.staleReplacement = false ∧
      ∃ cur ∈ (dropKey it.key l).seqList, (cur = it ∨ cur = it.markStale none) ∧
        purgeOne (droppedCollectionCallback f) it l = (true, (dropKey it.key l).purgeListElem cur false false)) := by
  unfold purgeOne droppedCollectionCallback
  cases hs : it.stale with
  | true =>
    cases hsr : it.staleReplacement with
    | true => exact .inl (by simp)
    | false =>
      refine .inr (.inl ⟨rfl, rfl, ?_⟩)
      simp [ListIter.find_eq_of_mem hnd hit]
  | false =>
    cases hf : f it.key it.bySeqno with
    | false => exact .inl (by simp)
    | true =>
      cases hsr : it.staleReplacement with
      | true => exact .inr (.inr (.inl ⟨rfl, rfl, by simp⟩))
      | false =>
        cases hfind : ListIter.find OrderedStoredValue.id (dropKey it.key l).seqList it.id with
        | none => exact .inr (.inr (.inl ⟨rfl, rfl, by simp [hfind]⟩))
        | some cur =>
          obtain ⟨hcur, hcid⟩ := ListIter.mem_of_find_eq_some hfind
          -- the value found at the address is `it`, released or not
          have horigin : cur = it ∨ cur = it.markStale none := by
            obtain ⟨o, ho, hco⟩ := exists_of_mem_dropKey hnd hcur
            have hoid : o.id = it.id := by rcases hco with rfl | rfl <;> exact hcid
            rw [List.inj_on_of_nodup_map hnd ho hit hoid] at hco
            exact hco
          refine .inr (.inr (.inr ⟨rfl, rfl, rfl, cur, hcur, horigin, ?_⟩))
          simp [hfind]

end EphemeralVBucket

namespace BasicLinkedList

variable {κ : Type} {l l' : BasicLinkedList κ}

/-- A purge starts at a value of the list and goes on to its end. -/
theorem purgeFrom_suffix (l : BasicLinkedList κ) : l.purgeFrom <:+ l.seqList := by
  unfold purgeFrom
  split
  · exact List.dropWhile_suffix _
  · exact List.suffix_refl _

section PurgeRun

variable (P : Nat → BasicLinkedList κ → Prop)
  (hpaused : ∀ n l p, P n l → P n { l with pausedPurgePoint := p })

include hpaused

/-- The loop of `purgeTombstones` keeps an invariant of the count so far and
the list that `purgeOne` keeps on the values it reaches: values at the
addresses it was given, at most `lastLockedSeqno`. -/
theorem purgeLoop_induction {cb : κ → Int → BasicLinkedList κ → Bool × BasicLinkedList κ}
    {shouldPause : Nat → Bool} {lastLockedSeqno purgeUpToSeqno : Int} :
    ∀ (ids : List Nat), (∀ n l it, P n l → it ∈ l.seqList → it.bySeqno ≤ lastLockedSeqno → it.id ∈ ids →
      P (if (purgeOne cb it l).1 then n + 1 else n) (purgeOne cb it l).2) →
    ∀ (visited purgedCount : Nat) (l : BasicLinkedList κ), P purgedCount l →
      P (purgeLoop cb shouldPause lastLockedSeqno purgeUpToSeqno ids visited purgedCount l).1
        (purgeLoop cb shouldPause lastLockedSeqno purgeUpToSeqno ids visited purgedCount l).2
  | [], _, _, _, _, hl => hl
  | i :: rest, hone, visited, purgedCount, l, hl => by
    unfold purgeLoop
    cases hfind : ListIter.find OrderedStoredValue.id l.seqList i with
    | none => exact hl
    | some it =>
      obtain ⟨hit, hid⟩ := ListIter.mem_of_find_eq_some hfind
      dsimp only
      by_cases hpast : lastLockedSeqno < it.bySeqno
      · -- past the locked range: at most the paused point moves
        rw [if_pos hpast]
        dsimp only
        split_ifs
        · exact hpaused _ l _ hl
        · exact hl
      · rw [if_neg hpast]
        by_cases hzero : it.bySeqno ≤ 0
        · rw [if_pos hzero]
          exact hl
        · rw [if_neg hzero]
          have hl₁ := hone purgedCount l it hl hit (not_lt.mp hpast) (hid ▸ List.mem_cons_self ..)
          generalize purgeOne cb it l = r at hl₁ ⊢
          obtain ⟨purged, l₁⟩ := r
          dsimp only at hl₁ ⊢
          by_cases hpause : shouldPause (visited + 1) = true
          · rw [if_pos hpause]
            exact hpaused _ l₁ _ hl₁
          · rw [if_neg hpause]
            exact purgeLoop_induction rest
              (fun n l it h hit hle hmem => hone n l it h hit hle (List.mem_cons_of_mem _ hmem)) _ _ l₁ hl₁

/-- `purgeTombstones` keeps an invariant that holds with nothing purged and
that `purgeOne` keeps on the values it reaches: values from where it starts,
at most the end of the range it locked, which is at most `purgeUpToSeqno`. -/
theorem purgeTombstones_induction {cb : κ → Int → BasicLinkedList κ → Bool × BasicLinkedList κ}
    {shouldPause : Nat → Bool} {lockedEnd : Option Int} {purgeUpToSeqno : Int} {n : Nat}
    (hone : ∀ n l₁ it, P n l₁ → it ∈ l₁.seqList →
      (∃ lastLockedSeqno, lockedEnd = some lastLockedSeqno ∧ it.bySeqno ≤ lastLockedSeqno ∧
        lastLockedSeqno ≤ purgeUpToSeqno) → it.id ∈ l.purgeFrom.map OrderedStoredValue.id →
      P (if (purgeOne cb it l₁).1 then n + 1 else n) (purgeOne cb it l₁).2)
    (hl : P 0 l) (h : l.purgeTombstones purgeUpToSeqno cb shouldPause lockedEnd = .ok (n, l')) : P n l' := by
  unfold purgeTombstones at h
  have hl₀ := hpaused 0 l none hl
  split_ifs at h
  · cases h
    exact hl
  dsimp only at h
  split at h
  · cases h
    exact hl₀
  split_ifs at h
  · cases h
    exact hl₀
  split at h
  · cases h
    exact hl₀
  -- the split substitutes the lock's end into `lockedEnd`
  rename_i _ lastLockedSeqno
  split_ifs at h with hstart hend
  have hres := Except.ok.inj h
  have hn := congrArg Prod.fst hres
  have hl' := congrArg Prod.snd hres
  dsimp only at hn hl'
  rw [← hn, ← hl']
  -- a granted lock ends at most at `purgeUpToSeqno`
  refine purgeLoop_induction P hpaused _ (fun n l₁ it h₁ hit hle hmem => hone n l₁ it h₁ hit ?_ ?_) _ _ _ hl₀
  · exact ⟨lastLockedSeqno, rfl, hle, not_lt.mp hend⟩
  · exact hmem

end PurgeRun

end BasicLinkedList

namespace EphemeralVBucket

open BasicLinkedList

variable {κ : Type} [DecidableEq κ] {l l' : BasicLinkedList κ}

/-- What a run of `purgeStaleItems` from `l` knows of a value it reaches: it
is below the high seqno, within the range locked up to `lockedEnd`, and one of
the values from where the run started. -/
structure Reached (l : BasicLinkedList κ) (lockedEnd : Option Int) (it : OrderedStoredValue κ) : Prop where
  lt_high : it.bySeqno < l.highSeqno
  locked : ∃ lastLockedSeqno, lockedEnd = some lastLockedSeqno ∧ it.bySeqno ≤ lastLockedSeqno
  from_start : it.id ∈ l.purgeFrom.map OrderedStoredValue.id

/-- A run of `purgeStaleItems` keeps an invariant of the count and the list
that holds with nothing purged and that `purgeOne` keeps on the values it
reaches. -/
theorem purgeStaleItems_count_induction (P : Nat → BasicLinkedList κ → Prop)
    (hpaused : ∀ n l p, P n l → P n { l with pausedPurgePoint := p }) {f : κ → Int → Bool}
    {shouldPause : Nat → Bool} {lockedEnd : Option Int} {n : Nat}
    (hone : ∀ n l₁ it, P n l₁ → it ∈ l₁.seqList → Reached l lockedEnd it →
      P (if (purgeOne (droppedCollectionCallback f) it l₁).1 then n + 1 else n)
        (purgeOne (droppedCollectionCallback f) it l₁).2)
    (hl : P 0 l) (h : purgeStaleItems f shouldPause lockedEnd l = .ok (n, l')) : P n l' := by
  unfold purgeStaleItems at h
  split_ifs at h
  · cases h
    exact hl
  · refine purgeTombstones_induction P hpaused (fun n l₁ it hl₁ hit hlocked hmem => hone n l₁ it hl₁ hit ?_) hl h
    obtain ⟨lastLockedSeqno, hend, hle, hle'⟩ := hlocked
    -- the lock ends at most at `purgeUpToSeqno`, below the high seqno
    exact ⟨by omega, ⟨lastLockedSeqno, hend, hle⟩, hmem⟩

/-- `purgeStaleItems_count_induction` for an invariant of the list alone. -/
theorem purgeStaleItems_induction (P : BasicLinkedList κ → Prop)
    (hpaused : ∀ l p, P l → P { l with pausedPurgePoint := p }) {f : κ → Int → Bool}
    {shouldPause : Nat → Bool} {lockedEnd : Option Int} {n : Nat}
    (hone : ∀ l₁ it, P l₁ → it ∈ l₁.seqList → Reached l lockedEnd it →
      P (purgeOne (droppedCollectionCallback f) it l₁).2)
    (hl : P l) (h : purgeStaleItems f shouldPause lockedEnd l = .ok (n, l')) : P l' :=
  purgeStaleItems_count_induction (fun _ l₁ => P l₁) (fun _ l₁ p h₁ => hpaused l₁ p h₁)
    (fun _ l₁ it h₁ hit hreached => hone l₁ it h₁ hit hreached) hl h

/-! ### A step -/

/-- What a step can do to the list: a write in one of the three shapes (an
abort keeping the count when its prepare is not deleted), a commit, the
release of a live value, nothing, or a purge. -/
theorem step_cases {e : Event κ} (hnd : l.ids.Nodup) (h : step l e = some l') :
    Written l l' true ∨
    (∃ k rangeContains seqno p, e = .abortStoredValue k rangeContains seqno ∧ (findForUpdate k l).1 = some p ∧
      Written l l' (!p.deleted)) ∨
    (∃ l₁ p, Written l l₁ true ∧ p ∈ l₁.seqList ∧ p.stale = false ∧
      l' = l₁.updateValue { p with committed := .prepareCommitted }) ∨
    (∃ v ∈ l.seqList, v.stale = false ∧ l' = l.markItemStale v none) ∨
    l' = l ∨
    (∃ f shouldPause lockedEnd n, e = .purgeStaleItems f shouldPause lockedEnd ∧
      purgeStaleItems f shouldPause lockedEnd l = .ok (n, l')) := by
  cases e with
  | addNewStoredValue itm seqno =>
    simp only [step] at h
    split_ifs at h with hs
    cases h
    exact .inl (written_addNewStoredValue itm hs)
  | updateStoredValue id itm rangeContains seqno =>
    simp only [step] at h
    split at h
    next v hv =>
      split_ifs at h with hg
      cases h
      obtain ⟨hvm, hvs⟩ := htValue_spec hv
      exact .inl (written_updateStoredValue hnd hvm hvs itm rangeContains hg.1)
    next => cases h
  | softDeleteStoredValue id onlyMarkDeleted rangeContains seqno =>
    simp only [step] at h
    split at h
    next v hv =>
      split_ifs at h with hs
      obtain ⟨hvm, hvs⟩ := htValue_spec hv
      exact .inl (written_softDeleteStoredValue hnd hvm hvs hs (Except.toOption_eq_some.mp h))
    next => cases h
  | commitStoredValue k rangeContains seqno =>
    simp only [step] at h
    split_ifs at h with hs
    exact .inr (.inr (.inl (commitStoredValue_spec hnd hs (Except.toOption_eq_some.mp h))))
  | abortStoredValue k rangeContains seqno =>
    simp only [step] at h
    split at h
    next p hp =>
      split_ifs at h with hs
      obtain ⟨hpm, hps, -⟩ := findForUpdate_fst hp
      exact .inr (.inl ⟨k, rangeContains, seqno, p, rfl, hp,
        written_abortStoredValue hnd hpm hps hs (Except.toOption_eq_some.mp h)⟩)
    next => cases h
  | addNewAbort k objectSize seqno =>
    simp only [step] at h
    split_ifs at h with hs
    cases h
    exact .inl (written_addNewAbort k objectSize hs)
  | visit id expired =>
    simp only [step] at h
    obtain ⟨v, hv, rfl⟩ := Option.map_eq_some_iff.mp h
    obtain ⟨hvm, hvs⟩ := htValue_spec hv
    unfold visit
    split_ifs
    · exact .inr (.inr (.inr (.inl ⟨v, hvm, hvs, rfl⟩)))
    · exact .inr (.inr (.inr (.inr (.inl rfl))))
  | purgeStaleItems f shouldPause lockedEnd =>
    simp only [step] at h
    obtain ⟨⟨n, l₁⟩, hr, rfl⟩ := Option.map_eq_some_iff.mp h
    exact .inr (.inr (.inr (.inr (.inr ⟨f, shouldPause, lockedEnd, n, rfl, Except.toOption_eq_some.mp hr⟩))))

end EphemeralVBucket

end KvEngine.Ephemeral
