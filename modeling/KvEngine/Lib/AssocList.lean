import Mathlib

/-!
# Association lists as finite maps

A list of pairs with distinct keys read through `List.lookup` is a finite
map. These are the facts about the edits a store makes to such a list:
dropping the pairs whose key passes a test (`filter`), adding a pair for a
new key at the end, and giving the pairs of one key a new value (`map`).

- `lookup_filter_key`: `lookup` after dropping keys.
- `lookup_append_singleton`: `lookup` after appending a pair for a new key.
- `lookup_map_replace`: `lookup` after the pairs of one key get a new value.
- `lookup_eq_none_of_not_mem`, `not_mem_of_lookup_eq_none`,
  `lookup_append_cons_of_not_mem`: `lookup` of a key that is not there, and of
  the first pair with a key.
- `mem_of_lookup_eq_some`, `lookup_eq_some_iff_mem`: what `lookup` finds is a
  pair of the list; with distinct keys, the map and the list have the same
  pairs, and a search over the pairs (`any_eq_true_iff_lookup`) finds what
  `lookup` finds.
- `nodup_keys_filter`, `nodup_keys_append_singleton`: the keys stay distinct.
- `modifyKey`, `tryEmplace`: a value updated in place, and the
  `try_emplace`-then-update idiom of `std::unordered_map`, with their
  `lookup` lemmas `lookup_modifyKey`, `lookup_tryEmplace`; `emplace`, the
  insertion that keeps a value already there (`lookup_emplace`).
-/

namespace AssocList

variable {α β : Type*}

theorem nodup_keys_filter (f : α × β → Bool) {l : List (α × β)} (h : (l.map Prod.fst).Nodup) :
    ((l.filter f).map Prod.fst).Nodup :=
  (List.filter_sublist.map Prod.fst).nodup h

theorem nodup_keys_append_singleton {l : List (α × β)} {k : α} (v : β)
    (h : (l.map Prod.fst).Nodup) (hk : k ∉ l.map Prod.fst) :
    ((l ++ [(k, v)]).map Prod.fst).Nodup := by
  rw [List.map_append, List.nodup_append]
  refine ⟨h, List.nodup_cons.mpr ⟨List.not_mem_nil, List.nodup_nil⟩, ?_⟩
  intro a ha b hb
  simp only [List.map_cons, List.map_nil, List.mem_singleton] at hb
  rintro rfl
  exact hk (hb ▸ ha)

section Lookup

variable [BEq α] [LawfulBEq α]

theorem lookup_filter_key (f : α → Bool) (q : α) :
    ∀ l : List (α × β), (l.filter fun kv => f kv.1).lookup q = if f q then l.lookup q else none
  | [] => by simp
  | (k, v) :: l => by
    simp only [List.filter_cons]
    by_cases hq : q = k
    · subst hq
      cases hf : f q <;> simp [hf, lookup_filter_key f q l]
    · have hb : (q == k) = false := beq_eq_false_iff_ne.mpr hq
      cases f k <;> simp [List.lookup_cons, hb, lookup_filter_key f q l]

theorem lookup_append_singleton (l : List (α × β)) (k q : α) (v : β) (hk : k ∉ l.map Prod.fst) :
    (l ++ [(k, v)]).lookup q = if q == k then some v else l.lookup q := by
  induction l with
  | nil =>
    simp only [List.nil_append, List.lookup_cons, List.lookup_nil]
    cases q == k <;> rfl
  | cons p l ih =>
    obtain ⟨k', v'⟩ := p
    have hk' : k ≠ k' := fun h => hk (by simp [h])
    have ih := ih (fun h => hk (List.mem_cons_of_mem _ h))
    by_cases hq : q = k'
    · subst hq
      have hb : (q == k) = false := beq_eq_false_iff_ne.mpr (Ne.symm hk')
      simp [hb]
    · have hb : (q == k') = false := beq_eq_false_iff_ne.mpr hq
      simp only [List.cons_append, List.lookup_cons, hb, ih]

theorem lookup_eq_none_of_not_mem {k : α} : ∀ {l : List (α × β)}, k ∉ l.map Prod.fst → l.lookup k = none
  | [], _ => rfl
  | (k', v') :: l, hk => by
    have hb : (k == k') = false := beq_eq_false_iff_ne.mpr fun he => hk (by simp [he])
    rw [List.lookup_cons, hb]
    exact lookup_eq_none_of_not_mem fun h => hk (List.mem_cons_of_mem _ h)

theorem not_mem_of_lookup_eq_none {k : α} {l : List (α × β)} (h : l.lookup k = none) :
    k ∉ l.map Prod.fst := by
  intro hk
  obtain ⟨⟨k', v⟩, hp, rfl⟩ := List.mem_map.mp hk
  simpa using List.lookup_eq_none_iff.mp h _ hp

theorem lookup_append_cons_of_not_mem {k : α} {v : β} {bs : List (α × β)} :
    ∀ {as : List (α × β)}, k ∉ as.map Prod.fst → (as ++ (k, v) :: bs).lookup k = some v
  | [], _ => by simp
  | (k', v') :: as, hk => by
    have hb : (k == k') = false := beq_eq_false_iff_ne.mpr fun he => hk (by simp [he])
    rw [List.cons_append, List.lookup_cons, hb]
    exact lookup_append_cons_of_not_mem fun h => hk (List.mem_cons_of_mem _ h)

theorem mem_of_lookup_eq_some {k : α} {v : β} : ∀ {l : List (α × β)}, l.lookup k = some v → (k, v) ∈ l
  | [], h => nomatch h
  | (k', v') :: l, h => by
    by_cases hk : k = k'
    · subst hk
      simp only [List.lookup_cons, beq_self_eq_true, Option.some.injEq] at h
      rw [h]
      exact List.mem_cons_self
    · rw [List.lookup_cons, beq_eq_false_iff_ne.mpr hk] at h
      exact List.mem_cons_of_mem _ (mem_of_lookup_eq_some h)

/-- With distinct keys, `lookup` finds exactly the pairs of the list. -/
theorem lookup_eq_some_iff_mem {k : α} {v : β} :
    ∀ {l : List (α × β)}, (l.map Prod.fst).Nodup → (l.lookup k = some v ↔ (k, v) ∈ l)
  | [], _ => by simp
  | (k', v') :: l, hnd => by
    obtain ⟨hk', hnd⟩ := List.nodup_cons.mp hnd
    by_cases hk : k = k'
    · subst hk
      -- the first pair has the key, and no later one does
      simp only [List.lookup_cons, beq_self_eq_true, Option.some.injEq, List.mem_cons, Prod.mk.injEq,
        true_and]
      constructor
      · rintro rfl
        exact .inl rfl
      · rintro (rfl | h)
        · rfl
        · exact absurd (List.mem_map_of_mem h) hk'
    · have hb : (k == k') = false := beq_eq_false_iff_ne.mpr hk
      rw [List.lookup_cons, hb, lookup_eq_some_iff_mem hnd]
      simp [hk]

/-- With distinct keys, a search over the pairs finds what `lookup` finds. -/
theorem any_eq_true_iff_lookup (f : α → β → Bool) {l : List (α × β)} (hnd : (l.map Prod.fst).Nodup) :
    l.any (fun e => f e.1 e.2) = true ↔ ∃ k v, l.lookup k = some v ∧ f k v = true := by
  rw [List.any_eq_true]
  constructor
  · rintro ⟨⟨k, v⟩, hmem, hf⟩
    exact ⟨k, v, (lookup_eq_some_iff_mem hnd).mpr hmem, hf⟩
  · rintro ⟨k, v, hlookup, hf⟩
    exact ⟨(k, v), (lookup_eq_some_iff_mem hnd).mp hlookup, hf⟩

/-- `lookup` after every pair with key `k` is given the value `v`. -/
theorem lookup_map_replace [DecidableEq α] (k q : α) (v : β) :
    ∀ l : List (α × β), (l.map fun p => if p.1 = k then (k, v) else p).lookup q =
      if q = k then (l.lookup k).map fun _ => v else l.lookup q
  | [] => by split <;> simp
  | (k', v') :: l => by
    have ih := lookup_map_replace k q v l
    by_cases hq : q = k
    · subst hq
      by_cases hk : k' = q
      · subst hk
        simp
      · have hb : (q == k') = false := beq_eq_false_iff_ne.mpr (Ne.symm hk)
        simp only [List.map_cons, hk, if_false, List.lookup_cons, hb, if_true] at ih ⊢
        exact ih
    · have hb : ∀ {k'' : α}, k'' = k → (q == k'') = false := fun h => beq_eq_false_iff_ne.mpr (h ▸ hq)
      rw [if_neg hq] at ih
      by_cases hk : k' = k
      · simp only [List.map_cons, hk, if_true, List.lookup_cons, hb rfl, hq, if_false, ih]
      · simp only [List.map_cons, hk, if_false, List.lookup_cons, hq, ih]

end Lookup

section Update

variable [DecidableEq α]

/-- The pairs of key `k` get the value `g` makes of theirs. -/
def modifyKey (l : List (α × β)) (k : α) (g : β → β) : List (α × β) :=
  l.map fun p => if p.1 = k then (k, g p.2) else p

/-- `std::unordered_map::try_emplace(k, v)` followed by an update of the value
found where the key was already there: a new key gets `v`, at the end; a key
that is there gets `g` of its value. -/
def tryEmplace (l : List (α × β)) (k : α) (v : β) (g : β → β) : List (α × β) :=
  match l.lookup k with
  | none => l ++ [(k, v)]
  | some _ => modifyKey l k g

theorem keys_modifyKey (l : List (α × β)) (k : α) (g : β → β) :
    (modifyKey l k g).map Prod.fst = l.map Prod.fst := by
  unfold modifyKey
  rw [List.map_map]
  refine List.map_congr_left fun p _ => ?_
  by_cases hp : p.1 = k
  · simp [hp]
  · simp [hp]

theorem lookup_modifyKey (k q : α) (g : β → β) :
    ∀ l : List (α × β), (modifyKey l k g).lookup q = if q = k then (l.lookup k).map g else l.lookup q
  | [] => by split <;> rfl
  | (k', v') :: l => by
    have ih := lookup_modifyKey k q g l
    unfold modifyKey at ih ⊢
    rw [List.map_cons]
    by_cases hk : k' = k
    · -- the first pair has the key: it is the one both sides find for `k`
      subst hk
      by_cases hq : q = k'
      · subst hq
        simp
      · have hb : (q == k') = false := beq_eq_false_iff_ne.mpr hq
        rw [if_neg hq] at ih
        simp only [if_true, List.lookup_cons, hb, hq, if_false, ih]
    · have hb : (k == k') = false := beq_eq_false_iff_ne.mpr (Ne.symm hk)
      by_cases hq : q = k'
      · subst hq
        simp [hk]
      · have hb' : (q == k') = false := beq_eq_false_iff_ne.mpr hq
        simp only [hk, if_false, List.lookup_cons, hb, hb', ih]

theorem lookup_tryEmplace (l : List (α × β)) (k q : α) (v : β) (g : β → β) :
    (tryEmplace l k v g).lookup q = if q = k then some (((l.lookup k).map g).getD v) else l.lookup q := by
  unfold tryEmplace
  split
  · rename_i hnone
    rw [lookup_append_singleton l k q v (not_mem_of_lookup_eq_none hnone), hnone]
    by_cases hq : q = k
    · simp [hq]
    · simp [hq]
  · rename_i b hsome
    rw [lookup_modifyKey, hsome]
    rfl

theorem nodup_keys_tryEmplace {l : List (α × β)} (k : α) (v : β) (g : β → β)
    (h : (l.map Prod.fst).Nodup) : ((tryEmplace l k v g).map Prod.fst).Nodup := by
  unfold tryEmplace
  split
  · rename_i hnone
    exact nodup_keys_append_singleton v h (not_mem_of_lookup_eq_none hnone)
  · rw [keys_modifyKey]
    exact h

/-- `std::unordered_map::emplace(k, v)`: a new key gets `v`, a key that is
there keeps its value. -/
def emplace (l : List (α × β)) (k : α) (v : β) : List (α × β) :=
  tryEmplace l k v id

theorem lookup_emplace (l : List (α × β)) (k q : α) (v : β) :
    (emplace l k v).lookup q = if q = k then some ((l.lookup k).getD v) else l.lookup q := by
  rw [emplace, lookup_tryEmplace, Option.map_id]
  rfl

theorem nodup_keys_emplace {l : List (α × β)} (k : α) (v : β) (h : (l.map Prod.fst).Nodup) :
    ((emplace l k v).map Prod.fst).Nodup :=
  nodup_keys_tryEmplace k v id h

end Update

end AssocList
