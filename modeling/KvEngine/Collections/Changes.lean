import KvEngine.Collections.VBManifest

/-!
# `completeUpdate` as one list of changes

`completeUpdate` applies a changeset in six blocks, one for each kind of
change, each an `apply*` helper followed by `applyFinal`. Here the blocks are
put together: the changeset is one list of changes
(`ManifestChanges.toChanges`) in the order the blocks take them, and
`completeUpdate` runs that list, each change under the uid the vbucket has at
that point except the last, which runs under the new uid.

- `Change`, `Change.run`: one change and the call `completeUpdate` makes for it.
- `runChanges lastUid`: a list of changes run one after another, the last
  under `lastUid`.
- `applyChanges_applyFinal`: one block is `runChanges` of its list, the last
  change under the uid the block's `applyFinal` reads.
- `runChanges_append`: two runs make one when the first gives its last change
  the current uid exactly when the second has changes.
- `completeUpdate_eq_runChanges`: `completeUpdate` of a changeset with
  changes runs `toChanges` with the new uid last.
-/

namespace KvEngine.Collections

/-- One change of a changeset. -/
inductive Change where
  | drop (cid : CollectionID)
  | createScope (c : ScopeCreation)
  | begin (c : BeginCollection)
  | modify (c : CollectionModification)
  | dropScope (sid : ScopeID)
  deriving DecidableEq, Repr

/-- The call `completeUpdate` makes for a change, under `uid`. -/
def Change.run (uid : Nat) : Change → VBM Unit
  | .drop cid => dropCollection uid cid none none
  | .createScope c => Collections.createScope uid c.sid c.name none
  | .begin c => beginCollection uid c.sid c.cid c.name c.maxTtl c.metered c.canDeduplicate c.flushUid none
  | .modify c => modifyCollection uid c.cid c.maxTtl c.metered c.canDeduplicate none
  | .dropScope sid => Collections.dropScope uid sid none none

/-- The changes of a changeset in the order `completeUpdate` applies them;
creates and flushes are both `begin`. -/
def ManifestChanges.toChanges (c : ManifestChanges) : List Change :=
  c.collectionsToDrop.map .drop ++ c.scopesToCreate.map .createScope ++
    c.collectionsToCreate.map .begin ++ c.collectionsToModify.map .modify ++
    c.collectionsToFlush.map .begin ++ c.scopesToDrop.map .dropScope

/-- Changes run one after another, each under the current uid except the
last, which runs under the uid `lastUid` reads. -/
def runChanges (lastUid : VBM Nat) : List Change → VBM Unit
  | [] => pure ()
  | c :: cs => do
    c.run (← if cs.isEmpty then lastUid else currentUid)
    runChanges lastUid cs

theorem ManifestChanges.none_eq_isEmpty (c : ManifestChanges) : c.none = c.toChanges.isEmpty := by
  rw [Bool.eq_iff_iff]
  simp only [ManifestChanges.none, ManifestChanges.toChanges, Bool.and_eq_true, List.isEmpty_iff,
    List.append_eq_nil_iff, List.map_eq_nil_iff]
  tauto

/-- Reading the uid and throwing it away does nothing. -/
theorem currentUid_bind_const {β : Type} (x : VBM β) : (currentUid >>= fun _ => x) = x := rfl

/-- The uid `getUidForChange` gives, read at the current point: the new
uid once the changeset is empty, the current uid before. -/
theorem getUidForChange_map (c : ManifestChanges) :
    (c.getUidForChange <$> currentUid) = if c.none then pure c.newUid else currentUid := by
  unfold ManifestChanges.getUidForChange
  cases c.none <;> rfl

theorem runChanges_concat (lastUid : VBM Nat) (c : Change) :
    ∀ cs : List Change, runChanges lastUid (cs ++ [c]) =
      (do cs.forM fun c => do c.run (← currentUid)
          c.run (← lastUid))
  | [] => by simp [runChanges]
  | c' :: cs => by
    have hne : (cs ++ [c]).isEmpty = false := by simp
    simp only [List.cons_append, runChanges, hne, Bool.false_eq_true, if_false, List.forM,
      runChanges_concat lastUid c cs, bind_assoc]

/-- One block of `completeUpdate`, followed by the rest: the `apply*` helper
and its `applyFinal` run the block's changes, the last under `uid`. -/
theorem applyChanges_applyFinal_bind {α β : Type} (f : α → Change) (apply : Nat → α → VBM Unit)
    (hf : ∀ u a, (f a).run u = apply u a) (uid : VBM Nat) (xs : List α) (k : PUnit → VBM β) :
    (applyChanges apply xs >>= fun final => applyFinal final uid apply >>= k) =
      (runChanges uid (xs.map f) >>= k) := by
  rcases List.eq_nil_or_concat' xs with rfl | ⟨ys, x, rfl⟩
  · simp [applyChanges, applyFinal, runChanges]
  · simp only [applyChanges, applyFinal, List.dropLast_concat, List.getLast?_concat, List.map_append,
      List.map_cons, List.map_nil, runChanges_concat, bind_assoc, pure_bind, hf, List.forM_eq_forM,
      List.forM_map]

/-- The last block of `completeUpdate`. -/
theorem applyChanges_applyFinal {α : Type} (f : α → Change) (apply : Nat → α → VBM Unit)
    (hf : ∀ u a, (f a).run u = apply u a) (uid : VBM Nat) (xs : List α) :
    (applyChanges apply xs >>= fun final => applyFinal final uid apply) = runChanges uid (xs.map f) := by
  simpa using applyChanges_applyFinal_bind f apply hf uid xs pure

theorem runChanges_append (lastUid : VBM Nat) {b : Bool} (xs ys : List Change) (hb : b = ys.isEmpty) :
    (runChanges (if b then lastUid else currentUid) xs >>= fun _ => runChanges lastUid ys) =
      runChanges lastUid (xs ++ ys) := by
  induction xs with
  | nil => simp [runChanges]
  | cons x xs ih =>
    simp only [List.cons_append, runChanges]
    cases xs <;> cases ys <;> simp_all

/-- `completeUpdate` of a changeset with changes runs `toChanges`, each
change under the current uid except the last, which runs under the new uid. -/
theorem completeUpdate_eq_runChanges (cs : ManifestChanges) (h : cs.none = false) :
    completeUpdate cs = runChanges (pure cs.newUid) cs.toChanges := by
  simp only [completeUpdate, h, Bool.false_eq_true, if_false, applyDrops, applyScopeCreates,
    applyBeginCollection, applyModifications, applyScopeDrops]
  -- each block is a run of its own changes, the last under the uid `applyFinal` reads
  rw [applyChanges_applyFinal_bind Change.drop (fun uid cid => dropCollection uid cid none none)
      (fun _ _ => rfl),
    applyChanges_applyFinal_bind Change.createScope (fun uid c => createScope uid c.sid c.name none)
      (fun _ _ => rfl),
    applyChanges_applyFinal_bind Change.begin (fun uid c =>
      beginCollection uid c.sid c.cid c.name c.maxTtl c.metered c.canDeduplicate c.flushUid none)
      (fun _ _ => rfl),
    applyChanges_applyFinal_bind Change.modify (fun uid c =>
      modifyCollection uid c.cid c.maxTtl c.metered c.canDeduplicate none) (fun _ _ => rfl),
    applyChanges_applyFinal_bind Change.begin (fun uid c =>
      beginCollection uid c.sid c.cid c.name c.maxTtl c.metered c.canDeduplicate c.flushUid none)
      (fun _ _ => rfl),
    applyChanges_applyFinal Change.dropScope (fun uid sid => dropScope uid sid none none)
      (fun _ _ => rfl)]
  simp only [getUidForChange_map]
  -- the blocks join from the last: a block's changeset is empty exactly when
  -- the blocks after it have no changes
  rw [runChanges_append, runChanges_append, runChanges_append, runChanges_append, runChanges_append]
  · simp only [ManifestChanges.toChanges, List.append_assoc]
  all_goals
    rw [ManifestChanges.none_eq_isEmpty]
    simp only [ManifestChanges.toChanges, List.map_nil, List.nil_append, List.append_assoc]

end KvEngine.Collections
