import KvEngine.FailoverTable

/-!
# Rollback decisions (`FailoverTable::needsRollback`)

When a consumer opens a stream it names the branch it is on (its latest vb
uuid) and where it stands on it (its high seqno and the snapshot it was in).
`needsRollback` finds the consumer's branch in the failover table and decides
whether the producer's history agrees with the consumer's up to where the
consumer stands, and if not, to which seqno the consumer must roll back.

- `findBranch`: the reverse search, over the entries oldest first: the first
  entry with the uuid and the `by_seqno` of the next newer entry.
- `needsRollback`: the decision, with the purge-seqno check and its
  collection-stream exemption, and the two snapshot-boundary adjustments.
- `IsBranchPoint`, `upperOf`, `consumerEnd`, `CollectionStreamExempt`: the
  specification's terms: where the consumer's branch sits in the table (its
  oldest entry with the uuid), the producer's last seqno on that branch, the
  last seqno the consumer can hold, and the exemption.

Results:
- `findBranch_of_split`, `findBranch_eq_none`, `findBranch_eq_some`: the
  search finds the oldest entry with the uuid.
- `needsRollback_none`, `needsRollback_some`: what each answer implies.
- `needsRollback_sound`: no rollback only on common history up to the
  consumer's end, and a rollback point below the consumer's high seqno and on
  the common history.
-/

namespace KvEngine

namespace FailoverTable

/-- `FailoverTable::RollbackDetails`. -/
structure RollbackDetails where
  rollbackReason : String
  rollbackSeqno : UInt64
  deriving DecidableEq, Repr

/-- The loop of `needsRollback` from `table.rbegin()`, over the entries oldest
first: at the first entry with the uuid, the `by_seqno` of the entry after it
(`std::next(itr)`, the next newer), if there is one; `none` when no entry has
the uuid. -/
def findBranch (uuid : UInt64) : List FailoverEntry → Option (Option UInt64)
  | [] => none
  | e :: newer => if e.vbUuid = uuid then some (newer.head?.map (·.bySeqno)) else findBranch uuid newer

/-- The collection-stream exemption of `needsRollback`. -/
def allowNonRollBackCollectionStream (remoteHighSeqno localPurgeSeqno : UInt64) :
    Option UInt64 → Bool
  | some maxCollectionHighSeqno =>
    decide (remoteHighSeqno < localPurgeSeqno) && decide (maxCollectionHighSeqno ≤ remoteHighSeqno) &&
      decide (maxCollectionHighSeqno ≤ localPurgeSeqno)
  | none => false

/-- `needsRollback(remoteHighSeqno, localHighSeqno, remoteVBUuid, snapStartSeqno,
snapEndSeqno, localPurgeSeqno, remotePurgeSeqno, strictVbUuidMatch,
maxCollectionHighSeqno)`; `none` is no rollback. -/
def needsRollback (t : FailoverTable) (remoteHighSeqno localHighSeqno remoteVBUuid snapStartSeqno
    snapEndSeqno localPurgeSeqno remotePurgeSeqno : UInt64) (strictVbUuidMatch : Bool)
    (maxCollectionHighSeqno : Option UInt64) : Option RollbackDetails :=
  if remoteHighSeqno = 0 ∧ (!strictVbUuidMatch || remoteVBUuid == 0) then none
  else if remoteHighSeqno < localPurgeSeqno ∧ remoteHighSeqno ≠ 0 ∧
      allowNonRollBackCollectionStream remoteHighSeqno localPurgeSeqno maxCollectionHighSeqno = false ∧
      remotePurgeSeqno ≠ localPurgeSeqno then
    some ⟨"purge seqno (" ++ toString localPurgeSeqno ++
      ") is greater than start seqno - could miss purged deletions", 0⟩
  else
    match findBranch remoteVBUuid t.table.reverse with
    | none => some ⟨"vBucket UUID not found in failover table, consumer and producer have no common history", 0⟩
    | some next =>
      let upper := next.getD localHighSeqno
      -- the client declared a snapshot but holds none of its items
      let snapEndSeqno := if remoteHighSeqno = snapStartSeqno then remoteHighSeqno else snapEndSeqno
      if snapEndSeqno ≤ upper then none
      else
        -- the client holds the whole snapshot
        let snapStartSeqno := if remoteHighSeqno = snapEndSeqno then remoteHighSeqno else snapStartSeqno
        some ⟨"consumer ahead of producer - producer upper at " ++ toString upper,
          if upper < snapStartSeqno then upper else snapStartSeqno⟩

/-! ## The specification's terms -/

/-- The consumer's branch sits at `e` in the newest-first table
`newer ++ e :: older`: `e` is the oldest entry with the uuid. -/
def IsBranchPoint (table : List FailoverEntry) (uuid : UInt64) (newer : List FailoverEntry)
    (e : FailoverEntry) (older : List FailoverEntry) : Prop :=
  table = newer ++ e :: older ∧ e.vbUuid = uuid ∧ ∀ x ∈ older, x.vbUuid ≠ uuid

/-- The producer's last seqno on the branch: the `by_seqno` of the next newer
entry, or the local high seqno when the branch is the newest. -/
def upperOf (newer : List FailoverEntry) (localHighSeqno : UInt64) : UInt64 :=
  (newer.getLast?.map (·.bySeqno)).getD localHighSeqno

/-- The last seqno the consumer can hold: its high seqno when it has none of
its snapshot's items, else the snapshot's end. -/
def consumerEnd (remoteHighSeqno snapStartSeqno snapEndSeqno : UInt64) : UInt64 :=
  if remoteHighSeqno = snapStartSeqno then remoteHighSeqno else snapEndSeqno

/-- The collection stream's filter shows that the consumer has every item of
its collections although the purge passed its high seqno. -/
def CollectionStreamExempt (remoteHighSeqno localPurgeSeqno : UInt64)
    (maxCollectionHighSeqno : Option UInt64) : Prop :=
  ∃ m, maxCollectionHighSeqno = some m ∧ remoteHighSeqno < localPurgeSeqno ∧ m ≤ remoteHighSeqno ∧
    m ≤ localPurgeSeqno

/-! ## The reverse search -/

theorem findBranch_of_split {uuid : UInt64} {e : FailoverEntry} {newer : List FailoverEntry}
    (he : e.vbUuid = uuid) :
    ∀ {old : List FailoverEntry}, (∀ x ∈ old, x.vbUuid ≠ uuid) →
      findBranch uuid (old ++ e :: newer) = some (newer.head?.map (·.bySeqno))
  | [], _ => by simp [findBranch, he]
  | x :: old, hold => by
    have hx : x.vbUuid ≠ uuid := hold x List.mem_cons_self
    rw [List.cons_append, findBranch, if_neg hx]
    exact findBranch_of_split he fun y hy => hold y (List.mem_cons_of_mem _ hy)

theorem findBranch_eq_none {uuid : UInt64} :
    ∀ {l : List FailoverEntry}, findBranch uuid l = none ↔ ∀ x ∈ l, x.vbUuid ≠ uuid
  | [] => by simp [findBranch]
  | e :: newer => by
    by_cases he : e.vbUuid = uuid
    · simp [findBranch, he]
    · rw [findBranch, if_neg he, findBranch_eq_none]
      simp [he]

theorem findBranch_eq_some {uuid : UInt64} {next : Option UInt64} :
    ∀ {l : List FailoverEntry}, findBranch uuid l = some next →
      ∃ old e newer, l = old ++ e :: newer ∧ e.vbUuid = uuid ∧ (∀ x ∈ old, x.vbUuid ≠ uuid) ∧
        next = newer.head?.map (·.bySeqno)
  | [], h => nomatch h
  | e :: newer, h => by
    by_cases he : e.vbUuid = uuid
    · rw [findBranch, if_pos he, Option.some.injEq] at h
      exact ⟨[], e, newer, rfl, he, by simp, h.symm⟩
    · rw [findBranch, if_neg he] at h
      obtain ⟨old, e', newer', rfl, he', hold, hnext⟩ := findBranch_eq_some h
      refine ⟨e :: old, e', newer', rfl, he', ?_, hnext⟩
      intro x hx
      rcases List.mem_cons.mp hx with rfl | hx
      · exact he
      · exact hold x hx

/-- The search over the reversed table finds the branch point, and the entry
after it is the last of the newer entries. -/
theorem findBranch_reverse_of_branchPoint {table newer older : List FailoverEntry}
    {uuid : UInt64} {e : FailoverEntry} (h : IsBranchPoint table uuid newer e older) :
    findBranch uuid table.reverse = some (newer.getLast?.map (·.bySeqno)) := by
  obtain ⟨rfl, he, hold⟩ := h
  rw [List.reverse_append, List.reverse_cons, List.append_assoc, List.singleton_append,
    findBranch_of_split he (by simpa using hold), List.head?_reverse]

theorem exists_branchPoint_of_findBranch {table : List FailoverEntry} {uuid : UInt64}
    {next : Option UInt64} (h : findBranch uuid table.reverse = some next) :
    ∃ newer e older, IsBranchPoint table uuid newer e older ∧
      next = newer.getLast?.map (·.bySeqno) := by
  obtain ⟨old, e, newer, hrev, he, hold, rfl⟩ := findBranch_eq_some h
  have htable : table = newer.reverse ++ e :: old.reverse := by
    rw [← List.reverse_reverse table, hrev]
    simp
  refine ⟨newer.reverse, e, old.reverse, ⟨htable, he, by simpa using hold⟩, ?_⟩
  rw [List.getLast?_reverse]

/-- The purge check of `needsRollback`: the consumer is past seqno 0, the
purge passed its high seqno, its collection stream is not exempt, and it did
not see this purge seqno. -/
def PurgeCheckFails (remoteHighSeqno localPurgeSeqno remotePurgeSeqno : UInt64)
    (maxCollectionHighSeqno : Option UInt64) : Prop :=
  remoteHighSeqno < localPurgeSeqno ∧ remoteHighSeqno ≠ 0 ∧
    allowNonRollBackCollectionStream remoteHighSeqno localPurgeSeqno maxCollectionHighSeqno = false ∧
    remotePurgeSeqno ≠ localPurgeSeqno

/-! ## What each answer implies -/

section Decision

variable (t : FailoverTable) (remoteHighSeqno localHighSeqno remoteVBUuid snapStartSeqno
  snapEndSeqno localPurgeSeqno remotePurgeSeqno : UInt64) (strictVbUuidMatch : Bool)
  (maxCollectionHighSeqno : Option UInt64)

theorem allowNonRollBackCollectionStream_iff :
    allowNonRollBackCollectionStream remoteHighSeqno localPurgeSeqno maxCollectionHighSeqno = true ↔
      CollectionStreamExempt remoteHighSeqno localPurgeSeqno maxCollectionHighSeqno := by
  cases maxCollectionHighSeqno with
  | none => simp [allowNonRollBackCollectionStream, CollectionStreamExempt]
  | some m =>
    simp [allowNonRollBackCollectionStream, CollectionStreamExempt, and_assoc]

/-- No rollback for a consumer past seqno 0: the uuid is on the table, the
consumer ends within the common history, and no purge it missed has run. -/
theorem needsRollback_none (hne : remoteHighSeqno ≠ 0)
    (h : needsRollback t remoteHighSeqno localHighSeqno remoteVBUuid snapStartSeqno snapEndSeqno
      localPurgeSeqno remotePurgeSeqno strictVbUuidMatch maxCollectionHighSeqno = none) :
    (∃ newer e older, IsBranchPoint t.table remoteVBUuid newer e older ∧
      consumerEnd remoteHighSeqno snapStartSeqno snapEndSeqno ≤ upperOf newer localHighSeqno) ∧
    (localPurgeSeqno ≤ remoteHighSeqno ∨ remotePurgeSeqno = localPurgeSeqno ∨
      CollectionStreamExempt remoteHighSeqno localPurgeSeqno maxCollectionHighSeqno) := by
  unfold needsRollback at h
  rw [if_neg (fun h0 => hne h0.1)] at h
  split at h
  · cases h
  rename_i hpurge
  -- the purge check passed
  have hpurge' : localPurgeSeqno ≤ remoteHighSeqno ∨ remotePurgeSeqno = localPurgeSeqno ∨
      CollectionStreamExempt remoteHighSeqno localPurgeSeqno maxCollectionHighSeqno := by
    rw [← allowNonRollBackCollectionStream_iff]
    by_contra hc
    simp only [not_or, UInt64.not_le, Bool.not_eq_true] at hc
    exact hpurge ⟨hc.1, hne, hc.2.2, hc.2.1⟩
  refine ⟨?_, hpurge'⟩
  split at h
  · cases h
  · rename_i next hfind
    obtain ⟨newer, e, older, hbp, rfl⟩ := exists_branchPoint_of_findBranch hfind
    refine ⟨newer, e, older, hbp, ?_⟩
    change (if consumerEnd remoteHighSeqno snapStartSeqno snapEndSeqno ≤ upperOf newer localHighSeqno
      then none else some _) = none at h
    by_contra hgt
    rw [if_neg hgt] at h
    cases h

/-- A rollback for a consumer past seqno 0 goes below its high seqno and,
when its branch is on the table, not above the producer's last seqno on it. -/
theorem needsRollback_some (hstart : snapStartSeqno ≤ remoteHighSeqno)
    (hne : remoteHighSeqno ≠ 0) {r : RollbackDetails}
    (h : needsRollback t remoteHighSeqno localHighSeqno remoteVBUuid snapStartSeqno snapEndSeqno
      localPurgeSeqno remotePurgeSeqno strictVbUuidMatch maxCollectionHighSeqno = some r) :
    r.rollbackSeqno < remoteHighSeqno ∧
      ∀ newer e older, IsBranchPoint t.table remoteVBUuid newer e older →
        r.rollbackSeqno ≤ upperOf newer localHighSeqno := by
  have hpos : 0 < remoteHighSeqno := by grind
  unfold needsRollback at h
  rw [if_neg (fun h0 => hne h0.1)] at h
  split at h
  · -- the purge check: back to seqno 0
    cases h
    exact ⟨hpos, fun _ _ _ _ => UInt64.zero_le⟩
  split at h
  · -- no entry has the uuid: back to seqno 0
    cases h
    exact ⟨hpos, fun _ _ _ _ => UInt64.zero_le⟩
  · rename_i next hfind
    obtain ⟨newer, e, older, hbp, rfl⟩ := exists_branchPoint_of_findBranch hfind
    have hupper : ∀ newer' e' older', IsBranchPoint t.table remoteVBUuid newer' e' older' →
        upperOf newer' localHighSeqno = upperOf newer localHighSeqno := by
      intro newer' e' older' hbp'
      have h1 := findBranch_reverse_of_branchPoint hbp
      rw [findBranch_reverse_of_branchPoint hbp', Option.some.injEq] at h1
      rw [upperOf, upperOf, h1]
    change (if consumerEnd remoteHighSeqno snapStartSeqno snapEndSeqno ≤ upperOf newer localHighSeqno
      then none else some _) = some r at h
    by_cases hle : consumerEnd remoteHighSeqno snapStartSeqno snapEndSeqno ≤ upperOf newer localHighSeqno
    · rw [if_pos hle] at h
      cases h
    rw [if_neg hle, Option.some.injEq] at h
    subst h
    unfold upperOf at hle hupper
    unfold consumerEnd at hle
    generalize (newer.getLast?.map (·.bySeqno)).getD localHighSeqno = upper at hle hupper ⊢
    refine ⟨?_, fun newer' e' older' hbp' => ?_⟩
    · -- the consumer is ahead of `upper`; the rollback point is `upper` or the
      -- snapshot start, each below its high seqno
      dsimp only
      split_ifs at hle ⊢ <;> grind
    · unfold upperOf
      rw [hupper newer' e' older' hbp']
      dsimp only
      split_ifs <;> grind

/-- A failed purge check sends the consumer back to seqno 0. -/
theorem needsRollback_of_purgeCheckFails
    (h : PurgeCheckFails remoteHighSeqno localPurgeSeqno remotePurgeSeqno maxCollectionHighSeqno) :
    needsRollback t remoteHighSeqno localHighSeqno remoteVBUuid snapStartSeqno snapEndSeqno localPurgeSeqno
      remotePurgeSeqno strictVbUuidMatch maxCollectionHighSeqno =
      some ⟨"purge seqno (" ++ toString localPurgeSeqno ++
        ") is greater than start seqno - could miss purged deletions", 0⟩ := by
  unfold needsRollback
  rw [if_neg (fun h0 => h.2.1 h0.1)]
  unfold PurgeCheckFails at h
  rw [if_pos h]

/-- A passed purge check leaves the answer for a vbucket that never purged:
the purge check is the only use of the purge seqnos and the collections'
high seqno. -/
theorem needsRollback_of_not_purgeCheckFails
    (h : ¬PurgeCheckFails remoteHighSeqno localPurgeSeqno remotePurgeSeqno maxCollectionHighSeqno) :
    needsRollback t remoteHighSeqno localHighSeqno remoteVBUuid snapStartSeqno snapEndSeqno localPurgeSeqno
      remotePurgeSeqno strictVbUuidMatch maxCollectionHighSeqno =
      needsRollback t remoteHighSeqno localHighSeqno remoteVBUuid snapStartSeqno snapEndSeqno 0 0
        strictVbUuidMatch none := by
  unfold needsRollback
  unfold PurgeCheckFails at h
  have hnone : ¬(remoteHighSeqno < 0 ∧ remoteHighSeqno ≠ 0 ∧
      allowNonRollBackCollectionStream remoteHighSeqno 0 none = false ∧ (0 : UInt64) ≠ 0) :=
    fun h0 => h0.2.2.2 rfl
  by_cases hz : remoteHighSeqno = 0 ∧ (!strictVbUuidMatch || remoteVBUuid == 0) = true
  · rw [if_pos hz, if_pos hz]
  · rw [if_neg hz, if_neg hz, if_neg h, if_neg hnone]

end Decision

/-- `needsRollback` is sound with respect to common history: for a consumer
past seqno 0 whose high seqno is not below its snapshot's start, no rollback means that the
consumer's branch is on the table, that the consumer ends within the
producer's history on it, and that no purge it missed has run (or the
collection stream is exempt); a rollback goes below the consumer's high seqno
and not above the producer's last seqno on the branch. -/
theorem needsRollback_sound (t : FailoverTable) (remoteHighSeqno localHighSeqno remoteVBUuid
    snapStartSeqno snapEndSeqno localPurgeSeqno remotePurgeSeqno : UInt64)
    (strictVbUuidMatch : Bool) (maxCollectionHighSeqno : Option UInt64)
    (hstart : snapStartSeqno ≤ remoteHighSeqno) (hne : remoteHighSeqno ≠ 0) :
    (needsRollback t remoteHighSeqno localHighSeqno remoteVBUuid snapStartSeqno snapEndSeqno
        localPurgeSeqno remotePurgeSeqno strictVbUuidMatch maxCollectionHighSeqno = none →
      (∃ newer e older, IsBranchPoint t.table remoteVBUuid newer e older ∧
        consumerEnd remoteHighSeqno snapStartSeqno snapEndSeqno ≤ upperOf newer localHighSeqno) ∧
      (localPurgeSeqno ≤ remoteHighSeqno ∨ remotePurgeSeqno = localPurgeSeqno ∨
        CollectionStreamExempt remoteHighSeqno localPurgeSeqno maxCollectionHighSeqno)) ∧
    (∀ r, needsRollback t remoteHighSeqno localHighSeqno remoteVBUuid snapStartSeqno snapEndSeqno
        localPurgeSeqno remotePurgeSeqno strictVbUuidMatch maxCollectionHighSeqno = some r →
      r.rollbackSeqno < remoteHighSeqno ∧
        ∀ newer e older, IsBranchPoint t.table remoteVBUuid newer e older →
          r.rollbackSeqno ≤ upperOf newer localHighSeqno) :=
  ⟨needsRollback_none t _ _ _ _ _ _ _ _ _ hne,
    fun _ h => needsRollback_some t _ _ _ _ _ _ _ _ _ hstart hne h⟩

/-- A table of two branches: uuid 5 from seqno 0, then uuid 7 from seqno 10. -/
def twoBranches : FailoverTable :=
  { empty 25 with table := [⟨7, 10⟩, ⟨5, 0⟩] }

theorem needsRollback_sound_old_branch :
    (3 : UInt64) ≤ 8 ∧ (8 : UInt64) ≠ 0 ∧
    (needsRollback twoBranches 8 12 5 3 9 0 0 false none = none →
      (∃ newer e older, IsBranchPoint twoBranches.table 5 newer e older ∧
        consumerEnd 8 3 9 ≤ upperOf newer 12) ∧
      ((0 : UInt64) ≤ 8 ∨ (0 : UInt64) = 0 ∨ CollectionStreamExempt 8 0 none)) ∧
    (∀ r, needsRollback twoBranches 8 12 5 3 9 0 0 false none = some r →
      r.rollbackSeqno < 8 ∧
        ∀ newer e older, IsBranchPoint twoBranches.table 5 newer e older →
          r.rollbackSeqno ≤ upperOf newer 12) :=
  ⟨by decide, by decide, needsRollback_sound twoBranches 8 12 5 3 9 0 0 false none (by decide) (by decide)⟩

end FailoverTable

end KvEngine
