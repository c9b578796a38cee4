import KvEngine.Durability.PassiveDMSpec

/-!
# The PassiveDurabilityMonitor's public operations

`PassiveDMSpec` says what each operation on the monitor's state does. This
module puts them together into the monitor's public operations and the part
of each that runs under the state lock (`lockedSection`).

- `State.HpsMoves p s s'`: what `updateHighPreparedSeqno` makes of a
  well-formed state with persistence seqno `p`: the HPS seqno goes up, at most
  through the snapshots the HPS may enter, and passes a `PersistToMajority`
  Prepare only once it is persisted; the snapshot ends it went through are
  popped; only completed writes go. `processSnapshotEnd_moves` is the same
  after pushing a snapshot end.
- `addSyncWrite_eq_ok`, `eraseSyncWrite_eq_ok`,
  `storeHighCompletedSeqno_eq_ok`: what the other operations do, checks
  included.
- `lockedSection_*_eq_ok`: what the locked section of each public operation
  is made of; `step_eq_ok`: a whole operation is its locked section, then for
  the notifications `sendSeqnoAck`.
- `hps_le_lockedSection`, `lockedSection_seqnoToAck`: whatever the state, no
  locked section moves the HPS seqno down, and each leaves the seqno to ack
  as `storeSeqnoAck` makes it from the HPS before and after.
-/

namespace KvEngine.Durability

open ListIter

namespace PassiveDurabilityMonitor

variable {Key : Type}

namespace State

/-! ### `updateHighPreparedSeqno` -/

/-- What `updateHighPreparedSeqno` with persistence seqno `p` makes of a
well-formed state `s`. -/
structure HpsMoves (p : Nat) (s s' : State Key) : Prop where
  wf : s'.Wf
  hcsWf : s.HcsWf → s'.HcsWf
  hcs : s'.highCompletedSeqno.lastWriteSeqno = s.highCompletedSeqno.lastWriteSeqno
  sublist : s'.trackedWrites.Sublist s.trackedWrites
  removed : ∀ w ∈ s.trackedWrites, w ∉ s'.trackedWrites → w.isCompleted
  le : s.highPreparedSeqno.lastWriteSeqno ≤ s'.highPreparedSeqno.lastWriteSeqno
  bound : s'.highPreparedSeqno.lastWriteSeqno ≤
    max s.highPreparedSeqno.lastWriteSeqno (SnapshotEndInfo.consistentEnd p s.receivedSnapshotEnds)
  popped : ∃ n, s'.receivedSnapshotEnds = s.receivedSnapshotEnds.drop n ∧
    ∀ e ∈ s.receivedSnapshotEnds.take n, e.hpsMayEnter p = true
  fence : ∀ w ∈ s.trackedWrites, s.highPreparedSeqno.lastWriteSeqno < w.bySeqno →
    w.bySeqno ≤ s'.highPreparedSeqno.lastWriteSeqno → w.level = .persistToMajority → w.bySeqno ≤ p

variable {p : Nat} {s s' : State Key}

theorem HpsMoves.checkForAndRemovePrepares (h : HpsMoves p s s') :
    HpsMoves p s s'.checkForAndRemovePrepares where
  wf := h.wf.checkForAndRemovePrepares
  hcsWf hh := (h.hcsWf hh).checkForAndRemovePrepares h.wf
  hcs := by rw [checkForAndRemovePrepares_hcs_lastWriteSeqno, h.hcs]
  sublist := (checkForAndRemovePrepares_sublist s').trans h.sublist
  removed w hw hnot := by
    by_cases hw' : w ∈ s'.trackedWrites
    · exact completed_of_removed_checkForAndRemovePrepares hw' hnot
    · exact h.removed w hw hw'
  le := by
    rw [checkForAndRemovePrepares_hps_lastWriteSeqno]
    exact h.le
  bound := by
    rw [checkForAndRemovePrepares_hps_lastWriteSeqno]
    exact h.bound
  popped := by
    rw [checkForAndRemovePrepares_receivedSnapshotEnds]
    exact h.popped
  fence := by
    rw [checkForAndRemovePrepares_hps_lastWriteSeqno]
    exact h.fence

theorem HpsMoves.checkForAndRemoveDroppedCollections (h : HpsMoves p s s') :
    HpsMoves p s s'.checkForAndRemoveDroppedCollections where
  wf := h.wf.checkForAndRemoveDroppedCollections
  hcsWf hh := (h.hcsWf hh).checkForAndRemoveDroppedCollections
  hcs := by
    rw [checkForAndRemoveDroppedCollections_highCompletedSeqno]
    exact h.hcs
  sublist := by
    rw [checkForAndRemoveDroppedCollections_trackedWrites]
    exact h.sublist
  removed := by
    simp only [checkForAndRemoveDroppedCollections_trackedWrites]
    exact h.removed
  le := by
    rw [checkForAndRemoveDroppedCollections_highPreparedSeqno]
    exact h.le
  bound := by
    rw [checkForAndRemoveDroppedCollections_highPreparedSeqno]
    exact h.bound
  popped := by
    rw [checkForAndRemoveDroppedCollections_receivedSnapshotEnds]
    exact h.popped
  fence := by
    rw [checkForAndRemoveDroppedCollections_highPreparedSeqno]
    exact h.fence

theorem updateHighPreparedSeqno_moves (hw : s.Wf) (h : s.updateHighPreparedSeqno p = .ok s') :
    HpsMoves p s s' := by
  obtain ⟨lw, n, hs', hle, hpop, hbound, hfence⟩ := updateHighPreparedSeqno_spec hw h
  -- the `while` loop moves the HPS and pops the snapshot ends it went through
  have hmoved : HpsMoves p s
      { s.moveHps lw with receivedSnapshotEnds := s.receivedSnapshotEnds.drop n } :=
    ⟨⟨hw.increasing, tracks_moveHps s lw, hw.levels,
        fun e he => hw.snapshotHps e (List.mem_of_mem_drop he)⟩,
      fun hh => ⟨hh.hcs, hh.completed⟩, rfl, List.Sublist.refl _, fun _ hw' hnot => absurd hw' hnot,
      hle, hbound, ⟨n, rfl, hpop⟩, hfence⟩
  -- then `checkForAndRemovePrepares` if the HPS moved
  rcases hs' with rfl | rfl
  · exact hmoved
  · exact hmoved.checkForAndRemovePrepares

/-- Whatever the state, `updateHighPreparedSeqno` does not move the HPS seqno
down: its final check throws instead. -/
theorem le_updateHighPreparedSeqno (h : s.updateHighPreparedSeqno p = .ok s') :
    s.highPreparedSeqno.lastWriteSeqno ≤ s'.highPreparedSeqno.lastWriteSeqno := by
  unfold updateHighPreparedSeqno at h
  dsimp only at h
  obtain ⟨s₁, -, h⟩ := Except.bind_eq_ok.mp h
  split_ifs at h with heq hlt
  · rw [← Except.pure_eq_ok.mp h]
    exact heq.ge
  · rw [← Except.pure_eq_ok.mp h, checkForAndRemovePrepares_hps_lastWriteSeqno]
    exact hlt.le

/-! ### `processSnapshotEnd` and the HCS store -/

section ProcessSnapshotEnd

variable {type : CheckpointType} {snapEnd : Nat} {hps : Option Nat}

/-- A snapshot end whose marker's HPS lies within the snapshot can be
queued. -/
theorem Wf.push (hw : s.Wf) (hhps : ∀ h ∈ hps, h ≤ snapEnd) :
    ({ s with receivedSnapshotEnds := s.receivedSnapshotEnds ++ [⟨snapEnd, type, hps⟩] } :
      State Key).Wf := by
  refine ⟨hw.increasing, hw.hps, hw.levels, fun e he => ?_⟩
  rcases List.mem_append.mp he with he | he
  · exact hw.snapshotHps e he
  · rw [List.mem_singleton.mp he]
    exact hhps

/-- `processSnapshotEnd` pushes the snapshot end, then moves the HPS. -/
theorem processSnapshotEnd_moves (hw : s.Wf) (hhps : ∀ h ∈ hps, h ≤ snapEnd)
    (h : s.processSnapshotEnd p type snapEnd hps = .ok s') :
    HpsMoves p { s with receivedSnapshotEnds := s.receivedSnapshotEnds ++ [⟨snapEnd, type, hps⟩] }
      s' := by
  unfold processSnapshotEnd at h
  obtain ⟨s₁, h₁, h⟩ := Except.bind_eq_ok.mp h
  obtain rfl := (Except.pure_eq_ok.mp h).symm
  exact (updateHighPreparedSeqno_moves (hw.push hhps) h₁).checkForAndRemoveDroppedCollections

theorem le_processSnapshotEnd (h : s.processSnapshotEnd p type snapEnd hps = .ok s') :
    s.highPreparedSeqno.lastWriteSeqno ≤ s'.highPreparedSeqno.lastWriteSeqno := by
  unfold processSnapshotEnd at h
  obtain ⟨s₁, h₁, h⟩ := Except.bind_eq_ok.mp h
  obtain rfl := (Except.pure_eq_ok.mp h).symm
  rw [checkForAndRemoveDroppedCollections_highPreparedSeqno]
  have hle := le_updateHighPreparedSeqno h₁
  exact hle

end ProcessSnapshotEnd

theorem storeHighCompletedSeqno_eq_ok {hcs : Nat} (h : s.storeHighCompletedSeqno hcs = .ok s') :
    s.highCompletedSeqno.lastWriteSeqno ≤ hcs ∧
      s' = { s with highCompletedSeqno := { s.highCompletedSeqno with lastWriteSeqno := hcs } } := by
  unfold storeHighCompletedSeqno at h
  obtain ⟨lw, hstore, hpure⟩ := Except.bind_eq_ok.mp h
  obtain ⟨hadm, rfl⟩ := Monotonic.store_eq_ok_iff.mp hstore
  exact ⟨by simpa using hadm, (Except.pure_eq_ok.mp hpure).symm⟩

/-! ### Appending a write -/

section Append

variable {x : SyncWrite Key}

/-- A write appended past every tracked write and past the HPS, with a
level, keeps the state well formed. -/
theorem Wf.append (h : s.Wf) (hlt : ∀ w ∈ s.trackedWrites, w.bySeqno < x.bySeqno)
    (hhps : s.highPreparedSeqno.lastWriteSeqno < x.bySeqno) (hl : x.level ≠ .none) :
    ({ s with trackedWrites := s.trackedWrites ++ [x] } : State Key).Wf where
  increasing := h.increasing.append_singleton hlt
  hps := by
    have hpast : ∀ c ∈ [x], s.highPreparedSeqno.lastWriteSeqno < seqnoOf c := by
      intro c hc
      rw [List.mem_singleton.mp hc]
      exact hhps
    show s.highPreparedSeqno.it =
      lastLE seqnoOf s.highPreparedSeqno.lastWriteSeqno (s.trackedWrites ++ [x])
    rw [lastLE_append_of_lt hpast]
    exact h.hps
  levels w hw := by
    rcases List.mem_append.mp hw with hw | hw
    · exact h.levels w hw
    · rw [List.mem_singleton.mp hw]
      exact hl
  snapshotHps := h.snapshotHps

/-- A new write is in flight. -/
@[simp] theorem ofPrepare_isCompleted (p : Prepare Key) : (SyncWrite.ofPrepare p).isCompleted = false :=
  rfl

/-- A write appended past the HCS, still in flight, keeps the HCS position
well formed. -/
theorem HcsWf.append (h : s.HcsWf) (hhcs : s.highCompletedSeqno.lastWriteSeqno < x.bySeqno)
    (hx : x.isCompleted = false) :
    ({ s with trackedWrites := s.trackedWrites ++ [x] } : State Key).HcsWf where
  hcs := by
    have hpast : ∀ c ∈ [x], s.highCompletedSeqno.lastWriteSeqno < seqnoOf c := by
      intro c hc
      rw [List.mem_singleton.mp hc]
      exact hhcs
    show s.highCompletedSeqno.it =
      lastLE seqnoOf s.highCompletedSeqno.lastWriteSeqno (s.trackedWrites ++ [x])
    rw [lastLE_append_of_lt hpast]
    exact h.hcs
  completed w hw hc := by
    rcases List.mem_append.mp hw with hw | hw
    · exact h.completed w hw hc
    · rw [List.mem_singleton.mp hw, hx] at hc
      exact absurd hc Bool.false_ne_true

end Append

/-! ### `notifyDroppedCollection` -/

theorem Wf.notifyDroppedCollection (h : s.Wf) (cid seqno : Nat) :
    (notifyDroppedCollection cid seqno s).Wf :=
  ⟨h.increasing, h.hps, h.levels, h.snapshotHps⟩

theorem HcsWf.notifyDroppedCollection (h : s.HcsWf) (cid seqno : Nat) :
    (notifyDroppedCollection cid seqno s).HcsWf :=
  ⟨h.hcs, h.completed⟩

theorem shrinks_notifyDroppedCollection (s : State Key) (cid seqno : Nat) :
    Shrinks s (notifyDroppedCollection cid seqno s) :=
  .of_sublist (List.Sublist.refl _) rfl rfl

/-! ### The warmup constructor -/

/-- The loop of the warmup constructor appends the outstanding Prepares, in
increasing seqno order, and leaves the HPS and HCS iterators where their
seqnos put them. -/
theorem trackOutstandingPrepares_spec {hps hcs : Nat} :
    ∀ (prepares : List (Prepare Key)) (highest : Option Nat) (s s' : State Key),
      trackOutstandingPrepares hps hcs highest prepares s = .ok s' →
      Increasing seqnoOf s.trackedWrites →
      (∀ w ∈ s.trackedWrites, ∃ h ∈ highest, w.bySeqno ≤ h) →
      s.highPreparedSeqno.it = lastLE seqnoOf hps s.trackedWrites →
      s.highCompletedSeqno.it = lastLE seqnoOf hcs s.trackedWrites →
      s'.trackedWrites = s.trackedWrites ++ prepares.map SyncWrite.ofPrepare ∧
        Increasing seqnoOf s'.trackedWrites ∧
        s'.highPreparedSeqno.it = lastLE seqnoOf hps s'.trackedWrites ∧
        s'.highPreparedSeqno.lastWriteSeqno = s.highPreparedSeqno.lastWriteSeqno ∧
        s'.highCompletedSeqno.it = lastLE seqnoOf hcs s'.trackedWrites ∧
        s'.highCompletedSeqno.lastWriteSeqno = s.highCompletedSeqno.lastWriteSeqno ∧
        s'.receivedSnapshotEnds = s.receivedSnapshotEnds
  | [], _, s, s', h, hinc, _, hhps, hhcs => by
    obtain rfl := (Except.ok.inj h).symm
    exact ⟨by simp, hinc, hhps, rfl, hhcs, rfl, rfl⟩
  | prepare :: rest, highest, s, s', h, hinc, hhigh, hhps, hhcs => by
    unfold trackOutstandingPrepares at h
    dsimp only at h
    -- a Prepare out of order throws
    by_cases hord : highest.all (· < prepare.bySeqno) = true
    swap
    · rw [if_pos hord] at h
      obtain ⟨_, hthrow, -⟩ := Except.bind_eq_ok.mp h
      exact absurd hthrow Except.throw_ne_ok
    rw [if_neg (not_not.mpr hord)] at h
    -- the Prepare comes after every tracked write
    have hlt : ∀ w ∈ s.trackedWrites, seqnoOf w < seqnoOf (SyncWrite.ofPrepare prepare) := by
      intro w hw
      obtain ⟨hi, hhi, hwh⟩ := hhigh w hw
      rw [hhi, Option.all_some, decide_eq_true_eq] at hord
      exact lt_of_le_of_lt hwh hord
    obtain ⟨ht, hinc', hp, hpl, hc, hcl, hq⟩ := trackOutstandingPrepares_spec rest _ _ s' h
      (hinc.append_singleton hlt)
      (fun w hw => ⟨prepare.bySeqno, rfl, by
        rcases List.mem_append.mp hw with hw | hw
        · exact (hlt w hw).le
        · rw [List.mem_singleton.mp hw]
          rfl⟩)
      (by rw [lastLE_append_singleton hlt, hhps]; rfl)
      (by rw [lastLE_append_singleton hlt, hhcs]; rfl)
    exact ⟨by rw [ht, List.map_cons, List.append_assoc, List.singleton_append], hinc', hp, hpl,
      hc, hcl, hq⟩

end State

/-- A monitor built by the warmup constructor tracks the outstanding
Prepares, in increasing seqno order, with its HPS and HCS iterators where
their seqnos put them. -/
theorem ofOutstandingPrepares_eq_ok {hps hcs : Nat} {prepares : List (Prepare Key)}
    {m : PassiveDurabilityMonitor Key} (h : ofOutstandingPrepares hps hcs prepares = .ok m) :
    m.seqnoToAck = 0 ∧ m.state.trackedWrites = prepares.map SyncWrite.ofPrepare ∧
      Increasing seqnoOf m.state.trackedWrites ∧
      m.state.highPreparedSeqno.Tracks m.state.trackedWrites ∧
      m.state.highPreparedSeqno.lastWriteSeqno = hps ∧
      m.state.highCompletedSeqno.Tracks m.state.trackedWrites ∧
      m.state.highCompletedSeqno.lastWriteSeqno = hcs ∧ m.state.receivedSnapshotEnds = [] := by
  unfold ofOutstandingPrepares at h
  obtain ⟨s, hs, h⟩ := Except.bind_eq_ok.mp h
  obtain rfl := (Except.pure_eq_ok.mp h).symm
  obtain ⟨ht, hinc, hp, hpl, hc, hcl, hq⟩ := State.trackOutstandingPrepares_spec prepares none _ s hs
    List.Pairwise.nil (fun _ hw => absurd hw List.not_mem_nil) rfl rfl
  refine ⟨rfl, ht, hinc, ?_, hpl, ?_, hcl, hq⟩
  · show s.highPreparedSeqno.it = lastLE seqnoOf s.highPreparedSeqno.lastWriteSeqno s.trackedWrites
    rw [hpl]
    exact hp
  · show s.highCompletedSeqno.it = lastLE seqnoOf s.highCompletedSeqno.lastWriteSeqno s.trackedWrites
    rw [hcl]
    exact hc

/-! ### The operations that add and erase writes -/

variable [DecidableEq Key] {s s' : State Key}

/-- The overwrite path of `addSyncWrite` erases, if anything, the in-flight
write for the item's key, which has the seqno being overwritten. -/
theorem eraseOverwrittenPrepare_eq_ok {item : Prepare Key} {ow : Nat}
    (h : eraseOverwrittenPrepare item ow s = .ok s') :
    s' = s ∨ ∃ w ∈ s.trackedWrites, w.key = item.key ∧ w.bySeqno = ow ∧
      s' = s.safeEraseSyncWrite w.bySeqno := by
  unfold eraseOverwrittenPrepare at h
  split at h
  · exact .inl (Except.ok.inj h).symm
  · rename_i w hfind
    split_ifs at h with hseq
    have hfound := List.find?_some hfind
    have hkey : w.key = item.key ∧ ¬ w.isCompleted := of_decide_eq_true hfound
    exact .inr ⟨w, List.mem_of_find?_eq_some hfind, hkey.1, hseq, (Except.ok.inj h).symm⟩

/-- `addSyncWrite` checks the level, forgets the old dropped collections,
erases the Prepare being overwritten if there is one, and appends the new
write. -/
theorem addSyncWrite_eq_ok {item : Prepare Key} {ow : Option Nat}
    (h : addSyncWrite item ow s = .ok s') :
    item.level ≠ .none ∧ ∃ s₁,
      s' = { s₁ with trackedWrites := s₁.trackedWrites ++ [SyncWrite.ofPrepare item] } ∧
      (s₁ = s.checkForAndRemoveDroppedCollections ∨
        ∃ w ∈ s.trackedWrites, w.key = item.key ∧ ow = some w.bySeqno ∧
          s₁ = s.checkForAndRemoveDroppedCollections.safeEraseSyncWrite w.bySeqno) := by
  unfold addSyncWrite at h
  split_ifs at h with hnone hinf
  obtain ⟨s₁, h₁, h⟩ := Except.bind_eq_ok.mp h
  refine ⟨hnone, s₁, (Except.pure_eq_ok.mp h).symm, ?_⟩
  split at h₁
  · exact .inl (Except.pure_eq_ok.mp h₁).symm
  · rename_i ow'
    rcases eraseOverwrittenPrepare_eq_ok h₁ with rfl | ⟨w, hw, hkey, hseq, rfl⟩
    · exact .inl rfl
    · rw [State.checkForAndRemoveDroppedCollections_trackedWrites] at hw
      exact .inr ⟨w, hw, hkey, by rw [hseq], rfl⟩

theorem addSyncWrite_hps {item : Prepare Key} {ow : Option Nat}
    (h : addSyncWrite item ow s = .ok s') :
    s'.highPreparedSeqno.lastWriteSeqno = s.highPreparedSeqno.lastWriteSeqno := by
  obtain ⟨-, s₁, rfl, rfl | ⟨w, -, -, -, rfl⟩⟩ := addSyncWrite_eq_ok h <;> simp

/-- `eraseSyncWrite` erases the first write for the key, with the given
seqno, if there is one. -/
theorem eraseSyncWrite_eq_ok {key : Key} {seqno : Nat} (h : eraseSyncWrite key seqno s = .ok s') :
    s' = s ∨ ∃ w ∈ s.trackedWrites, w.key = key ∧ w.bySeqno = seqno ∧
      s' = s.safeEraseSyncWrite w.bySeqno := by
  unfold eraseSyncWrite at h
  split at h
  · exact .inl (Except.ok.inj h).symm
  · rename_i w hfind
    split_ifs at h with hne
    have hfound := List.find?_some hfind
    exact .inr ⟨w, List.mem_of_find?_eq_some hfind, of_decide_eq_true hfound,
      not_not.mp hne, (Except.ok.inj h).symm⟩

theorem eraseSyncWrite_hps {key : Key} {seqno : Nat} (h : eraseSyncWrite key seqno s = .ok s') :
    s'.highPreparedSeqno.lastWriteSeqno = s.highPreparedSeqno.lastWriteSeqno := by
  rcases eraseSyncWrite_eq_ok h with rfl | ⟨w, -, -, -, rfl⟩ <;> simp

/-! ### Locked sections -/

@[simp] theorem storeSeqnoAck_self (hps seqnoToAck : Nat) :
    storeSeqnoAck hps hps seqnoToAck = seqnoToAck := by
  simp [storeSeqnoAck]

section LockedSection

variable (collectionOf : Key → Nat) (vb : ReplicaVBucket) {m m' : PassiveDurabilityMonitor Key}

theorem lockedSection_addSyncWrite_eq_ok {item : Prepare Key} {ow : Option Nat}
    (h : lockedSection collectionOf vb (.addSyncWrite item ow) m = .ok m') :
    ∃ s', addSyncWrite item ow m.state = .ok s' ∧ m' = { m with state := s' } := by
  obtain ⟨s', hs, h⟩ := Except.bind_eq_ok.mp h
  exact ⟨s', hs, (Except.pure_eq_ok.mp h).symm⟩

theorem lockedSection_completeSyncWrite_eq_ok {key : Key} {res : Resolution} {ps : Option Nat}
    (h : lockedSection collectionOf vb (.completeSyncWrite key res ps) m = .ok m') :
    ∃ s', completeSyncWrite collectionOf vb.isReceivingDiskSnapshot key res ps m.state = .ok s' ∧
      m' = { m with state := s' } := by
  obtain ⟨s', hs, h⟩ := Except.bind_eq_ok.mp h
  exact ⟨s', hs, (Except.pure_eq_ok.mp h).symm⟩

theorem lockedSection_eraseSyncWrite_eq_ok {key : Key} {seqno : Nat}
    (h : lockedSection collectionOf vb (.eraseSyncWrite key seqno) m = .ok m') :
    ∃ s', eraseSyncWrite key seqno m.state = .ok s' ∧ m' = { m with state := s' } := by
  obtain ⟨s', hs, h⟩ := Except.bind_eq_ok.mp h
  exact ⟨s', hs, (Except.pure_eq_ok.mp h).symm⟩

theorem lockedSection_notifyDroppedCollection_eq_ok {cid seqno : Nat}
    (h : lockedSection collectionOf vb (.notifyDroppedCollection cid seqno) m = .ok m') :
    m' = { m with state := notifyDroppedCollection cid seqno m.state } :=
  (Except.pure_eq_ok.mp h).symm

/-- The locked section of `notifySnapshotEndReceived`: the snapshot end, then
the store of the marker's HCS, if any; the seqno to ack follows the HPS. -/
theorem lockedSection_notifySnapshotEndReceived_eq_ok {snapEnd : Nat} {hps hcs : Option Nat}
    (h : lockedSection collectionOf vb (.notifySnapshotEndReceived snapEnd hps hcs) m = .ok m') :
    ∃ s₁, m.state.processSnapshotEnd vb.persistenceSeqno
        (if vb.isReceivingDiskSnapshot then .disk else .memory) snapEnd hps = .ok s₁ ∧
      ((hcs = none ∧ m'.state = s₁) ∨
        ∃ c, hcs = some c ∧ s₁.highCompletedSeqno.lastWriteSeqno ≤ c ∧
          m'.state = { s₁ with highCompletedSeqno := { s₁.highCompletedSeqno with lastWriteSeqno := c } }) ∧
      m'.seqnoToAck = storeSeqnoAck m.state.highPreparedSeqno.lastWriteSeqno
        m'.state.highPreparedSeqno.lastWriteSeqno m.seqnoToAck := by
  obtain ⟨s₁, h₁, h⟩ := Except.bind_eq_ok.mp h
  obtain ⟨s₂, h₂, h⟩ := Except.bind_eq_ok.mp h
  obtain rfl := (Except.pure_eq_ok.mp h).symm
  refine ⟨s₁, h₁, ?_, rfl⟩
  cases hcs with
  | none => exact .inl ⟨rfl, (Except.pure_eq_ok.mp h₂).symm⟩
  | some c =>
    obtain ⟨hle, rfl⟩ := State.storeHighCompletedSeqno_eq_ok h₂
    exact .inr ⟨c, rfl, hle, rfl⟩

/-- The locked section of `notifyLocalPersistence`. -/
theorem lockedSection_notifyLocalPersistence_eq_ok
    (h : lockedSection collectionOf vb .notifyLocalPersistence m = .ok m') :
    ∃ s₁, m.state.updateHighPreparedSeqno vb.persistenceSeqno = .ok s₁ ∧
      m'.state = s₁.checkForAndRemoveDroppedCollections ∧
      m'.seqnoToAck = storeSeqnoAck m.state.highPreparedSeqno.lastWriteSeqno
        m'.state.highPreparedSeqno.lastWriteSeqno m.seqnoToAck := by
  obtain ⟨s₁, h₁, h⟩ := Except.bind_eq_ok.mp h
  obtain rfl := (Except.pure_eq_ok.mp h).symm
  exact ⟨s₁, h₁, rfl, rfl⟩

/-- The operations that do not send a seqno ack leave the HPS seqno and the
seqno to ack as they are. -/
theorem lockedSection_keeps_hps {op : Op Key} (hop : op.sendsSeqnoAck = false)
    (h : lockedSection collectionOf vb op m = .ok m') :
    m'.state.highPreparedSeqno.lastWriteSeqno = m.state.highPreparedSeqno.lastWriteSeqno ∧
      m'.seqnoToAck = m.seqnoToAck := by
  cases op with
  | addSyncWrite item ow =>
    obtain ⟨s', hs, rfl⟩ := lockedSection_addSyncWrite_eq_ok collectionOf vb h
    exact ⟨addSyncWrite_hps hs, rfl⟩
  | completeSyncWrite key res ps =>
    obtain ⟨s', hs, rfl⟩ := lockedSection_completeSyncWrite_eq_ok collectionOf vb h
    exact ⟨State.completeSyncWrite_hps hs, rfl⟩
  | eraseSyncWrite key seqno =>
    obtain ⟨s', hs, rfl⟩ := lockedSection_eraseSyncWrite_eq_ok collectionOf vb h
    exact ⟨eraseSyncWrite_hps hs, rfl⟩
  | notifyDroppedCollection cid seqno =>
    rw [lockedSection_notifyDroppedCollection_eq_ok collectionOf vb h]
    exact ⟨rfl, rfl⟩
  | notifySnapshotEndReceived => simp [Op.sendsSeqnoAck] at hop
  | notifyLocalPersistence => simp [Op.sendsSeqnoAck] at hop

/-- Whatever the state, no locked section moves the HPS seqno down. -/
theorem hps_le_lockedSection {op : Op Key} (h : lockedSection collectionOf vb op m = .ok m') :
    m.state.highPreparedSeqno.lastWriteSeqno ≤ m'.state.highPreparedSeqno.lastWriteSeqno := by
  cases op with
  | notifySnapshotEndReceived snapEnd hps hcs =>
    obtain ⟨s₁, h₁, hstore, -⟩ := lockedSection_notifySnapshotEndReceived_eq_ok collectionOf vb h
    have hle := State.le_processSnapshotEnd h₁
    rcases hstore with ⟨-, hs⟩ | ⟨c, -, -, hs⟩ <;> rw [hs] <;> exact hle
  | notifyLocalPersistence =>
    obtain ⟨s₁, h₁, hs, -⟩ := lockedSection_notifyLocalPersistence_eq_ok collectionOf vb h
    rw [hs, State.checkForAndRemoveDroppedCollections_highPreparedSeqno]
    exact State.le_updateHighPreparedSeqno h₁
  | _ => exact (lockedSection_keeps_hps collectionOf vb rfl h).1.ge

/-- Every locked section leaves the seqno to ack as `storeSeqnoAck` makes it
from the HPS seqno before and after. -/
theorem lockedSection_seqnoToAck {op : Op Key} (h : lockedSection collectionOf vb op m = .ok m') :
    m'.seqnoToAck = storeSeqnoAck m.state.highPreparedSeqno.lastWriteSeqno
      m'.state.highPreparedSeqno.lastWriteSeqno m.seqnoToAck := by
  cases op with
  | notifySnapshotEndReceived snapEnd hps hcs =>
    exact (lockedSection_notifySnapshotEndReceived_eq_ok collectionOf vb h).choose_spec.2.2
  | notifyLocalPersistence =>
    exact (lockedSection_notifyLocalPersistence_eq_ok collectionOf vb h).choose_spec.2.2
  | _ =>
    obtain ⟨hps, hack⟩ := lockedSection_keeps_hps collectionOf vb rfl h
    rw [hps, storeSeqnoAck_self, hack]

/-- A whole operation is its locked section, then, for the notifications,
`sendSeqnoAck`; the monitor's state is the one the locked section left. -/
theorem step_eq_ok {op : Op Key} {ack : Option Nat}
    (h : step collectionOf vb op m = .ok (m', ack)) :
    ∃ m₁, lockedSection collectionOf vb op m = .ok m₁ ∧ m'.state = m₁.state := by
  unfold step at h
  obtain ⟨m₁, h₁, h⟩ := Except.bind_eq_ok.mp h
  refine ⟨m₁, h₁, ?_⟩
  -- `sendSeqnoAck` only resets the seqno to ack
  split at h
  · rw [← (Prod.mk.inj (Except.pure_eq_ok.mp h)).1]
  · rw [← (Prod.mk.inj (Except.pure_eq_ok.mp h)).1]

end LockedSection

end PassiveDurabilityMonitor

end KvEngine.Durability
