import KvEngine.Durability.PassiveDM
import KvEngine.Lib.Except

/-!
# What the PassiveDurabilityMonitor's state operations do

A position of the monitor is an iterator and a seqno. In a well-formed state
the iterator adds nothing: it stands where its seqno puts it, on the last
tracked write at or below the seqno (`Position.Tracks`), and that is what
`getIteratorNext` relies on to find the next Prepare to pass. This module
says, for each operation on the state, what it does to the tracked writes and
to the positions, and that it keeps every iterator where its seqno puts it.

- `State.Wf`: the tracked writes increase by seqno and have a level, the HPS
  iterator tracks the HPS, and every queued snapshot end carries an HPS within
  its snapshot.
- `State.HcsWf`: the HCS iterator tracks the HCS and no completed write is
  above the HCS.
- One lemma per operation: `safeEraseSyncWrite`,
  `checkForAndRemovePrepares`, `checkForAndRemoveDroppedCollections`,
  `advanceHighPreparedSeqno` (the `for` loop), `processSnapshotEndTurn`,
  `updateHighPreparedSeqnoLoop` (the `while` loop) and
  `updateHighPreparedSeqno`: how the tracked writes and the HPS change, which
  writes the HPS passes and why it may pass them.
-/

namespace KvEngine.Durability

open ListIter

variable {Key : Type}

/-- A position whose iterator stands where its seqno puts it: on the last
tracked write at or below `lastWriteSeqno`, or at `end()` if there is none. -/
def Position.Tracks (pos : Position) (l : List (SyncWrite Key)) : Prop :=
  pos.it = lastLE PassiveDurabilityMonitor.seqnoOf pos.lastWriteSeqno l

/-- Whether the HPS may move into the snapshot that ends at `e` once
everything up to `p` is persisted: a memory snapshot, or a disk snapshot
persisted whole. -/
def SnapshotEndInfo.hpsMayEnter (p : Nat) (e : SnapshotEndInfo) : Bool :=
  e.type == .memory || decide (e.seqno ≤ p)

/-- The largest seqno of a list of snapshot ends (`0` for none). -/
def SnapshotEndInfo.maxSeqno (ends : List SnapshotEndInfo) : Nat :=
  (ends.map (·.seqno)).foldr max 0

/-- The end of the last snapshot before the first one the HPS may not enter:
as far as the HPS may go through the snapshots `ends`, in order. -/
def SnapshotEndInfo.consistentEnd (p : Nat) (ends : List SnapshotEndInfo) : Nat :=
  maxSeqno (ends.takeWhile (hpsMayEnter p))

namespace SnapshotEndInfo

@[simp] theorem maxSeqno_nil : maxSeqno [] = 0 := rfl

@[simp] theorem maxSeqno_cons (e : SnapshotEndInfo) (ends : List SnapshotEndInfo) :
    maxSeqno (e :: ends) = max e.seqno (maxSeqno ends) := rfl

theorem consistentEnd_cons_of_hpsMayEnter {p : Nat} {e : SnapshotEndInfo}
    (ends : List SnapshotEndInfo) (he : e.hpsMayEnter p = true) :
    consistentEnd p (e :: ends) = max e.seqno (consistentEnd p ends) := by
  simp [consistentEnd, he]

end SnapshotEndInfo

namespace PassiveDurabilityMonitor

/-! ### The levels the HPS may pass -/

/-- Only a persisted snapshot lets the HPS pass a `PersistToMajority`
Prepare. -/
theorem persisted_of_le_maxLevelCanAdvanceOver {persisted disk : Bool} {l : Level}
    (h : l ≤ State.maxLevelCanAdvanceOver persisted disk) (hl : l = .persistToMajority) :
    persisted = true := by
  subst hl
  cases persisted <;> cases disk <;> first | rfl | exact absurd h (by decide)

/-- A persisted snapshot lets the HPS pass every Prepare. -/
theorem le_maxLevelCanAdvanceOver_of_persisted (disk : Bool) (l : Level) :
    l ≤ State.maxLevelCanAdvanceOver true disk := by
  show l ≤ .persistToMajority
  cases l <;> decide

/-- A disk snapshot not persisted whole lets the HPS pass no Prepare. -/
theorem hpsMayEnter_of_le_maxLevelCanAdvanceOver {p : Nat} {e : SnapshotEndInfo} {l : Level}
    (h : l ≤ State.maxLevelCanAdvanceOver (decide (e.seqno ≤ p)) (e.type == .disk))
    (hl : l ≠ .none) : e.hpsMayEnter p = true := by
  unfold SnapshotEndInfo.hpsMayEnter
  by_cases hp : e.seqno ≤ p
  · simp [hp]
  · cases ht : e.type
    · simp only [ht, hp, decide_false] at h
      cases l <;> first | exact absurd rfl hl | exact absurd h (by decide)
    · rfl

namespace State

/-- A well-formed monitor state. -/
structure Wf (s : State Key) : Prop where
  increasing : Increasing seqnoOf s.trackedWrites
  hps : s.highPreparedSeqno.Tracks s.trackedWrites
  levels : ∀ w ∈ s.trackedWrites, w.level ≠ .none
  snapshotHps : ∀ e ∈ s.receivedSnapshotEnds, ∀ h ∈ e.hps, h ≤ e.seqno

/-- The HCS position of a well-formed monitor state. -/
structure HcsWf (s : State Key) : Prop where
  hcs : s.highCompletedSeqno.Tracks s.trackedWrites
  completed : ∀ w ∈ s.trackedWrites, w.isCompleted → w.bySeqno ≤ s.highCompletedSeqno.lastWriteSeqno

variable {s : State Key}

/-! ### `safeEraseSyncWrite` -/

section SafeErase

variable (s) (k : Nat)

@[simp] theorem safeEraseSyncWrite_trackedWrites :
    (s.safeEraseSyncWrite k).trackedWrites = erase seqnoOf s.trackedWrites k := rfl

@[simp] theorem safeEraseSyncWrite_hps_lastWriteSeqno :
    (s.safeEraseSyncWrite k).highPreparedSeqno.lastWriteSeqno =
      s.highPreparedSeqno.lastWriteSeqno := rfl

@[simp] theorem safeEraseSyncWrite_hcs_lastWriteSeqno :
    (s.safeEraseSyncWrite k).highCompletedSeqno.lastWriteSeqno =
      s.highCompletedSeqno.lastWriteSeqno := rfl

@[simp] theorem safeEraseSyncWrite_receivedSnapshotEnds :
    (s.safeEraseSyncWrite k).receivedSnapshotEnds = s.receivedSnapshotEnds := rfl

@[simp] theorem safeEraseSyncWrite_droppedCollections :
    (s.safeEraseSyncWrite k).droppedCollections = s.droppedCollections := rfl

end SafeErase

theorem mem_of_mem_erase {l : List (SyncWrite Key)} {k : Nat} {w : SyncWrite Key}
    (h : w ∈ erase seqnoOf l k) : w ∈ l :=
  List.eraseP_sublist.subset h

/-- Moving an iterator off a write before erasing the write keeps it
tracking. -/
theorem tracks_erase {pos : Position} {l : List (SyncWrite Key)} (k : Nat)
    (hinc : Increasing seqnoOf l) (h : pos.Tracks l) :
    ({ pos with it := repoint pos.it k (prev seqnoOf l k) } : Position).Tracks
      (erase seqnoOf l k) := by
  unfold Position.Tracks at h ⊢
  rw [lastLE_erase hinc, h]

theorem Wf.safeEraseSyncWrite (h : s.Wf) (k : Nat) : (s.safeEraseSyncWrite k).Wf where
  increasing := h.increasing.sublist List.eraseP_sublist
  hps := tracks_erase k h.increasing h.hps
  levels w hw := h.levels w (mem_of_mem_erase hw)
  snapshotHps := h.snapshotHps

theorem HcsWf.safeEraseSyncWrite (hw : s.Wf) (h : s.HcsWf) (k : Nat) :
    (s.safeEraseSyncWrite k).HcsWf where
  hcs := tracks_erase k hw.increasing h.hcs
  completed w hmem := h.completed w (mem_of_mem_erase hmem)

/-! ### `checkForAndRemovePrepares` -/

/-- The loop moves its two iterators alike. -/
theorem checkForAndRemovePreparesLoop_swap (lw : Nat) :
    ∀ (l : List (SyncWrite Key)) (it₁ it₂ : Option Nat),
      checkForAndRemovePreparesLoop lw l it₂ it₁ =
        ((checkForAndRemovePreparesLoop lw l it₁ it₂).1,
          (checkForAndRemovePreparesLoop lw l it₁ it₂).2.2,
          (checkForAndRemovePreparesLoop lw l it₁ it₂).2.1)
  | [], _, _ => rfl
  | w :: l, it₁, it₂ => by
    unfold checkForAndRemovePreparesLoop
    split_ifs
    · exact checkForAndRemovePreparesLoop_swap lw l _ _
    · rfl

/-- The loop drops a prefix of completed writes at or below `lw`. -/
theorem checkForAndRemovePreparesLoop_dropped (lw : Nat) :
    ∀ (l : List (SyncWrite Key)) (it₁ it₂ : Option Nat),
      ∃ p, l = p ++ (checkForAndRemovePreparesLoop lw l it₁ it₂).1 ∧
        ∀ w ∈ p, w.bySeqno ≤ lw ∧ w.isCompleted
  | [], _, _ => ⟨[], rfl, fun _ hw => absurd hw List.not_mem_nil⟩
  | w :: l, it₁, it₂ => by
    unfold checkForAndRemovePreparesLoop
    split_ifs with hw
    · obtain ⟨p, hp, hpw⟩ := checkForAndRemovePreparesLoop_dropped lw l
        (repoint it₁ w.bySeqno none) (repoint it₂ w.bySeqno none)
      refine ⟨w :: p, by rw [List.cons_append, ← hp], fun x hx => ?_⟩
      rcases List.mem_cons.mp hx with rfl | hx
      · exact hw
      · exact hpw x hx
    · exact ⟨[], rfl, fun _ hx => absurd hx List.not_mem_nil⟩

/-- An iterator tracking a bound that every droppable write is at or below
keeps tracking it. -/
theorem checkForAndRemovePreparesLoop_tracks (lw b : Nat) :
    ∀ (l : List (SyncWrite Key)) (it₁ it₂ : Option Nat), Increasing seqnoOf l →
      (∀ w ∈ l, w.bySeqno ≤ lw → w.isCompleted → w.bySeqno ≤ b) →
      it₁ = lastLE seqnoOf b l →
      (checkForAndRemovePreparesLoop lw l it₁ it₂).2.1 =
        lastLE seqnoOf b (checkForAndRemovePreparesLoop lw l it₁ it₂).1
  | [], _, _, _, _, h => h
  | w :: l, it₁, it₂, hinc, hb, h => by
    unfold checkForAndRemovePreparesLoop
    split_ifs with hw
    · refine checkForAndRemovePreparesLoop_tracks lw b l _ _ hinc.of_cons
        (fun x hx => hb x (List.mem_cons_of_mem _ hx)) ?_
      rw [h]
      exact (lastLE_of_cons hinc (hb w List.mem_cons_self hw.1 hw.2)).symm
    · exact h

theorem checkForAndRemovePrepares_eq (s : State Key) :
    s.checkForAndRemovePrepares =
      let r := checkForAndRemovePreparesLoop s.highPreparedSeqno.lastWriteSeqno s.trackedWrites
        s.highPreparedSeqno.it s.highCompletedSeqno.it
      { s with
        trackedWrites := r.1
        highPreparedSeqno := { s.highPreparedSeqno with it := r.2.1 }
        highCompletedSeqno := { s.highCompletedSeqno with it := r.2.2 } } := by
  unfold checkForAndRemovePrepares
  split_ifs with hempty
  · -- nothing tracked: the loop runs on `[]` and moves nothing
    obtain ⟨tw, hps, q, hcs, d⟩ := s
    obtain rfl : tw = [] := List.isEmpty_iff.mp hempty
    rfl
  · rfl

section CheckForAndRemovePrepares

variable (s : State Key)

@[simp] theorem checkForAndRemovePrepares_hps_lastWriteSeqno :
    s.checkForAndRemovePrepares.highPreparedSeqno.lastWriteSeqno =
      s.highPreparedSeqno.lastWriteSeqno := by
  rw [checkForAndRemovePrepares_eq]

@[simp] theorem checkForAndRemovePrepares_hcs_lastWriteSeqno :
    s.checkForAndRemovePrepares.highCompletedSeqno.lastWriteSeqno =
      s.highCompletedSeqno.lastWriteSeqno := by
  rw [checkForAndRemovePrepares_eq]

@[simp] theorem checkForAndRemovePrepares_receivedSnapshotEnds :
    s.checkForAndRemovePrepares.receivedSnapshotEnds = s.receivedSnapshotEnds := by
  rw [checkForAndRemovePrepares_eq]

/-- `checkForAndRemovePrepares` drops a prefix of completed writes at or below
the HPS. -/
theorem checkForAndRemovePrepares_dropped :
    ∃ p, s.trackedWrites = p ++ s.checkForAndRemovePrepares.trackedWrites ∧
      ∀ w ∈ p, w.bySeqno ≤ s.highPreparedSeqno.lastWriteSeqno ∧ w.isCompleted := by
  rw [checkForAndRemovePrepares_eq]
  exact checkForAndRemovePreparesLoop_dropped _ _ _ _

theorem checkForAndRemovePrepares_sublist :
    s.checkForAndRemovePrepares.trackedWrites.Sublist s.trackedWrites := by
  obtain ⟨p, hp, -⟩ := checkForAndRemovePrepares_dropped s
  exact hp ▸ List.sublist_append_right p _

end CheckForAndRemovePrepares

theorem Wf.checkForAndRemovePrepares (h : s.Wf) : s.checkForAndRemovePrepares.Wf where
  increasing := h.increasing.sublist (checkForAndRemovePrepares_sublist s)
  hps := by
    unfold Position.Tracks
    rw [checkForAndRemovePrepares_eq]
    exact checkForAndRemovePreparesLoop_tracks _ _ _ _ _ h.increasing (fun _ _ hle _ => hle) h.hps
  levels w hw := h.levels w ((checkForAndRemovePrepares_sublist s).subset hw)
  snapshotHps := by
    rw [checkForAndRemovePrepares_receivedSnapshotEnds]
    exact h.snapshotHps

theorem HcsWf.checkForAndRemovePrepares (hw : s.Wf) (h : s.HcsWf) :
    s.checkForAndRemovePrepares.HcsWf where
  hcs := by
    unfold Position.Tracks
    rw [checkForAndRemovePrepares_eq]
    dsimp only
    rw [checkForAndRemovePreparesLoop_swap]
    exact checkForAndRemovePreparesLoop_tracks _ _ _ _ _ hw.increasing
      (fun w hmem _ hc => h.completed w hmem hc) h.hcs
  completed w hmem hc := by
    rw [checkForAndRemovePrepares_hcs_lastWriteSeqno]
    exact h.completed w ((checkForAndRemovePrepares_sublist s).subset hmem) hc

/-! ### `checkForAndRemoveDroppedCollections` -/

/-- `checkForAndRemoveDroppedCollections` changes only the dropped
collections. -/
theorem checkForAndRemoveDroppedCollections_eq (s : State Key) :
    ∃ d, s.checkForAndRemoveDroppedCollections = { s with droppedCollections := d } := by
  unfold checkForAndRemoveDroppedCollections
  split_ifs
  · exact ⟨s.droppedCollections, rfl⟩
  · split
    · exact ⟨[], rfl⟩
    · exact ⟨_, rfl⟩

section DroppedCollections

variable (s : State Key)

@[simp] theorem checkForAndRemoveDroppedCollections_trackedWrites :
    s.checkForAndRemoveDroppedCollections.trackedWrites = s.trackedWrites := by
  obtain ⟨d, hd⟩ := checkForAndRemoveDroppedCollections_eq s
  rw [hd]

@[simp] theorem checkForAndRemoveDroppedCollections_highPreparedSeqno :
    s.checkForAndRemoveDroppedCollections.highPreparedSeqno = s.highPreparedSeqno := by
  obtain ⟨d, hd⟩ := checkForAndRemoveDroppedCollections_eq s
  rw [hd]

@[simp] theorem checkForAndRemoveDroppedCollections_highCompletedSeqno :
    s.checkForAndRemoveDroppedCollections.highCompletedSeqno = s.highCompletedSeqno := by
  obtain ⟨d, hd⟩ := checkForAndRemoveDroppedCollections_eq s
  rw [hd]

@[simp] theorem checkForAndRemoveDroppedCollections_receivedSnapshotEnds :
    s.checkForAndRemoveDroppedCollections.receivedSnapshotEnds = s.receivedSnapshotEnds := by
  obtain ⟨d, hd⟩ := checkForAndRemoveDroppedCollections_eq s
  rw [hd]

end DroppedCollections

theorem Wf.checkForAndRemoveDroppedCollections (h : s.Wf) :
    s.checkForAndRemoveDroppedCollections.Wf := by
  obtain ⟨d, hd⟩ := checkForAndRemoveDroppedCollections_eq s
  rw [hd]
  exact ⟨h.increasing, h.hps, h.levels, h.snapshotHps⟩

theorem HcsWf.checkForAndRemoveDroppedCollections (h : s.HcsWf) :
    s.checkForAndRemoveDroppedCollections.HcsWf := by
  obtain ⟨d, hd⟩ := checkForAndRemoveDroppedCollections_eq s
  rw [hd]
  exact ⟨h.hcs, h.completed⟩

/-! ### The `for` loop of `updateHighPreparedSeqno` -/

/-- The state with HPS seqno `lw` and the HPS iterator where `lw` puts it. -/
def moveHps (s : State Key) (lw : Nat) : State Key :=
  { s with
    highPreparedSeqno :=
      { s.highPreparedSeqno with lastWriteSeqno := lw, it := lastLE seqnoOf lw s.trackedWrites } }

section MoveHps

variable (s : State Key) (lw : Nat)

@[simp] theorem moveHps_trackedWrites : (s.moveHps lw).trackedWrites = s.trackedWrites := rfl

@[simp] theorem moveHps_hps_lastWriteSeqno :
    (s.moveHps lw).highPreparedSeqno.lastWriteSeqno = lw := rfl

@[simp] theorem moveHps_highCompletedSeqno :
    (s.moveHps lw).highCompletedSeqno = s.highCompletedSeqno := rfl

@[simp] theorem moveHps_receivedSnapshotEnds :
    (s.moveHps lw).receivedSnapshotEnds = s.receivedSnapshotEnds := rfl

@[simp] theorem moveHps_moveHps (lw' : Nat) : (s.moveHps lw).moveHps lw' = s.moveHps lw' := rfl

theorem tracks_moveHps : (s.moveHps lw).highPreparedSeqno.Tracks s.trackedWrites := rfl

end MoveHps

theorem moveHps_self (h : s.highPreparedSeqno.Tracks s.trackedWrites) :
    s.moveHps s.highPreparedSeqno.lastWriteSeqno = s := by
  obtain ⟨tw, ⟨it, lw, la⟩, q, hcs, d⟩ := s
  unfold Position.Tracks at h
  simp only at h
  simp only [moveHps, ← h]

theorem Wf.moveHps (h : s.Wf) (lw : Nat) : (s.moveHps lw).Wf :=
  ⟨h.increasing, tracks_moveHps s lw, h.levels, h.snapshotHps⟩

theorem HcsWf.moveHps (h : s.HcsWf) (lw : Nat) : (s.moveHps lw).HcsWf :=
  ⟨h.hcs, h.completed⟩

@[simp] theorem seqnoOf_apply (w : SyncWrite Key) : seqnoOf w = w.bySeqno := rfl

/-- The first write past `b` is the one `getIteratorNext` returns from an
iterator that tracks `b`. -/
theorem getIteratorNext_of_tracks {pos : Position} (hinc : Increasing seqnoOf s.trackedWrites)
    (h : pos.Tracks s.trackedWrites) :
    s.getIteratorNext pos.it =
      s.trackedWrites.find? (fun w => pos.lastWriteSeqno < seqnoOf w) := by
  unfold getIteratorNext
  rw [h]
  exact next_lastLE hinc

/-- The `for` loop of `updateHighPreparedSeqno` moves the HPS seqno up to
`lw`, over writes of the snapshot whose level it may pass, with the iterator
where `lw` puts it; `lw` is the seqno of the last write passed. With fuel for
every write past the HPS it stops only at a write it may not pass. -/
theorem advanceHighPreparedSeqno_spec {snapEnd : Nat} {maxLevel : Level} :
    ∀ (fuel : Nat) {s s' : State Key}, Increasing seqnoOf s.trackedWrites →
      s.highPreparedSeqno.Tracks s.trackedWrites →
      advanceHighPreparedSeqno snapEnd maxLevel fuel s = .ok s' →
      ∃ lw, s' = s.moveHps lw ∧ s.highPreparedSeqno.lastWriteSeqno ≤ lw ∧
        (∀ w ∈ s.trackedWrites, s.highPreparedSeqno.lastWriteSeqno < w.bySeqno →
          w.bySeqno ≤ lw → w.bySeqno ≤ snapEnd ∧ w.level ≤ maxLevel) ∧
        (s.highPreparedSeqno.lastWriteSeqno < lw → ∃ w ∈ s.trackedWrites, w.bySeqno = lw) ∧
        (s.trackedWrites.countP (fun w => s.highPreparedSeqno.lastWriteSeqno < seqnoOf w) ≤ fuel →
          ∀ w, s.trackedWrites.find? (fun w => lw < seqnoOf w) = some w →
            ¬ (w.bySeqno ≤ snapEnd ∧ w.level ≤ maxLevel)) := by
  intro fuel
  induction fuel with
  | zero =>
    intro s s' _ htr h
    cases h
    refine ⟨_, (moveHps_self htr).symm, le_rfl, fun w _ h₁ h₂ => absurd h₁ (not_lt.mpr h₂),
      fun h => absurd h (lt_irrefl _), fun hcount w hw => ?_⟩
    -- no fuel: nothing was past the HPS
    have hpast := List.find?_some hw
    have hpos : 0 < s.trackedWrites.countP (fun w => s.highPreparedSeqno.lastWriteSeqno < seqnoOf w) :=
      List.countP_pos_iff.mpr ⟨w, List.mem_of_find?_eq_some hw, hpast⟩
    omega
  | succ fuel ih =>
    intro s s' hinc htr h
    unfold advanceHighPreparedSeqno at h
    rw [getIteratorNext_of_tracks hinc htr] at h
    cases hf : s.trackedWrites.find? (fun w => s.highPreparedSeqno.lastWriteSeqno < seqnoOf w) with
    | none =>
      rw [hf] at h
      cases h
      refine ⟨_, (moveHps_self htr).symm, le_rfl, fun w _ h₁ h₂ => absurd h₁ (not_lt.mpr h₂),
        fun h => absurd h (lt_irrefl _), fun _ w hw => ?_⟩
      rw [hf] at hw
      cases hw
    | some next =>
      rw [hf] at h
      dsimp only at h
      have hpast := List.find?_some hf
      have hnext : s.highPreparedSeqno.lastWriteSeqno < next.bySeqno := of_decide_eq_true hpast
      have hmem : next ∈ s.trackedWrites := List.mem_of_find?_eq_some hf
      split_ifs at h with hcond
      · -- pass `next`: the store succeeds and the loop goes on from it
        obtain ⟨lw₁, hstore, h⟩ := Except.bind_eq_ok.mp h
        obtain ⟨-, rfl⟩ := Monotonic.store_eq_ok_iff.mp hstore
        have hs₁ : { s with highPreparedSeqno :=
            { s.highPreparedSeqno with lastWriteSeqno := next.bySeqno, it := some next.bySeqno } } =
            s.moveHps next.bySeqno := by
          have hkey : lastLE seqnoOf next.bySeqno s.trackedWrites = some next.bySeqno :=
            lastLE_key_of_mem hinc hmem
          simp only [moveHps, hkey]
        rw [hs₁] at h
        obtain ⟨lw, rfl, hle, hpassed, hlast, hstop⟩ :=
          @ih (s.moveHps next.bySeqno) _ hinc (tracks_moveHps s next.bySeqno) h
        refine ⟨lw, (moveHps_moveHps s next.bySeqno lw).symm, hnext.le.trans hle, ?_, ?_, ?_⟩
        · intro w hw h₁ h₂
          by_cases hw₁ : w.bySeqno ≤ next.bySeqno
          · -- the only write up to `next` past the HPS is `next`
            have hge : next.bySeqno ≤ w.bySeqno :=
              (le_of_find?_lt hinc hf hw h₁ : seqnoOf next ≤ seqnoOf w)
            have hwn : w = next := hinc.eq_of_key_eq hw hmem (le_antisymm hw₁ hge)
            exact hwn ▸ hcond
          · exact hpassed w hw (lt_of_not_ge hw₁) h₂
        · intro _
          by_cases hlt : next.bySeqno < lw
          · exact hlast hlt
          · exact ⟨next, hmem, le_antisymm hle (not_lt.mp hlt)⟩
        · intro hcount
          apply hstop
          have hfewer : s.trackedWrites.countP (fun w => next.bySeqno < seqnoOf w) <
              s.trackedWrites.countP (fun w => s.highPreparedSeqno.lastWriteSeqno < seqnoOf w) :=
            countP_lt_of_find? hf
          show s.trackedWrites.countP (fun w => next.bySeqno < seqnoOf w) ≤ fuel
          omega
      · -- `next` may not be passed: the loop stops
        cases h
        refine ⟨_, (moveHps_self htr).symm, le_rfl, fun w _ h₁ h₂ => absurd h₁ (not_lt.mpr h₂),
          fun h => absurd h (lt_irrefl _), fun _ w hw => ?_⟩
        rw [hf, Option.some_inj] at hw
        exact hw ▸ hcond

/-- Without tracked writes the `for` loop does not run. -/
theorem advanceHighPreparedSeqno_of_isEmpty (snapEnd : Nat) (maxLevel : Level) (s : State Key) :
    (if s.trackedWrites.isEmpty then pure s
      else advanceHighPreparedSeqno snapEnd maxLevel s.trackedWrites.length s) =
      advanceHighPreparedSeqno snapEnd maxLevel s.trackedWrites.length s := by
  split_ifs with h
  · rw [List.isEmpty_iff.mp h]
    rfl
  · rfl

/-! ### The `while` loop of `updateHighPreparedSeqno` -/

/-- One turn of the `while` loop on the snapshot ending at `f` moves the HPS
seqno up to `lw`, within that snapshot and only if the HPS may enter it,
passing a `PersistToMajority` Prepare only if it is persisted; the loop goes
on only if the HPS may enter the snapshot. -/
theorem processSnapshotEndTurn_spec {p : Nat} {f : SnapshotEndInfo} {s s' : State Key}
    {cont : Bool} (hw : s.Wf) (hf : ∀ h ∈ f.hps, h ≤ f.seqno)
    (h : processSnapshotEndTurn p f s = .ok (s', cont)) :
    ∃ lw, s' = s.moveHps lw ∧ s.highPreparedSeqno.lastWriteSeqno ≤ lw ∧
      (s.highPreparedSeqno.lastWriteSeqno < lw → lw ≤ f.seqno ∧ f.hpsMayEnter p = true) ∧
      (∀ w ∈ s.trackedWrites, s.highPreparedSeqno.lastWriteSeqno < w.bySeqno → w.bySeqno ≤ lw →
        w.level = .persistToMajority → w.bySeqno ≤ p) ∧
      (cont = true → f.hpsMayEnter p = true) := by
  unfold processSnapshotEndTurn at h
  dsimp only at h
  obtain ⟨s₁, h₁, h⟩ := Except.bind_eq_ok.mp h
  rw [advanceHighPreparedSeqno_of_isEmpty] at h₁
  obtain ⟨lw₁, rfl, hle₁, hpassed₁, hlast₁, hstop₁⟩ :=
    advanceHighPreparedSeqno_spec _ hw.increasing hw.hps h₁
  -- what the `for` loop passed: writes of the snapshot the HPS may enter
  have hmay₁ : s.highPreparedSeqno.lastWriteSeqno < lw₁ → lw₁ ≤ f.seqno ∧ f.hpsMayEnter p = true := by
    intro hlt
    obtain ⟨w, hw', rfl⟩ := hlast₁ hlt
    obtain ⟨hin, hlevel⟩ := hpassed₁ w hw' hlt le_rfl
    exact ⟨hin, hpsMayEnter_of_le_maxLevelCanAdvanceOver hlevel (hw.levels w hw')⟩
  have hfence₁ : ∀ w ∈ s.trackedWrites, s.highPreparedSeqno.lastWriteSeqno < w.bySeqno →
      w.bySeqno ≤ lw₁ → w.level = .persistToMajority → w.bySeqno ≤ p := by
    intro w hw' h₁ h₂ hl
    obtain ⟨hin, hlevel⟩ := hpassed₁ w hw' h₁ h₂
    have hp := persisted_of_le_maxLevelCanAdvanceOver hlevel hl
    exact hin.trans (of_decide_eq_true hp)
  obtain ⟨s₂, h₂, h⟩ := Except.bind_eq_ok.mp h
  obtain ⟨rfl, rfl⟩ := Prod.mk.inj (Except.pure_eq_ok.mp h).symm
  split_ifs at h₂ with hspecial
  · -- a fully persisted disk snapshot: the HPS goes to the marker's HPS or
    -- the snapshot end, past no further write
    unfold moveHpsToSnapshotEnd at h₂
    obtain ⟨lw₂, hstore, h₂⟩ := Except.bind_eq_ok.mp h₂
    obtain ⟨hadm, rfl⟩ := Monotonic.store_eq_ok_iff.mp hstore
    have hle₂ : lw₁ ≤ f.hps.getD f.seqno := by simpa using hadm
    have hpersisted : f.seqno ≤ p := by
      simp only [Bool.and_eq_true, beq_iff_eq, decide_eq_true_eq] at hspecial
      exact hspecial.2
    have hdisk : f.type = .disk := by
      simp only [Bool.and_eq_true, beq_iff_eq] at hspecial
      exact hspecial.1
    have hend : f.hps.getD f.seqno ≤ f.seqno := by
      cases hh : f.hps with
      | none => exact le_rfl
      | some v => exact hf v hh
    -- nothing lies between `lw₁` and the snapshot end: the loop passed all of it
    have hgap : ∀ c ∈ (s.moveHps lw₁).trackedWrites, lw₁ < seqnoOf c →
        f.hps.getD f.seqno < seqnoOf c := by
      intro c hc hlt
      cases hfind : s.trackedWrites.find? (fun w => lw₁ < seqnoOf w) with
      | none =>
        exact absurd (decide_eq_true hlt) (List.find?_eq_none.mp hfind c hc)
      | some nxt =>
        have hnot := hstop₁ (List.countP_le_length) nxt hfind
        have hmax : nxt.level ≤ maxLevelCanAdvanceOver (decide (f.seqno ≤ p)) (f.type == .disk) := by
          rw [decide_eq_true hpersisted]
          exact le_maxLevelCanAdvanceOver_of_persisted _ _
        have hnxt : f.seqno < nxt.bySeqno := by
          by_contra hge
          exact hnot ⟨not_lt.mp hge, hmax⟩
        have hc' : seqnoOf nxt ≤ seqnoOf c := le_of_find?_lt hw.increasing hfind hc hlt
        exact lt_of_le_of_lt hend (hnxt.trans_le hc')
    have hs₂ : { s.moveHps lw₁ with
        highPreparedSeqno := { (s.moveHps lw₁).highPreparedSeqno with
          lastWriteSeqno := f.hps.getD f.seqno } } = s.moveHps (f.hps.getD f.seqno) := by
      simp only [moveHps, lastLE_congr hw.increasing hle₂ hgap]
    rw [(Except.pure_eq_ok.mp h₂).symm, hs₂]
    refine ⟨_, rfl, hle₁.trans hle₂, fun _ => ⟨hend, ?_⟩, ?_, fun _ => ?_⟩
    · simp [SnapshotEndInfo.hpsMayEnter, hpersisted]
    · intro w hw' h₁ h₂ _
      exact h₂.trans (hend.trans hpersisted)
    · simp [SnapshotEndInfo.hpsMayEnter, hpersisted]
  · cases (Except.pure_eq_ok.mp h₂)
    refine ⟨lw₁, rfl, hle₁, hmay₁, hfence₁, fun hcont => ?_⟩
    -- the loop goes on only past a snapshot the HPS may enter
    unfold SnapshotEndInfo.hpsMayEnter
    cases ht : f.type
    · by_cases hp : f.seqno ≤ p
      · simp [hp]
      · simp [ht, hp] at hcont
    · rfl

/-- The `while` loop of `updateHighPreparedSeqno` moves the HPS seqno up to
`lw` and pops the first `n` snapshot ends, all of snapshots the HPS may enter;
`lw` stays within the snapshots before the first one the HPS may not enter,
and the loop passes a `PersistToMajority` Prepare only once it is
persisted. -/
theorem updateHighPreparedSeqnoLoop_spec {p : Nat} :
    ∀ (fuel : Nat) {s s' : State Key}, s.Wf → updateHighPreparedSeqnoLoop p fuel s = .ok s' →
      ∃ lw n, s' = { s.moveHps lw with receivedSnapshotEnds := s.receivedSnapshotEnds.drop n } ∧
        s.highPreparedSeqno.lastWriteSeqno ≤ lw ∧
        (∀ e ∈ s.receivedSnapshotEnds.take n, e.hpsMayEnter p = true) ∧
        lw ≤ max s.highPreparedSeqno.lastWriteSeqno
          (SnapshotEndInfo.consistentEnd p s.receivedSnapshotEnds) ∧
        (∀ w ∈ s.trackedWrites, s.highPreparedSeqno.lastWriteSeqno < w.bySeqno → w.bySeqno ≤ lw →
          w.level = .persistToMajority → w.bySeqno ≤ p) := by
  intro fuel
  induction fuel with
  | zero =>
    intro s s' hw h
    cases h
    refine ⟨_, 0, ?_, le_rfl, by simp, le_max_left _ _,
      fun w _ h₁ h₂ => absurd h₁ (not_lt.mpr h₂)⟩
    rw [moveHps_self hw.hps, List.drop_zero]
  | succ fuel ih =>
    intro s s' hw h
    rw [updateHighPreparedSeqnoLoop] at h
    split at h
    · -- no snapshot end queued
      cases h
      refine ⟨_, 0, ?_, le_rfl, by simp, le_max_left _ _,
        fun w _ h₁ h₂ => absurd h₁ (not_lt.mpr h₂)⟩
      rw [moveHps_self hw.hps, List.drop_zero]
    · rename_i f rest hq
      obtain ⟨⟨s₁, c⟩, hturn, h⟩ := Except.bind_eq_ok.mp h
      have hf : ∀ v ∈ f.hps, v ≤ f.seqno := hw.snapshotHps f (hq ▸ List.mem_cons_self)
      obtain ⟨lw₁, rfl, hle₁, hmay₁, hfence₁, hcont⟩ := processSnapshotEndTurn_spec hw hf hturn
      dsimp only at h
      split_ifs at h with hc
      · -- the turn went through the snapshot: the loop goes on with the rest
        have hw₁ : ({ s.moveHps lw₁ with receivedSnapshotEnds := rest } : State Key).Wf :=
          ⟨hw.increasing, tracks_moveHps s lw₁, hw.levels,
            fun e he => hw.snapshotHps e (hq ▸ List.mem_cons_of_mem _ he)⟩
        obtain ⟨lw, n, rfl, hle, hpop, hbound, hfence⟩ := ih hw₁ h
        have hmay := hcont hc
        refine ⟨lw, n + 1, by rw [hq]; rfl, hle₁.trans hle, ?_, ?_, ?_⟩
        · rw [hq]
          intro e he
          rcases List.mem_cons.mp he with rfl | he
          · exact hmay
          · exact hpop e he
        · rw [hq, SnapshotEndInfo.consistentEnd_cons_of_hpsMayEnter _ hmay]
          have hlw₁ : lw₁ ≤ max s.highPreparedSeqno.lastWriteSeqno f.seqno := by
            rcases lt_or_eq_of_le hle₁ with hlt | heq
            · have := (hmay₁ hlt).1
              omega
            · omega
          have hbound' : lw ≤ max lw₁ (SnapshotEndInfo.consistentEnd p rest) := hbound
          omega
        · intro w hw' h₁ h₂ hl
          by_cases hw₁' : w.bySeqno ≤ lw₁
          · exact hfence₁ w hw' h₁ hw₁' hl
          · exact hfence w hw' (lt_of_not_ge hw₁') h₂ hl
      · -- the turn stopped inside the snapshot: so does the loop
        cases h
        refine ⟨lw₁, 0, by simp only [List.drop_zero]; rfl, hle₁, by simp, ?_, hfence₁⟩
        rcases lt_or_eq_of_le hle₁ with hlt | heq
        · obtain ⟨hin, hmay⟩ := hmay₁ hlt
          rw [hq, SnapshotEndInfo.consistentEnd_cons_of_hpsMayEnter _ hmay]
          omega
        · omega

/-- `updateHighPreparedSeqno` is its `while` loop, followed by
`checkForAndRemovePrepares` when the HPS moved. -/
theorem updateHighPreparedSeqno_spec {p : Nat} {s s' : State Key} (hw : s.Wf)
    (h : s.updateHighPreparedSeqno p = .ok s') :
    ∃ lw n, (s' = { s.moveHps lw with receivedSnapshotEnds := s.receivedSnapshotEnds.drop n } ∨
        s' = ({ s.moveHps lw with
          receivedSnapshotEnds := s.receivedSnapshotEnds.drop n } : State Key).checkForAndRemovePrepares) ∧
      s.highPreparedSeqno.lastWriteSeqno ≤ lw ∧
      (∀ e ∈ s.receivedSnapshotEnds.take n, e.hpsMayEnter p = true) ∧
      lw ≤ max s.highPreparedSeqno.lastWriteSeqno
        (SnapshotEndInfo.consistentEnd p s.receivedSnapshotEnds) ∧
      (∀ w ∈ s.trackedWrites, s.highPreparedSeqno.lastWriteSeqno < w.bySeqno → w.bySeqno ≤ lw →
        w.level = .persistToMajority → w.bySeqno ≤ p) := by
  unfold updateHighPreparedSeqno at h
  dsimp only at h
  obtain ⟨s₁, h₁, h⟩ := Except.bind_eq_ok.mp h
  obtain ⟨lw, n, rfl, hle, hpop, hbound, hfence⟩ := updateHighPreparedSeqnoLoop_spec _ hw h₁
  refine ⟨lw, n, ?_, hle, hpop, hbound, hfence⟩
  -- a decreasing HPS would have thrown: `split_ifs` discards that branch
  split_ifs at h
  · exact .inl (Except.pure_eq_ok.mp h).symm
  · exact .inr (Except.pure_eq_ok.mp h).symm

/-! ### Operations that drop writes or complete them -/

/-- The seqnos of the tracked writes. -/
def seqnos (s : State Key) : List Nat := s.trackedWrites.map (·.bySeqno)

theorem mem_seqnos_of_mem {s : State Key} {w : SyncWrite Key} (h : w ∈ s.trackedWrites) :
    w.bySeqno ∈ s.seqnos :=
  List.mem_map_of_mem h

/-- `s'` keeps the HPS and the queued snapshot ends of `s` and tracks some of
its writes, with their seqnos and levels; their status may have changed. -/
structure Shrinks (s s' : State Key) : Prop where
  tracked : ∀ w' ∈ s'.trackedWrites, ∃ w ∈ s.trackedWrites, w.bySeqno = w'.bySeqno ∧ w.level = w'.level
  hps : s'.highPreparedSeqno.lastWriteSeqno = s.highPreparedSeqno.lastWriteSeqno
  queue : s'.receivedSnapshotEnds = s.receivedSnapshotEnds

theorem Shrinks.refl (s : State Key) : Shrinks s s :=
  ⟨fun w hw => ⟨w, hw, rfl, rfl⟩, rfl, rfl⟩

theorem Shrinks.trans {s₁ s₂ s₃ : State Key} (h₁ : Shrinks s₁ s₂) (h₂ : Shrinks s₂ s₃) :
    Shrinks s₁ s₃ where
  tracked w hw := by
    obtain ⟨v, hv, hvs, hvl⟩ := h₂.tracked w hw
    obtain ⟨u, hu, hus, hul⟩ := h₁.tracked v hv
    exact ⟨u, hu, hus.trans hvs, hul.trans hvl⟩
  hps := h₂.hps.trans h₁.hps
  queue := h₂.queue.trans h₁.queue

theorem Shrinks.of_sublist {s s' : State Key} (h : s'.trackedWrites.Sublist s.trackedWrites)
    (hps : s'.highPreparedSeqno.lastWriteSeqno = s.highPreparedSeqno.lastWriteSeqno)
    (hq : s'.receivedSnapshotEnds = s.receivedSnapshotEnds) : Shrinks s s' :=
  ⟨fun w hw => ⟨w, h.subset hw, rfl, rfl⟩, hps, hq⟩

theorem shrinks_safeEraseSyncWrite (s : State Key) (k : Nat) : Shrinks s (s.safeEraseSyncWrite k) :=
  .of_sublist List.eraseP_sublist rfl rfl

theorem shrinks_checkForAndRemovePrepares (s : State Key) :
    Shrinks s s.checkForAndRemovePrepares :=
  .of_sublist (checkForAndRemovePrepares_sublist s)
    (checkForAndRemovePrepares_hps_lastWriteSeqno s)
    (checkForAndRemovePrepares_receivedSnapshotEnds s)

theorem shrinks_checkForAndRemoveDroppedCollections (s : State Key) :
    Shrinks s s.checkForAndRemoveDroppedCollections := by
  obtain ⟨d, hd⟩ := checkForAndRemoveDroppedCollections_eq s
  rw [hd]
  exact ⟨fun w hw => ⟨w, hw, rfl, rfl⟩, rfl, rfl⟩

/-- A write that an erase removes is the one with the erased seqno. -/
theorem seqno_of_not_mem_erase {l : List (SyncWrite Key)} {k : Nat} {w : SyncWrite Key}
    (hw : w ∈ l) (hnot : w ∉ erase seqnoOf l k) : w.bySeqno = k := by
  by_contra hne
  exact hnot ((List.mem_eraseP_of_neg (by simp [seqnoOf, hne])).mpr hw)

/-- What `checkForAndRemovePrepares` removes was completed. -/
theorem completed_of_removed_checkForAndRemovePrepares {s : State Key} {w : SyncWrite Key}
    (hw : w ∈ s.trackedWrites) (hnot : w ∉ s.checkForAndRemovePrepares.trackedWrites) :
    w.isCompleted := by
  obtain ⟨p, hp, hpw⟩ := checkForAndRemovePrepares_dropped s
  rw [hp] at hw
  rcases List.mem_append.mp hw with hw | hw
  · exact (hpw w hw).2
  · exact absurd hw hnot

section EraseDropped

variable (collectionOf : Key → Nat) (dropped : List (Nat × Nat))

/-- The loop of `completeSyncWrite` that erases the writes of dropped
collections changes only the tracked writes and the iterators. -/
theorem eraseDroppedFrom_frame :
    ∀ (fuel : Nat) (s : State Key) (next : Option (SyncWrite Key)),
      (s.eraseDroppedFrom collectionOf dropped fuel next).1.highPreparedSeqno.lastWriteSeqno =
          s.highPreparedSeqno.lastWriteSeqno ∧
        (s.eraseDroppedFrom collectionOf dropped fuel next).1.highCompletedSeqno.lastWriteSeqno =
          s.highCompletedSeqno.lastWriteSeqno ∧
        (s.eraseDroppedFrom collectionOf dropped fuel next).1.receivedSnapshotEnds =
          s.receivedSnapshotEnds ∧
        (s.eraseDroppedFrom collectionOf dropped fuel next).1.droppedCollections =
          s.droppedCollections
  | 0, _, _ => ⟨rfl, rfl, rfl, rfl⟩
  | _ + 1, _, none => ⟨rfl, rfl, rfl, rfl⟩
  | fuel + 1, s, some w => by
    unfold eraseDroppedFrom
    split_ifs
    · exact eraseDroppedFrom_frame fuel _ _
    · exact ⟨rfl, rfl, rfl, rfl⟩

/-- The loop erases with `safeEraseSyncWrite` only writes of dropped
collections, and what it returns is still tracked. -/
theorem eraseDroppedFrom_spec :
    ∀ (fuel : Nat) (s : State Key) (next : Option (SyncWrite Key)), s.Wf →
      (∀ w ∈ next, w ∈ s.trackedWrites) →
      (s.eraseDroppedFrom collectionOf dropped fuel next).1.Wf ∧
      (s.HcsWf → (s.eraseDroppedFrom collectionOf dropped fuel next).1.HcsWf) ∧
      (s.eraseDroppedFrom collectionOf dropped fuel next).1.trackedWrites.Sublist s.trackedWrites ∧
      (∀ w ∈ (s.eraseDroppedFrom collectionOf dropped fuel next).2,
        w ∈ (s.eraseDroppedFrom collectionOf dropped fuel next).1.trackedWrites) ∧
      (∀ w ∈ s.trackedWrites, w ∉ (s.eraseDroppedFrom collectionOf dropped fuel next).1.trackedWrites →
        dropped.any (fun d => d.1 = collectionOf w.key))
  | 0, s, next, hw, hnext => ⟨hw, id, List.Sublist.refl _, hnext, fun _ hm hn => absurd hm hn⟩
  | _ + 1, s, none, hw, _ =>
    ⟨hw, id, List.Sublist.refl _, fun _ h => absurd h (by simp [eraseDroppedFrom]),
      fun _ hm hn => absurd hm hn⟩
  | fuel + 1, s, some w, hw, hnext => by
    have hmem : w ∈ s.trackedWrites := hnext w rfl
    unfold eraseDroppedFrom
    split_ifs with hdrop
    · -- erase `w` and go on with the write after it
      have hnext' : ∀ v ∈ nextAfter seqnoOf w.bySeqno s.trackedWrites,
          v ∈ (s.safeEraseSyncWrite w.bySeqno).trackedWrites :=
        fun v hv => mem_erase_of_nextAfter_eq_some hw.increasing hv
      obtain ⟨hwf, hhcs, hsub, hret, hrem⟩ :=
        eraseDroppedFrom_spec fuel _ _ (hw.safeEraseSyncWrite w.bySeqno) hnext'
      refine ⟨hwf, fun h => hhcs (h.safeEraseSyncWrite hw w.bySeqno),
        hsub.trans List.eraseP_sublist, hret, fun v hv hnot => ?_⟩
      by_cases hv' : v ∈ (s.safeEraseSyncWrite w.bySeqno).trackedWrites
      · exact hrem v hv' hnot
      · -- `v` went in this turn: it is `w`
        have hvw : v = w := hw.increasing.eq_of_key_eq hv hmem (seqno_of_not_mem_erase hv hv')
        exact hvw ▸ hdrop
    · exact ⟨hw, id, List.Sublist.refl _, fun v hv => (Option.mem_some_iff.mp hv) ▸ hmem,
        fun _ hm hn => absurd hm hn⟩

end EraseDropped

end State

/-! ### `completeSyncWrite` -/

/-- Marking the write with seqno `k` completed, in place. -/
theorem modify_completed_eq (l : List (SyncWrite Key)) (k : Nat) :
    ListIter.modify seqnoOf l k (fun w => { w with status := .completed }) =
      l.map (fun v => if seqnoOf v = k then { v with status := .completed } else v) := rfl

theorem markCompleted_bySeqno (k : Nat) (v : SyncWrite Key) :
    (if seqnoOf v = k then { v with status := .completed } else v).bySeqno = v.bySeqno := by
  split_ifs <;> rfl

theorem markCompleted_level (k : Nat) (v : SyncWrite Key) :
    (if seqnoOf v = k then { v with status := .completed } else v).level = v.level := by
  split_ifs <;> rfl

theorem markCompleted_isCompleted (k : Nat) (v : SyncWrite Key) :
    (if seqnoOf v = k then { v with status := .completed } else v).isCompleted =
      (v.isCompleted || decide (v.bySeqno = k)) := by
  by_cases hv : v.bySeqno = k
  · simp [seqnoOf, hv, SyncWrite.isCompleted]
  · simp [seqnoOf, hv]

namespace State

variable [DecidableEq Key]

/-- What `completeWrite` does once its checks pass: `w` has the key being
completed; the HCS moves to `w` unless a disk snapshot completes a write at
or below it; `w` is marked completed unless it already is; then the writes
that became removable go. -/
theorem completeWrite_eq_ok {disk : Bool} {key : Key} {res : Resolution} {ps : Option Nat}
    {w : SyncWrite Key} {s s' : State Key} (h : completeWrite disk key res ps w s = .ok s') :
    w.key = key ∧ ∃ s₁ s₂,
      ((s₁ = s ∧ w.bySeqno ≤ s.highCompletedSeqno.lastWriteSeqno) ∨
        (s.highCompletedSeqno.lastWriteSeqno ≤ w.bySeqno ∧
          s₁ = { s with highCompletedSeqno :=
            { s.highCompletedSeqno with lastWriteSeqno := w.bySeqno, it := some w.bySeqno } })) ∧
      ((s₂ = s₁ ∧ w.isCompleted = true) ∨
        s₂ = { s₁ with
          trackedWrites := ListIter.modify seqnoOf s₁.trackedWrites w.bySeqno
            (fun w => { w with status := .completed }) }) ∧
      s' = s₂.checkForAndRemovePrepares.checkForAndRemoveDroppedCollections := by
  unfold completeWrite at h
  dsimp only at h
  split at h
  · exact absurd h Except.throw_ne_ok
  rename_i hcheck
  have hkey : w.key = key := by
    by_contra hne
    exact hcheck (.inl hne)
  obtain ⟨s₁, h₁, h⟩ := Except.bind_eq_ok.mp h
  obtain ⟨s₂, h₂, h⟩ := Except.bind_eq_ok.mp h
  refine ⟨hkey, s₁, s₂, ?_, ?_, (Except.pure_eq_ok.mp h).symm⟩
  · -- the HCS store
    split at h₁
    · obtain ⟨lw, hstore, h₁⟩ := Except.bind_eq_ok.mp h₁
      obtain ⟨hadm, rfl⟩ := Monotonic.store_eq_ok_iff.mp hstore
      exact .inr ⟨by simpa using hadm, (Except.pure_eq_ok.mp h₁).symm⟩
    · rename_i hmove
      simp only [Bool.not_eq_true', Bool.or_eq_true, decide_eq_true_eq, not_or] at hmove
      exact .inl ⟨(Except.pure_eq_ok.mp h₁).symm, not_lt.mp hmove.2⟩
  · -- the completion, or the MB-36735 checks on a write completed already
    split_ifs at h₂ with hc
    · exact .inl ⟨(Except.pure_eq_ok.mp h₂).symm, hc⟩
    · exact .inr (Except.pure_eq_ok.mp h₂).symm

/-- `completeWrite` leaves the HPS seqno as it is. -/
theorem completeWrite_hps {disk : Bool} {key : Key} {res : Resolution} {ps : Option Nat}
    {w : SyncWrite Key} {s s' : State Key} (h : completeWrite disk key res ps w s = .ok s') :
    s'.highPreparedSeqno.lastWriteSeqno = s.highPreparedSeqno.lastWriteSeqno := by
  obtain ⟨-, s₁, s₂, h₁, h₂, rfl⟩ := completeWrite_eq_ok h
  have hp₁ : s₁.highPreparedSeqno = s.highPreparedSeqno := by
    rcases h₁ with ⟨rfl, -⟩ | ⟨-, rfl⟩ <;> rfl
  have hp₂ : s₂.highPreparedSeqno = s₁.highPreparedSeqno := by
    rcases h₂ with ⟨rfl, -⟩ | rfl <;> rfl
  simp [hp₂, hp₁]

/-- Completing the write `w` found by `completeSyncWrite`: it must have the
key being completed; the operation keeps the state well formed, drops or
completes writes only, moves the HCS to `w` if at all, and drops no write
still in flight but `w`. -/
theorem completeWrite_spec {disk : Bool} {key : Key} {res : Resolution} {ps : Option Nat}
    {w : SyncWrite Key} {s s' : State Key} (hw : s.Wf) (hmem : w ∈ s.trackedWrites)
    (h : completeWrite disk key res ps w s = .ok s') :
    w.key = key ∧ s'.Wf ∧ Shrinks s s' ∧ (s.HcsWf → s'.HcsWf) ∧
      (s'.highCompletedSeqno.lastWriteSeqno = s.highCompletedSeqno.lastWriteSeqno ∨
        s'.highCompletedSeqno.lastWriteSeqno = w.bySeqno) ∧
      ∀ v ∈ s.trackedWrites, v.bySeqno ∉ s'.seqnos → v.isCompleted ∨ v = w := by
  obtain ⟨hkey, s₁, s₂, h₁, h₂, rfl⟩ := completeWrite_eq_ok h
  -- the HCS store: at most the HCS moves, to `w`
  have hs₁ : s₁.trackedWrites = s.trackedWrites ∧ s₁.highPreparedSeqno = s.highPreparedSeqno ∧
      s₁.receivedSnapshotEnds = s.receivedSnapshotEnds ∧
      w.bySeqno ≤ s₁.highCompletedSeqno.lastWriteSeqno ∧
      (s₁.highCompletedSeqno.lastWriteSeqno = s.highCompletedSeqno.lastWriteSeqno ∨
        s₁.highCompletedSeqno.lastWriteSeqno = w.bySeqno) ∧ (s.HcsWf → s₁.HcsWf) := by
    rcases h₁ with ⟨rfl, hle⟩ | ⟨hle, rfl⟩
    · exact ⟨rfl, rfl, rfl, hle, .inl rfl, id⟩
    · refine ⟨rfl, rfl, rfl, le_rfl, .inr rfl,
        fun hh => ⟨?_, fun v hv hc => (hh.completed v hv hc).trans hle⟩⟩
      exact (lastLE_key_of_mem hw.increasing hmem).symm
  obtain ⟨ht₁, hp₁, hq₁, hw₁, hhc₁, hhcs₁⟩ := hs₁
  -- the completion: `w` is completed in place, nothing else changes
  have hs₂ : s₂.trackedWrites = s₁.trackedWrites.map
        (fun v => if seqnoOf v = w.bySeqno then { v with status := .completed } else v) ∧
      s₂.highPreparedSeqno = s₁.highPreparedSeqno ∧ s₂.highCompletedSeqno = s₁.highCompletedSeqno ∧
      s₂.receivedSnapshotEnds = s₁.receivedSnapshotEnds := by
    rcases h₂ with ⟨rfl, hc⟩ | rfl
    · refine ⟨?_, rfl, rfl, rfl⟩
      -- `w` was already completed: marking it again changes nothing
      symm
      refine (List.map_congr_left fun v hv => ?_).trans (List.map_id _)
      show _ = v
      split_ifs with hvw
      · have hveq : v = w := hw.increasing.eq_of_key_eq (ht₁ ▸ hv) hmem hvw
        subst hveq
        obtain ⟨pr, st⟩ := v
        simp only [SyncWrite.isCompleted, beq_iff_eq] at hc
        subst hc
        rfl
      · rfl
    · exact ⟨modify_completed_eq _ _, rfl, rfl, rfl⟩
  obtain ⟨ht₂, hp₂, hc₂, hq₂⟩ := hs₂
  have hinc₂ : Increasing seqnoOf s₂.trackedWrites := by
    rw [ht₂, ht₁]
    exact hw.increasing.map (markCompleted_bySeqno w.bySeqno)
  have hwf₂ : s₂.Wf := by
    refine ⟨hinc₂, ?_, fun v hv => ?_, ?_⟩
    · unfold Position.Tracks
      rw [ht₂, hp₂, hp₁, lastLE_map (markCompleted_bySeqno w.bySeqno), ht₁]
      exact hw.hps
    · rw [ht₂, List.mem_map] at hv
      obtain ⟨u, hu, rfl⟩ := hv
      rw [markCompleted_level]
      exact hw.levels u (ht₁ ▸ hu)
    · rw [hq₂, hq₁]
      exact hw.snapshotHps
  have hshr₂ : Shrinks s s₂ := by
    refine ⟨fun v hv => ?_, by rw [hp₂, hp₁], by rw [hq₂, hq₁]⟩
    rw [ht₂, List.mem_map] at hv
    obtain ⟨u, hu, rfl⟩ := hv
    exact ⟨u, ht₁ ▸ hu, (markCompleted_bySeqno _ u).symm, (markCompleted_level _ u).symm⟩
  refine ⟨hkey, hwf₂.checkForAndRemovePrepares.checkForAndRemoveDroppedCollections,
    (hshr₂.trans (shrinks_checkForAndRemovePrepares s₂)).trans
      (shrinks_checkForAndRemoveDroppedCollections _), fun hh => ?_, ?_, ?_⟩
  · -- the HCS still tracks: a completed write is at or below it
    have hh₁ := hhcs₁ hh
    have hh₂ : s₂.HcsWf := by
      refine ⟨?_, fun v hv hcv => ?_⟩
      · unfold Position.Tracks
        rw [ht₂, hc₂, lastLE_map (markCompleted_bySeqno w.bySeqno)]
        exact hh₁.hcs
      · rw [ht₂, List.mem_map] at hv
        obtain ⟨u, hu, rfl⟩ := hv
        rw [markCompleted_isCompleted, Bool.or_eq_true, decide_eq_true_eq] at hcv
        rw [hc₂, markCompleted_bySeqno]
        rcases hcv with hcu | hcu
        · exact hh₁.completed u hu hcu
        · exact hcu ▸ hw₁
    exact (hh₂.checkForAndRemovePrepares hwf₂).checkForAndRemoveDroppedCollections
  · simp only [checkForAndRemoveDroppedCollections_highCompletedSeqno,
      checkForAndRemovePrepares_hcs_lastWriteSeqno, hc₂]
    exact hhc₁
  · -- a write dropped now was completed, or is `w`
    intro v hv hnot
    have hv₂ : (if seqnoOf v = w.bySeqno then { v with status := .completed } else v) ∈
        s₂.trackedWrites := by
      rw [ht₂, ht₁]
      exact List.mem_map_of_mem hv
    have hgone : (if seqnoOf v = w.bySeqno then { v with status := .completed } else v) ∉
        s₂.checkForAndRemovePrepares.trackedWrites := by
      intro hin
      apply hnot
      have := @mem_seqnos_of_mem _ s₂.checkForAndRemovePrepares.checkForAndRemoveDroppedCollections _
        (by rw [checkForAndRemoveDroppedCollections_trackedWrites]; exact hin)
      rwa [markCompleted_bySeqno] at this
    have hcv := completed_of_removed_checkForAndRemovePrepares hv₂ hgone
    rw [markCompleted_isCompleted, Bool.or_eq_true, decide_eq_true_eq] at hcv
    rcases hcv with hcv | hcv
    · exact .inl hcv
    · exact .inr (hw.increasing.eq_of_key_eq hv hmem hcv)

/-- Finding the write to complete changes only the tracked writes and the
iterators. -/
theorem findWriteToComplete_frame (collectionOf : Key → Nat) (disk : Bool) (key : Key)
    (s : State Key) :
    (findWriteToComplete collectionOf disk key s).1.highPreparedSeqno.lastWriteSeqno =
        s.highPreparedSeqno.lastWriteSeqno ∧
      (findWriteToComplete collectionOf disk key s).1.highCompletedSeqno.lastWriteSeqno =
        s.highCompletedSeqno.lastWriteSeqno ∧
      (findWriteToComplete collectionOf disk key s).1.receivedSnapshotEnds =
        s.receivedSnapshotEnds ∧
      (findWriteToComplete collectionOf disk key s).1.droppedCollections = s.droppedCollections := by
  unfold findWriteToComplete
  dsimp only
  generalize (if !disk then s.getIteratorNext s.highCompletedSeqno.it
    else s.trackedWrites.find? (fun w => w.key = key ∧ ¬ w.isCompleted)) = next
  split
  · exact eraseDroppedFrom_frame collectionOf _ _ s _
  · exact ⟨rfl, rfl, rfl, rfl⟩

/-- What `findWriteToComplete` returns is tracked, and on its way it erases
only writes of dropped collections. -/
theorem findWriteToComplete_spec (collectionOf : Key → Nat) (disk : Bool) (key : Key)
    {s : State Key} (hw : s.Wf) :
    (findWriteToComplete collectionOf disk key s).1.Wf ∧
    (s.HcsWf → (findWriteToComplete collectionOf disk key s).1.HcsWf) ∧
    (findWriteToComplete collectionOf disk key s).1.trackedWrites.Sublist s.trackedWrites ∧
    (∀ w ∈ (findWriteToComplete collectionOf disk key s).2,
      w ∈ (findWriteToComplete collectionOf disk key s).1.trackedWrites) ∧
    (∀ w ∈ s.trackedWrites, w ∉ (findWriteToComplete collectionOf disk key s).1.trackedWrites →
      s.droppedCollections.any (fun d => d.1 = collectionOf w.key)) := by
  -- the candidate is a tracked write in both modes
  have hnext : ∀ w ∈ (if !disk then s.getIteratorNext s.highCompletedSeqno.it
      else s.trackedWrites.find? (fun w => w.key = key ∧ ¬ w.isCompleted)), w ∈ s.trackedWrites := by
    intro w hw'
    split_ifs at hw'
    · exact mem_of_next_eq_some hw'
    · exact List.mem_of_find?_eq_some hw'
  unfold findWriteToComplete
  dsimp only
  generalize (if !disk then s.getIteratorNext s.highCompletedSeqno.it
    else s.trackedWrites.find? (fun w => w.key = key ∧ ¬ w.isCompleted)) = next at hnext ⊢
  split
  · exact eraseDroppedFrom_spec collectionOf s.droppedCollections _ s _ hw hnext
  · exact ⟨hw, id, List.Sublist.refl _, hnext, fun _ hm hn => absurd hm hn⟩

/-- `completeSyncWrite` leaves the HPS seqno as it is. -/
theorem completeSyncWrite_hps {collectionOf : Key → Nat} {disk : Bool} {key : Key}
    {res : Resolution} {ps : Option Nat} {s s' : State Key}
    (h : completeSyncWrite collectionOf disk key res ps s = .ok s') :
    s'.highPreparedSeqno.lastWriteSeqno = s.highPreparedSeqno.lastWriteSeqno := by
  unfold completeSyncWrite at h
  dsimp only at h
  split at h
  · split at h
    · rw [Except.pure_eq_ok.mp h]
    · exact absurd h Except.throw_ne_ok
  · have hp₁ := (findWriteToComplete_frame collectionOf disk key s).1
    split at h
    · rename_i s₁ hfind
      rw [hfind] at hp₁
      split at h
      · rw [← Except.pure_eq_ok.mp h, hp₁]
      · exact absurd h Except.throw_ne_ok
    · rename_i s₁ w hfind
      rw [hfind] at hp₁
      rw [completeWrite_hps h, hp₁]

/-- `completeSyncWrite` keeps the state well formed and only drops or
completes writes; a write still in flight that it drops is the one it
completes, for its key, or one of a dropped collection. The HCS moves, if at
all, to a tracked write. -/
theorem completeSyncWrite_spec {collectionOf : Key → Nat} {disk : Bool} {key : Key}
    {res : Resolution} {ps : Option Nat} {s s' : State Key} (hw : s.Wf)
    (h : completeSyncWrite collectionOf disk key res ps s = .ok s') :
    s'.Wf ∧ Shrinks s s' ∧ (s.HcsWf → s'.HcsWf) ∧
      (s'.highCompletedSeqno.lastWriteSeqno = s.highCompletedSeqno.lastWriteSeqno ∨
        ∃ v ∈ s.trackedWrites, s'.highCompletedSeqno.lastWriteSeqno = v.bySeqno) ∧
      ∀ v ∈ s.trackedWrites, v.bySeqno ∉ s'.seqnos →
        v.isCompleted ∨ v.key = key ∨ s.droppedCollections.any (fun d => d.1 = collectionOf v.key) := by
  unfold completeSyncWrite at h
  dsimp only at h
  split at h
  · -- nothing tracked: nothing changes
    split at h
    · obtain rfl := (Except.pure_eq_ok.mp h).symm
      exact ⟨hw, .refl _, id, .inl rfl, fun v hv hnot => absurd (mem_seqnos_of_mem hv) hnot⟩
    · exact absurd h Except.throw_ne_ok
  · obtain ⟨hwf₁, hhcs₁, hsub₁, hret₁, hrem₁⟩ := findWriteToComplete_spec collectionOf disk key hw
    obtain ⟨hp₁, hc₁, hq₁, -⟩ := findWriteToComplete_frame collectionOf disk key s
    split at h
    · rename_i s₁ hfind
      rw [hfind] at hwf₁ hhcs₁ hsub₁ hrem₁ hp₁ hc₁ hq₁
      split at h
      · -- no write to complete: only the erasures happened
        obtain rfl := (Except.pure_eq_ok.mp h).symm
        refine ⟨hwf₁, .of_sublist hsub₁ hp₁ hq₁, hhcs₁, .inl hc₁,
          fun v hv hnot => .inr (.inr (hrem₁ v hv fun hin => ?_))⟩
        exact hnot (mem_seqnos_of_mem hin)
      · exact absurd h Except.throw_ne_ok
    · rename_i s₁ w hfind
      rw [hfind] at hwf₁ hhcs₁ hsub₁ hrem₁ hret₁ hp₁ hc₁ hq₁
      have hw₁ : w ∈ s₁.trackedWrites := hret₁ w rfl
      obtain ⟨hkey, hwf, hshr, hhcs, hhc, hrem⟩ := completeWrite_spec hwf₁ hw₁ h
      refine ⟨hwf, (Shrinks.of_sublist hsub₁ hp₁ hq₁).trans hshr, fun hh => hhcs (hhcs₁ hh), ?_,
        fun v hv hnot => ?_⟩
      · rcases hhc with hhc | hhc
        · exact .inl (hhc.trans hc₁)
        · exact .inr ⟨w, hsub₁.subset hw₁, hhc⟩
      by_cases hv₁ : v ∈ s₁.trackedWrites
      · -- `v` survived the erasures: `completeWrite` dropped it
        rcases hrem v hv₁ hnot with hc | rfl
        · exact .inl hc
        · exact .inr (.inl hkey)
      · exact .inr (.inr (hrem₁ v hv hv₁))

end State

end PassiveDurabilityMonitor

end KvEngine.Durability
