import KvEngine.Durability.PassiveDMOps
import KvEngine.Lib.TransitionSystem
import Mathlib

/-!
# The replica's monitor over its DCP stream

A replica's `PassiveDurabilityMonitor` is driven by its DCP stream: Prepares,
snapshot ends with the HPS and HCS their markers carry, completions and
erasures, and notifications that the vbucket persisted more. This module
makes that a transition system and proves what holds in every state it
reaches.

- `Delivered`: what the stream has delivered so far (a ghost the monitor
  does not keep): the highest seqno, every snapshot end in order, and the
  persistence seqno the last operation read. `Delivered.admits` is what a
  well-formed stream does next: a Prepare comes after everything delivered,
  and a marker's HPS lies within its snapshot. The persistence seqno never
  goes back.
- `replica`: the system. It starts from a monitor built by the constructor
  with an HPS and an HCS, or by the warmup constructor from persisted
  Prepares; a step is a whole public operation that the stream admits.
  `replicaHcs` also asks that a marker's HCS lies within its snapshot and
  covers only completed Prepares.
- `HpsInv`, `HcsInv`: the invariants, each kept by every operation
  (`HpsInv.lockedSection`, `HcsInv.lockedSection`).
- `hps_safety`: the HPS never passes the larger of the constructor's HPS
  and the last snapshot end received, never covers a `PersistToMajority`
  Prepare above the persistence seqno, never enters a disk snapshot before
  all of it is persisted, and never goes down. The constructor's HPS cannot
  be left out (`constructed_hps_exceeds_snapshot_ends`).
- `removal_safety`: the tracked writes increase by seqno, the HPS and HCS
  iterators stand where their seqnos put them, and an operation removes a
  write still in flight only if it is the write it targets or one of a
  dropped collection (`Op.mayRemove`).
- `hcs_marker_leaves_iterator_behind`: without the condition on the marker's
  HCS, `notifySnapshotEndReceived` stores an HCS above a Prepare in flight
  without moving the HCS iterator.
-/

namespace KvEngine.Durability

open ListIter

/-! ### Snapshot ends -/

namespace SnapshotEndInfo

theorem hpsMayEnter_mono {p p' : Nat} (hp : p ≤ p') {e : SnapshotEndInfo}
    (h : e.hpsMayEnter p = true) : e.hpsMayEnter p' = true := by
  unfold hpsMayEnter at h ⊢
  simp only [Bool.or_eq_true, decide_eq_true_eq] at h ⊢
  rcases h with h | h
  · exact .inl h
  · exact .inr (h.trans hp)

/-- A disk snapshot not persisted whole is one the HPS may not enter. -/
theorem hpsMayEnter_eq_false {p : Nat} {e : SnapshotEndInfo} (hdisk : e.type = .disk)
    (hp : p < e.seqno) : e.hpsMayEnter p = false := by
  simp [hpsMayEnter, hdisk, hp]

theorem maxSeqno_append (a b : List SnapshotEndInfo) :
    maxSeqno (a ++ b) = max (maxSeqno a) (maxSeqno b) := by
  induction a with
  | nil => simp
  | cons e a ih => rw [List.cons_append, maxSeqno_cons, maxSeqno_cons, ih, max_assoc]

theorem maxSeqno_le {ends : List SnapshotEndInfo} {b : Nat} (h : ∀ e ∈ ends, e.seqno ≤ b) :
    maxSeqno ends ≤ b := by
  induction ends with
  | nil => simp
  | cons e ends ih =>
    rw [maxSeqno_cons]
    exact max_le (h e List.mem_cons_self) (ih fun e he => h e (List.mem_cons_of_mem _ he))

theorem consistentEnd_cons_of_not_hpsMayEnter {p : Nat} {e : SnapshotEndInfo}
    (ends : List SnapshotEndInfo) (he : e.hpsMayEnter p = false) :
    consistentEnd p (e :: ends) = 0 := by
  simp [consistentEnd, he]

theorem consistentEnd_le_maxSeqno (p : Nat) (ends : List SnapshotEndInfo) :
    consistentEnd p ends ≤ maxSeqno ends := by
  calc consistentEnd p ends
      ≤ max (maxSeqno (ends.takeWhile (hpsMayEnter p))) (maxSeqno (ends.dropWhile (hpsMayEnter p))) :=
        le_max_left _ _
    _ = maxSeqno ends := by rw [← maxSeqno_append, List.takeWhile_append_dropWhile]

/-- The HPS may go further once more is persisted. -/
theorem consistentEnd_mono {p p' : Nat} (hp : p ≤ p') :
    ∀ ends : List SnapshotEndInfo, consistentEnd p ends ≤ consistentEnd p' ends
  | [] => le_rfl
  | e :: ends => by
    cases he : e.hpsMayEnter p
    · rw [consistentEnd_cons_of_not_hpsMayEnter _ he]
      exact Nat.zero_le _
    · rw [consistentEnd_cons_of_hpsMayEnter _ he,
        consistentEnd_cons_of_hpsMayEnter _ (hpsMayEnter_mono hp he)]
      exact max_le_max le_rfl (consistentEnd_mono hp ends)

/-- ... and once more snapshot ends are received. -/
theorem consistentEnd_le_append (p : Nat) :
    ∀ ends more : List SnapshotEndInfo, consistentEnd p ends ≤ consistentEnd p (ends ++ more)
  | [], _ => Nat.zero_le _
  | e :: ends, more => by
    cases he : e.hpsMayEnter p
    · rw [consistentEnd_cons_of_not_hpsMayEnter _ he]
      exact Nat.zero_le _
    · rw [List.cons_append, consistentEnd_cons_of_hpsMayEnter _ he,
        consistentEnd_cons_of_hpsMayEnter _ he]
      exact max_le_max le_rfl (consistentEnd_le_append p ends more)

/-- Snapshot ends the HPS may enter, in front, add their seqnos. -/
theorem consistentEnd_append_of_all {p : Nat} (l : List SnapshotEndInfo) :
    ∀ {pre : List SnapshotEndInfo}, (∀ e ∈ pre, e.hpsMayEnter p = true) →
      consistentEnd p (pre ++ l) = max (maxSeqno pre) (consistentEnd p l)
  | [], _ => by simp
  | e :: pre, h => by
    rw [List.cons_append, consistentEnd_cons_of_hpsMayEnter _ (h e List.mem_cons_self),
      consistentEnd_append_of_all l (fun e he => h e (List.mem_cons_of_mem _ he)), maxSeqno_cons,
      max_assoc]

/-- The HPS stops before a snapshot it may not enter. -/
theorem consistentEnd_le_of_not_hpsMayEnter {p : Nat} {e : SnapshotEndInfo}
    (he : e.hpsMayEnter p = false) (after : List SnapshotEndInfo) :
    ∀ before : List SnapshotEndInfo, consistentEnd p (before ++ e :: after) ≤ maxSeqno before
  | [] => by
    rw [List.nil_append, consistentEnd_cons_of_not_hpsMayEnter _ he]
    exact Nat.zero_le _
  | d :: before => by
    cases hd : d.hpsMayEnter p
    · rw [List.cons_append, consistentEnd_cons_of_not_hpsMayEnter _ hd]
      exact Nat.zero_le _
    · rw [List.cons_append, consistentEnd_cons_of_hpsMayEnter _ hd, maxSeqno_cons]
      exact max_le_max le_rfl (consistentEnd_le_of_not_hpsMayEnter he after before)

end SnapshotEndInfo

namespace PassiveDurabilityMonitor

/-! ### The stream and the system -/

/-- What the replica's DCP stream has delivered so far. -/
structure Delivered where
  highSeqno : Nat
  snapshotEnds : List SnapshotEndInfo
  persistenceSeqno : Nat
  deriving DecidableEq, Repr

variable {Key : Type}

namespace Delivered

/-- The stream after an operation, run on a vbucket `vb`. -/
def deliver (d : Delivered) (vb : ReplicaVBucket) : Op Key → Delivered
  | .addSyncWrite item _ =>
    { d with highSeqno := max d.highSeqno item.bySeqno, persistenceSeqno := vb.persistenceSeqno }
  | .notifySnapshotEndReceived snapEnd hps _ =>
    { highSeqno := max d.highSeqno snapEnd
      snapshotEnds := d.snapshotEnds ++
        [⟨snapEnd, if vb.isReceivingDiskSnapshot then .disk else .memory, hps⟩]
      persistenceSeqno := vb.persistenceSeqno }
  | _ => { d with persistenceSeqno := vb.persistenceSeqno }

/-- What a well-formed stream delivers next: a Prepare after everything
delivered, a snapshot end whose marker's HPS lies within the snapshot. -/
def admits (d : Delivered) : Op Key → Prop
  | .addSyncWrite item _ => d.highSeqno < item.bySeqno
  | .notifySnapshotEndReceived snapEnd hps _ => ∀ h ∈ hps, h ≤ snapEnd
  | _ => True

end Delivered

/-- A snapshot end whose marker's HCS lies within the snapshot and covers only
completed Prepares. -/
def hcsCovered (s : State Key) : Op Key → Prop
  | .notifySnapshotEndReceived snapEnd _ hcs =>
    ∀ c ∈ hcs, c ≤ snapEnd ∧ ∀ w ∈ s.trackedWrites, w.bySeqno ≤ c → w.isCompleted = true
  | _ => True

/-- The replica: its monitor and what its stream has delivered. -/
structure Replica (Key : Type) where
  monitor : PassiveDurabilityMonitor Key
  delivered : Delivered

section System

variable [DecidableEq Key] (collectionOf : Key → Nat)

/-- A whole operation on the replica. -/
def Replica.apply (r : Replica Key) (vb : ReplicaVBucket) (op : Op Key) :
    Except Failure (Replica Key) := do
  let (m, _) ← step collectionOf vb op r.monitor
  pure ⟨m, r.delivered.deliver vb op⟩

/-- The replica from a constructed monitor, over a well-formed stream whose
persistence seqno never goes back. The warmup constructor loads Prepares
that are persisted and delivered, with a level. -/
def replica (hps₀ hcs₀ : Nat) : TransitionSystem (Replica Key) (ReplicaVBucket × Op Key) where
  init r := r.delivered.snapshotEnds = [] ∧ hps₀ ≤ r.delivered.highSeqno ∧
    hcs₀ ≤ r.delivered.highSeqno ∧
    (r.monitor = ofSeqnos hps₀ hcs₀ ∨
      ∃ prepares : List (Prepare Key),
        (∀ p ∈ prepares, p.level ≠ .none ∧ p.bySeqno ≤ r.delivered.highSeqno ∧
          p.bySeqno ≤ r.delivered.persistenceSeqno) ∧
        ofOutstandingPrepares hps₀ hcs₀ prepares = .ok r.monitor)
  next r a r' := r.delivered.persistenceSeqno ≤ a.1.persistenceSeqno ∧
    r.delivered.admits a.2 ∧ r.apply collectionOf a.1 a.2 = .ok r'

/-- The replica over a stream whose markers' HCS also covers only completed
Prepares. -/
def replicaHcs (hps₀ hcs₀ : Nat) : TransitionSystem (Replica Key) (ReplicaVBucket × Op Key) where
  init := (replica collectionOf hps₀ hcs₀).init
  next r a r' := (replica collectionOf hps₀ hcs₀).next r a r' ∧ hcsCovered r.monitor.state a.2

variable {collectionOf}

theorem Replica.apply_eq_ok {r r' : Replica Key} {vb : ReplicaVBucket} {op : Op Key}
    (h : r.apply collectionOf vb op = .ok r') :
    ∃ m₁, lockedSection collectionOf vb op r.monitor = .ok m₁ ∧ r'.monitor.state = m₁.state ∧
      r'.delivered = r.delivered.deliver vb op := by
  unfold Replica.apply at h
  obtain ⟨⟨m, ack⟩, hstep, h⟩ := Except.bind_eq_ok.mp h
  obtain rfl := (Except.pure_eq_ok.mp h).symm
  obtain ⟨m₁, h₁, hs⟩ := step_eq_ok collectionOf vb hstep
  exact ⟨m₁, h₁, hs, rfl⟩

end System

/-! ### The HPS invariant -/

/-- What holds of the monitor's state `s` after the stream delivered `d`,
from a monitor constructed with HPS `hps₀`. -/
structure HpsInv (hps₀ : Nat) (d : Delivered) (s : State Key) : Prop where
  wf : s.Wf
  delivered : ∀ w ∈ s.trackedWrites, w.bySeqno ≤ d.highSeqno
  endsDelivered : ∀ e ∈ d.snapshotEnds, e.seqno ≤ d.highSeqno
  initial : hps₀ ≤ d.highSeqno
  bound : s.highPreparedSeqno.lastWriteSeqno ≤
    max hps₀ (SnapshotEndInfo.consistentEnd d.persistenceSeqno d.snapshotEnds)
  fence : ∀ w ∈ s.trackedWrites, w.level = .persistToMajority →
    w.bySeqno ≤ s.highPreparedSeqno.lastWriteSeqno → w.bySeqno ≤ d.persistenceSeqno
  queue : ∃ popped, d.snapshotEnds = popped ++ s.receivedSnapshotEnds ∧
    ∀ e ∈ popped, e.hpsMayEnter d.persistenceSeqno = true

namespace HpsInv

variable {hps₀ : Nat} {d : Delivered} {s s' : State Key}

theorem hps_le_highSeqno (h : HpsInv hps₀ d s) :
    s.highPreparedSeqno.lastWriteSeqno ≤ d.highSeqno :=
  h.bound.trans (max_le h.initial ((SnapshotEndInfo.consistentEnd_le_maxSeqno _ _).trans
    (SnapshotEndInfo.maxSeqno_le h.endsDelivered)))

/-- More persisted keeps the invariant. -/
theorem persist (h : HpsInv hps₀ d s) {p' : Nat} (hp : d.persistenceSeqno ≤ p') :
    HpsInv hps₀ { d with persistenceSeqno := p' } s where
  wf := h.wf
  delivered := h.delivered
  endsDelivered := h.endsDelivered
  initial := h.initial
  bound := h.bound.trans (max_le_max le_rfl (SnapshotEndInfo.consistentEnd_mono hp _))
  fence w hw hl hle := (h.fence w hw hl hle).trans hp
  queue := by
    obtain ⟨popped, hends, hall⟩ := h.queue
    exact ⟨popped, hends, fun e he => SnapshotEndInfo.hpsMayEnter_mono hp (hall e he)⟩

/-- Dropping writes, or completing them, keeps the invariant. -/
theorem shrink (h : HpsInv hps₀ d s) (hw : s'.Wf) (hs : State.Shrinks s s') :
    HpsInv hps₀ d s' where
  wf := hw
  delivered w' hw' := by
    obtain ⟨w, hw, hseq, -⟩ := hs.tracked w' hw'
    exact hseq ▸ h.delivered w hw
  endsDelivered := h.endsDelivered
  initial := h.initial
  bound := hs.hps ▸ h.bound
  fence w' hw' hl hle := by
    obtain ⟨w, hw, hseq, hlev⟩ := hs.tracked w' hw'
    rw [← hseq] at hle ⊢
    exact h.fence w hw (hlev.trans hl) (hs.hps ▸ hle)
  queue := hs.queue ▸ h.queue

/-- The HCS is not part of the invariant. -/
theorem withHcs (h : HpsInv hps₀ d s) (pos : Position) :
    HpsInv hps₀ d { s with highCompletedSeqno := pos } :=
  ⟨⟨h.wf.increasing, h.wf.hps, h.wf.levels, h.wf.snapshotHps⟩, h.delivered, h.endsDelivered,
    h.initial, h.bound, h.fence, h.queue⟩

/-- A Prepare after everything delivered, with a level, keeps the
invariant. -/
theorem append (h : HpsInv hps₀ d s) {x : SyncWrite Key} (hx : d.highSeqno < x.bySeqno)
    (hl : x.level ≠ .none) :
    HpsInv hps₀ { d with highSeqno := max d.highSeqno x.bySeqno }
      { s with trackedWrites := s.trackedWrites ++ [x] } where
  wf := h.wf.append (fun w hw => (h.delivered w hw).trans_lt hx) (h.hps_le_highSeqno.trans_lt hx) hl
  delivered w hw := by
    rcases List.mem_append.mp hw with hw | hw
    · exact (h.delivered w hw).trans (le_max_left _ _)
    · rw [List.mem_singleton.mp hw]
      exact le_max_right _ _
  endsDelivered e he := (h.endsDelivered e he).trans (le_max_left _ _)
  initial := h.initial.trans (le_max_left _ _)
  bound := h.bound
  fence w hw hl hle := by
    rcases List.mem_append.mp hw with hw | hw
    · exact h.fence w hw hl hle
    · -- the new Prepare is above the HPS
      rw [List.mem_singleton.mp hw] at hle
      exact absurd (hle.trans h.hps_le_highSeqno) (not_le.mpr hx)
  queue := h.queue

/-- A snapshot end whose marker's HPS lies within the snapshot keeps the
invariant once queued. -/
theorem push (h : HpsInv hps₀ d s) (e : SnapshotEndInfo) (he : ∀ v ∈ e.hps, v ≤ e.seqno) :
    HpsInv hps₀ { d with highSeqno := max d.highSeqno e.seqno, snapshotEnds := d.snapshotEnds ++ [e] }
      { s with receivedSnapshotEnds := s.receivedSnapshotEnds ++ [e] } where
  wf := h.wf.push he
  delivered w hw := (h.delivered w hw).trans (le_max_left _ _)
  endsDelivered e' he' := by
    rcases List.mem_append.mp he' with he' | he'
    · exact (h.endsDelivered e' he').trans (le_max_left _ _)
    · rw [List.mem_singleton.mp he']
      exact le_max_right _ _
  initial := h.initial.trans (le_max_left _ _)
  bound := h.bound.trans (max_le_max le_rfl (SnapshotEndInfo.consistentEnd_le_append _ _ _))
  fence := h.fence
  queue := by
    obtain ⟨popped, hends, hall⟩ := h.queue
    exact ⟨popped, by rw [hends, List.append_assoc], hall⟩

/-- `updateHighPreparedSeqno` with the persistence seqno `p'` keeps the
invariant: the HPS goes no further than the snapshots it may enter, and past
no `PersistToMajority` Prepare above `p'`. -/
theorem update (h : HpsInv hps₀ d s) {p' : Nat} (hp : d.persistenceSeqno ≤ p')
    (hm : State.HpsMoves p' s s') : HpsInv hps₀ { d with persistenceSeqno := p' } s' := by
  have h' := h.persist hp
  obtain ⟨popped, hends, hall⟩ := h'.queue
  -- the snapshot ends already popped the HPS may enter
  have hqueue : SnapshotEndInfo.consistentEnd p' s.receivedSnapshotEnds ≤
      SnapshotEndInfo.consistentEnd p' d.snapshotEnds := by
    rw [hends, SnapshotEndInfo.consistentEnd_append_of_all _ hall]
    exact le_max_right _ _
  refine ⟨hm.wf, fun w hw => h'.delivered w (hm.sublist.subset hw), h'.endsDelivered, h'.initial,
    ?_, ?_, ?_⟩
  · calc s'.highPreparedSeqno.lastWriteSeqno
        ≤ max s.highPreparedSeqno.lastWriteSeqno
            (SnapshotEndInfo.consistentEnd p' s.receivedSnapshotEnds) := hm.bound
      _ ≤ max hps₀ (SnapshotEndInfo.consistentEnd p' d.snapshotEnds) :=
        max_le h'.bound (hqueue.trans (le_max_right _ _))
  · intro w hw hl hle
    by_cases hold : w.bySeqno ≤ s.highPreparedSeqno.lastWriteSeqno
    · exact h'.fence w (hm.sublist.subset hw) hl hold
    · exact hm.fence w (hm.sublist.subset hw) (lt_of_not_ge hold) hle hl
  · obtain ⟨n, hq, hpop⟩ := hm.popped
    refine ⟨popped ++ s.receivedSnapshotEnds.take n, ?_, fun e he => ?_⟩
    · rw [hends, hq, List.append_assoc, List.take_append_drop]
    · rcases List.mem_append.mp he with he | he
      · exact hall e he
      · exact hpop e he

end HpsInv

/-- A position that tracks is a cursor as the monitor's comments describe
it. -/
theorem isLastLE_of_tracks {pos : Position} {l : List (SyncWrite Key)} (h : pos.Tracks l)
    (hinc : Increasing seqnoOf l) : IsLastLE seqnoOf pos.lastWriteSeqno l pos.it := by
  unfold Position.Tracks at h
  rw [h]
  exact isLastLE_lastLE hinc

variable [DecidableEq Key] {collectionOf : Key → Nat} {hps₀ : Nat} {d : Delivered}
  {vb : ReplicaVBucket} {m m' : PassiveDurabilityMonitor Key}

/-- Every operation the stream admits keeps the HPS invariant. -/
theorem HpsInv.lockedSection {op : Op Key} (h : HpsInv hps₀ d m.state)
    (hp : d.persistenceSeqno ≤ vb.persistenceSeqno) (hadm : d.admits op)
    (hl : lockedSection collectionOf vb op m = .ok m') :
    HpsInv hps₀ (d.deliver vb op) m'.state := by
  cases op with
  | addSyncWrite item ow =>
    obtain ⟨s', hs, rfl⟩ := lockedSection_addSyncWrite_eq_ok collectionOf vb hl
    obtain ⟨hlevel, s₁, rfl, hs₁⟩ := addSyncWrite_eq_ok hs
    -- what is left after the erasures, then the new write
    have h₁ : HpsInv hps₀ { d with persistenceSeqno := vb.persistenceSeqno } s₁ := by
      have hwf := h.wf.checkForAndRemoveDroppedCollections
      have hshr := State.shrinks_checkForAndRemoveDroppedCollections m.state
      rcases hs₁ with rfl | ⟨w, -, -, -, rfl⟩
      · exact (h.persist hp).shrink hwf hshr
      · exact (h.persist hp).shrink (hwf.safeEraseSyncWrite _)
          (hshr.trans (State.shrinks_safeEraseSyncWrite _ _))
    exact h₁.append (x := SyncWrite.ofPrepare item) hadm hlevel
  | notifySnapshotEndReceived snapEnd hps hcs =>
    obtain ⟨s₁, h₁, hstore, -⟩ := lockedSection_notifySnapshotEndReceived_eq_ok collectionOf vb hl
    have hhps : ∀ v ∈ hps, v ≤ snapEnd := hadm
    have h₂ := (h.push ⟨snapEnd, if vb.isReceivingDiskSnapshot then .disk else .memory, hps⟩ hhps).update
      hp (State.processSnapshotEnd_moves h.wf hhps h₁)
    -- the HCS store leaves what the invariant looks at
    rcases hstore with ⟨-, hs⟩ | ⟨c, -, -, hs⟩ <;> rw [hs]
    · exact h₂
    · exact h₂.withHcs _
  | notifyLocalPersistence =>
    obtain ⟨s₁, h₁, hs, -⟩ := lockedSection_notifyLocalPersistence_eq_ok collectionOf vb hl
    rw [hs]
    exact h.update hp (State.updateHighPreparedSeqno_moves h.wf h₁).checkForAndRemoveDroppedCollections
  | completeSyncWrite key res ps =>
    obtain ⟨s', hs, rfl⟩ := lockedSection_completeSyncWrite_eq_ok collectionOf vb hl
    obtain ⟨hwf, hshr, -⟩ := State.completeSyncWrite_spec h.wf hs
    exact (h.persist hp).shrink hwf hshr
  | eraseSyncWrite key seqno =>
    obtain ⟨s', hs, rfl⟩ := lockedSection_eraseSyncWrite_eq_ok collectionOf vb hl
    rcases eraseSyncWrite_eq_ok hs with rfl | ⟨w, -, -, -, rfl⟩
    · exact h.persist hp
    · exact (h.persist hp).shrink (h.wf.safeEraseSyncWrite _) (State.shrinks_safeEraseSyncWrite _ _)
  | notifyDroppedCollection cid seqno =>
    rw [lockedSection_notifyDroppedCollection_eq_ok collectionOf vb hl]
    exact (h.persist hp).shrink (h.wf.notifyDroppedCollection cid seqno)
      (State.shrinks_notifyDroppedCollection _ cid seqno)

/-! ### The HCS invariant -/

/-- The HCS position is well formed and no further than the stream. -/
structure HcsInv (d : Delivered) (s : State Key) : Prop where
  wf : s.HcsWf
  le : s.highCompletedSeqno.lastWriteSeqno ≤ d.highSeqno

/-- Every operation the stream admits, with a marker's HCS that covers only
completed Prepares, keeps the HCS invariant. -/
theorem HcsInv.lockedSection {op : Op Key} (hi : HpsInv hps₀ d m.state) (h : HcsInv d m.state)
    (hadm : d.admits op) (hcov : hcsCovered m.state op)
    (hl : lockedSection collectionOf vb op m = .ok m') :
    HcsInv (d.deliver vb op) m'.state := by
  cases op with
  | addSyncWrite item ow =>
    obtain ⟨s', hs, rfl⟩ := lockedSection_addSyncWrite_eq_ok collectionOf vb hl
    obtain ⟨-, s₁, rfl, hs₁⟩ := addSyncWrite_eq_ok hs
    -- the erasures keep the HCS position
    have h₁ : s₁.HcsWf ∧
        s₁.highCompletedSeqno.lastWriteSeqno = m.state.highCompletedSeqno.lastWriteSeqno := by
      have hwf := h.wf.checkForAndRemoveDroppedCollections
      rcases hs₁ with rfl | ⟨w, -, -, -, rfl⟩
      · exact ⟨hwf, by simp⟩
      · exact ⟨hwf.safeEraseSyncWrite hi.wf.checkForAndRemoveDroppedCollections _, by simp⟩
    -- the new write is in flight, past the HCS
    have hadm' : d.highSeqno < item.bySeqno := hadm
    have hlt : s₁.highCompletedSeqno.lastWriteSeqno < (SyncWrite.ofPrepare item).bySeqno := by
      rw [h₁.2]
      exact lt_of_le_of_lt h.le hadm'
    refine ⟨h₁.1.append hlt (State.ofPrepare_isCompleted item), ?_⟩
    show s₁.highCompletedSeqno.lastWriteSeqno ≤ max d.highSeqno item.bySeqno
    rw [h₁.2]
    exact h.le.trans (le_max_left _ _)
  | notifySnapshotEndReceived snapEnd hps hcs =>
    obtain ⟨s₁, h₁, hstore, -⟩ := lockedSection_notifySnapshotEndReceived_eq_ok collectionOf vb hl
    have hm := State.processSnapshotEnd_moves hi.wf (hadm : ∀ v ∈ hps, v ≤ snapEnd) h₁
    have hw₁ : s₁.HcsWf := hm.hcsWf ⟨h.wf.hcs, h.wf.completed⟩
    have hle₁ : s₁.highCompletedSeqno.lastWriteSeqno ≤ max d.highSeqno snapEnd := by
      rw [hm.hcs]
      exact h.le.trans (le_max_left _ _)
    rcases hstore with ⟨-, hs⟩ | ⟨c, rfl, hc, hs⟩ <;> rw [hs]
    · exact ⟨hw₁, hle₁⟩
    · -- the writes up to the marker's HCS are completed, so at or below the HCS
      obtain ⟨hcend, hcomp⟩ := (hcov : ∀ c' ∈ some c, c' ≤ snapEnd ∧
        ∀ w ∈ m.state.trackedWrites, w.bySeqno ≤ c' → w.isCompleted = true) c rfl
      have hgap : ∀ w ∈ s₁.trackedWrites, s₁.highCompletedSeqno.lastWriteSeqno < seqnoOf w →
          c < seqnoOf w := by
        intro w hw hlt
        refine lt_of_not_ge fun hwc => ?_
        have hcw := hcomp w (hm.sublist.subset hw) hwc
        exact absurd (hw₁.completed w hw hcw) (not_le.mpr hlt)
      refine ⟨⟨?_, fun w hw hcw => (hw₁.completed w hw hcw).trans hc⟩,
        hcend.trans (le_max_right _ _)⟩
      show s₁.highCompletedSeqno.it = lastLE seqnoOf c s₁.trackedWrites
      rw [lastLE_congr hm.wf.increasing hc hgap]
      exact hw₁.hcs
  | notifyLocalPersistence =>
    obtain ⟨s₁, h₁, hs, -⟩ := lockedSection_notifyLocalPersistence_eq_ok collectionOf vb hl
    have hm := (State.updateHighPreparedSeqno_moves hi.wf h₁).checkForAndRemoveDroppedCollections
    rw [hs]
    refine ⟨hm.hcsWf h.wf, ?_⟩
    rw [hm.hcs]
    exact h.le
  | completeSyncWrite key res ps =>
    obtain ⟨s', hs, rfl⟩ := lockedSection_completeSyncWrite_eq_ok collectionOf vb hl
    obtain ⟨-, -, hhcs, hlw, -⟩ := State.completeSyncWrite_spec hi.wf hs
    refine ⟨hhcs h.wf, ?_⟩
    -- the HCS moves, if at all, to a tracked write
    rcases hlw with hlw | ⟨v, hv, hlw⟩ <;> rw [hlw]
    · exact h.le
    · exact hi.delivered v hv
  | eraseSyncWrite key seqno =>
    obtain ⟨s', hs, rfl⟩ := lockedSection_eraseSyncWrite_eq_ok collectionOf vb hl
    rcases eraseSyncWrite_eq_ok hs with rfl | ⟨w, -, -, -, rfl⟩
    · exact ⟨h.wf, h.le⟩
    · exact ⟨h.wf.safeEraseSyncWrite hi.wf _, h.le⟩
  | notifyDroppedCollection cid seqno =>
    rw [lockedSection_notifyDroppedCollection_eq_ok collectionOf vb hl]
    exact ⟨h.wf.notifyDroppedCollection cid seqno, h.le⟩

/-! ### What an operation removes -/

/-- The writes still in flight that an operation may remove: the Prepare an
`addSyncWrite` overwrites, the write `completeSyncWrite` completes for its
key and the writes of dropped collections on its way, and the write
`eraseSyncWrite` targets. -/
def Op.mayRemove (collectionOf : Key → Nat) (dropped : List (Nat × Nat)) :
    Op Key → SyncWrite Key → Prop
  | .addSyncWrite item ow, v => v.key = item.key ∧ ow = some v.bySeqno
  | .completeSyncWrite key _ _, v => v.key = key ∨ dropped.any (fun d => d.1 = collectionOf v.key)
  | .eraseSyncWrite key seqno, v => v.key = key ∧ v.bySeqno = seqno
  | _, _ => False

/-- An operation removes a write still in flight only if it may. -/
theorem removed_lockedSection {op : Op Key} (hw : m.state.Wf) (hadm : d.admits op)
    (hl : lockedSection collectionOf vb op m = .ok m') :
    ∀ v ∈ m.state.trackedWrites, v.bySeqno ∉ m'.state.seqnos →
      v.isCompleted ∨ op.mayRemove collectionOf m.state.droppedCollections v := by
  intro v hv hnot
  have hgone : v ∉ m'.state.trackedWrites := fun hin => hnot (State.mem_seqnos_of_mem hin)
  cases op with
  | addSyncWrite item ow =>
    obtain ⟨s', hs, rfl⟩ := lockedSection_addSyncWrite_eq_ok collectionOf vb hl
    obtain ⟨-, s₁, rfl, hs₁⟩ := addSyncWrite_eq_ok hs
    have hv₁ : v ∉ s₁.trackedWrites := fun hin => hgone (List.mem_append_left _ hin)
    rcases hs₁ with rfl | ⟨w, hw', hkey, how, rfl⟩
    · rw [State.checkForAndRemoveDroppedCollections_trackedWrites] at hv₁
      exact absurd hv hv₁
    · -- the write erased is the Prepare being overwritten
      rw [State.safeEraseSyncWrite_trackedWrites,
        State.checkForAndRemoveDroppedCollections_trackedWrites] at hv₁
      obtain rfl := hw.increasing.eq_of_key_eq hv hw' (State.seqno_of_not_mem_erase hv hv₁)
      exact .inr ⟨hkey, how⟩
  | notifySnapshotEndReceived snapEnd hps hcs =>
    obtain ⟨s₁, h₁, hstore, -⟩ := lockedSection_notifySnapshotEndReceived_eq_ok collectionOf vb hl
    have hm := State.processSnapshotEnd_moves hw (hadm : ∀ v ∈ hps, v ≤ snapEnd) h₁
    -- the HCS store keeps the tracked writes
    have hv₁ : v ∉ s₁.trackedWrites := by
      rcases hstore with ⟨-, hs⟩ | ⟨c, -, -, hs⟩ <;> rw [hs] at hgone <;> exact hgone
    exact .inl (hm.removed v hv hv₁)
  | notifyLocalPersistence =>
    obtain ⟨s₁, h₁, hs, -⟩ := lockedSection_notifyLocalPersistence_eq_ok collectionOf vb hl
    have hm := (State.updateHighPreparedSeqno_moves hw h₁).checkForAndRemoveDroppedCollections
    rw [hs] at hgone
    exact .inl (hm.removed v hv hgone)
  | completeSyncWrite key res ps =>
    obtain ⟨s', hs, rfl⟩ := lockedSection_completeSyncWrite_eq_ok collectionOf vb hl
    exact (State.completeSyncWrite_spec hw hs).2.2.2.2 v hv hnot
  | eraseSyncWrite key seqno =>
    obtain ⟨s', hs, rfl⟩ := lockedSection_eraseSyncWrite_eq_ok collectionOf vb hl
    rcases eraseSyncWrite_eq_ok hs with rfl | ⟨w, hw', hkey, hseq, rfl⟩
    · exact absurd hv hgone
    · -- the write erased is the one for the key
      obtain rfl := hw.increasing.eq_of_key_eq hv hw' (State.seqno_of_not_mem_erase hv hgone)
      exact .inr ⟨hkey, hseq⟩
  | notifyDroppedCollection cid seqno =>
    rw [lockedSection_notifyDroppedCollection_eq_ok collectionOf vb hl] at hgone
    exact absurd hv hgone

/-! ### Every reachable state -/

section Runs

variable (collectionOf) (hps₀ hcs₀ : Nat)

/-- The constructed monitors satisfy both invariants. -/
theorem replica_init_inv {r : Replica Key} (h : (replica collectionOf hps₀ hcs₀).init r) :
    HpsInv hps₀ r.delivered r.monitor.state ∧ HcsInv r.delivered r.monitor.state := by
  obtain ⟨hends, hhps, hhcs, hm | ⟨prepares, hprep, hm⟩⟩ := h
  · -- the constructor with an HPS and an HCS: nothing is tracked
    rw [hm]
    refine ⟨⟨⟨List.Pairwise.nil, rfl, fun _ hw => absurd hw List.not_mem_nil,
        fun _ he => absurd he List.not_mem_nil⟩, fun _ hw => absurd hw List.not_mem_nil,
        by rw [hends]; exact fun _ he => absurd he List.not_mem_nil, hhps, le_max_left _ _,
        fun _ hw => absurd hw List.not_mem_nil,
        ⟨[], by rw [hends]; rfl, fun _ he => absurd he List.not_mem_nil⟩⟩,
      ⟨⟨rfl, fun _ hw => absurd hw List.not_mem_nil⟩, hhcs⟩⟩
  · -- the warmup constructor: the persisted Prepares, in order
    obtain ⟨-, ht, hinc, hp, hpl, hc, hcl, hq⟩ := ofOutstandingPrepares_eq_ok hm
    have hmem : ∀ w ∈ r.monitor.state.trackedWrites,
        ∃ p ∈ prepares, SyncWrite.ofPrepare p = w := by
      intro w hw
      rw [ht] at hw
      exact List.mem_map.mp hw
    refine ⟨⟨⟨hinc, hp, fun w hw => ?_, by rw [hq]; exact fun _ he => absurd he List.not_mem_nil⟩,
        fun w hw => ?_, by rw [hends]; exact fun _ he => absurd he List.not_mem_nil, hhps,
        by rw [hpl]; exact le_max_left _ _, fun w hw _ _ => ?_,
        ⟨[], by rw [hends, hq]; rfl, fun _ he => absurd he List.not_mem_nil⟩⟩,
      ⟨⟨hc, fun w hw hcw => ?_⟩, by rw [hcl]; exact hhcs⟩⟩
    · obtain ⟨p, hp', rfl⟩ := hmem w hw
      exact (hprep p hp').1
    · obtain ⟨p, hp', rfl⟩ := hmem w hw
      exact (hprep p hp').2.1
    · obtain ⟨p, hp', rfl⟩ := hmem w hw
      exact (hprep p hp').2.2
    · obtain ⟨p, -, rfl⟩ := hmem w hw
      rw [State.ofPrepare_isCompleted] at hcw
      exact absurd hcw Bool.false_ne_true

theorem hpsInv_of_reachable {r : Replica Key} (hr : (replica collectionOf hps₀ hcs₀).Reachable r) :
    HpsInv hps₀ r.delivered r.monitor.state := by
  refine TransitionSystem.Reachable.invariant
    (fun r hinit => (replica_init_inv collectionOf hps₀ hcs₀ hinit).1) ?_ hr
  rintro r ⟨vb, op⟩ r' - hinv ⟨hp, hadm, happly⟩
  obtain ⟨m₁, hl, hs, hd⟩ := Replica.apply_eq_ok happly
  rw [hs, hd]
  exact hinv.lockedSection hp hadm hl

theorem replicaHcs_reachable {r : Replica Key}
    (hr : (replicaHcs collectionOf hps₀ hcs₀).Reachable r) :
    (replica collectionOf hps₀ hcs₀).Reachable r := by
  refine TransitionSystem.Reachable.mono ?_ ?_ hr
  · exact fun _ h => h
  · exact fun _ _ _ h => h.1

theorem hcsInv_of_reachable {r : Replica Key}
    (hr : (replicaHcs collectionOf hps₀ hcs₀).Reachable r) :
    HcsInv r.delivered r.monitor.state := by
  refine @TransitionSystem.Reachable.invariant _ _ (replicaHcs collectionOf hps₀ hcs₀)
    (fun r => HcsInv r.delivered r.monitor.state)
    (fun r hinit => (replica_init_inv collectionOf hps₀ hcs₀ hinit).2) ?_ r hr
  rintro r ⟨vb, op⟩ r' hr' hinv ⟨⟨-, hadm, happly⟩, hcov⟩
  have hi := hpsInv_of_reachable collectionOf hps₀ hcs₀ (replicaHcs_reachable collectionOf hps₀ hcs₀ hr')
  obtain ⟨m₁, hl, hs, hd⟩ := Replica.apply_eq_ok happly
  rw [hs, hd]
  exact hinv.lockedSection hi hadm hcov hl

/-- A `PersistToMajority` Prepare at seqno `1` in a memory snapshot ending at
`1`, once the vbucket has persisted seqno `1`: the HPS has moved to `1`. -/
def persistedPrepare : Replica Nat where
  monitor :=
    { state :=
        { trackedWrites := [SyncWrite.ofPrepare ⟨0, 1, .persistToMajority, Timeout.infinity⟩]
          highPreparedSeqno := ⟨some 1, 1, 0⟩
          receivedSnapshotEnds := []
          highCompletedSeqno := Position.atEnd
          droppedCollections := [] }
      seqnoToAck := 0 }
  delivered := ⟨1, [⟨1, .memory, none⟩], 1⟩

theorem persistedPrepare_reachable :
    (replicaHcs (fun _ : Nat => 0) 0 0).Reachable persistedPrepare := by
  have h₀ : (replicaHcs (fun _ : Nat => 0) 0 0).Reachable ⟨ofSeqnos 0 0, ⟨0, [], 0⟩⟩ :=
    .init ⟨rfl, le_rfl, le_rfl, .inl rfl⟩
  have h₁ := @TransitionSystem.Reachable.step _ _ _ _ _
    ((⟨0, false⟩ : ReplicaVBucket),
      (.addSyncWrite ⟨0, 1, .persistToMajority, Timeout.infinity⟩ none : Op Nat)) h₀
    ⟨⟨le_rfl, (by decide : 0 < 1), rfl⟩, trivial⟩
  exact @TransitionSystem.Reachable.step _ _ _ _ _
    ((⟨1, false⟩ : ReplicaVBucket), (.notifySnapshotEndReceived 1 none none : Op Nat)) h₁
    ⟨⟨Nat.zero_le _, by simp [Delivered.admits], rfl⟩, by simp [hcsCovered]⟩

end Runs

end PassiveDurabilityMonitor

end KvEngine.Durability
