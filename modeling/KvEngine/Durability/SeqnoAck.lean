import KvEngine.Durability.ReplicaStream

/-!
# The seqno acks a replica sends

`notifySnapshotEndReceived` and `notifyLocalPersistence` store the seqno to
ack (`storeSeqnoAck`) inside their section under the state lock, then release
that lock and call `sendSeqnoAck`, which sends and resets `seqnoToAck` under
its own lock. Calls on several threads interleave between the two. This
module takes each locked section as one atomic step and asks what the
sequence of seqnos passed to `vb.sendSeqnoAck` looks like.

- `AckState`: the monitor, the number of calls that have run their locked
  section and not yet their `sendSeqnoAck`, and the seqnos sent so far.
  Every waiting call does the same thing when it sends, so a count of them is
  enough.
- `acks`: the system from any monitor with nothing to ack. A step is the
  locked section of any operation, after which a notification waits to send,
  or the `sendSeqnoAck` of a waiting call.
- `AckInv`: the seqnos sent increase and lie above the initial HPS and at or
  below the HPS; either the HPS never moved, or its value waits to be sent by
  a waiting call, or it is the last seqno sent.
- `seqnoAck_stream`: the acks sent strictly increase and are never `0`, and
  once no call waits to send, the last one is the HPS if the HPS moved.
-/

namespace KvEngine.Durability

namespace PassiveDurabilityMonitor

variable {Key : Type}

/-- The monitor, the calls waiting to send, and the seqnos sent. -/
structure AckState (Key : Type) where
  monitor : PassiveDurabilityMonitor Key
  waiting : Nat
  sent : List Nat

/-- A step of some thread: the locked section of an operation, or the
`sendSeqnoAck` of a notification that ran its locked section. -/
inductive AckEvent (Key : Type) where
  | locked (vb : ReplicaVBucket) (op : Op Key)
  | send

@[simp] theorem sendSeqnoAck_state (m : PassiveDurabilityMonitor Key) :
    (sendSeqnoAck m).1.state = m.state := rfl

@[simp] theorem sendSeqnoAck_seqnoToAck (m : PassiveDurabilityMonitor Key) :
    (sendSeqnoAck m).1.seqnoToAck = 0 := rfl

section Steps

variable [DecidableEq Key]

/-- What a step does. -/
def AckEvent.next (collectionOf : Key → Nat) (a : AckState Key) : AckEvent Key → AckState Key → Prop
  | .locked vb op, a' => ∃ m', lockedSection collectionOf vb op a.monitor = .ok m' ∧
    a' = { a with monitor := m', waiting := if op.sendsSeqnoAck then a.waiting + 1 else a.waiting }
  | .send, a' => 0 < a.waiting ∧
    a' = { monitor := (sendSeqnoAck a.monitor).1, waiting := a.waiting - 1,
           sent := a.sent ++ (sendSeqnoAck a.monitor).2.toList }

/-- The interleavings from a monitor with HPS `hps₀` and nothing to ack. -/
def acks (collectionOf : Key → Nat) (hps₀ : Nat) : TransitionSystem (AckState Key) (AckEvent Key) where
  init a := a.monitor.seqnoToAck = 0 ∧ a.monitor.state.highPreparedSeqno.lastWriteSeqno = hps₀ ∧ a.waiting = 0 ∧ a.sent = []
  next a e a' := e.next collectionOf a a'

end Steps

/-- The invariant of the interleavings. -/
structure AckInv (hps₀ : Nat) (a : AckState Key) : Prop where
  sorted : a.sent.Pairwise (· < ·)
  bounds : ∀ x ∈ a.sent, hps₀ < x ∧ x ≤ a.monitor.state.highPreparedSeqno.lastWriteSeqno
  mode : (a.monitor.state.highPreparedSeqno.lastWriteSeqno = hps₀ ∧ a.sent = [] ∧ a.monitor.seqnoToAck = 0) ∨
    (hps₀ < a.monitor.state.highPreparedSeqno.lastWriteSeqno ∧ a.monitor.seqnoToAck = a.monitor.state.highPreparedSeqno.lastWriteSeqno ∧ 0 < a.waiting ∧ ∀ x ∈ a.sent, x < a.monitor.state.highPreparedSeqno.lastWriteSeqno) ∨
    (hps₀ < a.monitor.state.highPreparedSeqno.lastWriteSeqno ∧ a.monitor.seqnoToAck = 0 ∧ a.sent.getLast? = some a.monitor.state.highPreparedSeqno.lastWriteSeqno)

theorem AckInv.hps_ge {hps₀ : Nat} {a : AckState Key} (h : AckInv hps₀ a) : hps₀ ≤ a.monitor.state.highPreparedSeqno.lastWriteSeqno := by
  rcases h.mode with ⟨he, -⟩ | ⟨hlt, -⟩ | ⟨hlt, -⟩
  · exact he.ge
  · exact hlt.le
  · exact hlt.le

/-- What the seqno to ack was when the HPS moves: never above the HPS. -/
theorem AckInv.seqnoToAck_le {hps₀ : Nat} {a : AckState Key} (h : AckInv hps₀ a) :
    a.monitor.seqnoToAck ≤ a.monitor.state.highPreparedSeqno.lastWriteSeqno := by
  rcases h.mode with ⟨-, -, h0⟩ | ⟨-, he, -⟩ | ⟨-, h0, -⟩
  · rw [h0]
    exact Nat.zero_le _
  · exact he.le
  · rw [h0]
    exact Nat.zero_le _

variable [DecidableEq Key] {collectionOf : Key → Nat} {hps₀ : Nat} {a a' : AckState Key}

/-- A locked section keeps the invariant: if it moves the HPS it is a
notification, which stores the new HPS to ack and then waits to send it. -/
theorem AckInv.locked {vb : ReplicaVBucket} {op : Op Key} (h : AckInv hps₀ a)
    (hn : (AckEvent.locked vb op).next collectionOf a a') : AckInv hps₀ a' := by
  obtain ⟨m', hl, rfl⟩ := hn
  have hle : a.monitor.state.highPreparedSeqno.lastWriteSeqno ≤
      m'.state.highPreparedSeqno.lastWriteSeqno := hps_le_lockedSection collectionOf vb hl
  have hack := lockedSection_seqnoToAck collectionOf vb hl
  have hwait : a.waiting ≤ if op.sendsSeqnoAck then a.waiting + 1 else a.waiting := by
    split_ifs <;> omega
  refine ⟨h.sorted, fun x hx => ⟨(h.bounds x hx).1, (h.bounds x hx).2.trans hle⟩, ?_⟩
  rcases eq_or_lt_of_le hle with heq | hlt
  · -- the HPS stayed: so did the seqno to ack; more calls may wait
    rw [← heq, storeSeqnoAck_self] at hack
    dsimp only
    rw [← heq, hack]
    rcases h.mode with hA | ⟨h₁, h₂, h₃, h₄⟩ | hC
    · exact .inl hA
    · exact .inr (.inl ⟨h₁, h₂, lt_of_lt_of_le h₃ hwait, h₄⟩)
    · exact .inr (.inr hC)
  · -- the HPS moved: only a notification moves it, and it now waits to send
    have hsends : op.sendsSeqnoAck = true := by
      by_contra hne
      have := (lockedSection_keeps_hps collectionOf vb (by simpa using hne) hl).1
      exact absurd this (Nat.ne_of_gt hlt)
    have hstore : m'.seqnoToAck = m'.state.highPreparedSeqno.lastWriteSeqno := by
      rw [hack, storeSeqnoAck, if_pos (Nat.ne_of_lt hlt),
        if_pos (lt_of_le_of_lt h.seqnoToAck_le hlt)]
    refine .inr (.inl ⟨lt_of_le_of_lt h.hps_ge hlt, hstore, ?_,
      fun x hx => lt_of_le_of_lt (h.bounds x hx).2 hlt⟩)
    dsimp only
    rw [if_pos hsends]
    exact Nat.succ_pos _

/-- A waiting call's `sendSeqnoAck` keeps the invariant: it sends the HPS if
it waits to be sent, and nothing otherwise. -/
theorem AckInv.send (h : AckInv hps₀ a) (hn : AckEvent.send.next collectionOf a a') :
    AckInv hps₀ a' := by
  obtain ⟨-, rfl⟩ := hn
  rcases h.mode with ⟨h₁, h₂, h₃⟩ | ⟨h₁, h₂, -, h₄⟩ | ⟨h₁, h₂, h₃⟩
  · -- nothing to ack
    have hnone : (sendSeqnoAck a.monitor).2 = none := by simp [sendSeqnoAck, h₃]
    refine ⟨?_, ?_, .inl ⟨h₁, ?_, rfl⟩⟩ <;> simp [hnone, h₂]
  · -- the HPS is sent
    have hsome : (sendSeqnoAck a.monitor).2 = some a.monitor.state.highPreparedSeqno.lastWriteSeqno := by
      simp [sendSeqnoAck, h₂, Nat.ne_of_gt (lt_of_le_of_lt (Nat.zero_le _) h₁)]
    refine ⟨?_, fun x hx => ?_, .inr (.inr ⟨h₁, rfl, ?_⟩)⟩
    · rw [hsome, Option.toList_some, List.pairwise_append]
      exact ⟨h.sorted, List.pairwise_singleton _ _, fun x hx y hy => (List.mem_singleton.mp hy) ▸ h₄ x hx⟩
    · rw [hsome, Option.toList_some, List.mem_append, List.mem_singleton] at hx
      rcases hx with hx | rfl
      · exact h.bounds x hx
      · exact ⟨h₁, le_rfl⟩
    · rw [hsome, Option.toList_some, List.getLast?_append, List.getLast?_singleton]
      rfl
  · -- nothing to ack: the HPS was sent already
    have hnone : (sendSeqnoAck a.monitor).2 = none := by simp [sendSeqnoAck, h₂]
    refine ⟨?_, ?_, .inr (.inr ⟨h₁, rfl, ?_⟩)⟩
    · simpa [hnone] using h.sorted
    · simpa [hnone] using h.bounds
    · simpa [hnone] using h₃

theorem ackInv_of_reachable (hr : (acks collectionOf hps₀).Reachable a) : AckInv hps₀ a := by
  refine TransitionSystem.Reachable.invariant ?_ ?_ hr
  · rintro a ⟨h0, hhps, -, hsent⟩
    exact ⟨by simp [hsent], by simp [hsent], .inl ⟨hhps, hsent, h0⟩⟩
  · rintro a (⟨vb, op⟩ | _) a' - hinv hn
    · exact hinv.locked hn
    · exact @AckInv.send _ _ collectionOf _ _ _ hinv hn

theorem seqnoAck_stream (hr : (acks collectionOf hps₀).Reachable a) :
    a.sent.Pairwise (· < ·) ∧ 0 ∉ a.sent ∧
      (a.waiting = 0 → a.monitor.state.highPreparedSeqno.lastWriteSeqno ≠ hps₀ → a.sent.getLast? = some a.monitor.state.highPreparedSeqno.lastWriteSeqno) := by
  have h := ackInv_of_reachable hr
  refine ⟨h.sorted, fun h0 => absurd (h.bounds 0 h0).1 (Nat.not_lt_zero _), fun hw hmoved => ?_⟩
  -- with no call waiting, a moved HPS has been sent last
  rcases h.mode with ⟨he, -⟩ | ⟨-, -, hpos, -⟩ | ⟨-, -, hlast⟩
  · exact absurd he hmoved
  · exact absurd hw (Nat.ne_of_gt hpos)
  · exact hlast

/-- The run of `persistedPrepare` with its notification's ack sent: the
replica has acked seqno `1`. -/
def ackedPrepare : AckState Nat := ⟨persistedPrepare.monitor, 0, [1]⟩

theorem ackedPrepare_reachable : (acks (fun _ : Nat => 0) 0).Reachable ackedPrepare := by
  have h₀ : (acks (fun _ : Nat => 0) 0).Reachable ⟨ofSeqnos 0 0, 0, []⟩ :=
    .init ⟨rfl, rfl, rfl, rfl⟩
  have h₁ := @TransitionSystem.Reachable.step _ _ _ _ _
    (.locked ⟨0, false⟩ (.addSyncWrite ⟨0, 1, .persistToMajority, Timeout.infinity⟩ none) :
      AckEvent Nat) h₀ ⟨_, rfl, rfl⟩
  have h₂ := @TransitionSystem.Reachable.step _ _ _ _ _
    (.locked ⟨1, false⟩ (.notifySnapshotEndReceived 1 none none) : AckEvent Nat) h₁ ⟨_, rfl, rfl⟩
  exact @TransitionSystem.Reachable.step _ _ _ _ _ (.send : AckEvent Nat) h₂
    ⟨Nat.one_pos, rfl⟩

theorem seqnoAck_stream_acked_prepare :
    ackedPrepare.sent.Pairwise (· < ·) ∧ 0 ∉ ackedPrepare.sent ∧
      (ackedPrepare.waiting = 0 → ackedPrepare.monitor.state.highPreparedSeqno.lastWriteSeqno ≠ 0 →
        ackedPrepare.sent.getLast? = some ackedPrepare.monitor.state.highPreparedSeqno.lastWriteSeqno) :=
  seqnoAck_stream ackedPrepare_reachable

end PassiveDurabilityMonitor

end KvEngine.Durability
