import KvEngine.Lib.TransitionSystem
import Mathlib

/-!
# The hybrid logical clock of a vbucket

`HLCT` hands out the CAS values of a vbucket. `nextHLC` reads the wall clock
with its low 16 bits cleared (`getMaskedTime`) and either moves `maxHLC` up
to it with `atomic_setIfBigger` and returns it (real clock mode), or, when the
clock is not ahead, returns `maxHLC.fetch_add(1) + 1` (logical clock mode).
`setMaxHLC(h)` moves `maxHLC` up to a peer's `h`. Any thread calls either, and
`CheckpointManager::queueDirty` calls `nextHLC` while it holds `queueLock`,
right after giving the item the seqno `lastBySeqno + 1` (MB-20798).

The model interleaves the atomic steps of those calls (`Event`): the read of
the clock, the `atomic_setIfBigger` (one compare-and-set-if-greater), the
`fetch_add`, a whole `setMaxHLC`, and `queueDirty` taking `queueLock` with its
seqno. What `queueDirty` does after `nextHLC` until it releases the lock
touches only state under that lock, and is folded into the step that returns
the CAS (`State.ret`). Beside the program's variables the state keeps three
histories: the `h` of every completed `setMaxHLC`, each value `nextHLC`
returned with the `h`s completed before its call started, and the seqno and
CAS of each queued item.

`maxHLC` is a `uint64_t`, and `fetch_add` wraps at `2^64`. With every input
at most `B`, `maxHLC` is at most `B` plus the number of values returned
(`Bounds`, `reachable_bounds_inv`), so no `fetch_add` wraps while fewer than
`2^64 - B` values have been returned; `Inv` holds in every such state
(`reachable_bounds_inv`), and

- `hlc_cas_order`: no step lowers `maxHLC`; the values returned are pairwise
  distinct, each above every `h` whose `setMaxHLC` completed before its call
  started; and the CAS of the queued items increases with their seqno.
- `wrapped_clock_repeats_value`: with a peer's `h = 2^64 - 1`, one logical
  tick wraps `maxHLC` to `0`, and the same clock reading is returned twice.
-/

namespace KvEngine.Hlc

/-- `getMasked48(t)`: the clock reading with its low 16 bits cleared. -/
def getMasked48 (t : UInt64) : UInt64 := t &&& ~~~0xFFFF

/-- `atomic_setIfBigger(obj, newValue)`, one atomic step: whether it stored,
and the value of `obj` after it. -/
def atomicSetIfBigger (obj newValue : UInt64) : Bool × UInt64 :=
  if obj < newValue then (true, newValue) else (false, obj)

/-- Where a thread is in `nextHLC`, or in the part of `queueDirty` that holds
`queueLock`. A call made by `queueDirty` carries the item's seqno; `seen` is
the `h` of each `setMaxHLC` completed before the call started. -/
inductive Phase where
  | idle
  /-- holding `queueLock`, the seqno assigned, `nextHLC` not yet called -/
  | queueing (seqno : Nat)
  /-- `timeNow` read, before the `atomic_setIfBigger` -/
  | readTime (seqno : Option Nat) (timeNow : UInt64) (seen : List UInt64)
  /-- the `atomic_setIfBigger` failed: logical clock mode, before the `fetch_add` -/
  | logical (seqno : Option Nat) (seen : List UInt64)
  deriving DecidableEq, Repr

/-- The seqno of the item whose `queueDirty` the thread is in. -/
def Phase.seqno : Phase → Option Nat
  | .idle => none
  | .queueing n => some n
  | .readTime sq _ _ | .logical sq _ => sq

/-- The `setMaxHLC`s completed before the thread's `nextHLC` started. -/
def Phase.seen : Phase → List UInt64
  | .idle | .queueing _ => []
  | .readTime _ _ seen | .logical _ seen => seen

structure State where
  maxHLC : UInt64
  phase : Nat → Phase
  /-- the thread holding `CheckpointManager::queueLock` -/
  queueLock : Option Nat
  lastBySeqno : Nat
  /-- the `h` of every completed `setMaxHLC` -/
  setMaxDone : List UInt64
  /-- every value `nextHLC` returned, in order, with its call's `seen` -/
  returned : List (List UInt64 × UInt64)
  /-- the seqno and CAS of every item `queueDirty` queued, in order -/
  queued : List (Nat × UInt64)

/-- The atomic steps of the threads. -/
inductive Event where
  /-- `queueDirty` takes `queueLock` and gives the item `lastBySeqno + 1` -/
  | lockQueue (thread : Nat)
  /-- `nextHLC` reads the clock -/
  | readTime (thread : Nat) (clock : UInt64)
  | setIfBigger (thread : Nat)
  | fetchAdd (thread : Nat)
  | setMaxHLC (hlc : UInt64)
  deriving DecidableEq, Repr

/-- `nextHLC` of `thread` returns `v`; in `queueDirty` the item is queued with
CAS `v`, `lastBySeqno` becomes its seqno and `queueLock` is released. -/
def State.ret (s : State) (thread : Nat) (seqno : Option Nat) (seen : List UInt64) (v : UInt64) : State :=
  let s := { s with phase := Function.update s.phase thread .idle, returned := s.returned ++ [(seen, v)] }
  match seqno with
  | none => s
  | some n => { s with queued := s.queued ++ [(n, v)], lastBySeqno := n, queueLock := none }

/-- One atomic step; `none` where the thread is not at that step. -/
def step (s : State) : Event → Option State
  | .lockQueue t =>
    if s.phase t = .idle ∧ s.queueLock = none then
      some { s with phase := Function.update s.phase t (.queueing (s.lastBySeqno + 1)), queueLock := some t }
    else none
  | .readTime t clock =>
    match s.phase t with
    | .idle => some { s with phase := Function.update s.phase t (.readTime none (getMasked48 clock) s.setMaxDone) }
    | .queueing n =>
      some { s with phase := Function.update s.phase t (.readTime (some n) (getMasked48 clock) s.setMaxDone) }
    | _ => none
  | .setIfBigger t =>
    match s.phase t with
    | .readTime sq timeNow seen =>
      -- real clock mode returns the time it stored
      if (atomicSetIfBigger s.maxHLC timeNow).1 then
        some ({ s with maxHLC := (atomicSetIfBigger s.maxHLC timeNow).2 }.ret t sq seen timeNow)
      else some { s with phase := Function.update s.phase t (.logical sq seen) }
    | _ => none
  | .fetchAdd t =>
    match s.phase t with
    -- `maxHLC.fetch_add(1) + 1`: the value `maxHLC` was moved to
    | .logical sq seen => some ({ s with maxHLC := s.maxHLC + 1 }.ret t sq seen (s.maxHLC + 1))
    | _ => none
  | .setMaxHLC h =>
    some { s with maxHLC := (atomicSetIfBigger s.maxHLC h).2, setMaxDone := s.setMaxDone ++ [h] }

/-- A clock of a vbucket created with `initHLC`, whose last seqno is `lastBySeqno`. -/
def init (initHLC : UInt64) (lastBySeqno : Nat) : State :=
  ⟨initHLC, fun _ => .idle, none, lastBySeqno, [], [], []⟩

/-- Inputs at most `B`: the masked clock readings and the peers' `h`. -/
def Event.Bounded (B : Nat) : Event → Prop
  | .readTime _ clock => (getMasked48 clock).toNat ≤ B
  | .setMaxHLC h => h.toNat ≤ B
  | _ => True

instance (B : Nat) (e : Event) : Decidable (e.Bounded B) := by
  cases e <;> unfold Event.Bounded <;> infer_instance

/-- The threads' steps from a fresh clock, with every input at most `B`;
`B = 2^64 - 1` allows every input. -/
def system (B : Nat) : TransitionSystem State Event where
  init s := (∃ n, s = init s.maxHLC n) ∧ s.maxHLC.toNat ≤ B
  next s e s' := e.Bounded B ∧ step s e = some s'

theorem Event.bounded_max (e : Event) : e.Bounded (2 ^ 64 - 1) := by
  have := UInt64.toNat_lt
  cases e <;> simp only [Event.Bounded] <;> grind

/-! ## What the steps do -/

section Ret

variable (s : State) (t : Nat) (seen : List UInt64) (v : UInt64)

@[simp] theorem ret_maxHLC (sq : Option Nat) : (s.ret t sq seen v).maxHLC = s.maxHLC := by
  cases sq <;> rfl

@[simp] theorem ret_returned (sq : Option Nat) : (s.ret t sq seen v).returned = s.returned ++ [(seen, v)] := by
  cases sq <;> rfl

@[simp] theorem ret_setMaxDone (sq : Option Nat) : (s.ret t sq seen v).setMaxDone = s.setMaxDone := by
  cases sq <;> rfl

@[simp] theorem ret_phase (sq : Option Nat) : (s.ret t sq seen v).phase = Function.update s.phase t .idle := by
  cases sq <;> rfl

@[simp] theorem ret_none_queued : (s.ret t none seen v).queued = s.queued := rfl

@[simp] theorem ret_none_queueLock : (s.ret t none seen v).queueLock = s.queueLock := rfl

@[simp] theorem ret_none_lastBySeqno : (s.ret t none seen v).lastBySeqno = s.lastBySeqno := rfl

@[simp] theorem ret_some_queued (n : Nat) : (s.ret t (some n) seen v).queued = s.queued ++ [(n, v)] := rfl

@[simp] theorem ret_some_queueLock (n : Nat) : (s.ret t (some n) seen v).queueLock = none := rfl

@[simp] theorem ret_some_lastBySeqno (n : Nat) : (s.ret t (some n) seen v).lastBySeqno = n := rfl

end Ret

theorem le_atomicSetIfBigger (obj newValue : UInt64) : obj ≤ (atomicSetIfBigger obj newValue).2 := by
  unfold atomicSetIfBigger
  split
  · exact UInt64.le_of_lt ‹_›
  · exact UInt64.le_refl obj

theorem atomicSetIfBigger_ge (obj newValue : UInt64) : newValue ≤ (atomicSetIfBigger obj newValue).2 := by
  unfold atomicSetIfBigger
  split
  · exact UInt64.le_refl newValue
  · exact UInt64.not_lt.mp ‹_›

theorem atomicSetIfBigger_toNat_le (obj newValue : UInt64) {B : Nat} (hobj : obj.toNat ≤ B)
    (hnew : newValue.toNat ≤ B) : (atomicSetIfBigger obj newValue).2.toNat ≤ B := by
  unfold atomicSetIfBigger
  split <;> assumption

/-- A step returns at most one value. -/
theorem returned_length_step {s s' : State} {e : Event} (h : step s e = some s') :
    s'.returned.length = s.returned.length ∨ s'.returned.length = s.returned.length + 1 := by
  cases e with
  | lockQueue t =>
    simp only [step] at h
    split at h <;> cases h
    exact .inl rfl
  | readTime t clock =>
    simp only [step] at h
    split at h <;> cases h <;> exact .inl rfl
  | setIfBigger t =>
    simp only [step] at h
    split at h
    · split at h <;> cases h <;> simp
    · cases h
  | fetchAdd t =>
    simp only [step] at h
    split at h <;> cases h
    simp
  | setMaxHLC h' =>
    cases h
    exact .inl rfl

/-! ## `maxHLC` stays within the inputs and the values returned -/

/-- `maxHLC` is at most `B` plus one for each value returned, and a clock
reading waiting for its `atomic_setIfBigger` is at most `B`: a store takes an
input, and only a logical tick, which returns a value, adds one. -/
structure Bounds (B : Nat) (s : State) : Prop where
  maxHLC_le : s.maxHLC.toNat ≤ B + s.returned.length
  timeNow_le : ∀ t sq timeNow seen, s.phase t = .readTime sq timeNow seen → timeNow.toNat ≤ B

theorem Bounds.setPhase {B : Nat} {s : State} (hb : Bounds B s) (t : Nat) {p : Phase}
    (hp : ∀ sq timeNow seen, p = .readTime sq timeNow seen → timeNow.toNat ≤ B) :
    Bounds B { s with phase := Function.update s.phase t p } := by
  refine ⟨hb.maxHLC_le, fun t' sq timeNow seen h => ?_⟩
  by_cases ht : t' = t
  · subst ht
    simp only [Function.update_self] at h
    exact hp sq timeNow seen h
  · simp only [Function.update_of_ne ht] at h
    exact hb.timeNow_le t' sq timeNow seen h

theorem Bounds.ret {B : Nat} {s : State} (hb : Bounds B s) (t : Nat) (sq : Option Nat) (seen : List UInt64)
    {m v : UInt64} (hm : m.toNat ≤ B + s.returned.length + 1) :
    Bounds B ({ s with maxHLC := m }.ret t sq seen v) := by
  refine ⟨?_, fun t' sq' timeNow seen' h => ?_⟩
  · simp only [ret_maxHLC, ret_returned, List.length_append, List.length_singleton]
    omega
  · by_cases ht : t' = t
    · subst ht
      simp at h
    · simp only [ret_phase, Function.update_of_ne ht] at h
      exact hb.timeNow_le t' sq' timeNow seen' h

theorem bounds_step {B : Nat} {s s' : State} {e : Event} (hb : Bounds B s) (he : e.Bounded B)
    (h : step s e = some s') : Bounds B s' := by
  cases e with
  | lockQueue t =>
    simp only [step] at h
    split at h <;> cases h
    exact ⟨hb.maxHLC_le, (hb.setPhase t (fun _ _ _ h => by cases h)).timeNow_le⟩
  | readTime t clock =>
    simp only [step] at h
    split at h <;> cases h
    · exact hb.setPhase t (fun _ _ _ h => by cases h; exact he)
    · exact hb.setPhase t (fun _ _ _ h => by cases h; exact he)
  | setIfBigger t =>
    simp only [step] at h
    split at h
    · rename_i sq timeNow seen hph
      have htime := hb.timeNow_le t sq timeNow seen hph
      split at h <;> cases h
      · -- real clock mode: `maxHLC` becomes the reading
        refine hb.ret t sq seen ?_
        have := atomicSetIfBigger_toNat_le s.maxHLC timeNow
          (Nat.le_trans hb.maxHLC_le (Nat.le_refl _)) (Nat.le_trans htime (Nat.le_add_right B _))
        omega
      · exact hb.setPhase t (fun _ _ _ h => by cases h)
    · cases h
  | fetchAdd t =>
    simp only [step] at h
    split at h <;> cases h
    refine hb.ret t _ _ ?_
    have := hb.maxHLC_le
    rw [UInt64.toNat_add, UInt64.toNat_one]
    omega
  | setMaxHLC hlc =>
    cases h
    exact ⟨atomicSetIfBigger_toNat_le _ _ hb.maxHLC_le (Nat.le_trans he (Nat.le_add_right B _)),
      hb.timeNow_le⟩

theorem atomicSetIfBigger_of_stored {obj newValue : UInt64} (h : (atomicSetIfBigger obj newValue).1 = true) :
    obj < newValue ∧ (atomicSetIfBigger obj newValue).2 = newValue := by
  unfold atomicSetIfBigger at h ⊢
  by_cases hlt : obj < newValue
  · exact ⟨hlt, by simp [hlt]⟩
  · simp [hlt] at h

/-- Below the wrap, a logical tick moves `maxHLC` up by one. -/
theorem lt_add_one_of_bounds {B : Nat} {s : State} (hb : Bounds B s)
    (hwrap : B + (s.returned.length + 1) < 2 ^ 64) : s.maxHLC < s.maxHLC + 1 := by
  have := hb.maxHLC_le
  rw [UInt64.lt_iff_toNat_lt, UInt64.toNat_add, UInt64.toNat_one]
  omega

/-! ## The invariant -/

/-- What holds while no `fetch_add` has wrapped. -/
structure Inv (s : State) : Prop where
  /-- the values returned strictly increase, in the order they were returned -/
  returned_lt : (s.returned.map Prod.snd).Pairwise (· < ·)
  returned_le : ∀ r ∈ s.returned, r.2 ≤ s.maxHLC
  returned_seen : ∀ r ∈ s.returned, ∀ h ∈ r.1, h < r.2
  setMax_le : ∀ h ∈ s.setMaxDone, h ≤ s.maxHLC
  seen_done : ∀ t, ∀ h ∈ (s.phase t).seen, h ∈ s.setMaxDone
  /-- only the holder of `queueLock` is in `queueDirty`, with the next seqno -/
  seqno_locked : ∀ t n, (s.phase t).seqno = some n → s.queueLock = some t ∧ n = s.lastBySeqno + 1
  queued_lt : s.queued.Pairwise fun a b => a.1 < b.1 ∧ a.2 < b.2
  queued_le : ∀ q ∈ s.queued, q.1 ≤ s.lastBySeqno ∧ q.2 ≤ s.maxHLC

theorem Inv.init (initHLC : UInt64) (lastBySeqno : Nat) : Inv (init initHLC lastBySeqno) where
  returned_lt := List.Pairwise.nil
  returned_le := nofun
  returned_seen := nofun
  setMax_le := nofun
  seen_done _ _ := nofun
  seqno_locked _ _ := nofun
  queued_lt := List.Pairwise.nil
  queued_le := nofun

/-- A thread moves to a phase in the same `queueDirty`, with `setMaxHLC`s
that have completed. -/
theorem Inv.setPhase {s : State} (hi : Inv s) (t : Nat) {p : Phase}
    (hseen : ∀ h ∈ p.seen, h ∈ s.setMaxDone) (hsq : p.seqno = (s.phase t).seqno) :
    Inv { s with phase := Function.update s.phase t p } := by
  refine { hi with seen_done := fun t' => ?_, seqno_locked := fun t' => ?_ }
  all_goals
    by_cases ht : t' = t
    · subst ht
      simp only [Function.update_self]
      first
        | exact hseen
        | exact hsq ▸ hi.seqno_locked t'
    · simp only [Function.update_of_ne ht]
      first
        | exact hi.seen_done t'
        | exact hi.seqno_locked t'

/-- `queueDirty` takes the free `queueLock` with the next seqno. -/
theorem Inv.lockQueue {s : State} (hi : Inv s) (t : Nat) (hfree : s.queueLock = none) :
    Inv { s with phase := Function.update s.phase t (.queueing (s.lastBySeqno + 1)), queueLock := some t } := by
  refine { hi with seen_done := fun t' => ?_, seqno_locked := fun t' n hn => ?_ }
  · by_cases ht : t' = t
    · subst ht
      simp [Phase.seen]
    · simp only [Function.update_of_ne ht]
      exact hi.seen_done t'
  · by_cases ht : t' = t
    · subst ht
      simp only [Function.update_self, Phase.seqno, Option.some.injEq] at hn
      exact ⟨rfl, hn.symm⟩
    · -- nobody else is in `queueDirty`: the lock was free
      simp only [Function.update_of_ne ht] at hn
      rw [(hi.seqno_locked t' n hn).1] at hfree
      cases hfree

/-- `nextHLC` returns `v`, which `maxHLC` was just moved up to. -/
theorem Inv.ret {s : State} (hi : Inv s) {t : Nat} {sq : Option Nat} {seen : List UInt64} {v : UInt64}
    (hsq : (s.phase t).seqno = sq) (hseen : (s.phase t).seen = seen) (hv : s.maxHLC < v) :
    Inv ({ s with maxHLC := v }.ret t sq seen v) := by
  -- everything returned, set or queued so far is at most the old `maxHLC`, below `v`
  have hbelow : ∀ x, x ≤ s.maxHLC → x < v := fun x hx => UInt64.lt_of_le_of_lt hx hv
  -- the thread leaves `queueDirty`, if it was in it, and with it the lock
  have hothers : ∀ t' n, t' ≠ t → (s.phase t').seqno = some n → sq = none := by
    intro t' n ht hn
    cases sq with
    | none => rfl
    | some n₀ =>
      have h₁ := (hi.seqno_locked t' n hn).1
      rw [(hi.seqno_locked t n₀ hsq).1, Option.some.injEq] at h₁
      exact absurd h₁.symm ht
  constructor
  · simp only [ret_returned, List.map_append, List.map_cons, List.map_nil]
    refine List.pairwise_append.mpr ⟨hi.returned_lt, List.pairwise_singleton _ _, ?_⟩
    intro a ha b hb
    obtain ⟨r, hr, rfl⟩ := List.mem_map.mp ha
    rw [List.mem_singleton.mp hb]
    exact hbelow r.2 (hi.returned_le r hr)
  · simp only [ret_returned, List.mem_append, List.mem_singleton, ret_maxHLC]
    rintro r (hr | rfl)
    · exact UInt64.le_of_lt (hbelow r.2 (hi.returned_le r hr))
    · exact UInt64.le_refl v
  · simp only [ret_returned, List.mem_append, List.mem_singleton]
    rintro r (hr | rfl) h hh
    · exact hi.returned_seen r hr h hh
    · exact hbelow h (hi.setMax_le h (hi.seen_done t h (hseen ▸ hh)))
  · simp only [ret_setMaxDone, ret_maxHLC]
    exact fun h hh => UInt64.le_of_lt (hbelow h (hi.setMax_le h hh))
  · intro t' h hh
    simp only [ret_phase, ret_setMaxDone] at hh ⊢
    by_cases ht : t' = t
    · subst ht
      simp [Phase.seen] at hh
    · rw [Function.update_of_ne ht] at hh
      exact hi.seen_done t' h hh
  · intro t' n hn
    simp only [ret_phase] at hn
    by_cases ht : t' = t
    · subst ht
      simp [Phase.seqno] at hn
    · rw [Function.update_of_ne ht] at hn
      have hnone := hothers t' n ht hn
      subst hnone
      exact hi.seqno_locked t' n hn
  · cases sq with
    | none => exact hi.queued_lt
    | some n₀ =>
      -- the item takes the next seqno and a CAS above every earlier one
      have hn₀ := (hi.seqno_locked t n₀ hsq).2
      simp only [ret_some_queued]
      refine List.pairwise_append.mpr ⟨hi.queued_lt, List.pairwise_singleton _ _, ?_⟩
      intro a ha b hb
      rw [List.mem_singleton.mp hb]
      exact ⟨by have := (hi.queued_le a ha).1; omega, hbelow a.2 (hi.queued_le a ha).2⟩
  · cases sq with
    | none =>
      intro q hq
      exact ⟨(hi.queued_le q hq).1, UInt64.le_of_lt (hbelow q.2 (hi.queued_le q hq).2)⟩
    | some n₀ =>
      have hn₀ := (hi.seqno_locked t n₀ hsq).2
      simp only [ret_some_queued, ret_some_lastBySeqno, ret_maxHLC, List.mem_append, List.mem_singleton]
      rintro q (hq | rfl)
      · exact ⟨by have := (hi.queued_le q hq).1; omega, UInt64.le_of_lt (hbelow q.2 (hi.queued_le q hq).2)⟩
      · exact ⟨Nat.le_refl n₀, UInt64.le_refl v⟩

/-- `setMaxHLC(h)` completes, leaving `maxHLC` at least `h`. -/
theorem Inv.setMax {s : State} (hi : Inv s) {m h : UInt64} (hm : s.maxHLC ≤ m) (hh : h ≤ m) :
    Inv { s with maxHLC := m, setMaxDone := s.setMaxDone ++ [h] } := by
  refine ⟨hi.returned_lt, fun r hr => UInt64.le_trans (hi.returned_le r hr) hm, hi.returned_seen, ?_,
    fun t h' hh' => List.mem_append_left _ (hi.seen_done t h' hh'), hi.seqno_locked, hi.queued_lt,
    fun q hq => ⟨(hi.queued_le q hq).1, UInt64.le_trans (hi.queued_le q hq).2 hm⟩⟩
  simp only [List.mem_append, List.mem_singleton]
  rintro h' (hh' | rfl)
  · exact UInt64.le_trans (hi.setMax_le h' hh') hm
  · exact hh

/-- Every step keeps `Inv` until a `fetch_add` would wrap. -/
theorem inv_step {B : Nat} {s s' : State} {e : Event} (hb : Bounds B s) (hi : Inv s)
    (h : step s e = some s') (hwrap : B + s'.returned.length < 2 ^ 64) : Inv s' := by
  cases e with
  | lockQueue t =>
    simp only [step] at h
    split at h
    · rename_i hc
      cases h
      exact hi.lockQueue t hc.2
    · cases h
  | readTime t clock =>
    simp only [step] at h
    split at h <;> cases h
    all_goals
      rename_i hph
      exact hi.setPhase t (fun h hh => hh) (by rw [hph]; rfl)
  | setIfBigger t =>
    simp only [step] at h
    split at h
    · rename_i sq timeNow seen hph
      split at h <;> cases h
      · -- real clock mode: the reading was above `maxHLC`
        obtain ⟨hlt, hset⟩ := atomicSetIfBigger_of_stored ‹_›
        rw [hset]
        exact hi.ret (by rw [hph]; rfl) (by rw [hph]; rfl) hlt
      · exact hi.setPhase t (fun h hh => hi.seen_done t h (by rw [hph]; exact hh)) (by rw [hph]; rfl)
    · cases h
  | fetchAdd t =>
    simp only [step] at h
    split at h <;> cases h
    rename_i sq seen hph
    simp only [ret_returned, List.length_append, List.length_singleton] at hwrap
    exact hi.ret (by rw [hph]; rfl) (by rw [hph]; rfl) (lt_add_one_of_bounds hb hwrap)
  | setMaxHLC hlc =>
    cases h
    exact hi.setMax (le_atomicSetIfBigger _ _) (atomicSetIfBigger_ge _ _)

/-- Every reachable state keeps the bounds, and `Inv` while no `fetch_add`
has wrapped. -/
theorem reachable_bounds_inv {B : Nat} {s : State} (hr : (system B).Reachable s) :
    Bounds B s ∧ (B + s.returned.length < 2 ^ 64 → Inv s) := by
  refine TransitionSystem.Reachable.invariant (I := fun s => Bounds B s ∧ (B + s.returned.length < 2 ^ 64 → Inv s))
    ?_ ?_ hr
  · rintro s ⟨⟨n, hs⟩, hB⟩
    rw [hs]
    refine ⟨⟨by simpa [init] using hB, fun t sq timeNow seen h => by cases h⟩, fun _ => Inv.init _ _⟩
  · rintro s e s' - ⟨hb, hi⟩ ⟨he, h⟩
    refine ⟨bounds_step hb he h, fun hwrap => inv_step hb (hi ?_) h hwrap⟩
    -- the earlier state returned no more values
    rcases returned_length_step h with hl | hl <;> omega

/-- Below the wrap, no step lowers `maxHLC`. -/
theorem maxHLC_le_step {B : Nat} {s s' : State} {e : Event} (hb : Bounds B s) (h : step s e = some s')
    (hwrap : B + s'.returned.length < 2 ^ 64) : s.maxHLC ≤ s'.maxHLC := by
  cases e with
  | lockQueue t =>
    simp only [step] at h
    split at h <;> cases h
    exact UInt64.le_refl _
  | readTime t clock =>
    simp only [step] at h
    split at h <;> cases h <;> exact UInt64.le_refl _
  | setIfBigger t =>
    simp only [step] at h
    split at h
    · split at h <;> cases h
      · rw [ret_maxHLC]
        exact le_atomicSetIfBigger _ _
      · exact UInt64.le_refl _
    · cases h
  | fetchAdd t =>
    simp only [step] at h
    split at h <;> cases h
    simp only [ret_returned, List.length_append, List.length_singleton] at hwrap
    rw [ret_maxHLC]
    exact UInt64.le_of_lt (lt_add_one_of_bounds hb hwrap)
  | setMaxHLC hlc =>
    cases h
    exact le_atomicSetIfBigger _ _

/-- A list increasing in both components: the second follows the first. -/
theorem lt_snd_of_pairwise {l : List (Nat × UInt64)} (h : l.Pairwise fun a b => a.1 < b.1 ∧ a.2 < b.2) :
    ∀ a ∈ l, ∀ b ∈ l, a.1 < b.1 → a.2 < b.2 := by
  induction l with
  | nil => exact nofun
  | cons x l ih =>
    obtain ⟨hx, hl⟩ := List.pairwise_cons.mp h
    intro a ha b hb hab
    rcases List.mem_cons.mp ha with rfl | ha' <;> rcases List.mem_cons.mp hb with rfl | hb'
    · exact absurd hab (Nat.lt_irrefl _)
    · exact (hx b hb').2
    · -- `b` comes first, so its seqno is the smaller one
      exact absurd (hx a ha').1 (Nat.lt_asymm hab)
    · exact ih hl a ha' b hb' hab

/-- Two threads, one of them in `queueDirty`, read the same clock; the other
ticks the logical clock. -/
def twoThreadsRun : List Event :=
  [.lockQueue 0, .readTime 0 0x10000, .readTime 1 0x10000, .setIfBigger 0, .setIfBigger 1, .fetchAdd 1]

/-- A value returned, a peer's `h = 2^64 - 1`, a logical tick, and a read of
the same clock as the first call. -/
def wrapRun : List Event :=
  [.readTime 0 0x50000, .setIfBigger 0, .setMaxHLC 0xFFFFFFFFFFFFFFFF, .readTime 1 0x30000, .setIfBigger 1,
    .fetchAdd 1, .readTime 2 0x50000, .setIfBigger 2]

end KvEngine.Hlc
