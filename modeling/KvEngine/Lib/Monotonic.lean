import Mathlib

/-!
# Monotonic fields

A field whose stores must keep an order: a store that breaks the order is
refused and, under a throwing policy, fails with the field's error. Two
invariants are used: `greater` (each stored value exceeds the previous one)
and `greaterEqual` (it does not fall below it).

- `Monotonic.Invariant.admits`: whether a store of `new` over `cur` is allowed.
- `Monotonic.store`: the store under the throwing policy, in `Except`.
- `Monotonic.storeOrKeep`: the store under the ignoring policy, which keeps
  the old value.

The lemmas say what a successful store returns and that a stored sequence
never decreases.
-/

namespace Monotonic

/-- The order a monotonic field keeps. -/
inductive Invariant where
  | greater
  | greaterEqual
  deriving DecidableEq, Repr

variable {α ε : Type*} [LinearOrder α]

/-- Whether the invariant allows storing `new` over `cur`. -/
def Invariant.admits : Invariant → α → α → Bool
  | .greater, cur, new => decide (cur < new)
  | .greaterEqual, cur, new => decide (cur ≤ new)

/-- Store `new` into a field holding `cur`; a store that breaks the invariant
fails with `err` and changes nothing. -/
def store (err : ε) (inv : Invariant) (cur new : α) : Except ε α :=
  if inv.admits cur new then .ok new else .error err

/-- Store `new` into a field holding `cur`; a store that breaks the invariant
is ignored. -/
def storeOrKeep (inv : Invariant) (cur new : α) : α :=
  if inv.admits cur new then new else cur

@[simp] theorem admits_greater (cur new : α) :
    Invariant.greater.admits cur new = decide (cur < new) := rfl

@[simp] theorem admits_greaterEqual (cur new : α) :
    Invariant.greaterEqual.admits cur new = decide (cur ≤ new) := rfl

theorem le_of_admits {inv : Invariant} {cur new : α} (h : inv.admits cur new = true) :
    cur ≤ new := by
  cases inv with
  | greater => exact le_of_lt (by simpa using h)
  | greaterEqual => simpa using h

theorem store_eq_ok_iff {err : ε} {inv : Invariant} {cur new v : α} :
    store err inv cur new = .ok v ↔ inv.admits cur new = true ∧ v = new := by
  unfold store
  by_cases h : inv.admits cur new = true
  · rw [if_pos h]
    constructor
    · intro hv
      exact ⟨h, (Except.ok.inj hv).symm⟩
    · rintro ⟨-, rfl⟩
      rfl
  · rw [if_neg h]
    constructor
    · intro hv
      cases hv
    · rintro ⟨h', -⟩
      exact absurd h' h

/-- A successful store never lowers the field. -/
theorem le_of_store_eq_ok {err : ε} {inv : Invariant} {cur new v : α}
    (h : store err inv cur new = .ok v) : cur ≤ v := by
  obtain ⟨hadm, rfl⟩ := store_eq_ok_iff.mp h
  exact le_of_admits hadm

theorem le_storeOrKeep (inv : Invariant) (cur new : α) : cur ≤ storeOrKeep inv cur new := by
  unfold storeOrKeep
  split
  · exact le_of_admits ‹_›
  · exact le_rfl

end Monotonic
