import Mathlib

/-!
# Successful computations in `Except` and `EStateM`

A modelled function that can fail returns `Except ε α`, and its `do` block is
a chain of `bind`s. A proof about a run that succeeded takes the chain apart
one bind at a time: `Except.bind_eq_ok` gives the intermediate value and the
success of both halves, and `Except.pure_eq_ok` and `Except.throw_ne_ok`
settle the ends of the chain, `Except.map_eq_ok` and `Except.map_eq_error`
take apart a result whose value was mapped, and `Except.toOption_eq_some` one
whose error was dropped.

A function that mutates a state in place and may throw is an
`EStateM ε σ α`: a function from the state to a result that carries the
state, also when it is an error. Running one forward is rewriting its
`bind`s from the left: `EStateM.get_bind`, `EStateM.set_bind` and
`EStateM.bind_of_ok` run the first step, and `EStateM.bind_eq_ok` takes a
successful run apart.
-/

namespace Except

universe u v

variable {ε : Type u} {α β : Type v}

theorem bind_eq_ok {x : Except ε α} {f : α → Except ε β} {b : β} :
    x >>= f = .ok b ↔ ∃ a, x = .ok a ∧ f a = .ok b := by
  cases x with
  | error e => exact ⟨fun h => (nomatch h), fun ⟨_, h, _⟩ => (nomatch h)⟩
  | ok a => exact ⟨fun h => ⟨a, rfl, h⟩, fun ⟨a', h, h'⟩ => by cases h; exact h'⟩

@[simp] theorem ok_bind (a : α) (f : α → Except ε β) : (Except.ok a >>= f) = f a := rfl

theorem pure_eq_ok {a b : α} : (pure a : Except ε α) = .ok b ↔ a = b :=
  ⟨fun h => by cases h; rfl, fun h => h ▸ rfl⟩

theorem throw_ne_ok {e : ε} {b : α} : (throw e : Except ε α) ≠ .ok b :=
  fun h => nomatch h

theorem map_eq_ok {x : Except ε α} {f : α → β} {b : β} : x.map f = .ok b ↔ ∃ a, x = .ok a ∧ f a = b := by
  cases x with
  | error e => exact ⟨fun h => (nomatch h), fun ⟨_, h, _⟩ => (nomatch h)⟩
  | ok a => exact ⟨fun h => ⟨a, rfl, by cases h; rfl⟩, fun ⟨a', h, h'⟩ => by cases h; rw [← h']; rfl⟩

theorem map_eq_error {x : Except ε α} {f : α → β} {e : ε} : x.map f = .error e ↔ x = .error e := by
  cases x with
  | error e' => exact ⟨fun h => by cases h; rfl, fun h => by cases h; rfl⟩
  | ok a => exact ⟨fun h => (nomatch h), fun h => (nomatch h)⟩

theorem toOption_eq_some {x : Except ε α} {a : α} : x.toOption = some a ↔ x = .ok a := by
  cases x with
  | error e => exact ⟨fun h => (nomatch h), fun h => (nomatch h)⟩
  | ok a' => exact ⟨fun h => by cases h; rfl, fun h => by cases h; rfl⟩

end Except

namespace EStateM

universe u

variable {ε σ α β : Type u}

@[simp] theorem get_bind (f : σ → EStateM ε σ β) (s : σ) :
    (EStateM.get >>= f) s = f s s := rfl

@[simp] theorem set_bind (s' : σ) (f : PUnit → EStateM ε σ β) (s : σ) :
    (EStateM.set s' >>= f) s = f PUnit.unit s' := rfl

@[simp] theorem pure_apply (a : α) (s : σ) : (pure a : EStateM ε σ α) s = .ok a s := rfl

@[simp] theorem set_apply (s' s : σ) : (EStateM.set s' : EStateM ε σ PUnit) s = .ok PUnit.unit s' := rfl

@[simp] theorem throw_apply (e : ε) (s : σ) : (throw e : EStateM ε σ α) s = .error e s := rfl

@[simp] theorem ofExcept_ok (a : α) (s : σ) :
    (MonadExcept.ofExcept (.ok a : Except ε α) : EStateM ε σ α) s = .ok a s := rfl

theorem bind_of_ok {x : EStateM ε σ α} {f : α → EStateM ε σ β} {s s' : σ} {a : α}
    (h : x s = .ok a s') : (x >>= f) s = f a s' := by
  show (match x s with
    | .ok a s => f a s
    | .error e s => .error e s) = f a s'
  rw [h]

@[simp] theorem ofExcept_ok_bind (a : α) (f : α → EStateM ε σ β) (s : σ) :
    (MonadExcept.ofExcept (.ok a : Except ε α) >>= f) s = f a s := rfl

@[simp] theorem throw_bind (e : ε) (f : α → EStateM ε σ β) (s : σ) : (throw e >>= f) s = .error e s := rfl

@[simp] theorem ofExcept_error_bind (e : ε) (f : α → EStateM ε σ β) (s : σ) :
    (MonadExcept.ofExcept (.error e : Except ε α) >>= f) s = .error e s := rfl

/-- A discarded result is a bind that ignores it. -/
@[simp] theorem discard_eq_bind (x : EStateM ε σ α) : discard x = (x >>= fun _ => pure PUnit.unit) := by
  simp only [discard, map_const, Function.comp_apply, ← bind_pure_comp]

/-- A run of `x >>= f` that succeeded is a successful run of `x` followed by
one of `f`. -/
theorem bind_eq_ok {x : EStateM ε σ α} {f : α → EStateM ε σ β} {s s'' : σ} {b : β} :
    (x >>= f) s = .ok b s'' ↔ ∃ a s', x s = .ok a s' ∧ f a s' = .ok b s'' := by
  show (match x s with
    | .ok a s => f a s
    | .error e s => .error e s) = _ ↔ _
  cases h : x s with
  | ok a s' => exact ⟨fun hf => ⟨a, s', rfl, hf⟩, fun ⟨_, _, hx, hf⟩ => by cases hx; exact hf⟩
  | error e s' => exact ⟨fun hf => (nomatch hf), fun ⟨_, _, hx, _⟩ => (nomatch hx)⟩

theorem tryCatch_of_ok {x : EStateM ε σ α} {handle : ε → EStateM ε σ α} {s s' : σ} {a : α}
    (h : x s = .ok a s') : tryCatch x handle s = .ok a s' := by
  simp only [tryCatch, MonadExcept.tryCatch, tryCatchThe, MonadExceptOf.tryCatch,
    EStateM.tryCatch, h]

end EStateM
