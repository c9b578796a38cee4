import Mathlib

/-!
# Transition systems and their invariants

A system is a set of initial states and a step relation between states,
labelled with what happened in the step. This module gives

- `TransitionSystem.Reachable`: the states reached from an initial state by
  steps;
- `TransitionSystem.Reachable.invariant`: the induction rule: a property that
  holds in every initial state and that every step from a reachable state
  keeps holds in every reachable state;
- `TransitionSystem.Reachable.mono`: a system whose steps are among those of a
  second system reaches only states that the second reaches;
- `TransitionSystem.Reachable.foldlM`: running a partial step function whose
  steps are steps of the system, from a reachable state, reaches a reachable
  state (how a concrete run is shown to be one of the system's).
- `TransitionSystem.Run`: the steps from one state to another with their
  labels, and `Run.invariant`, the induction rule for a property of the state
  and of the labels seen so far (what a run has output, say), over the runs
  whose labels all satisfy a given predicate.
-/

/-- A transition system over states `σ` with steps labelled by `α`. -/
structure TransitionSystem (σ α : Type*) where
  init : σ → Prop
  next : σ → α → σ → Prop

namespace TransitionSystem

variable {σ α : Type*}

/-- The states reached from an initial state by steps. -/
inductive Reachable (T : TransitionSystem σ α) : σ → Prop
  | init {s : σ} : T.init s → Reachable T s
  | step {s s' : σ} {a : α} : Reachable T s → T.next s a s' → Reachable T s'

/-- The induction rule for invariants. -/
theorem Reachable.invariant {T : TransitionSystem σ α} {I : σ → Prop}
    (hinit : ∀ s, T.init s → I s)
    (hstep : ∀ s a s', T.Reachable s → I s → T.next s a s' → I s') :
    ∀ {s}, T.Reachable s → I s
  | _, .init h => hinit _ h
  | _, .step hr hn => hstep _ _ _ hr (Reachable.invariant hinit hstep hr) hn

/-- A system with fewer initial states and steps reaches fewer states. -/
theorem Reachable.mono {T T' : TransitionSystem σ α} (hinit : ∀ s, T.init s → T'.init s)
    (hnext : ∀ s a s', T.next s a s' → T'.next s a s') :
    ∀ {s}, T.Reachable s → T'.Reachable s
  | _, .init h => .init (hinit _ h)
  | _, .step hr hn => .step (Reachable.mono hinit hnext hr) (hnext _ _ _ hn)

/-- Running a partial step function over a list of labels, each of whose steps
is a step of the system. -/
theorem Reachable.foldlM {T : TransitionSystem σ α} {f : σ → α → Option σ} {as : List α}
    (hf : ∀ a ∈ as, ∀ t t', f t a = some t' → T.next t a t') {s s' : σ} (hr : T.Reachable s)
    (h : as.foldlM f s = some s') : T.Reachable s' := by
  induction as generalizing s with
  | nil =>
    cases h
    exact hr
  | cons a as ih =>
    rw [List.foldlM_cons] at h
    cases ht : f s a with
    | none =>
      rw [ht] at h
      cases h
    | some t =>
      rw [ht] at h
      -- the first label is a step of the system; the rest of the run starts after it
      have hnext : T.next s a t := hf a (List.mem_cons_self ..) s t ht
      exact ih (fun b hb => hf b (List.mem_cons_of_mem a hb)) (.step hr hnext) h

/-- A run: steps from one state to another, with their labels in order. -/
inductive Run (T : TransitionSystem σ α) : σ → List α → σ → Prop
  | nil (s : σ) : Run T s [] s
  | cons {s s' s'' : σ} {a : α} {as : List α} : T.next s a s' → Run T s' as s'' → Run T s (a :: as) s''

/-- The induction rule over a run whose labels all satisfy `p`, for a property
of the state and the labels before it: what holds before the run and every
such step keeps, with its label added, holds after it with all of the run's
labels. -/
theorem Run.invariant {T : TransitionSystem σ α} {I : σ → List α → Prop} {p : α → Prop}
    (hstep : ∀ s a s' pre, p a → I s pre → T.next s a s' → I s' (pre ++ [a])) :
    ∀ {s s' : σ} {as : List α}, Run T s as s' → (∀ a ∈ as, p a) → ∀ {pre : List α}, I s pre → I s' (pre ++ as)
  | _, _, _, .nil _, _, pre, h => by rw [List.append_nil]; exact h
  | _, _, _, .cons hn hrun, hp, pre, h => by
    have h' := Run.invariant hstep hrun (fun a ha => hp a (List.mem_cons_of_mem _ ha))
      (hstep _ _ _ pre (hp _ List.mem_cons_self) h hn)
    rwa [List.append_assoc, List.singleton_append] at h'

end TransitionSystem
