import Mathlib

/-!
# Keeping the winner of each offer

A replica offered versions of one item, one after another, keeps what it
holds until an offered version beats it. This is a fold of `keepWinner`. When
`beats` is irreflexive and transitive on the versions offered, what a replica
ends with is a version it saw that none of them beats; so two replicas that
saw the same versions, in any order, end with versions that beat neither way.

- `foldl_keepWinner_mem`: the replica holds one of the versions it saw;
- `foldl_keepWinner_unbeaten`, `foldl_keepWinner_top`: none of them beats it
  (the run lemma, from `keepWinner_unbeaten` for one offer);
- `foldl_keepWinner_perm`: replicas that saw the same versions end with one
  `key`, when any two versions seen that beat neither way have one `key`.
-/

section WinnerFold

variable {α κ : Type*} (beats : α → α → Prop) [DecidableRel beats]

/-- What a replica holding `cur` holds after `inc` is offered. -/
def keepWinner (cur inc : α) : α := if beats inc cur then inc else cur

variable {beats}

theorem foldl_keepWinner_mem (l : List α) (a : α) : l.foldl (keepWinner beats) a ∈ a :: l := by
  induction l generalizing a with
  | nil => exact List.mem_singleton_self a
  | cons b l ih =>
    rw [List.foldl_cons]
    have h := ih (keepWinner beats a b)
    -- the offer leaves `a` or takes `b`, both seen
    have hsub : ∀ x ∈ keepWinner beats a b :: l, x ∈ a :: b :: l := by
      intro x hx
      rcases List.mem_cons.mp hx with rfl | hx
      · unfold keepWinner
        split_ifs <;> simp
      · exact List.mem_cons_of_mem a (List.mem_cons_of_mem b hx)
    exact hsub _ h

/-- `beats` is a strict order on the versions that satisfy `P`. -/
structure IsStrictOn (beats : α → α → Prop) (P : α → Prop) : Prop where
  irrefl : ∀ x, P x → ¬ beats x x
  trans : ∀ x y z, P x → P y → P z → beats x y → beats y z → beats x z

variable {P : α → Prop}

/-- One offer keeps the holder unbeaten by every version seen: a new winner is
beaten by nothing seen, since that would beat the old holder too. -/
theorem keepWinner_unbeaten (ho : IsStrictOn beats P) {seen : List α} {cur b : α}
    (hseen : ∀ z ∈ seen, P z) (hcur : P cur) (hb : P b) (hun : ∀ z ∈ seen, ¬ beats z cur) :
    ∀ z ∈ seen ++ [b], ¬ beats z (keepWinner beats cur b) := by
  intro z hz
  rcases List.mem_append.mp hz with hz | hz
  · unfold keepWinner
    split_ifs with hwin
    · exact fun hzb => hun z hz (ho.trans z b cur (hseen z hz) hb hcur hzb hwin)
    · exact hun z hz
  · rw [List.mem_singleton.mp hz]
    unfold keepWinner
    split_ifs with hwin
    · exact ho.irrefl b hb
    · exact hwin

/-- The run lemma: after the offers `l`, nothing seen beats the holder. -/
theorem foldl_keepWinner_unbeaten (ho : IsStrictOn beats P) (l : List α) :
    ∀ (seen : List α) (cur : α), (∀ z ∈ seen, P z) → (∀ z ∈ l, P z) → P cur →
      (∀ z ∈ seen, ¬ beats z cur) → ∀ z ∈ seen ++ l, ¬ beats z (l.foldl (keepWinner beats) cur) := by
  induction l with
  | nil =>
    intro seen cur _ _ _ hun
    simpa using hun
  | cons b l ih =>
    intro seen cur hseen hl hcur hun
    have hb : P b := hl b (List.mem_cons_self ..)
    have hnext : P (keepWinner beats cur b) := by
      unfold keepWinner
      split_ifs
      · exact hb
      · exact hcur
    have h := ih (seen ++ [b]) (keepWinner beats cur b)
      (fun z hz => (List.mem_append.mp hz).elim (hseen z) (fun hz => (List.mem_singleton.mp hz) ▸ hb))
      (fun z hz => hl z (List.mem_cons_of_mem b hz)) hnext
      (keepWinner_unbeaten ho hseen hcur hb hun)
    simpa using h

/-- A replica that starts from `a` and is offered `l` ends with a version
that none of `a :: l` beats. -/
theorem foldl_keepWinner_top (ho : IsStrictOn beats P) {a : α} {l : List α} (hP : ∀ x ∈ a :: l, P x) :
    ∀ z ∈ a :: l, ¬ beats z (l.foldl (keepWinner beats) a) := by
  have ha : P a := hP a (List.mem_cons_self ..)
  exact foldl_keepWinner_unbeaten ho l [a] a (by simpa using ha)
    (fun z hz => hP z (List.mem_cons_of_mem a hz)) ha (by simpa using ho.irrefl a ha)

/-- Two replicas that saw the same versions, each starting from one of them,
end with versions of one `key`. -/
theorem foldl_keepWinner_perm (ho : IsStrictOn beats P) {key : α → κ} {a b : α} {l l' : List α}
    (hp : (a :: l).Perm (b :: l')) (hP : ∀ x ∈ a :: l, P x)
    (htot : ∀ x ∈ a :: l, ∀ y ∈ a :: l, ¬ beats x y → ¬ beats y x → key x = key y) :
    key (l.foldl (keepWinner beats) a) = key (l'.foldl (keepWinner beats) b) := by
  -- each replica holds a version both saw, and none of those beats it
  have hw : l.foldl (keepWinner beats) a ∈ a :: l := foldl_keepWinner_mem l a
  have hw' : l'.foldl (keepWinner beats) b ∈ a :: l := hp.mem_iff.mpr (foldl_keepWinner_mem l' b)
  have htop := foldl_keepWinner_top ho hP
  have htop' := foldl_keepWinner_top ho (fun x hx => hP x (hp.mem_iff.mpr hx))
  exact htot _ hw _ hw' (htop' _ (hp.mem_iff.mp hw)) (htop _ hw')

end WinnerFold
