import Mathlib

/-!
# Iterators into a keyed list

A `std::list` iterator stays valid while other elements are inserted or
erased, and an iterator to an erased element must be moved before the erase.
Here an iterator into a list whose elements carry distinct keys is the key of
the element it points at, and `none` stands for `end()`. The containers this
models use `end()` as the position before `begin()`: advancing from `end()`
gives the first element.

- `ListIter.find`: the element an iterator points at.
- `ListIter.next`: `it == end() ? begin() : std::next(it)`.
- `ListIter.prev`: the iterator a position is moved to when the element it
  points at is erased: `std::prev`, or `end()` for the first element.
- `ListIter.erase`, `ListIter.modify`: `erase(it)` and an in-place update.

When the keys increase along the list (`ListIter.Increasing`), a cursor that
has passed every element up to a bound `b` stands at `ListIter.lastLE b`.
The lemmas say how the list operations move such a cursor: erasing moves it
back (`lastLE_erase`), appending or updating in place leaves it
(`lastLE_append_of_lt`, `lastLE_map`), and advancing from it reaches the first
element past the bound (`next_lastLE`).

For counters kept beside such a list, `ListIter.tally p w` sums `w` over the
elements satisfying `p`. With distinct keys, the list is a permutation of the
element with a key followed by what `erase` leaves (`perm_cons_erase`), and
updating that element in place is a permutation of its image followed by the
same rest (`modify_perm`); a tally then changes by that element's part alone.
-/

namespace ListIter

variable {α κ : Type*} (key : α → κ)

section Iterators

variable [DecidableEq κ]

/-- The element with key `k`. -/
def find (l : List α) (k : κ) : Option α :=
  l.find? (fun a => key a = k)

/-- The element after the one with key `k` (`none` past the end, or when no
element has key `k`). -/
def nextAfter (k : κ) : List α → Option α
  | [] => none
  | a :: l => if key a = k then l.head? else nextAfter k l

/-- `it == end() ? begin() : std::next(it)`. -/
def next (l : List α) : Option κ → Option α
  | none => l.head?
  | some k => nextAfter key k l

/-- The key of the element before the one with key `k`, scanning with `p` as
the key of the element before the rest. -/
def prevFrom (k : κ) : Option κ → List α → Option κ
  | _, [] => none
  | p, a :: l => if key a = k then p else prevFrom k (some (key a)) l

/-- `it == begin() ? end() : std::prev(it)` for the element with key `k`. -/
def prev (l : List α) (k : κ) : Option κ :=
  prevFrom key k none l

/-- `erase(it)` for the element with key `k`. -/
def erase (l : List α) (k : κ) : List α :=
  l.eraseP (fun a => key a = k)

/-- Update the element with key `k` in place. -/
def modify (l : List α) (k : κ) (f : α → α) : List α :=
  l.map (fun a => if key a = k then f a else a)

/-- Move an iterator off the element with key `k` (to `dest`) before that
element is erased. -/
def repoint (it : Option κ) (k : κ) (dest : Option κ) : Option κ :=
  if it = some k then dest else it

/-- The elements after the one an iterator points at; all of them for
`end()`. -/
def after (l : List α) : Option κ → List α
  | none => l
  | some k => (l.dropWhile (fun a => key a ≠ k)).drop 1

variable {key}

theorem mem_of_nextAfter_eq_some {k : κ} {a : α} :
    ∀ {l : List α}, nextAfter key k l = some a → a ∈ l
  | [], h => by simp [nextAfter] at h
  | c :: l, h => by
    unfold nextAfter at h
    split_ifs at h
    · exact List.mem_cons_of_mem _ (List.mem_of_mem_head? h)
    · exact List.mem_cons_of_mem _ (mem_of_nextAfter_eq_some h)

theorem mem_of_next_eq_some {l : List α} {it : Option κ} {a : α} (h : next key l it = some a) :
    a ∈ l := by
  cases it with
  | none => exact List.mem_of_mem_head? h
  | some k => exact mem_of_nextAfter_eq_some h

theorem prevFrom_ne_none {k : κ} (x : κ) :
    ∀ {l : List α}, (∃ c ∈ l, key c = k) → prevFrom key k (some x) l ≠ none
  | [], ⟨_, hc, _⟩ => absurd hc List.not_mem_nil
  | a :: l, ⟨c, hc, hck⟩ => by
    unfold prevFrom
    split_ifs with hak
    · exact Option.some_ne_none x
    · rcases List.mem_cons.mp hc with rfl | hc
      · exact absurd hck hak
      · exact prevFrom_ne_none (key a) ⟨c, hc, hck⟩

/-- The scan for the element before `k` ignores its starting value unless `k`
comes first. -/
theorem prevFrom_eq_or {k : κ} (p : Option κ) {l : List α} (hk : ∃ c ∈ l, key c = k) :
    prevFrom key k p l = (prevFrom key k none l).or p := by
  cases l with
  | nil => obtain ⟨_, hc, _⟩ := hk; exact absurd hc List.not_mem_nil
  | cons a l =>
    unfold prevFrom
    split_ifs with hak
    · rfl
    · obtain ⟨c, hc, hck⟩ := hk
      rcases List.mem_cons.mp hc with rfl | hc
      · exact absurd hck hak
      · cases h : prevFrom key k (some (key a)) l with
        | none => exact absurd h (prevFrom_ne_none (key a) ⟨c, hc, hck⟩)
        | some j => rfl

end Iterators

section Increasing

variable [LinearOrder κ]

/-- The keys strictly increase along the list. -/
def Increasing (l : List α) : Prop := l.Pairwise (fun a b => key a < key b)

/-- Where a cursor stands once it has passed every element whose key is at
most `b`: the key of the last element of the leading run of such elements,
or `end()` when the first element is already past `b`. -/
def lastLE (b : κ) : List α → Option κ
  | [] => none
  | a :: l => if key a ≤ b then (lastLE b l).or (some (key a)) else none

variable {key}

theorem Increasing.of_cons {a : α} {l : List α} (h : Increasing key (a :: l)) :
    Increasing key l :=
  List.Pairwise.of_cons h

theorem Increasing.lt_of_cons {a c : α} {l : List α} (h : Increasing key (a :: l))
    (hc : c ∈ l) : key a < key c :=
  List.rel_of_pairwise_cons h hc

/-- The head of an increasing list has the least key. -/
theorem Increasing.le_of_mem_cons {a c : α} {l : List α} (h : Increasing key (a :: l))
    (hc : c ∈ a :: l) : key a ≤ key c := by
  rcases List.mem_cons.mp hc with rfl | hc
  · exact le_refl _
  · exact le_of_lt (h.lt_of_cons hc)

theorem Increasing.sublist {l l' : List α} (h : Increasing key l) (hs : l'.Sublist l) :
    Increasing key l' :=
  List.Pairwise.sublist hs h

/-- In an increasing list an element is determined by its key. -/
theorem Increasing.eq_of_key_eq {a b : α} :
    ∀ {l : List α}, Increasing key l → a ∈ l → b ∈ l → key a = key b → a = b
  | [], _, ha, _, _ => absurd ha List.not_mem_nil
  | c :: l, hinc, ha, hb, hab => by
    rcases List.mem_cons.mp ha with rfl | ha' <;> rcases List.mem_cons.mp hb with rfl | hb'
    · rfl
    · exact absurd hab (ne_of_lt (hinc.lt_of_cons hb'))
    · exact absurd hab.symm (ne_of_lt (hinc.lt_of_cons ha'))
    · exact hinc.of_cons.eq_of_key_eq ha' hb' hab

theorem Increasing.append_singleton {l : List α} {a : α} (h : Increasing key l)
    (ha : ∀ c ∈ l, key c < key a) : Increasing key (l ++ [a]) := by
  unfold Increasing
  rw [List.pairwise_append]
  exact ⟨h, List.pairwise_singleton _ _, fun c hc a' ha' => by
    rw [List.mem_singleton] at ha'
    exact ha' ▸ ha c hc⟩

/-- In an increasing list the last element has the greatest key. -/
theorem Increasing.le_of_getLast? {l : List α} {a b : α} (h : Increasing key l) (hb : l.getLast? = some b)
    (ha : a ∈ l) : key a ≤ key b := by
  obtain ⟨init, rfl⟩ := List.getLast?_eq_some_iff.mp hb
  rcases List.mem_append.mp ha with ha | ha
  · exact le_of_lt ((List.pairwise_append.mp h).2.2 a ha b (List.mem_singleton_self b))
  · rw [List.mem_singleton.mp ha]

theorem Increasing.map {l : List α} (h : Increasing key l) {f : α → α}
    (hf : ∀ a, key (f a) = key a) : Increasing key (l.map f) := by
  unfold Increasing
  rw [List.pairwise_map]
  exact h.imp fun {a b} hab => by rw [hf a, hf b]; exact hab

/-- A cursor stands on an element at or below `b`. -/
theorem exists_of_lastLE_eq_some {b k : κ} :
    ∀ {l : List α}, lastLE key b l = some k → ∃ a ∈ l, key a = k ∧ k ≤ b
  | [], h => by simp [lastLE] at h
  | a :: l, h => by
    unfold lastLE at h
    split_ifs at h with hab
    cases hl : lastLE key b l with
    | none =>
      rw [hl, Option.none_or, Option.some_inj] at h
      exact ⟨a, List.mem_cons_self, h, h ▸ hab⟩
    | some j =>
      rw [hl, Option.some_or, Option.some_inj] at h
      obtain ⟨c, hc, hcj, hjb⟩ := exists_of_lastLE_eq_some hl
      exact ⟨c, List.mem_cons_of_mem _ hc, hcj.trans h, h ▸ hjb⟩

/-- At `end()`, every element is past `b`. -/
theorem lt_of_lastLE_eq_none {b : κ} :
    ∀ {l : List α}, Increasing key l → lastLE key b l = none → ∀ c ∈ l, b < key c
  | [], _, _, c, hc => absurd hc List.not_mem_nil
  | a :: l, hinc, h, c, hc => by
    unfold lastLE at h
    split_ifs at h with hab
    · cases hl : lastLE key b l <;> rw [hl] at h <;> simp at h
    · have hba : b < key a := lt_of_not_ge hab
      rcases List.mem_cons.mp hc with rfl | hc
      · exact hba
      · exact hba.trans (hinc.lt_of_cons hc)

/-- The cursor stands on the largest key at or below `b`. -/
theorem le_of_lastLE_eq_some {b k : κ} :
    ∀ {l : List α}, Increasing key l → lastLE key b l = some k →
      ∀ c ∈ l, key c ≤ b → key c ≤ k
  | [], _, h, _, _, _ => by simp [lastLE] at h
  | a :: l, hinc, h, c, hc, hcb => by
    unfold lastLE at h
    split_ifs at h with hab
    rcases List.mem_cons.mp hc with rfl | hc
    · cases hl : lastLE key b l with
      | none =>
        rw [hl, Option.none_or, Option.some_inj] at h
        exact h.le
      | some j =>
        rw [hl, Option.some_or, Option.some_inj] at h
        obtain ⟨d, hd, hdj, -⟩ := exists_of_lastLE_eq_some hl
        exact h ▸ hdj ▸ (hinc.lt_of_cons hd).le
    · cases hl : lastLE key b l with
      | none => exact absurd hcb (not_le.mpr (lt_of_lastLE_eq_none hinc.of_cons hl c hc))
      | some j =>
        rw [hl, Option.some_or, Option.some_inj] at h
        exact h ▸ le_of_lastLE_eq_some hinc.of_cons hl c hc hcb

/-- Two cursors agree when their lists have the same keys at or below their
bounds. -/
theorem lastLE_eq_of_iff {l₁ l₂ : List α} {b₁ b₂ : κ} (h₁ : Increasing key l₁)
    (h₂ : Increasing key l₂)
    (h : ∀ x, (∃ a ∈ l₁, key a = x ∧ x ≤ b₁) ↔ (∃ a ∈ l₂, key a = x ∧ x ≤ b₂)) :
    lastLE key b₁ l₁ = lastLE key b₂ l₂ := by
  cases e₁ : lastLE key b₁ l₁ with
  | none =>
    cases e₂ : lastLE key b₂ l₂ with
    | none => rfl
    | some k₂ =>
      obtain ⟨a, ha, hak, hkb⟩ := (h k₂).mpr (exists_of_lastLE_eq_some e₂)
      exact absurd (hak ▸ hkb) (not_le.mpr (lt_of_lastLE_eq_none h₁ e₁ a ha))
  | some k₁ =>
    obtain ⟨a₂, ha₂, hak₂, hkb₂⟩ := (h k₁).mp (exists_of_lastLE_eq_some e₁)
    cases e₂ : lastLE key b₂ l₂ with
    | none => exact absurd (hak₂ ▸ hkb₂) (not_le.mpr (lt_of_lastLE_eq_none h₂ e₂ a₂ ha₂))
    | some k₂ =>
      obtain ⟨a₁, ha₁, hak₁, hkb₁⟩ := (h k₂).mpr (exists_of_lastLE_eq_some e₂)
      have hle₁ : k₂ ≤ k₁ := hak₁ ▸ le_of_lastLE_eq_some h₁ e₁ a₁ ha₁ (hak₁ ▸ hkb₁)
      have hle₂ : k₁ ≤ k₂ := hak₂ ▸ le_of_lastLE_eq_some h₂ e₂ a₂ ha₂ (hak₂ ▸ hkb₂)
      rw [le_antisymm hle₂ hle₁]

/-- A cursor on an element is where passing every element up to its key
leaves it. -/
theorem lastLE_key_of_mem {l : List α} {a : α} (hinc : Increasing key l) (ha : a ∈ l) :
    lastLE key (key a) l = some (key a) := by
  cases e : lastLE key (key a) l with
  | none => exact absurd (lt_of_lastLE_eq_none hinc e a ha) (lt_irrefl _)
  | some k =>
    obtain ⟨c, hc, hck, hka⟩ := exists_of_lastLE_eq_some e
    have hak : key a ≤ k := le_of_lastLE_eq_some hinc e a ha le_rfl
    rw [le_antisymm hka hak]

/-- Raising the bound over no element leaves the cursor where it is. -/
theorem lastLE_congr {l : List α} {b b' : κ} (hinc : Increasing key l) (hbb : b ≤ b')
    (hgap : ∀ c ∈ l, b < key c → b' < key c) : lastLE key b' l = lastLE key b l := by
  refine lastLE_eq_of_iff hinc hinc fun x => ⟨?_, ?_⟩
  · rintro ⟨a, ha, rfl, hab'⟩
    refine ⟨a, ha, rfl, le_of_not_gt fun hba => ?_⟩
    exact absurd hab' (not_le.mpr (hgap a ha hba))
  · rintro ⟨a, ha, rfl, hab⟩
    exact ⟨a, ha, rfl, hab.trans hbb⟩

/-- Elements past the bound appended at the end do not move the cursor. -/
theorem lastLE_append_of_lt {b : κ} {l' : List α} (h : ∀ c ∈ l', b < key c) :
    ∀ l : List α, lastLE key b (l ++ l') = lastLE key b l
  | [] => by
    cases l' with
    | nil => rfl
    | cons c l' =>
      simp only [List.nil_append, lastLE]
      rw [if_neg (not_le.mpr (h c List.mem_cons_self))]
  | a :: l => by
    simp only [List.cons_append, lastLE]
    rw [lastLE_append_of_lt h l]

/-- An element past all others appended at the end is where the cursor
stands if its key is at most the bound. -/
theorem lastLE_append_singleton {b : κ} {x : α} :
    ∀ {l : List α}, (∀ c ∈ l, key c < key x) →
      lastLE key b (l ++ [x]) = if key x ≤ b then some (key x) else lastLE key b l
  | [], _ => by
    by_cases hx : key x ≤ b <;> simp [lastLE, hx]
  | a :: l, h => by
    have hax : key a < key x := h a List.mem_cons_self
    have ih : lastLE key b (l ++ [x]) = if key x ≤ b then some (key x) else lastLE key b l :=
      lastLE_append_singleton fun c hc => h c (List.mem_cons_of_mem _ hc)
    simp only [List.cons_append, lastLE, ih]
    by_cases hx : key x ≤ b
    · simp [hx, hax.le.trans hx]
    · simp [hx]

/-- Updating elements in place without changing keys leaves the cursor. -/
theorem lastLE_map {b : κ} {f : α → α} (hf : ∀ a, key (f a) = key a) :
    ∀ l : List α, lastLE key b (l.map f) = lastLE key b l
  | [] => rfl
  | a :: l => by
    simp only [List.map_cons, lastLE, hf a]
    rw [lastLE_map hf l]

/-- The first element past a bound comes before every other one. -/
theorem le_of_find?_lt {b : κ} {l : List α} {a c : α} (hinc : Increasing key l)
    (ha : l.find? (fun x => b < key x) = some a) (hc : c ∈ l) (hbc : b < key c) :
    key a ≤ key c := by
  obtain ⟨-, as, bs, rfl, hpre⟩ := List.find?_eq_some_iff_append.mp ha
  rcases List.mem_append.mp hc with hc | hc
  · exact absurd hbc (by simpa using hpre c hc)
  · rcases List.mem_cons.mp hc with rfl | hc
    · exact le_rfl
    · have hinc' : Increasing key (a :: bs) := hinc.sublist (List.sublist_append_right _ _)
      exact (hinc'.lt_of_cons hc).le

/-- Fewer elements are past the first element past a bound than past the
bound. -/
theorem countP_lt_of_find? {b : κ} {l : List α} {a : α}
    (ha : l.find? (fun x => b < key x) = some a) :
    l.countP (fun x => key a < key x) < l.countP (fun x => b < key x) := by
  have hba : b < key a := by simpa using List.find?_some ha
  induction l with
  | nil => simp at ha
  | cons c l ih =>
    have hmono : l.countP (fun x => key a < key x) ≤ l.countP (fun x => b < key x) :=
      List.countP_mono_left fun x _ hx => by simpa using hba.trans (by simpa using hx)
    by_cases hc : b < key c
    · -- the first element past `b` is `c` itself
      rw [List.find?_cons_of_pos (by simpa using hc), Option.some_inj] at ha
      subst ha
      simp only [List.countP_cons, lt_irrefl, decide_false, hc, decide_true, Bool.false_eq_true,
        if_false, if_true]
      omega
    · rw [List.find?_cons_of_neg (by simpa using hc)] at ha
      have hac : ¬ key a < key c := fun h => hc (hba.trans h)
      simp only [List.countP_cons, hc, hac, decide_false]
      simpa using ih ha

section Iterators

variable [DecidableEq κ]

/-- Dropping the first element, when it is at or below the bound, moves a
cursor on it to `end()`. -/
theorem lastLE_of_cons {b : κ} {a : α} {l : List α} (hinc : Increasing key (a :: l))
    (hab : key a ≤ b) : lastLE key b l = repoint (lastLE key b (a :: l)) (key a) none := by
  rw [lastLE, if_pos hab]
  cases hl : lastLE key b l with
  | none => simp [repoint]
  | some j =>
    obtain ⟨c, hc, rfl, -⟩ := exists_of_lastLE_eq_some hl
    have hne : key c ≠ key a := (ne_of_lt (hinc.lt_of_cons hc)).symm
    simp [repoint, hne]

/-- `advance` from a cursor: the first element past the bound. -/
theorem next_lastLE {b : κ} :
    ∀ {l : List α}, Increasing key l → next key l (lastLE key b l) = l.find? (fun a => b < key a)
  | [], _ => rfl
  | a :: l, hinc => by
    by_cases hab : key a ≤ b
    · have hfind : (a :: l).find? (fun c => b < key c) = l.find? (fun c => b < key c) := by
        rw [List.find?_cons_of_neg (by simpa using hab)]
      rw [hfind, lastLE, if_pos hab]
      cases hl : lastLE key b l with
      | none =>
        have hall := lt_of_lastLE_eq_none hinc.of_cons hl
        cases l with
        | nil => simp [next, nextAfter]
        | cons c l =>
          rw [List.find?_cons_of_pos (by simpa using hall c List.mem_cons_self)]
          simp [next, nextAfter]
      | some j =>
        obtain ⟨c, hc, rfl, -⟩ := exists_of_lastLE_eq_some hl
        have hne : key a ≠ key c := ne_of_lt (hinc.lt_of_cons hc)
        rw [Option.some_or, ← next_lastLE hinc.of_cons, hl]
        simp [next, nextAfter, hne]
    · rw [lastLE, if_neg hab, List.find?_cons_of_pos (by simpa using lt_of_not_ge hab)]
      rfl

/-- The element after the one with key `k` survives erasing it. -/
theorem mem_erase_of_nextAfter_eq_some {k : κ} {a : α} :
    ∀ {l : List α}, Increasing key l → nextAfter key k l = some a → a ∈ erase key l k
  | [], _, h => by simp [nextAfter] at h
  | c :: l, hinc, h => by
    unfold nextAfter at h
    unfold erase
    by_cases hck : key c = k
    · rw [if_pos hck] at h
      rw [List.eraseP_cons_of_pos (by simpa using hck)]
      exact List.mem_of_mem_head? h
    · rw [if_neg hck] at h
      rw [List.eraseP_cons_of_neg (by simpa using hck)]
      exact List.mem_cons_of_mem _ (mem_erase_of_nextAfter_eq_some hinc.of_cons h)

/-- Erasing an element moves a cursor on it to the element before. -/
theorem lastLE_erase {b k : κ} :
    ∀ {l : List α}, Increasing key l →
      lastLE key b (erase key l k) = repoint (lastLE key b l) k (prev key l k)
  | [], _ => by simp [erase, lastLE, repoint]
  | a :: l, hinc => by
    by_cases hak : key a = k
    · -- the first element goes: a cursor on it goes to `end()`
      have hl : erase key (a :: l) k = l := by
        unfold erase
        rw [List.eraseP_cons_of_pos (by simpa using hak)]
      rw [hl, prev, prevFrom, if_pos hak, ← hak]
      by_cases hab : key a ≤ b
      · exact lastLE_of_cons hinc hab
      · rw [lastLE, if_neg hab]
        cases hl' : lastLE key b l with
        | none => rfl
        | some j =>
          obtain ⟨c, hc, rfl, hcb⟩ := exists_of_lastLE_eq_some hl'
          exact absurd ((hinc.lt_of_cons hc).le.trans hcb) hab
    · have hl : erase key (a :: l) k = a :: erase key l k := by
        unfold erase
        rw [List.eraseP_cons_of_neg (by simpa using hak)]
      have ih : lastLE key b (erase key l k) = repoint (lastLE key b l) k (prev key l k) :=
        lastLE_erase hinc.of_cons
      rw [hl, prev, prevFrom, if_neg hak]
      by_cases hab : key a ≤ b
      · simp only [lastLE, if_pos hab]
        rw [ih]
        cases hl' : lastLE key b l with
        | none => simp [repoint, hak]
        | some j =>
          by_cases hjk : j = k
          · subst hjk
            obtain ⟨c, hc, hcj, -⟩ := exists_of_lastLE_eq_some hl'
            rw [prevFrom_eq_or _ ⟨c, hc, hcj⟩]
            simp [repoint, prev]
          · simp [repoint, hjk]
      · simp only [lastLE, if_neg hab]
        simp [repoint]

/-- The elements after an element have larger keys. -/
theorem lt_key_of_mem_after {a c : α} :
    ∀ {l : List α}, Increasing key l → a ∈ l → c ∈ after key l (some (key a)) → key a < key c
  | [], _, ha, _ => absurd ha List.not_mem_nil
  | d :: l, hinc, ha, hc => by
    simp only [after] at hc
    by_cases hd : key d = key a
    · rw [List.dropWhile_cons_of_neg (by simpa using hd)] at hc
      rw [List.drop_one, List.tail_cons] at hc
      exact hd ▸ hinc.lt_of_cons hc
    · rw [List.dropWhile_cons_of_pos (by simpa using hd)] at hc
      rcases List.mem_cons.mp ha with rfl | ha
      · exact absurd rfl hd
      · exact lt_key_of_mem_after hinc.of_cons ha hc

/-- The elements after a cursor are past its bound. -/
theorem lt_of_mem_after_lastLE {b : κ} {l : List α} (hinc : Increasing key l) {c : α}
    (hc : c ∈ after key l (lastLE key b l)) : b < key c := by
  cases e : lastLE key b l with
  | none =>
    rw [e] at hc
    exact lt_of_lastLE_eq_none hinc e c hc
  | some k =>
    rw [e] at hc
    obtain ⟨a, ha, rfl, -⟩ := exists_of_lastLE_eq_some e
    refine lt_of_not_ge fun hcb => ?_
    have hcl : c ∈ l := (List.drop_sublist _ _ |>.trans (List.dropWhile_sublist _)).subset hc
    have hle : key c ≤ key a := le_of_lastLE_eq_some hinc e c hcl hcb
    exact absurd hle (not_le.mpr (lt_key_of_mem_after hinc ha hc))

variable (key) in
/-- A cursor as the monitor's comments describe it: at `end()` or on an
element whose key is at most `b`, with no element after it whose key is at
most `b`. -/
def IsLastLE (b : κ) (l : List α) (it : Option κ) : Prop :=
  (∀ k ∈ it, ∃ a ∈ l, key a = k ∧ k ≤ b) ∧ ∀ c ∈ after key l it, b < key c

instance (b : κ) (l : List α) (it : Option κ) : Decidable (IsLastLE key b l it) :=
  inferInstanceAs (Decidable ((∀ k ∈ it, ∃ a ∈ l, key a = k ∧ k ≤ b) ∧
    ∀ c ∈ after key l it, b < key c))

/-- `lastLE` is such a cursor. -/
theorem isLastLE_lastLE {b : κ} {l : List α} (hinc : Increasing key l) :
    IsLastLE key b l (lastLE key b l) :=
  ⟨fun _ hk => exists_of_lastLE_eq_some hk, fun _ hc => lt_of_mem_after_lastLE hinc hc⟩

end Iterators

end Increasing

/-! ### Keyed lists and tallies over them -/

section Keyed

variable {key}

/-- The sum of `w` over the elements satisfying `p`. -/
def tally (p : α → Bool) (w : α → Nat) (l : List α) : Nat :=
  ((l.filter p).map w).sum

variable {p : α → Bool} {w : α → Nat}

@[simp] theorem tally_nil : tally p w [] = 0 := rfl

@[simp] theorem tally_cons (a : α) (l : List α) :
    tally p w (a :: l) = (if p a then w a else 0) + tally p w l := by
  unfold tally
  by_cases ha : p a = true
  · rw [List.filter_cons_of_pos ha, if_pos ha, List.map_cons, List.sum_cons]
  · rw [List.filter_cons_of_neg ha, if_neg ha, Nat.zero_add]

@[simp] theorem tally_append (l l' : List α) : tally p w (l ++ l') = tally p w l + tally p w l' := by
  unfold tally
  rw [List.filter_append, List.map_append, List.sum_append]

theorem tally_perm {l l' : List α} (h : l.Perm l') : tally p w l = tally p w l' :=
  ((h.filter p).map w).sum_eq

/-- Changing the elements in what neither `p` nor `w` reads leaves the tally. -/
theorem tally_map_of_forall {g : α → α} (hp : ∀ a, p (g a) = p a) (hw : ∀ a, w (g a) = w a) :
    ∀ l : List α, tally p w (l.map g) = tally p w l
  | [] => rfl
  | a :: l => by
    rw [List.map_cons, tally_cons, tally_cons, hp, hw, tally_map_of_forall hp hw l]

variable [DecidableEq κ]

theorem modify_cons (a : α) (l : List α) (k : κ) (f : α → α) :
    modify key (a :: l) k f = (if key a = k then f a else a) :: modify key l k f := rfl

theorem erase_cons_of_key_eq {a : α} (l : List α) {k : κ} (h : key a = k) : erase key (a :: l) k = l := by
  unfold erase
  rw [List.eraseP_cons_of_pos (by simpa using h)]

theorem erase_cons_of_key_ne {a : α} (l : List α) {k : κ} (h : key a ≠ k) :
    erase key (a :: l) k = a :: erase key l k := by
  unfold erase
  rw [List.eraseP_cons_of_neg (by simpa using h)]

theorem erase_sublist (l : List α) (k : κ) : (erase key l k).Sublist l :=
  List.eraseP_sublist

/-- Updating the elements with a key no element has changes nothing. -/
theorem modify_of_forall_ne {k : κ} {f : α → α} :
    ∀ {l : List α}, (∀ c ∈ l, key c ≠ k) → modify key l k f = l
  | [], _ => rfl
  | c :: l, h => by
    rw [modify_cons, if_neg (h c List.mem_cons_self),
      modify_of_forall_ne fun d hd => h d (List.mem_cons_of_mem c hd)]

/-- Updating in place what `g` does not read of the elements with the key
leaves the list's image under `g`. -/
theorem map_modify {β : Type*} (g : α → β) {k : κ} {f : α → α} {l : List α}
    (hf : ∀ a ∈ l, key a = k → g (f a) = g a) : (modify key l k f).map g = l.map g := by
  unfold modify
  rw [List.map_map]
  refine List.map_congr_left fun a hal => ?_
  by_cases ha : key a = k
  · simp only [Function.comp_apply, if_pos ha, hf a hal ha]
  · simp only [Function.comp_apply, if_neg ha]

theorem mem_modify_of_key_ne {k : κ} {f : α → α} {l : List α} {a : α} (ha : a ∈ l) (hk : key a ≠ k) :
    a ∈ modify key l k f :=
  List.mem_map.mpr ⟨a, ha, if_neg hk⟩

theorem mem_modify_of_key_eq {k : κ} {f : α → α} {l : List α} {a : α} (ha : a ∈ l) (hk : key a = k) :
    f a ∈ modify key l k f :=
  List.mem_map.mpr ⟨a, ha, if_pos hk⟩

theorem modify_append (l l' : List α) (k : κ) (f : α → α) :
    modify key (l ++ l') k f = modify key l k f ++ modify key l' k f :=
  List.map_append

/-- Updating the last element, when no other element has its key. -/
theorem modify_append_singleton {l : List α} {a : α} (h : key a ∉ l.map key) (f : α → α) :
    modify key (l ++ [a]) (key a) f = l ++ [f a] := by
  have hne : ∀ c ∈ l, key c ≠ key a := fun c hc hca => h (hca ▸ List.mem_map_of_mem hc)
  rw [modify_append, modify_of_forall_ne hne, modify_cons, if_pos rfl]
  rfl

theorem mem_erase_of_key_ne {k : κ} {l : List α} {c : α} (hc : c ∈ l) (hk : key c ≠ k) :
    c ∈ erase key l k :=
  (List.mem_eraseP_of_neg (by simpa using hk)).mpr hc

/-- In a list with distinct keys, `erase` leaves no element with the key. -/
theorem key_ne_of_mem_erase {k : κ} :
    ∀ {l : List α} {c : α}, (l.map key).Nodup → c ∈ erase key l k → key c ≠ k
  | a :: l, c, hk, hc => by
    rw [List.map_cons, List.nodup_cons] at hk
    by_cases ha : key a = k
    · rw [erase_cons_of_key_eq l ha] at hc
      intro hck
      exact hk.1 (ha ▸ hck ▸ List.mem_map_of_mem hc)
    · rw [erase_cons_of_key_ne l ha] at hc
      rcases List.mem_cons.mp hc with rfl | hc
      · exact ha
      · exact key_ne_of_mem_erase hk.2 hc

theorem mem_of_find_eq_some {l : List α} {k : κ} {a : α} (h : find key l k = some a) :
    a ∈ l ∧ key a = k :=
  ⟨List.mem_of_find?_eq_some h, by simpa using List.find?_some h⟩

/-- In a list with distinct keys, `find` of an element's key is that element. -/
theorem find_eq_of_mem {l : List α} {a : α} (hk : (l.map key).Nodup) (ha : a ∈ l) :
    find key l (key a) = some a := by
  cases hf : find key l (key a) with
  | none => simpa using List.find?_eq_none.mp hf a ha
  | some b =>
    obtain ⟨hb, hba⟩ := mem_of_find_eq_some hf
    rw [List.inj_on_of_nodup_map hk hb ha hba]

theorem exists_of_mem_modify {k : κ} {f : α → α} {l : List α} {a : α} (h : a ∈ modify key l k f) :
    ∃ b ∈ l, a = b ∨ a = f b := by
  obtain ⟨b, hb, rfl⟩ := List.mem_map.mp h
  by_cases hk : key b = k
  · exact ⟨b, hb, .inr (if_pos hk)⟩
  · exact ⟨b, hb, .inl (if_neg hk)⟩

/-- Updating in place what neither `p` nor `w` reads leaves the tally. -/
theorem tally_modify_of_forall {k : κ} {f : α → α} (hp : ∀ a, p (f a) = p a) (hw : ∀ a, w (f a) = w a)
    (l : List α) : tally p w (modify key l k f) = tally p w l := by
  refine tally_map_of_forall (fun a => ?_) (fun a => ?_) l
  · by_cases ha : key a = k
    · rw [if_pos ha, hp]
    · rw [if_neg ha]
  · by_cases ha : key a = k
    · rw [if_pos ha, hw]
    · rw [if_neg ha]

/-- The element with a key, in a list whose keys are distinct, is the one
`erase` takes out. -/
theorem perm_cons_erase {a : α} :
    ∀ {l : List α}, (l.map key).Nodup → a ∈ l → l.Perm (a :: erase key l (key a))
  | c :: l, hk, ha => by
    rw [List.map_cons, List.nodup_cons] at hk
    by_cases hc : key c = key a
    · -- `c` is `a`: no later element has its key
      have hca : c = a := by
        rcases List.mem_cons.mp ha with rfl | ha'
        · rfl
        · exact absurd (List.mem_map_of_mem ha') (hc ▸ hk.1)
      rw [erase_cons_of_key_eq l hc, hca]
    · have ha' : a ∈ l := by
        rcases List.mem_cons.mp ha with rfl | ha'
        · exact absurd rfl hc
        · exact ha'
      rw [erase_cons_of_key_ne l hc]
      exact ((perm_cons_erase hk.2 ha').cons c).trans (List.Perm.swap a c _)

/-- Updating the element with a key in place, in a list whose keys are
distinct. -/
theorem modify_perm {a : α} (f : α → α) :
    ∀ {l : List α}, (l.map key).Nodup → a ∈ l → (modify key l (key a) f).Perm (f a :: erase key l (key a))
  | c :: l, hk, ha => by
    rw [List.map_cons, List.nodup_cons] at hk
    by_cases hc : key c = key a
    · have hca : c = a := by
        rcases List.mem_cons.mp ha with rfl | ha'
        · rfl
        · exact absurd (List.mem_map_of_mem ha') (hc ▸ hk.1)
      have hrest : ∀ d ∈ l, key d ≠ key a := fun d hd hda => hk.1 (hc ▸ hda ▸ List.mem_map_of_mem hd)
      rw [modify_cons, if_pos hc, modify_of_forall_ne hrest, erase_cons_of_key_eq l hc, hca]
    · have ha' : a ∈ l := by
        rcases List.mem_cons.mp ha with rfl | ha'
        · exact absurd rfl hc
        · exact ha'
      rw [modify_cons, if_neg hc, erase_cons_of_key_ne l hc]
      exact ((modify_perm f hk.2 ha').cons c).trans (List.Perm.swap (f a) c _)

/-- A tally over a list with distinct keys: the element with a key and the
rest. -/
theorem tally_eq_erase {l : List α} {a : α} (hk : (l.map key).Nodup) (ha : a ∈ l) :
    tally p w l = (if p a then w a else 0) + tally p w (erase key l (key a)) := by
  rw [tally_perm (perm_cons_erase hk ha), tally_cons]

/-- Updating the element with a key in place changes a tally by its part. -/
theorem tally_modify {l : List α} {a : α} (hk : (l.map key).Nodup) (ha : a ∈ l) (f : α → α) :
    tally p w (modify key l (key a) f) + (if p a then w a else 0) =
      tally p w l + (if p (f a) then w (f a) else 0) := by
  rw [tally_perm (modify_perm f hk ha), tally_cons, tally_eq_erase hk ha]
  omega

/-! ### Looking an element up after an edit -/

theorem find_append (l l' : List α) (k : κ) : find key (l ++ l') k = (find key l k).or (find key l' k) :=
  List.find?_append

/-- An update in place that keeps keys is seen through `find` as the update. -/
theorem find_modify {k : κ} {f : α → α} {l : List α} (hf : ∀ a ∈ l, key a = k → key (f a) = key a) (k' : κ) :
    find key (modify key l k f) k' = (find key l k').map fun a => if key a = k then f a else a := by
  unfold find modify
  rw [List.find?_map]
  congr 1
  refine List.find?_congr fun a hal => ?_
  by_cases ha : key a = k
  · simp only [Function.comp_apply, if_pos ha, hf a hal ha]
  · simp only [Function.comp_apply, if_neg ha]

/-- `erase` is not seen by a look-up of another key. -/
theorem find_erase_of_ne {k k' : κ} (hk : k' ≠ k) : ∀ (l : List α), find key (erase key l k) k' = find key l k'
  | [] => rfl
  | a :: l => by
    by_cases ha : key a = k
    · rw [erase_cons_of_key_eq l ha]
      have hna : ¬key a = k' := fun h => hk (h.symm.trans ha)
      simp [find, hna]
    · rw [erase_cons_of_key_ne l ha]
      unfold find
      rw [List.find?_cons, List.find?_cons]
      split
      · rfl
      · exact find_erase_of_ne hk l

/-- In a list with distinct keys, nothing is left with the key erased. -/
theorem find_erase_self {k : κ} {l : List α} (hk : (l.map key).Nodup) : find key (erase key l k) k = none := by
  rw [find, List.find?_eq_none]
  intro a ha
  simpa using key_ne_of_mem_erase hk ha

/-- `nextAfter` of the first element with its key: the head of what follows
it. -/
theorem nextAfter_append_cons {pre rest : List α} {a : α} (hpre : ∀ c ∈ pre, key c ≠ key a) :
    nextAfter key (key a) (pre ++ a :: rest) = rest.head? := by
  induction pre with
  | nil => simp [nextAfter]
  | cons c pre ih =>
    rw [List.cons_append, nextAfter, if_neg (hpre c List.mem_cons_self)]
    exact ih fun d hd => hpre d (List.mem_cons_of_mem _ hd)

end Keyed

end ListIter
