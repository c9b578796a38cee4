import Mathlib

/-!
# Binary64 arithmetic on rationals

A finite IEEE 754 double is a rational, and an operation on doubles computes
the exact result and rounds it to the nearest double, ties to even (`round`).
There is no overflow here: the values a model computes with this library are
to stay far below the largest double. `binade x` is the exponent of the power
of two at or below a positive `x`, `quantumExp x` the exponent of the spacing
of the doubles there (53 bits of precision, gradual underflow down to
`2 ^ -1074`), and `roundNearestEven` rounds a rational to an integer. Every
definition computes, so a double expression evaluates by `decide +kernel`.

What the proofs use of rounding is that it never passes a double:
- `two_zpow_binade_le`: `2 ^ binade x ≤ x` for a positive `x`;
- `roundNearestEven_le_of_le`: an integer above `t` stays above its rounding;
- `round_le_of_le`: a multiple of `2 ^ k` above `x`, for `k` at least the
  quantum exponent of `x`, stays above `round x`; so `round_le_natCast`:
  rounding a value below a natural below `2 ^ 53` stays below it;
- `round_nonneg`: rounding keeps the sign.
-/

namespace Binary64

/-- The exponent `e` with `2 ^ e ≤ x < 2 ^ (e + 1)`, for a positive `x`: the
difference of the bit lengths of numerator and denominator, or one less. -/
def binade (x : ℚ) : ℤ :=
  let e : ℤ := (x.num.natAbs.log2 : ℤ) - x.den.log2
  if x < 2 ^ e then e - 1 else e

/-- The exponent of the spacing of doubles around `x`. -/
def quantumExp (x : ℚ) : ℤ := max (binade x - 52) (-1074)

/-- Rounding to the nearest integer, ties to even. -/
def roundNearestEven (t : ℚ) : ℤ :=
  let f := ⌊t⌋
  if t - f < 1 / 2 then f else if 1 / 2 < t - f then f + 1 else if f % 2 = 0 then f else f + 1

/-- Rounding to the nearest double, ties to even. -/
def round (x : ℚ) : ℚ :=
  let q : ℚ := 2 ^ quantumExp |x|
  roundNearestEven (x / q) * q

/-- The double nearest to a natural (`static_cast<double>`). -/
def ofNat (n : ℕ) : ℚ := round n

/-- Double multiplication. -/
def mul (a b : ℚ) : ℚ := round (a * b)

/-- Double division. -/
def div (a b : ℚ) : ℚ := round (a / b)

/-- The conversion of a nonnegative double to an unsigned integer, which
truncates. -/
def toNat (x : ℚ) : ℕ := ⌊x⌋₊

theorem two_zpow_binade_le {x : ℚ} (hx : 0 < x) : (2 : ℚ) ^ binade x ≤ x := by
  unfold binade
  dsimp only
  -- the powers of two at the numerator and the denominator
  have hn : x.num.natAbs ≠ 0 := Int.natAbs_ne_zero.mpr (Rat.num_ne_zero.mpr hx.ne')
  have hnum : ((x.num.natAbs : ℕ) : ℚ) = x.num := by
    rw [Nat.cast_natAbs, abs_of_pos (Rat.num_pos.mpr hx)]
  have hx_eq : (x.num.natAbs : ℚ) / x.den = x := by
    rw [hnum]
    exact Rat.num_div_den x
  have ha : (2 : ℚ) ^ x.num.natAbs.log2 ≤ x.num.natAbs := by exact_mod_cast Nat.log2_self_le hn
  have hb : (x.den : ℚ) < 2 ^ (x.den.log2 + 1) := by exact_mod_cast Nat.lt_log2_self
  have hden : (0 : ℚ) < x.den := by exact_mod_cast x.den_pos
  split_ifs with h
  · calc (2 : ℚ) ^ ((x.num.natAbs.log2 : ℤ) - x.den.log2 - 1)
          = 2 ^ x.num.natAbs.log2 / 2 ^ (x.den.log2 + 1) := by
            rw [sub_sub, ← Nat.cast_one, ← Nat.cast_add, zpow_sub₀ two_ne_zero, zpow_natCast, zpow_natCast]
      _ ≤ x.num.natAbs / 2 ^ (x.den.log2 + 1) := by gcongr
      _ ≤ x.num.natAbs / x.den := by gcongr
      _ = x := hx_eq
  · exact not_lt.mp h

theorem roundNearestEven_le_of_le {t : ℚ} {n : ℤ} (h : t ≤ n) : roundNearestEven t ≤ n := by
  unfold roundNearestEven
  dsimp only
  have hfl : ⌊t⌋ ≤ n := Int.floor_le_floor h |>.trans (Int.floor_intCast n).le
  rcases hfl.lt_or_eq with hlt | heq
  · -- below `n` the rounding is at most one more than the floor
    split_ifs <;> omega
  · -- the floor is `n`, so `t` is `n` and rounds to it
    have ht : t = n := le_antisymm h (heq ▸ Int.floor_le t)
    simp [ht]

theorem roundNearestEven_nonneg {t : ℚ} (h : 0 ≤ t) : 0 ≤ roundNearestEven t := by
  have hfl : 0 ≤ ⌊t⌋ := Int.floor_nonneg.mpr h
  unfold roundNearestEven
  dsimp only
  split_ifs <;> omega

theorem round_nonneg {x : ℚ} (hx : 0 ≤ x) : 0 ≤ round x := by
  unfold round
  dsimp only
  have hq : (0 : ℚ) < 2 ^ quantumExp |x| := zpow_pos two_pos _
  have hr : (0 : ℚ) ≤ roundNearestEven (x / 2 ^ quantumExp |x|) := by
    exact_mod_cast roundNearestEven_nonneg (div_nonneg hx hq.le)
  exact mul_nonneg hr hq.le

/-- Rounding never passes a multiple of `2 ^ k` above `x`, when `2 ^ k` is at
least the spacing of doubles around `x`: such a multiple is a whole number of
spacings. -/
theorem round_le_of_le {x : ℚ} (hx : 0 ≤ x) {M k : ℤ} (hk : quantumExp x ≤ k) (h : x ≤ M * 2 ^ k) :
    round x ≤ M * 2 ^ k := by
  unfold round
  dsimp only
  rw [abs_of_nonneg hx]
  obtain ⟨n, hn⟩ : ∃ n : ℕ, k = quantumExp x + n := ⟨(k - quantumExp x).toNat, by omega⟩
  have hq : (0 : ℚ) < 2 ^ quantumExp x := zpow_pos two_pos _
  -- `M * 2 ^ k` is `M * 2 ^ n` spacings
  have hsplit : (M : ℚ) * 2 ^ k = ((M * 2 ^ n : ℤ) : ℚ) * 2 ^ quantumExp x := by
    rw [hn, zpow_add₀ two_ne_zero, zpow_natCast]
    push_cast
    ring
  rw [hsplit] at h ⊢
  have hdiv : x / 2 ^ quantumExp x ≤ ((M * 2 ^ n : ℤ) : ℚ) := (div_le_iff₀ hq).mpr h
  gcongr
  exact_mod_cast roundNearestEven_le_of_le hdiv

/-- The spacing of doubles below `2 ^ 53` is at most one. -/
theorem quantumExp_nonpos {x : ℚ} (hx : 0 ≤ x) (h : x < 2 ^ 53) : quantumExp x ≤ 0 := by
  unfold quantumExp
  rcases hx.lt_or_eq with hpos | hzero
  · have hb : (2 : ℚ) ^ binade x < 2 ^ (53 : ℤ) := (two_zpow_binade_le hpos).trans_lt (by simpa using h)
    have := (zpow_lt_zpow_iff_right₀ one_lt_two).mp hb
    omega
  · subst hzero
    decide +kernel

/-- Rounding a value at most a natural below `2 ^ 53` stays at most it. -/
theorem round_le_natCast {x : ℚ} (hx : 0 ≤ x) {N : ℕ} (hN : N < 2 ^ 53) (h : x ≤ N) : round x ≤ N := by
  have hk := quantumExp_nonpos hx (h.trans_lt (by exact_mod_cast hN))
  have := round_le_of_le (M := N) hx hk (by simpa using h)
  simpa using this

end Binary64
