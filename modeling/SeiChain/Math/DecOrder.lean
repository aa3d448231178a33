import Mathlib
import SeiChain.Math.Dec

namespace Sdk

namespace Dec

theorem fits_iff (n : Int) : fits n = true ↔ n.natAbs < 2 ^ maxDecBitLen := by
  unfold fits
  rw [beq_iff_eq, Nat.shiftRight_eq_div_pow, Nat.div_eq_zero_iff]
  simp

theorem fits_of_abs_lt {n : Int} (hlo : -2 ^ 315 < n) (hhi : n < 2 ^ 315) : fits n = true := by
  rw [fits_iff, maxDecBitLen]
  omega

theorem checked_of_fits {n : Int} (h : fits n = true) : checked n = some ⟨n⟩ := by
  simp [checked, h]

@[simp] theorem ofInt_i (n : Int) : (ofInt n).i = n * precisionReuse := rfl

theorem add_i {a b x : Dec} (h : add a b = some x) : x.i = a.i + b.i := checked_eq_some h

theorem sub_i {a b x : Dec} (h : sub a b = some x) : x.i = a.i - b.i := checked_eq_some h

theorem chopNat_mono {n m : Nat} (h : n ≤ m) : chopNat n ≤ chopNat m := by
  have hq : n / 1000000000000000000 ≤ m / 1000000000000000000 := Nat.div_le_div_right h
  unfold chopNat
  dsimp only
  split_ifs <;> omega

theorem chopPrecisionAndRound_mono {d e : Int} (h : d ≤ e) :
    chopPrecisionAndRound d ≤ chopPrecisionAndRound e := by
  unfold chopPrecisionAndRound
  split_ifs with hd he he
  · have hmono := chopNat_mono (show e.natAbs ≤ d.natAbs by omega)
    omega
  · omega
  · omega
  · exact Int.ofNat_le.2 (chopNat_mono (by omega))

theorem chopPrecisionAndRound_mul_scale (n : Int) :
    chopPrecisionAndRound (n * precisionReuse) = n := by
  have habs : (n * precisionReuse).natAbs = n.natAbs * 1000000000000000000 := by
    rw [Int.natAbs_mul]
    rfl
  unfold chopPrecisionAndRound
  rw [habs, chopNat_mul_scale]
  split_ifs with hneg
  · have : n < 0 := by
      by_contra hn
      have : 0 ≤ n * precisionReuse := Int.mul_nonneg (by omega) (by decide)
      omega
    omega
  · have : 0 ≤ n := by
      by_contra hn
      have : n * precisionReuse < 0 := Int.mul_neg_of_neg_of_pos (by omega) (by decide)
      omega
    omega

theorem chopPrecisionAndRound_nonneg {d : Int} (h : 0 ≤ d) : 0 ≤ chopPrecisionAndRound d := by
  have := chopPrecisionAndRound_mono h
  simpa [chopPrecisionAndRound, chopNat] using this

theorem chopPrecisionAndRound_le_of_le {d n : Int} (h : d ≤ n * precisionReuse) :
    chopPrecisionAndRound d ≤ n := by
  have := chopPrecisionAndRound_mono h
  rwa [chopPrecisionAndRound_mul_scale] at this

theorem le_chopPrecisionAndRound_of_le {d n : Int} (h : n * precisionReuse ≤ d) :
    n ≤ chopPrecisionAndRound d := by
  have := chopPrecisionAndRound_mono h
  rwa [chopPrecisionAndRound_mul_scale] at this

theorem mul_le_mul_left {a b c x y : Dec} (hab : a.i ≤ b.i) (hc : 0 ≤ c.i)
    (hx : mul c a = some x) (hy : mul c b = some y) : x.i ≤ y.i := by
  rw [checked_eq_some hx, checked_eq_some hy]
  exact chopPrecisionAndRound_mono (Int.mul_le_mul_of_nonneg_left hab hc)

theorem quo_le_quo {a b c x y : Dec} (ha : 0 ≤ a.i) (hab : a.i ≤ b.i) (hc : 0 < c.i)
    (hx : quo a c = some x) (hy : quo b c = some y) : x.i ≤ y.i := by
  unfold quo at hx hy
  rw [if_neg (by omega)] at hx hy
  rw [checked_eq_some hx, checked_eq_some hy]
  apply chopPrecisionAndRound_mono
  have hscale : (0 : Int) ≤ precisionReuse * precisionReuse := by decide
  rw [Int.tdiv_eq_ediv_of_nonneg (by rw [Int.mul_assoc]; exact Int.mul_nonneg ha hscale),
    Int.tdiv_eq_ediv_of_nonneg (by rw [Int.mul_assoc]; exact Int.mul_nonneg (by omega) hscale)]
  apply Int.ediv_le_ediv hc
  rw [Int.mul_assoc, Int.mul_assoc]
  exact Int.mul_le_mul_of_nonneg_right hab hscale

theorem mul_nonneg {a b x : Dec} (ha : 0 ≤ a.i) (hb : 0 ≤ b.i) (hx : mul a b = some x) :
    0 ≤ x.i := by
  rw [checked_eq_some hx]
  exact chopPrecisionAndRound_nonneg (Int.mul_nonneg ha hb)

theorem quo_nonneg {a b x : Dec} (ha : 0 ≤ a.i) (hb : 0 < b.i) (hx : quo a b = some x) :
    0 ≤ x.i := by
  have hzero : quo ⟨0⟩ b = some ⟨0⟩ := by
    simp [quo, Int.ne_of_gt hb, checked, chopPrecisionAndRound, chopNat, fits]
  exact quo_le_quo (Int.le_refl 0) ha hb hzero hx

theorem mul_le_of_le_one {a b x : Dec} (ha : 0 ≤ a.i) (hb : b.i ≤ precisionReuse)
    (hx : mul a b = some x) : x.i ≤ a.i := by
  rw [checked_eq_some hx]
  apply chopPrecisionAndRound_le_of_le
  exact Int.mul_le_mul_of_nonneg_left hb ha

theorem le_mul_of_one_le {a b x : Dec} (ha : 0 ≤ a.i) (hb : precisionReuse ≤ b.i)
    (hx : mul a b = some x) : a.i ≤ x.i := by
  rw [checked_eq_some hx]
  apply le_chopPrecisionAndRound_of_le
  exact Int.mul_le_mul_of_nonneg_left hb ha

theorem sub_eq_some {a b : Dec} (hlo : -2 ^ 315 < a.i - b.i) (hhi : a.i - b.i < 2 ^ 315) :
    sub a b = some ⟨a.i - b.i⟩ :=
  checked_of_fits (fits_of_abs_lt hlo hhi)

theorem add_eq_some {a b : Dec} (hlo : -2 ^ 315 < a.i + b.i) (hhi : a.i + b.i < 2 ^ 315) :
    add a b = some ⟨a.i + b.i⟩ :=
  checked_of_fits (fits_of_abs_lt hlo hhi)

theorem mul_exists_le {a b : Dec} {c : Int} (ha : 0 ≤ a.i) (hb0 : 0 ≤ b.i)
    (hb : b.i ≤ c * precisionReuse) (hfit : c * a.i < 2 ^ 315) :
    ∃ x, mul a b = some x ∧ 0 ≤ x.i ∧ x.i ≤ c * a.i := by
  have hprod : a.i * b.i ≤ c * a.i * precisionReuse := by
    calc a.i * b.i ≤ a.i * (c * precisionReuse) := Int.mul_le_mul_of_nonneg_left hb ha
      _ = c * a.i * precisionReuse := by rw [← Int.mul_assoc, Int.mul_comm a.i c]
  have hlo := chopPrecisionAndRound_nonneg (Int.mul_nonneg ha hb0)
  have hhi := chopPrecisionAndRound_le_of_le hprod
  exact ⟨_, checked_of_fits (fits_of_abs_lt (by omega) (by omega)), hlo, hhi⟩

theorem quo_exists_le_one {a b : Dec} (ha : 0 ≤ a.i) (hab : a.i ≤ b.i) (hb : 0 < b.i) :
    ∃ x, quo a b = some x ∧ 0 ≤ x.i ∧ x.i ≤ precisionReuse := by
  have hscale : (0 : Int) ≤ precisionReuse * precisionReuse := by decide
  have hnum : 0 ≤ a.i * precisionReuse * precisionReuse := by
    rw [Int.mul_assoc]
    exact Int.mul_nonneg ha hscale
  have hq : (a.i * precisionReuse * precisionReuse).tdiv b.i ≤ precisionReuse * precisionReuse := by
    rw [Int.tdiv_eq_ediv_of_nonneg hnum]
    calc a.i * precisionReuse * precisionReuse / b.i
        ≤ b.i * (precisionReuse * precisionReuse) / b.i := by
          apply Int.ediv_le_ediv hb
          rw [Int.mul_assoc]
          exact Int.mul_le_mul_of_nonneg_right hab hscale
      _ = precisionReuse * precisionReuse := Int.mul_ediv_cancel_left _ (Int.ne_of_gt hb)
  have hq0 : 0 ≤ (a.i * precisionReuse * precisionReuse).tdiv b.i := by
    rw [Int.tdiv_eq_ediv_of_nonneg hnum]
    exact Int.ediv_nonneg hnum (Int.le_of_lt hb)
  have hlo := chopPrecisionAndRound_nonneg hq0
  have hhi := chopPrecisionAndRound_le_of_le hq
  have hone : precisionReuse < 2 ^ 315 := by
    unfold precisionReuse
    omega
  refine ⟨_, ?_, hlo, hhi⟩
  rw [quo, if_neg (Int.ne_of_gt hb)]
  exact checked_of_fits (fits_of_abs_lt (by omega) (by omega))

end Dec

end Sdk
