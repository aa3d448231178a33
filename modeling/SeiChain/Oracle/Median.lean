import Mathlib
import SeiChain.Oracle.Ballot

namespace SeiChain.Oracle

open Sdk

namespace ExchangeRateBallot

variable {V : Type}

@[simp] theorem power_nil : power ([] : ExchangeRateBallot V) = 0 := rfl

@[simp] theorem power_cons (v : VoteForTally V) (pb : ExchangeRateBallot V) :
    power (v :: pb) = v.power + power pb := by
  simp [power]

@[simp] theorem power_append (pb pb' : ExchangeRateBallot V) : power (pb ++ pb') = power pb + power pb' := by
  simp [power]

theorem power_filter_le {pb : ExchangeRateBallot V} (hnonneg : ∀ v ∈ pb, 0 ≤ v.power)
    (p : VoteForTally V → Bool) : power (pb.filter p) ≤ power pb := by
  unfold power
  apply ((List.filter_sublist).map _).sum_le_sum
  intro a ha
  obtain ⟨v, hv, rfl⟩ := List.mem_map.1 ha
  exact hnonneg v hv

-- The loop stops at the first vote at which the running power reaches `half`, when the power
-- of the rest of the ballot gets it there.
theorem exists_split_medianFrom {half : Int} :
    ∀ {pivot : Int} {pb : ExchangeRateBallot V}, pb ≠ [] → half ≤ pivot + pb.power →
      ∃ front v back, pb = front ++ v :: back ∧ medianFrom half pivot pb = v.exchangeRate ∧
        (front = [] ∨ pivot + power front < half) ∧ half ≤ pivot + power front + v.power := by
  intro pivot pb hne hreach
  induction pb generalizing pivot with
  | nil => exact absurd rfl hne
  | cons v rest ih =>
    by_cases hstop : half ≤ pivot + v.power
    · exact ⟨[], v, rest, rfl, by simp [medianFrom, hstop], .inl rfl, by simpa using hstop⟩
    · -- the vote leaves the running power below `half`, so the rest of the ballot has power
      have hrest : half ≤ pivot + v.power + power rest := by
        rw [power_cons] at hreach
        omega
      have hrest_ne : rest ≠ [] := by
        rintro rfl
        simp at hrest
        omega
      obtain ⟨front, w, back, hsplit, hmedian, hfront, hreach'⟩ := ih hrest_ne hrest
      refine ⟨v :: front, w, back, by rw [hsplit, List.cons_append], ?_, .inr ?_, ?_⟩
      · simp [medianFrom, hstop, hmedian]
      · rcases hfront with rfl | hfront
        · simp only [power_nil, power_cons]
          omega
        · rw [power_cons]
          omega
      · rw [power_cons]
        omega

theorem pairwise_of_isSorted :
    ∀ {pb : ExchangeRateBallot V}, pb.isSorted = true →
      pb.Pairwise fun a b => a.exchangeRate ≤ b.exchangeRate
  | [], _ => List.Pairwise.nil
  | [_], _ => List.pairwise_singleton _ _
  | a :: b :: rest, h => by
    simp only [isSorted, Bool.and_eq_true, decide_eq_true_eq] at h
    obtain ⟨hab, hrest⟩ := h
    have ih := pairwise_of_isSorted hrest
    refine List.Pairwise.cons (fun c hc => ?_) ih
    rcases List.mem_cons.1 hc with rfl | hc
    · exact hab
    · exact Int.le_trans hab (List.rel_of_pairwise_cons ih hc)

theorem weightedMedian_bounds {pb : ExchangeRateBallot V} (hsorted : pb.isSorted = true)
    (hnonneg : ∀ v ∈ pb, 0 ≤ v.power) (hpos : 0 < pb.power) :
    ∃ v ∈ pb, pb.weightedMedian = v.exchangeRate ∧
      2 * power (pb.filter fun w => decide (w.exchangeRate < v.exchangeRate)) ≤ pb.power ∧
      2 * power (pb.filter fun w => decide (v.exchangeRate < w.exchangeRate)) ≤ pb.power + 1 := by
  have hne : pb ≠ [] := by
    rintro rfl
    simp at hpos
  -- `totalPower / 2` truncates, which for a non-negative total is rounding down
  have hhalf : pb.power.tdiv 2 = pb.power / 2 := Int.tdiv_eq_ediv_of_nonneg hpos.le
  obtain ⟨front, v, back, hsplit, hmedian, hfront, hreach⟩ :=
    @exists_split_medianFrom V (pb.power.tdiv 2) 0 pb hne (by omega)
  have hpw := pairwise_of_isSorted hsorted
  rw [hsplit, List.pairwise_append, List.pairwise_cons] at hpw
  obtain ⟨-, ⟨hback, -⟩, hfront_le⟩ := hpw
  have hnonneg' : ∀ w ∈ front ++ v :: back, 0 ≤ w.power := hsplit ▸ hnonneg
  have htotal : pb.power = power front + v.power + power back := by
    rw [hsplit, power_append, power_cons]
    omega
  refine ⟨v, hsplit ▸ List.mem_append_right _ List.mem_cons_self, hmedian, ?_, ?_⟩
  · -- below the rate: only votes before it, which have less than half the power
    have hbelow : pb.filter (fun w => decide (w.exchangeRate < v.exchangeRate)) =
        front.filter fun w => decide (w.exchangeRate < v.exchangeRate) := by
      have hnone : back.filter (fun w => decide (w.exchangeRate < v.exchangeRate)) = [] :=
        List.filter_eq_nil_iff.2 fun w hw => by simpa using hback w hw
      rw [hsplit, List.filter_append, List.filter_cons, if_neg (by simp), hnone, List.append_nil]
    have hle := power_filter_le (fun w hw => hnonneg' w (List.mem_append_left _ hw))
      (fun w => decide (w.exchangeRate < v.exchangeRate))
    rw [hbelow]
    rcases hfront with rfl | hfront
    · simp only [List.filter_nil, power_nil]
      omega
    · omega
  · -- above the rate: only votes after it, which have at most half the power rounded up
    have habove : pb.filter (fun w => decide (v.exchangeRate < w.exchangeRate)) =
        back.filter fun w => decide (v.exchangeRate < w.exchangeRate) := by
      have hnone : front.filter (fun w => decide (v.exchangeRate < w.exchangeRate)) = [] :=
        List.filter_eq_nil_iff.2 fun w hw => by simpa using hfront_le w hw v List.mem_cons_self
      rw [hsplit, List.filter_append, hnone, List.nil_append, List.filter_cons, if_neg (by simp)]
    have hle := power_filter_le (fun w hw => hnonneg' w (List.mem_append_right _ (List.mem_cons_of_mem v hw)))
      (fun w => decide (v.exchangeRate < w.exchangeRate))
    rw [habove]
    omega

def oneTwoBallot : ExchangeRateBallot Nat := [⟨"uatom", Dec.one, 1, 1⟩, ⟨"uatom", Dec.ofInt 2, 2, 2⟩]

theorem one_two_ballot_median_bounds :
    oneTwoBallot.isSorted = true ∧ (∀ v ∈ oneTwoBallot, 0 ≤ v.power) ∧ 0 < oneTwoBallot.power ∧
      ∃ v ∈ oneTwoBallot, oneTwoBallot.weightedMedian = v.exchangeRate ∧
        2 * power (oneTwoBallot.filter fun w => decide (w.exchangeRate < v.exchangeRate)) ≤ oneTwoBallot.power ∧
        2 * power (oneTwoBallot.filter fun w => decide (v.exchangeRate < w.exchangeRate)) ≤
          oneTwoBallot.power + 1 := by
  have hsorted : oneTwoBallot.isSorted = true := by decide
  have hnonneg : ∀ v ∈ oneTwoBallot, 0 ≤ v.power := by decide
  have hpos : 0 < oneTwoBallot.power := by decide
  exact ⟨hsorted, hnonneg, hpos, weightedMedian_bounds hsorted hnonneg hpos⟩

-- An abstain, which sorts first at rate 0 with no power, then one vote of power 1 at rate 1.
def abstainThenVote : ExchangeRateBallot Nat :=
  [⟨"uatom", Dec.zero, 1, 0⟩, ⟨"uatom", Dec.one, 2, 1⟩]

def oddTotalBallot : ExchangeRateBallot Nat :=
  [⟨"uatom", Dec.one, 1, 1⟩, ⟨"uatom", Dec.ofInt 2, 2, 2⟩]

theorem weighted_median_law_fails_on_abstain_and_odd_total :
    abstainThenVote.isSorted = true ∧ abstainThenVote.power = 1 ∧
      abstainThenVote.weightedMedianWithAssertion = some Dec.zero ∧
      (∀ v ∈ abstainThenVote, 0 < v.power → v.exchangeRate ≠ Dec.zero) ∧
      power (abstainThenVote.filter fun w => decide (Dec.zero < w.exchangeRate)) = 1 ∧
    oddTotalBallot.isSorted = true ∧ oddTotalBallot.power = 3 ∧
      oddTotalBallot.weightedMedianWithAssertion = some Dec.one ∧
      power (oddTotalBallot.filter fun w => decide (Dec.one < w.exchangeRate)) = 2 := by
  decide

end ExchangeRateBallot

end SeiChain.Oracle
