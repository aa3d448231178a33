import SeiChain.Oracle.Tally
import SeiChain.Lib.Fold

namespace SeiChain.Oracle

open Sdk

variable {V : Type} [DecidableEq V]

def IncrementedOnce (c c' : VotePenaltyCounter) : Prop :=
  c' = { c with successCount := c.successCount + 1 } ∨
    c' = { c with abstainCount := c.abstainCount + 1 } ∨
    c' = { c with missCount := c.missCount + 1 }

theorem countVote_incrementedOnce (totalTargets : Nat) (claim : Claim) (c : VotePenaltyCounter) :
    IncrementedOnce c (countVote totalTargets claim c) := by
  unfold countVote IncrementedOnce
  split_ifs
  · exact .inl rfl
  · exact .inr (.inl rfl)
  · exact .inr (.inr rfl)

namespace ClaimMap

theorem keys_set (m : ClaimMap V) (k : V) (c : Claim) :
    (m.set k c).keys = if k ∈ m.keys then m.keys else m.keys ++ [k] := by
  have hany : (m.any fun p => p.1 == k) = true ↔ k ∈ m.keys := by
    simp [keys, List.any_eq_true]
  unfold set
  by_cases hk : k ∈ m.keys
  · -- the entry of `k` is replaced in place, under the same key
    rw [if_pos (hany.2 hk), if_pos hk, keys, keys, List.map_map]
    apply List.map_congr_left
    intro p _
    by_cases hp : p.1 = k <;> simp [hp]
  · have hnot : ¬ (m.any fun p => p.1 == k) = true := fun h => hk (hany.1 h)
    rw [if_neg hnot, if_neg hk]
    simp [keys]

theorem mem_keys_set {m : ClaimMap V} {k k' : V} {c : Claim} :
    k' ∈ (m.set k c).keys ↔ k' = k ∨ k' ∈ m.keys := by
  rw [keys_set]
  split_ifs with hk
  · constructor
    · exact Or.inr
    · rintro (rfl | h)
      · exact hk
      · exact h
  · simp [or_comm]

theorem nodup_keys_set {m : ClaimMap V} (h : m.keys.Nodup) (k : V) (c : Claim) :
    (m.set k c).keys.Nodup := by
  rw [keys_set]
  split_ifs with hk
  · exact h
  · exact h.append (List.nodup_singleton k) (by simpa using hk)

-- A claim map after a tally step: no key lost, and still one entry per key.
structure Grows (m m' : ClaimMap V) : Prop where
  subset : m.keys ⊆ m'.keys
  nodup : m.keys.Nodup → m'.keys.Nodup

omit [DecidableEq V] in
theorem Grows.refl (m : ClaimMap V) : Grows m m := ⟨fun _ h => h, id⟩

omit [DecidableEq V] in
theorem Grows.trans {m₁ m₂ m₃ : ClaimMap V} (h₁ : Grows m₁ m₂) (h₂ : Grows m₂ m₃) :
    Grows m₁ m₃ :=
  ⟨fun _ h => h₂.subset (h₁.subset h), fun h => h₂.nodup (h₁.nodup h)⟩

theorem grows_set (m : ClaimMap V) (k : V) (c : Claim) : Grows m (m.set k c) :=
  ⟨fun _ h => mem_keys_set.2 (.inr h), fun h => nodup_keys_set h k c⟩

omit [DecidableEq V] in
theorem grows_foldl {α : Type} {f : ClaimMap V → α → ClaimMap V} (hf : ∀ x a, Grows x (f x a))
    (l : List α) (m : ClaimMap V) : Grows m (l.foldl f m) := by
  induction l generalizing m with
  | nil => exact Grows.refl m
  | cons a l ih => exact (hf m a).trans (ih (f m a))

omit [DecidableEq V] in
theorem grows_foldlM {α : Type} {f : ClaimMap V → α → Option (ClaimMap V)} {l : List α}
    {m m' : ClaimMap V} (hf : ∀ x a y, f x a = some y → Grows x y) (h : l.foldlM f m = some m') :
    Grows m m' :=
  List.foldlM_option_induction (Grows m) (Grows.refl m)
    (fun x a y _ hx hy => hx.trans (hf x a y hy)) h

end ClaimMap

theorem tallyVote_eq_set {median rewardSpread : Dec} {claims claims' : ClaimMap V}
    {vote : VoteForTally V} (h : tallyVote median rewardSpread claims vote = some claims') :
    ∃ c, claims' = claims.set vote.voter c := by
  simp only [tallyVote, Option.bind_eq_bind] at h
  obtain ⟨low, -, h⟩ := Option.bind_eq_some_iff.1 h
  split at h
  · obtain ⟨high, -, h⟩ := Option.bind_eq_some_iff.1 h
    exact ⟨_, (Option.some.inj h).symm⟩
  · exact ⟨_, (Option.some.inj h).symm⟩

theorem tallyVote_grows {median rewardSpread : Dec} {claims claims' : ClaimMap V}
    {vote : VoteForTally V} (h : tallyVote median rewardSpread claims vote = some claims') :
    ClaimMap.Grows claims claims' := by
  obtain ⟨c, rfl⟩ := tallyVote_eq_set h
  exact ClaimMap.grows_set claims vote.voter c

theorem tally_grows {floatSqrt : Dec → Dec} {pb : ExchangeRateBallot V} {rewardBand median : Dec}
    {claims claims' : ClaimMap V} (h : tally floatSqrt pb rewardBand claims = some (median, claims')) :
    ClaimMap.Grows claims claims' := by
  simp only [tally, Option.bind_eq_bind] at h
  obtain ⟨_, -, h⟩ := Option.bind_eq_some_iff.1 h
  obtain ⟨_, -, h⟩ := Option.bind_eq_some_iff.1 h
  obtain ⟨_, -, h⟩ := Option.bind_eq_some_iff.1 h
  obtain ⟨claims'', hfold, h⟩ := Option.bind_eq_some_iff.1 h
  cases h
  exact ClaimMap.grows_foldlM (fun _ _ _ => tallyVote_grows) hfold

theorem tallyPassing_grows {floatSqrt : Dec → Dec} {rewardBand exchangeRateRD : Dec}
    {referenceDenom denom : String} {passing : List (String × ExchangeRateBallot V)}
    {voteMapRD : V → Option Dec} {acc acc' : List (String × Dec) × ClaimMap V}
    (h : tallyPassing floatSqrt rewardBand referenceDenom passing voteMapRD exchangeRateRD acc denom =
      some acc') :
    ClaimMap.Grows acc.2 acc'.2 := by
  simp only [tallyPassing, Option.bind_eq_bind] at h
  obtain ⟨⟨rate, claims⟩, htally, h⟩ := Option.bind_eq_some_iff.1 h
  have hgrows := tally_grows htally
  -- the claims of the tally are returned whether or not its rate is set
  split at h
  · cases h
    exact hgrows
  · split at h
    · obtain ⟨_, -, h⟩ := Option.bind_eq_some_iff.1 h
      cases h
      exact hgrows
    · cases h
      exact hgrows

theorem tallyBelow_grows {floatSqrt : Dec → Dec} {rewardBand : Dec}
    {belowThreshold : List (String × ExchangeRateBallot V)} {claims claims' : ClaimMap V}
    {denom : String} (h : tallyBelow floatSqrt rewardBand belowThreshold claims denom = some claims') :
    ClaimMap.Grows claims claims' := by
  simp only [tallyBelow, Option.bind_eq_bind] at h
  obtain ⟨⟨_, claims''⟩, htally, h⟩ := Option.bind_eq_some_iff.1 h
  cases h
  exact tally_grows htally

theorem grows_addValidatorClaim (m : ClaimMap V) (v : Validator V) :
    ClaimMap.Grows m (addValidatorClaim m v) := by
  unfold addValidatorClaim
  split
  · exact ClaimMap.grows_set m _ _
  · exact ClaimMap.Grows.refl m

theorem nodup_keys_validatorClaimMap (maxValidators : Nat) (validators : List (Validator V)) :
    (validatorClaimMap maxValidators validators).keys.Nodup :=
  (ClaimMap.grows_foldl grows_addValidatorClaim _ []).nodup List.nodup_nil

theorem mem_keys_validatorClaimMap {maxValidators : Nat} (hmax : 0 < maxValidators)
    {validators : List (Validator V)} {v : Validator V} (hv : v ∈ validators) (hb : v.bonded) :
    v.operator ∈ (validatorClaimMap maxValidators validators).keys := by
  unfold validatorClaimMap
  rw [if_pos hmax]
  generalize ([] : ClaimMap V) = m
  induction validators generalizing m with
  | nil => exact absurd hv List.not_mem_nil
  | cons w ws ih =>
    rw [List.foldl_cons]
    rcases List.mem_cons.1 hv with rfl | hv
    · -- the validator's own step adds its key, and the rest of the loop keeps it
      have hmem : v.operator ∈ (addValidatorClaim m v).keys := by
        simp only [addValidatorClaim, hb, if_true]
        exact ClaimMap.mem_keys_set.2 (.inl rfl)
      exact (ClaimMap.grows_foldl grows_addValidatorClaim ws _).subset hmem
    · exact ih hv _

theorem countVotes_apply_of_mem {claims : ClaimMap V} (hnd : claims.keys.Nodup) {k : V} {c : Claim}
    (hk : (k, c) ∈ claims) (totalTargets : Nat) (counters : V → VotePenaltyCounter) :
    countVotes totalTargets claims counters k = countVote totalTargets c (counters k) :=
  List.foldl_update_apply_of_nodup Prod.fst (fun entry => countVote totalTargets entry.2) hnd hk
    counters

theorem countVotes_incrementedOnce {claims : ClaimMap V} (hnd : claims.keys.Nodup) {k : V}
    (hk : k ∈ claims.keys) (totalTargets : Nat) (counters : V → VotePenaltyCounter) :
    IncrementedOnce (counters k) (countVotes totalTargets claims counters k) := by
  obtain ⟨⟨k, c⟩, hmem, rfl⟩ := List.mem_map.1 hk
  rw [countVotes_apply_of_mem hnd hmem]
  exact countVote_incrementedOnce totalTargets c (counters k)

theorem tallyPassingBallots_grows {floatSqrt : Dec → Dec} {rewardBand : Dec} {pick : Pick V}
    {claims claims' : ClaimMap V} {rates : List (String × Dec)}
    (h : tallyPassingBallots floatSqrt rewardBand pick claims = some (rates, claims')) :
    ClaimMap.Grows claims claims' := by
  unfold tallyPassingBallots at h
  split at h
  · cases h
    exact ClaimMap.Grows.refl claims
  · obtain ⟨_, -, hfold⟩ := Option.bind_eq_some_iff.1 h
    -- the loop carries the rates it sets beside the claims
    exact List.foldlM_option_induction (fun acc => ClaimMap.Grows claims acc.2)
      (ClaimMap.Grows.refl claims) (fun _ _ _ _ hx hy => hx.trans (tallyPassing_grows hy)) hfold

theorem tallyBelowThresholdBallots_grows {floatSqrt : Dec → Dec} {rewardBand : Dec} {pick : Pick V}
    {claims claims' : ClaimMap V}
    (h : tallyBelowThresholdBallots floatSqrt rewardBand pick claims = some claims') :
    ClaimMap.Grows claims claims' :=
  ClaimMap.grows_foldlM (fun _ _ _ => tallyBelow_grows) h

theorem midBlocker_eq_countVotes {floatSqrt : Dec → Dec} {input : MidBlockerInput V}
    {rates : List (String × Dec)} {counters' : V → VotePenaltyCounter}
    (hlast : (input.blockHeight + 1) % input.params.votePeriod = 0)
    (h : midBlocker floatSqrt input = some (rates, counters')) :
    ∃ claims, ClaimMap.Grows (validatorClaimMap input.maxValidators input.validators) claims ∧
      counters' = countVotes input.voteTargets.length claims input.counters := by
  rw [midBlocker, if_neg (by simp [hlast])] at h
  obtain ⟨_, -, h⟩ := Option.bind_eq_some_iff.1 h
  obtain ⟨⟨rates', claims₁⟩, hpassing, h⟩ := Option.bind_eq_some_iff.1 h
  obtain ⟨claims₂, hbelow, h⟩ := Option.bind_eq_some_iff.1 h
  cases h
  exact ⟨claims₂,
    (tallyPassingBallots_grows hpassing).trans (tallyBelowThresholdBallots_grows hbelow), rfl⟩

-- Every bonded validator gets exactly one of its counters raised by one.
theorem midBlocker_increments_once {floatSqrt : Dec → Dec} {input : MidBlockerInput V}
    {rates : List (String × Dec)} {counters' : V → VotePenaltyCounter}
    (h : midBlocker floatSqrt input = some (rates, counters'))
    (hlast : (input.blockHeight + 1) % input.params.votePeriod = 0) (hmax : 0 < input.maxValidators)
    {v : Validator V} (hv : v ∈ input.validators) (hb : v.bonded) :
    IncrementedOnce (input.counters v.operator) (counters' v.operator) := by
  obtain ⟨claims, hgrows, rfl⟩ := midBlocker_eq_countVotes hlast h
  exact countVotes_incrementedOnce (hgrows.nodup (nodup_keys_validatorClaimMap _ _))
    (hgrows.subset (mem_keys_validatorClaimMap hmax hv hb)) _ _

-- An abstain counted as a success: the ballot's power is the second validator's alone, so its
-- weighted median is the abstainer's zero, which lies within the band around it.
def abstainPeriod : MidBlockerInput Nat where
  params := ⟨2, Dec.withPrec 667 3, Dec.withPrec 2 2⟩
  blockHeight := 1
  maxValidators := 100
  validators := [⟨1, 1, true⟩, ⟨2, 1, true⟩]
  voteTargets := ["uatom"]
  aggregateVotes := [⟨1, [("uatom", Dec.zero)]⟩, ⟨2, [("uatom", Dec.one)]⟩]
  totalBondedPower := 2
  counters := fun _ => ⟨0, 0, 0⟩

theorem abstain_period_raises_one_counter :
    ∃ rates counters', midBlocker (fun _ => (⟨707107000000000000⟩ : Dec)) abstainPeriod = some (rates, counters') ∧
      IncrementedOnce (abstainPeriod.counters 1) (counters' 1) := by
  obtain ⟨r, hr⟩ : ∃ r, midBlocker (fun _ => (⟨707107000000000000⟩ : Dec)) abstainPeriod = some r :=
    Option.isSome_iff_exists.1 (by decide)
  have hlast : (abstainPeriod.blockHeight + 1) % abstainPeriod.params.votePeriod = 0 := by decide
  have hmax : 0 < abstainPeriod.maxValidators := by decide
  exact ⟨r.1, r.2, hr, midBlocker_increments_once hr hlast hmax (v := ⟨1, 1, true⟩) List.mem_cons_self rfl⟩

-- `floatSqrt` is needed at the variance 0.5 only, where `math.Sqrt` printed with `%f` gives
-- 0.707107.
theorem abstainer_counted_as_success (floatSqrt : Dec → Dec)
    (hsqrt : floatSqrt ⟨500000000000000000⟩ = ⟨707107000000000000⟩) :
    (∀ a ∈ abstainPeriod.aggregateVotes,
      (aggregateExchangeRateVote abstainPeriod.voteTargets a.voter a.exchangeRateTuples).toOption =
        some a) ∧
    (midBlocker floatSqrt abstainPeriod).map (fun r => (r.2 1, r.2 2)) =
      some (⟨0, 0, 1⟩, ⟨1, 0, 0⟩) := by
  refine ⟨by decide, ?_⟩
  let ballot : ExchangeRateBallot Nat := [⟨"uatom", Dec.zero, 1, 0⟩, ⟨"uatom", Dec.one, 2, 1⟩]
  -- everything before the tally is closed arithmetic
  have hthreshold : abstainPeriod.params.voteThreshold.mulInt64 abstainPeriod.totalBondedPower =
      some ⟨1334000000000000000⟩ := by decide
  have hpick : pickReferenceDenom abstainPeriod.voteTargets
      (organizeBallotByDenom (validatorClaimMap abstainPeriod.maxValidators abstainPeriod.validators)
        abstainPeriod.aggregateVotes) (Dec.roundInt ⟨1334000000000000000⟩) =
      ⟨"uatom", 1, [], [("uatom", ballot)]⟩ := by decide
  -- the tally reads `floatSqrt` once, at the ballot's variance
  have hdeviation : ballot.standardDeviation floatSqrt Dec.zero = ⟨707107000000000000⟩ := by
    have hvariance : ballot.variance Dec.zero = some ⟨500000000000000000⟩ := by decide
    simp only [ExchangeRateBallot.standardDeviation, hvariance]
    exact hsqrt
  have htally : tally floatSqrt ballot abstainPeriod.params.rewardBand
      (validatorClaimMap abstainPeriod.maxValidators abstainPeriod.validators) =
      some (Dec.zero, [(1, ⟨1, 0, 1, true⟩), (2, ⟨1, 0, 0, true⟩)]) := by
    have hmedian : ballot.weightedMedianWithAssertion = some Dec.zero := by decide
    simp only [tally, hmedian, hdeviation, Option.bind_eq_bind, Option.bind_some]
    decide
  have hpassing : tallyPassingBallots floatSqrt abstainPeriod.params.rewardBand
      ⟨"uatom", 1, [], [("uatom", ballot)]⟩
      (validatorClaimMap abstainPeriod.maxValidators abstainPeriod.validators) =
      some ([], [(1, ⟨1, 0, 1, true⟩), (2, ⟨1, 0, 0, true⟩)]) := by
    have hmedian : ballot.weightedMedianWithAssertion = some Dec.zero := by decide
    have hballot : (([("uatom", ballot)] : List (String × ExchangeRateBallot Nat)).lookup "uatom").getD [] =
        ballot := by decide
    have hkeys : sortStrings ["uatom"] = ["uatom"] := by decide
    have hnamed : ("uatom" = "") = False := eq_false (by decide)
    simp only [tallyPassingBallots, hnamed, if_false, hballot, hmedian, List.map_cons, List.map_nil,
      hkeys, List.foldlM_cons, List.foldlM_nil, tallyPassing, ne_eq, not_true_eq_false, htally,
      Option.bind_eq_bind, Option.bind_some]
    decide
  have hlast : (abstainPeriod.blockHeight + 1) % abstainPeriod.params.votePeriod = 0 := by decide
  have hbelow : sortStrings [] = [] := rfl
  simp only [midBlocker, hlast, ne_eq, not_true_eq_false, if_false, hthreshold, hpick, hpassing,
    tallyBelowThresholdBallots, List.map_nil, hbelow, List.foldlM_nil, Option.bind_eq_bind,
    Option.bind_some]
  decide

theorem abstainer_counted_as_success_exact_sqrt :
    (fun _ => (⟨707107000000000000⟩ : Dec)) (⟨500000000000000000⟩ : Dec) = ⟨707107000000000000⟩ ∧
      (∀ a ∈ abstainPeriod.aggregateVotes,
        (aggregateExchangeRateVote abstainPeriod.voteTargets a.voter a.exchangeRateTuples).toOption =
          some a) ∧
      (midBlocker (fun _ => ⟨707107000000000000⟩) abstainPeriod).map (fun r => (r.2 1, r.2 2)) =
        some (⟨0, 0, 1⟩, ⟨1, 0, 0⟩) :=
  ⟨rfl, abstainer_counted_as_success _ rfl⟩

end SeiChain.Oracle
