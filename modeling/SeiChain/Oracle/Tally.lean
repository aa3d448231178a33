import Mathlib
import SeiChain.Oracle.Ballot

namespace SeiChain.Oracle

open Sdk

-- `types.Claim` of a validator in the period's tally.
structure Claim where
  power : Int
  weight : Int
  winCount : Nat
  didVote : Bool
  deriving DecidableEq

-- `validatorClaimMap`, keyed by operator address and kept as its entries: reading an absent
-- key gives the zero claim, and writing one adds an entry.
abbrev ClaimMap (V : Type) := List (V × Claim)

-- The three counters `MidBlocker` moves.
structure VotePenaltyCounter where
  missCount : Nat
  abstainCount : Nat
  successCount : Nat
  deriving DecidableEq

-- The oracle parameters `MidBlocker` reads.
structure Params where
  votePeriod : Nat
  voteThreshold : Dec
  rewardBand : Dec

-- A validator of the staking power store, in power order.
structure Validator (V : Type) where
  operator : V
  consensusPower : Int
  bonded : Bool

-- `AggregateExchangeRateVote`: the voter and its (denom, rate) tuples.
structure AggregateVote (V : Type) where
  voter : V
  exchangeRateTuples : List (String × Dec)
  deriving DecidableEq

variable {V : Type} [DecidableEq V]

namespace ClaimMap

def zeroClaim : Claim := ⟨0, 0, 0, false⟩

def get (m : ClaimMap V) (k : V) : Claim := (m.lookup k).getD zeroClaim

def set (m : ClaimMap V) (k : V) (c : Claim) : ClaimMap V :=
  if m.any (·.1 == k) then m.map fun p => if p.1 = k then (k, c) else p else m ++ [(k, c)]

def keys (m : ClaimMap V) : List V := m.map Prod.fst

end ClaimMap

-- The validators the claim map starts from. The loop over the power store stops at
-- `maxValidators` on an index it never advances, so it takes the whole store when
-- `maxValidators` is positive; the bonded ones get a claim.
def addValidatorClaim (m : ClaimMap V) (v : Validator V) : ClaimMap V :=
  if v.bonded then m.set v.operator ⟨v.consensusPower, 0, 0, false⟩ else m

def validatorClaimMap (maxValidators : Nat) (validators : List (Validator V)) : ClaimMap V :=
  (if 0 < maxValidators then validators else []).foldl addValidatorClaim []

-- `ParseExchangeRateTuples`, on tuples whose amounts are already decimals: `sdk.ParseDecCoin`
-- rejects a negative amount, and a denom may come once.
def parseExchangeRateTuples (tuples : List (String × Dec)) : Except String (List (String × Dec)) :=
  tuples.foldlM
    (fun parsed tuple =>
      if tuple.2.i < 0 then .error "invalid decimal coin expression: invalid coins"
      else if tuple.1 ∈ parsed.map Prod.fst then .error ("duplicated denom " ++ tuple.1 ++ ": invalid coins")
      else .ok (parsed ++ [tuple]))
    []

-- `AggregateExchangeRateVote`: the vote it stores, once every denom is a vote target.
def aggregateExchangeRateVote (voteTargets : List String) (voter : V) (tuples : List (String × Dec)) :
    Except String (AggregateVote V) := do
  let tuples ← parseExchangeRateTuples tuples
  match tuples.find? (·.1 ∉ voteTargets) with
  | some tuple => .error (tuple.1 ++ ": unknown denom")
  | none => pure ⟨voter, tuples⟩

def appendVote (votes : List (String × ExchangeRateBallot V)) (denom : String)
    (vote : VoteForTally V) : List (String × ExchangeRateBallot V) :=
  if votes.any (·.1 == denom) then votes.map fun p => if p.1 = denom then (denom, p.2 ++ [vote]) else p
  else votes ++ [(denom, [vote])]

-- The votes of one aggregate vote, when its voter has a claim; an abstain (a rate that is not
-- positive) gets no power.
def organizeAggregate (claims : ClaimMap V) (votes : List (String × ExchangeRateBallot V))
    (aggregate : AggregateVote V) : List (String × ExchangeRateBallot V) :=
  match claims.lookup aggregate.voter with
  | none => votes
  | some claim =>
    aggregate.exchangeRateTuples.foldl
      (fun votes tuple =>
        appendVote votes tuple.1
          ⟨tuple.1, tuple.2, aggregate.voter, if tuple.2.isPositive then claim.power else 0⟩)
      votes

def organizeBallotByDenom (claims : ClaimMap V) (aggregates : List (AggregateVote V)) :
    List (String × ExchangeRateBallot V) :=
  (aggregates.foldl (organizeAggregate claims) []).map fun p => (p.1, ExchangeRateBallot.sortBallot p.2)

def tallyVote (median rewardSpread : Dec) (claims : ClaimMap V) (vote : VoteForTally V) :
    Option (ClaimMap V) := do
  let claim := claims.get vote.voter
  let low ← median.sub rewardSpread
  -- `&&` evaluates the upper bound only when the lower one holds
  let won ← if low ≤ vote.exchangeRate then do
      let high ← median.add rewardSpread
      pure (decide (vote.exchangeRate ≤ high))
    else pure false
  let claim := if won then { claim with weight := claim.weight + vote.power, winCount := claim.winCount + 1 }
    else claim
  pure (claims.set vote.voter { claim with didVote := true })

-- The spread is half the reward band around the median, widened to the standard deviation.
def tally (floatSqrt : Dec → Dec) (pb : ExchangeRateBallot V) (rewardBand : Dec)
    (claims : ClaimMap V) : Option (Dec × ClaimMap V) := do
  let weightedMedian ← pb.weightedMedianWithAssertion
  let standardDeviation := pb.standardDeviation floatSqrt weightedMedian
  let halfBand ← rewardBand.quoInt64 2
  let spread ← weightedMedian.mul halfBand
  let rewardSpread := if spread < standardDeviation then standardDeviation else spread
  let claims ← pb.foldlM (tallyVote weightedMedian rewardSpread) claims
  pure (weightedMedian, claims)

def ballotIsPassing (ballot : ExchangeRateBallot V) (thresholdVotes : Int) : Int × Bool :=
  (ballot.power, ballot.power != 0 && decide (thresholdVotes ≤ ballot.power))

-- The loop's state: the reference denom and its power, the ballots below the threshold, and
-- the ballots left in the vote map.
structure Pick (V : Type) where
  referenceDenom : String
  largestBallotPower : Int
  belowThreshold : List (String × ExchangeRateBallot V)
  passing : List (String × ExchangeRateBallot V)
  deriving DecidableEq

def pickStep (targets : List String) (thresholdVotes : Int) (st : Pick V)
    (entry : String × ExchangeRateBallot V) : Pick V :=
  if entry.1 ∉ targets then st
  else
    let (ballotPower, ok) := ballotIsPassing entry.2 thresholdVotes
    if !ok then { st with belowThreshold := st.belowThreshold ++ [entry] }
    else
      let st := { st with passing := st.passing ++ [entry] }
      if st.largestBallotPower < ballotPower ∨ st.largestBallotPower = 0 then
        { st with referenceDenom := entry.1, largestBallotPower := ballotPower }
      else if st.largestBallotPower = ballotPower ∧ entry.1 < st.referenceDenom then
        { st with referenceDenom := entry.1 }
      else st

def pickReferenceDenom (targets : List String) (voteMap : List (String × ExchangeRateBallot V))
    (thresholdVotes : Int) : Pick V :=
  voteMap.foldl (pickStep targets thresholdVotes) ⟨"", 0, [], []⟩

-- The vote targets `pickReferenceDenom` leaves: it deletes the denom of every ballot of a
-- target that is below the threshold.
def pickVoteTargets (targets : List String) (voteMap : List (String × ExchangeRateBallot V))
    (thresholdVotes : Int) : List String :=
  voteMap.foldl
    (fun targets entry =>
      if entry.1 ∈ targets ∧ !(ballotIsPassing entry.2 thresholdVotes).2 then targets.erase entry.1
      else targets)
    targets

def sortStrings (keys : List String) : List String := keys.insertionSort fun a b => decide (a ≤ b)

theorem sortStrings_perm (keys : List String) : (sortStrings keys).Perm keys :=
  List.perm_insertionSort _ keys

theorem pairwise_sortStrings {keys : List String} (h : keys.Nodup) :
    (sortStrings keys).Pairwise (· < ·) := by
  have htotal : Std.Total fun a b : String => decide (a ≤ b) = true :=
    ⟨fun a b => by simpa using le_total a b⟩
  have htrans : IsTrans String fun a b => decide (a ≤ b) = true :=
    ⟨fun a b c hab hbc => by simpa using le_trans (of_decide_eq_true hab) (of_decide_eq_true hbc)⟩
  have hle := List.pairwise_insertionSort (fun a b : String => decide (a ≤ b) = true) keys
  have hne := (sortStrings_perm keys).nodup_iff.2 h
  exact (hle.and hne).imp fun ⟨hab, hne⟩ => lt_of_le_of_ne (of_decide_eq_true hab) hne

-- One passing denom: its ballot, in cross rates unless it is the reference denom, is tallied,
-- and a nonzero result is set as the denom's rate.
def tallyPassing (floatSqrt : Dec → Dec) (rewardBand : Dec) (referenceDenom : String)
    (passing : List (String × ExchangeRateBallot V)) (voteMapRD : V → Option Dec)
    (exchangeRateRD : Dec) (acc : List (String × Dec) × ClaimMap V) (denom : String) :
    Option (List (String × Dec) × ClaimMap V) := do
  let ballot := (passing.lookup denom).getD []
  let ballot := if denom ≠ referenceDenom then ballot.toCrossRateWithSort voteMapRD else ballot
  let (exchangeRate, claims) ← tally floatSqrt ballot rewardBand acc.2
  if exchangeRate.isZero then pure (acc.1, claims)
  else
    let exchangeRate ← if denom ≠ referenceDenom then exchangeRateRD.quo exchangeRate
      else pure exchangeRate
    pure (acc.1 ++ [(denom, exchangeRate)], claims)

def tallyBelow (floatSqrt : Dec → Dec) (rewardBand : Dec)
    (belowThreshold : List (String × ExchangeRateBallot V)) (claims : ClaimMap V)
    (denom : String) : Option (ClaimMap V) := do
  let (_, claims) ← tally floatSqrt ((belowThreshold.lookup denom).getD []) rewardBand claims
  pure claims

def countVote (totalTargets : Nat) (claim : Claim) (c : VotePenaltyCounter) : VotePenaltyCounter :=
  if claim.winCount = totalTargets then { c with successCount := c.successCount + 1 }
  else if !claim.didVote then { c with abstainCount := c.abstainCount + 1 }
  else { c with missCount := c.missCount + 1 }

def countVotes (totalTargets : Nat) (claims : ClaimMap V) (counters : V → VotePenaltyCounter) :
    V → VotePenaltyCounter :=
  claims.foldl (fun cs entry => Function.update cs entry.1 (countVote totalTargets entry.2 (cs entry.1)))
    counters

-- The inputs `MidBlocker` reads from the stores of the staking and oracle modules.
structure MidBlockerInput (V : Type) where
  params : Params
  blockHeight : Nat
  maxValidators : Nat
  validators : List (Validator V)
  voteTargets : List String
  aggregateVotes : List (AggregateVote V)
  totalBondedPower : Int
  counters : V → VotePenaltyCounter

-- The passing ballots, once a reference denom is picked: the rates set, in the order they
-- are set, and the claims after their tallies.
def tallyPassingBallots (floatSqrt : Dec → Dec) (rewardBand : Dec) (pick : Pick V)
    (claims : ClaimMap V) : Option (List (String × Dec) × ClaimMap V) :=
  if pick.referenceDenom = "" then pure ([], claims)
  else do
    let ballotRD := (pick.passing.lookup pick.referenceDenom).getD []
    let exchangeRateRD ← ballotRD.weightedMedianWithAssertion
    (sortStrings (pick.passing.map Prod.fst)).foldlM
      (tallyPassing floatSqrt rewardBand pick.referenceDenom pick.passing ballotRD.toMap exchangeRateRD)
      ([], claims)

-- The ballots below the threshold are tallied for their wins only.
def tallyBelowThresholdBallots (floatSqrt : Dec → Dec) (rewardBand : Dec) (pick : Pick V)
    (claims : ClaimMap V) : Option (ClaimMap V) :=
  (sortStrings (pick.belowThreshold.map Prod.fst)).foldlM
    (tallyBelow floatSqrt rewardBand pick.belowThreshold) claims

-- What the tally of a period leaves: the exchange rates set and the penalty counters.
-- `none` is a panic.
def midBlocker (floatSqrt : Dec → Dec) (input : MidBlockerInput V) :
    Option (List (String × Dec) × (V → VotePenaltyCounter)) :=
  if (input.blockHeight + 1) % input.params.votePeriod ≠ 0 then some ([], input.counters)
  else do
    let claims := validatorClaimMap input.maxValidators input.validators
    let totalTargets := input.voteTargets.length
    let voteMap := organizeBallotByDenom claims input.aggregateVotes
    let thresholdVotes := (← input.params.voteThreshold.mulInt64 input.totalBondedPower).roundInt
    let pick := pickReferenceDenom input.voteTargets voteMap thresholdVotes
    let passing ← tallyPassingBallots floatSqrt input.params.rewardBand pick claims
    let claims ← tallyBelowThresholdBallots floatSqrt input.params.rewardBand pick passing.2
    pure (passing.1, countVotes totalTargets claims input.counters)

end SeiChain.Oracle
