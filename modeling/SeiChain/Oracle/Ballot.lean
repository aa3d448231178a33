import Mathlib
import SeiChain.Math.Dec

namespace SeiChain.Oracle

open Sdk

-- `VoteForTally`; the voter is the validator's operator address.
structure VoteForTally (V : Type) where
  denom : String
  exchangeRate : Dec
  voter : V
  power : Int
  deriving DecidableEq

abbrev ExchangeRateBallot (V : Type) := List (VoteForTally V)

namespace ExchangeRateBallot

variable {V : Type} [DecidableEq V]

-- `ToMap`: the positive rates by voter.
def toMap (pb : ExchangeRateBallot V) : V → Option Dec :=
  pb.foldl
    (fun m vote => if vote.exchangeRate.isPositive then Function.update m vote.voter (some vote.exchangeRate)
      else m)
    fun _ => none

def abstain (vote : VoteForTally V) : VoteForTally V :=
  { vote with exchangeRate := Dec.zero, power := 0 }

-- One vote of `ToCrossRate`: the voter's reference rate over its rate; an overflow of the
-- division is recovered into an abstain, and so is a voter with no positive reference rate.
def crossVote (bases : V → Option Dec) (vote : VoteForTally V) : VoteForTally V :=
  match bases vote.voter with
  | some exchangeRateRT =>
    if vote.exchangeRate.isPositive then
      match exchangeRateRT.quo vote.exchangeRate with
      | some rate => { vote with exchangeRate := rate }
      | none => abstain vote
    else abstain vote
  | none => abstain vote

def toCrossRate (pb : ExchangeRateBallot V) (bases : V → Option Dec) : ExchangeRateBallot V :=
  pb.map (crossVote bases)

-- `sort.Sort` by rate. On ballots of up to twelve votes Go sorts by insertion, which keeps
-- equal rates in order; no result below depends on the order of equal rates.
def sortBallot (pb : ExchangeRateBallot V) : ExchangeRateBallot V :=
  pb.insertionSort fun a b => decide (a.exchangeRate ≤ b.exchangeRate)

def toCrossRateWithSort (pb : ExchangeRateBallot V) (bases : V → Option Dec) :
    ExchangeRateBallot V :=
  sortBallot (pb.toCrossRate bases)

def isSorted : ExchangeRateBallot V → Bool
  | a :: b :: rest => decide (a.exchangeRate ≤ b.exchangeRate) && isSorted (b :: rest)
  | _ => true

def power (pb : ExchangeRateBallot V) : Int := (pb.map VoteForTally.power).sum

-- The loop of `WeightedMedian`: the rate of the first vote at which the running power reaches
-- `half`; the zero rate when there is none.
def medianFrom (half : Int) : Int → ExchangeRateBallot V → Dec
  | _, [] => Dec.zero
  | pivot, v :: rest =>
    if half ≤ pivot + v.power then v.exchangeRate else medianFrom half (pivot + v.power) rest

-- `totalPower / 2` is Go's truncating division.
def weightedMedian (pb : ExchangeRateBallot V) : Dec := medianFrom (pb.power.tdiv 2) 0 pb

-- `WeightedMedianWithAssertion` panics on an unsorted ballot.
def weightedMedianWithAssertion (pb : ExchangeRateBallot V) : Option Dec :=
  if pb.isSorted then some pb.weightedMedian else none

-- The sum of squared deviations and its quotient by the ballot's length; an overflow panics.
def variance (pb : ExchangeRateBallot V) (median : Dec) : Option Dec := do
  let sum ← pb.foldlM
    (fun sum v => do
      let deviation ← v.exchangeRate.sub median
      let square ← deviation.mul deviation
      sum.add square)
    Dec.zero
  sum.quoInt64 pb.length

-- `StandardDeviation`: `floatSqrt` is the round trip through `strconv.ParseFloat`,
-- `math.Sqrt`, `fmt.Sprintf("%f")` and `NewDecFromStr`. A panic is recovered into zero.
def standardDeviation (floatSqrt : Dec → Dec) (pb : ExchangeRateBallot V) (median : Dec) : Dec :=
  if pb.isEmpty then Dec.zero
  else match pb.variance median with
    | some v => floatSqrt v
    | none => Dec.zero

end ExchangeRateBallot

end SeiChain.Oracle
