import Mathlib
import SeiChain.Oracle.Slash
import SeiChain.Oracle.Pruning
import SeiChain.Store.Sorted

namespace SeiChain.Oracle

open Sdk

-- `types.Params`: those `MidBlocker` and `EndBlocker` read, the whitelist and the lookback of the
-- price snapshots.
structure OracleParams extends Params, SlashParams where
  whitelist : List String
  lookbackDuration : Nat

def defaultParams : OracleParams where
  votePeriod := 2
  voteThreshold := Dec.withPrec 667 3
  rewardBand := Dec.withPrec 2 2
  toSlashParams := defaultSlashParams
  whitelist := ["uatom", "ueth"]
  lookbackDuration := 3600

def validatePositive (name : String) (v : Nat) : Except String Unit :=
  if v = 0 then throw (name ++ " must be positive: " ++ toString v) else pure ()

def validateVotePeriod : Nat → Except String Unit := validatePositive "vote period"

def validateSlashWindow : Nat → Except String Unit := validatePositive "slash window"

-- The validators of the decimals in [0, 1], which differ in their messages only.
def validateUnitInterval (negative tooLarge : String) (v : Dec) : Except String Unit :=
  if v.isNegative then throw (negative ++ ": " ++ v.toString)
  else if Dec.one < v then throw (tooLarge ++ ": " ++ v.toString)
  else pure ()

def validateVoteThreshold : Dec → Except String Unit :=
  validateUnitInterval "vote threshold must be bigger than 0%" "vote threshold too large"

def validateRewardBand : Dec → Except String Unit :=
  validateUnitInterval "reward band must be positive" "reward band is too large"

def validateSlashFraction : Dec → Except String Unit :=
  validateUnitInterval "slash fraction must be positive" "slash fraction is too large"

def validateMinValidPerWindow : Dec → Except String Unit :=
  validateUnitInterval "min valid per window must be positive" "min valid per window is too large"

def validateWhitelist (whitelist : List String) : Except String Unit :=
  if whitelist.any (· == "") then throw "oracle parameter Whitelist Denom must have name" else pure ()

-- `validateLookbackDuration` checks the type alone.
def validateLookbackDuration (_ : Nat) : Except String Unit := pure ()

-- The validators in the order of `ParamSetPairs`; `SetParamSet` panics on the first error.
def setParamSet (params : OracleParams) : Except String Unit := do
  validateVotePeriod params.votePeriod
  validateVoteThreshold params.voteThreshold
  validateRewardBand params.rewardBand
  validateWhitelist params.whitelist
  validateSlashFraction params.slashFraction
  validateSlashWindow params.slashWindow
  validateMinValidPerWindow params.minValidPerWindow
  validateLookbackDuration params.lookbackDuration

def checkBetweenZeroAndOne (name : String) (v : Dec) : Except String Unit :=
  if Dec.one < v ∨ v.isNegative then throw ("oracle parameter " ++ name ++ " must be between [0, 1]")
  else pure ()

def OracleParams.validate (p : OracleParams) : Except String Unit := do
  (if p.votePeriod = 0 then throw ("oracle parameter VotePeriod must be > 0, is " ++ toString p.votePeriod)
    else pure ())
  (if p.voteThreshold ≤ Dec.withPrec 33 2 then
    throw "oracle parameter VoteThreshold must be greater than 33 percent" else pure ())
  checkBetweenZeroAndOne "RewardBand" p.rewardBand
  checkBetweenZeroAndOne "SlashFraction" p.slashFraction
  (if p.slashWindow < p.votePeriod then
    throw "oracle parameter SlashWindow must be greater than or equal with VotePeriod" else pure ())
  (if p.slashWindow % p.votePeriod ≠ 0 then
    throw "oracle parameter SlashWindow must be divisible by VotePeriod" else pure ())
  checkBetweenZeroAndOne "MinValidPerWindow" p.minValidPerWindow
  validateWhitelist p.whitelist

structure FeederDelegation (A : Type) where
  feederAddress : A
  validatorAddress : A

structure PenaltyCounter (A : Type) where
  validatorAddress : A
  votePenaltyCounter : VotePenaltyCounter

structure GenesisState (A : Type) where
  params : OracleParams
  exchangeRates : List (String × Dec)
  feederDelegations : List (FeederDelegation A)
  penaltyCounters : List (PenaltyCounter A)
  aggregateExchangeRateVotes : List (AggregateVote A)
  priceSnapshots : List PriceSnapshot

def validateGenesis {A : Type} (data : GenesisState A) : Except String Unit := data.params.validate

-- `OracleExchangeRate`: a rate with the height and the time, in milliseconds, it was set at.
structure OracleExchangeRate where
  exchangeRate : Dec
  lastUpdate : Int
  lastUpdateTimestamp : Int

-- The stores `InitGenesis` writes and `ExportGenesis` reads, each in key order.
structure GenesisStore (A : Type) where
  params : OracleParams
  exchangeRates : List (String × OracleExchangeRate)
  feederDelegations : List (A × A)
  votePenaltyCounters : List (A × VotePenaltyCounter)
  aggregateVotes : List (A × AggregateVote A)
  priceSnapshots : SnapshotStore

def GenesisStore.empty {A : Type} : GenesisStore A := ⟨defaultParams, [], [], [], [], SnapshotStore.empty⟩

variable {A : Type} [LinearOrder A]

namespace GenesisStore

def setFeederDelegation (s : GenesisStore A) (operator delegatedFeeder : A) : GenesisStore A :=
  { s with feederDelegations := KVStore.set operator delegatedFeeder s.feederDelegations }

-- `SetBaseExchangeRate`, at a block of the given height and time in nanoseconds.
def setBaseExchangeRate (blockHeight blockTime : Int) (s : GenesisStore A) (denom : String)
    (exchangeRate : Dec) : GenesisStore A :=
  { s with
    exchangeRates := KVStore.set denom ⟨exchangeRate, blockHeight, blockTime / 1000000⟩ s.exchangeRates }

def setVotePenaltyCounter (s : GenesisStore A) (operator : A) (missCount abstainCount successCount : Nat) :
    GenesisStore A :=
  { s with
    votePenaltyCounters := KVStore.set operator ⟨missCount, abstainCount, successCount⟩ s.votePenaltyCounters }

def setAggregateExchangeRateVote (s : GenesisStore A) (voter : A) (vote : AggregateVote A) : GenesisStore A :=
  { s with aggregateVotes := KVStore.set voter vote s.aggregateVotes }

-- `AddPriceSnapshot` with the lookback of the stored parameters, at the block's time in seconds.
def addPriceSnapshot (blockTime : Int) (s : GenesisStore A) (snapshot : PriceSnapshot) :
    Option (GenesisStore A) :=
  (SeiChain.Oracle.addPriceSnapshot s.params.lookbackDuration (blockTime / 1000000000) s.priceSnapshots
    snapshot).map fun store => { s with priceSnapshots := store }

end GenesisStore

def loadGenesisEntries (blockHeight blockTime : Int) (s : GenesisStore A) (data : GenesisState A) :
    GenesisStore A :=
  let s := data.feederDelegations.foldl (fun s d => s.setFeederDelegation d.validatorAddress d.feederAddress) s
  let s := data.exchangeRates.foldl (fun s ex => s.setBaseExchangeRate blockHeight blockTime ex.1 ex.2) s
  let s := data.penaltyCounters.foldl (fun s pc => s.setVotePenaltyCounter pc.validatorAddress
    pc.votePenaltyCounter.missCount pc.votePenaltyCounter.abstainCount pc.votePenaltyCounter.successCount) s
  data.aggregateExchangeRateVotes.foldl (fun s av => s.setAggregateExchangeRateVote av.voter av) s

-- `InitGenesis`; `none` is a panic. The module account always exists, since `GetModuleAccount`
-- creates it.
def initGenesis (blockHeight blockTime : Int) (s : GenesisStore A) (data : GenesisState A) :
    Option (GenesisStore A) :=
  match setParamSet data.params with
  | .error _ => none
  | .ok () =>
    data.priceSnapshots.foldlM (fun s snapshot => s.addPriceSnapshot blockTime snapshot)
      (loadGenesisEntries blockHeight blockTime { s with params := data.params } data)

-- The entries of a genesis file with their addresses as `InitGenesis` decodes them, validators'
-- with `ValAddressFromBech32` and feeders' with `AccAddressFromBech32`; a malformed one panics.
-- A stored vote keeps its voter as the decoded address.
def FeederDelegation.decode {B : Type} (valAddressFromBech32 accAddressFromBech32 : B → Option A)
    (d : FeederDelegation B) : Option (FeederDelegation A) := do
  let voter ← valAddressFromBech32 d.validatorAddress
  let feeder ← accAddressFromBech32 d.feederAddress
  pure ⟨feeder, voter⟩

def PenaltyCounter.decode {B : Type} (valAddressFromBech32 : B → Option A) (pc : PenaltyCounter B) :
    Option (PenaltyCounter A) := do
  let operator ← valAddressFromBech32 pc.validatorAddress
  pure ⟨operator, pc.votePenaltyCounter⟩

def AggregateVote.decode {B : Type} (valAddressFromBech32 : B → Option A) (av : AggregateVote B) :
    Option (AggregateVote A) := do
  let valAddr ← valAddressFromBech32 av.voter
  pure ⟨valAddr, av.exchangeRateTuples⟩

def decodeGenesis {B : Type} (valAddressFromBech32 accAddressFromBech32 : B → Option A)
    (data : GenesisState B) : Option (GenesisState A) := do
  let feederDelegations ← data.feederDelegations.mapM (·.decode valAddressFromBech32 accAddressFromBech32)
  let penaltyCounters ← data.penaltyCounters.mapM (·.decode valAddressFromBech32)
  let aggregateExchangeRateVotes ← data.aggregateExchangeRateVotes.mapM (·.decode valAddressFromBech32)
  pure ⟨data.params, data.exchangeRates, feederDelegations, penaltyCounters, aggregateExchangeRateVotes,
    data.priceSnapshots⟩

-- `InitGenesis` over a genesis file. The source decodes each address just before the write that
-- needs it; a panic anywhere aborts the whole genesis, so decoding them all first has the same
-- outcome.
def initGenesisBech32 {B : Type} (valAddressFromBech32 accAddressFromBech32 : B → Option A)
    (blockHeight blockTime : Int) (s : GenesisStore A) (data : GenesisState B) : Option (GenesisStore A) :=
  (decodeGenesis valAddressFromBech32 accAddressFromBech32 data).bind (initGenesis blockHeight blockTime s)

def exportGenesis (s : GenesisStore A) : GenesisState A where
  params := s.params
  exchangeRates := s.exchangeRates.map fun e => (e.1, e.2.exchangeRate)
  feederDelegations := s.feederDelegations.map fun e => ⟨e.2, e.1⟩
  penaltyCounters := s.votePenaltyCounters.map fun e => ⟨e.1, e.2⟩
  aggregateExchangeRateVotes := s.aggregateVotes.map Prod.snd
  priceSnapshots := s.priceSnapshots.snapshots

section Validators

-- Each spec is stated for any `u : Unit`, so that it also rewrites under the binder of a `do` step.
theorem validatePositive_eq_ok (name : String) (v : Nat) {u : Unit} :
    validatePositive name v = .ok u ↔ v ≠ 0 := by
  cases u
  unfold validatePositive
  split_ifs with h <;> simp_all [pure, Except.pure]

theorem validateUnitInterval_eq_ok (negative tooLarge : String) (v : Dec) {u : Unit} :
    validateUnitInterval negative tooLarge v = .ok u ↔ 0 ≤ v.i ∧ v.i ≤ Dec.one.i := by
  cases u
  unfold validateUnitInterval
  split_ifs with hneg hone
  · simp only [Dec.isNegative_iff] at hneg
    simp only [false_iff, not_and]
    omega
  · simp only [Dec.lt_iff] at hone
    simp only [false_iff, not_and]
    omega
  · simp only [Dec.isNegative_iff, Dec.lt_iff] at hneg hone
    simp only [pure, Except.pure, true_iff]
    omega

theorem validateWhitelist_eq_ok (whitelist : List String) {u : Unit} :
    validateWhitelist whitelist = .ok u ↔ ∀ name ∈ whitelist, name ≠ "" := by
  cases u
  unfold validateWhitelist
  split_ifs with h <;> simp_all [pure, Except.pure]
  exact fun name hname heq => h (heq ▸ hname)

theorem checkBetweenZeroAndOne_eq_ok (name : String) (v : Dec) {u : Unit} :
    checkBetweenZeroAndOne name v = .ok u ↔ 0 ≤ v.i ∧ v.i ≤ Dec.one.i := by
  cases u
  unfold checkBetweenZeroAndOne
  split_ifs with h
  · simp only [Dec.lt_iff, Dec.isNegative_iff] at h
    simp only [false_iff, not_and]
    omega
  · simp only [Dec.lt_iff, Dec.isNegative_iff, not_or] at h
    simp only [pure, Except.pure, true_iff]
    omega

theorem setParamSet_eq_ok (p : OracleParams) :
    setParamSet p = .ok () ↔
      p.votePeriod ≠ 0 ∧ (0 ≤ p.voteThreshold.i ∧ p.voteThreshold.i ≤ Dec.one.i) ∧
        (0 ≤ p.rewardBand.i ∧ p.rewardBand.i ≤ Dec.one.i) ∧ (∀ name ∈ p.whitelist, name ≠ "") ∧
        (0 ≤ p.slashFraction.i ∧ p.slashFraction.i ≤ Dec.one.i) ∧ p.slashWindow ≠ 0 ∧
        (0 ≤ p.minValidPerWindow.i ∧ p.minValidPerWindow.i ≤ Dec.one.i) := by
  simp only [setParamSet, Except.bind_eq_ok, validateVotePeriod, validateSlashWindow,
    validateVoteThreshold, validateRewardBand, validateSlashFraction, validateMinValidPerWindow,
    validatePositive_eq_ok, validateUnitInterval_eq_ok, validateWhitelist_eq_ok, validateLookbackDuration]
  simp [pure, Except.pure]

theorem OracleParams.validate_eq_ok (p : OracleParams) :
    p.validate = .ok () ↔
      p.votePeriod ≠ 0 ∧ (Dec.withPrec 33 2).i < p.voteThreshold.i ∧
        (0 ≤ p.rewardBand.i ∧ p.rewardBand.i ≤ Dec.one.i) ∧
        (0 ≤ p.slashFraction.i ∧ p.slashFraction.i ≤ Dec.one.i) ∧ p.votePeriod ≤ p.slashWindow ∧
        p.slashWindow % p.votePeriod = 0 ∧ (0 ≤ p.minValidPerWindow.i ∧ p.minValidPerWindow.i ≤ Dec.one.i) ∧
        ∀ name ∈ p.whitelist, name ≠ "" := by
  have hguard : ∀ {c : Prop} [Decidable c] {e : String},
      (if c then (throw e : Except String Unit) else pure ()) = .ok () ↔ ¬c := by
    intro c _ e
    split_ifs with hc <;> simp [hc, pure, Except.pure]
  simp only [OracleParams.validate, Except.bind_eq_ok, hguard, checkBetweenZeroAndOne_eq_ok,
    validateWhitelist_eq_ok, Dec.le_iff]
  simp only [exists_const, not_le, not_lt, ne_eq, Decidable.not_not]

theorem setParamSet_eq_ok_of_validate {p : OracleParams} (h : p.validate = .ok ()) :
    setParamSet p = .ok () ↔ p.voteThreshold.i ≤ Dec.one.i := by
  obtain ⟨hperiod, hthreshold, hband, hfraction, hwindow, -, hmin, hnames⟩ :=
    (OracleParams.validate_eq_ok p).1 h
  have hlow : 0 ≤ p.voteThreshold.i := le_trans (by decide) hthreshold.le
  rw [setParamSet_eq_ok]
  constructor
  · exact fun hset => hset.2.1.2
  · intro hle
    exact ⟨hperiod, ⟨hlow, hle⟩, hband, hnames, hfraction, by omega, hmin⟩

theorem defaultParams_setParamSet : setParamSet defaultParams = .ok () := rfl

theorem defaultParams_validate : defaultParams.validate = .ok () := rfl

end Validators

section Load

variable (blockHeight blockTime : Int)

theorem foldl_setFeederDelegation (l : List (FeederDelegation A)) (t : GenesisStore A) :
    l.foldl (fun s d => s.setFeederDelegation d.validatorAddress d.feederAddress) t =
      { t with
        feederDelegations := (l.map fun d => (d.validatorAddress, d.feederAddress)).foldl
          (fun l e => KVStore.set e.1 e.2 l) t.feederDelegations } := by
  induction l generalizing t with
  | nil => rfl
  | cons d rest ih => exact ih _

omit [LinearOrder A] in
theorem foldl_setBaseExchangeRate (l : List (String × Dec)) (t : GenesisStore A) :
    l.foldl (fun s ex => s.setBaseExchangeRate blockHeight blockTime ex.1 ex.2) t =
      { t with
        exchangeRates := (l.map fun ex => (ex.1, (⟨ex.2, blockHeight, blockTime / 1000000⟩ :
          OracleExchangeRate))).foldl (fun l e => KVStore.set e.1 e.2 l) t.exchangeRates } := by
  induction l generalizing t with
  | nil => rfl
  | cons ex rest ih => exact ih _

theorem foldl_setVotePenaltyCounter (l : List (PenaltyCounter A)) (t : GenesisStore A) :
    l.foldl (fun s pc => s.setVotePenaltyCounter pc.validatorAddress pc.votePenaltyCounter.missCount
        pc.votePenaltyCounter.abstainCount pc.votePenaltyCounter.successCount) t =
      { t with
        votePenaltyCounters := (l.map fun pc => (pc.validatorAddress, pc.votePenaltyCounter)).foldl
          (fun l e => KVStore.set e.1 e.2 l) t.votePenaltyCounters } := by
  induction l generalizing t with
  | nil => rfl
  | cons pc rest ih => exact ih _

theorem foldl_setAggregateExchangeRateVote (l : List (AggregateVote A)) (t : GenesisStore A) :
    l.foldl (fun s av => s.setAggregateExchangeRateVote av.voter av) t =
      { t with
        aggregateVotes := (l.map fun av => (av.voter, av)).foldl
          (fun l e => KVStore.set e.1 e.2 l) t.aggregateVotes } := by
  induction l generalizing t with
  | nil => rfl
  | cons av rest ih => exact ih _

theorem loadGenesisEntries_eq (s : GenesisStore A) (data : GenesisState A) :
    loadGenesisEntries blockHeight blockTime s data =
      { s with
        exchangeRates := (data.exchangeRates.map fun ex => (ex.1, (⟨ex.2, blockHeight, blockTime / 1000000⟩ :
          OracleExchangeRate))).foldl (fun l e => KVStore.set e.1 e.2 l) s.exchangeRates
        feederDelegations := (data.feederDelegations.map fun d => (d.validatorAddress, d.feederAddress)).foldl
          (fun l e => KVStore.set e.1 e.2 l) s.feederDelegations
        votePenaltyCounters := (data.penaltyCounters.map fun pc => (pc.validatorAddress, pc.votePenaltyCounter)).foldl
          (fun l e => KVStore.set e.1 e.2 l) s.votePenaltyCounters
        aggregateVotes := (data.aggregateExchangeRateVotes.map fun av => (av.voter, av)).foldl
          (fun l e => KVStore.set e.1 e.2 l) s.aggregateVotes } := by
  dsimp only [loadGenesisEntries]
  rw [foldl_setFeederDelegation, foldl_setBaseExchangeRate, foldl_setVotePenaltyCounter,
    foldl_setAggregateExchangeRateVote]

end Load

section Snapshots

-- A scan from no snapshot out of range stops by the second snapshot when that one is in the
-- window, so it evicts nothing.
theorem evictionScan_eq_nil {L T : Int} {l : List PriceSnapshot}
    (h : ∀ x ∈ l.tail, T ≤ wrapInt64 (x.snapshotTimestamp + L)) : evictionScan L T (-1) l = [] := by
  match l, h with
  | [], _ => rfl
  | [x], _ =>
    rw [evictionScan]
    split_ifs <;> first | rfl | omega
  | x :: y :: rest, h =>
    have hscan : evictionScan L T x.snapshotTimestamp (y :: rest) = [] := by
      rw [evictionScan, if_pos (h y List.mem_cons_self)]
    rw [evictionScan]
    split_ifs <;> simp_all

namespace GenesisStore

variable {blockTime : Int} {s s' : GenesisStore A} {snapshot : PriceSnapshot}

omit [LinearOrder A] in
theorem addPriceSnapshot_eq_none_iff :
    s.addPriceSnapshot blockTime snapshot = none ↔ 2 ^ 63 - 1 < s.params.lookbackDuration := by
  unfold addPriceSnapshot SeiChain.Oracle.addPriceSnapshot
  split_ifs with h
  · simp only [Option.map_none, true_iff]
    exact h
  · simp only [Option.map_some, reduceCtorEq, false_iff]
    exact h

omit [LinearOrder A] in
theorem addPriceSnapshot_eq_some (h : s.addPriceSnapshot blockTime snapshot = some s') :
    ∃ store, s' = { s with priceSnapshots := store } := by
  unfold addPriceSnapshot at h
  obtain ⟨store, -, rfl⟩ := Option.map_eq_some_iff.1 h
  exact ⟨store, rfl⟩

omit [LinearOrder A] in
theorem addPriceSnapshot_of_newest (hlookback : s.params.lookbackDuration ≤ 2 ^ 63 - 1)
    (hnewest : ∀ x ∈ s.priceSnapshots.snapshots,
      snapshotKey x.snapshotTimestamp < snapshotKey snapshot.snapshotTimestamp)
    (hwindow : ∀ x ∈ (s.priceSnapshots.snapshots ++ [snapshot]).tail,
      blockTime / 1000000000 ≤ wrapInt64 (x.snapshotTimestamp + s.params.lookbackDuration)) :
    ∃ store, s.addPriceSnapshot blockTime snapshot = some { s with priceSnapshots := store } ∧
      store.snapshots = s.priceSnapshots.snapshots ++ [snapshot] := by
  have hinsert : (setPriceSnapshot s.priceSnapshots snapshot).snapshots =
      s.priceSnapshots.snapshots ++ [snapshot] := by
    show insertSnapshot snapshot s.priceSnapshots.snapshots = _
    rw [insertSnapshot_eq_append s.priceSnapshots.keySorted fun x hx => (hnewest x hx).le]
    rw [List.filter_eq_self.2 fun x hx => by simpa using (hnewest x hx).ne]
  have hscan : evictionScan s.params.lookbackDuration (blockTime / 1000000000) (-1)
      (setPriceSnapshot s.priceSnapshots snapshot).snapshots = [] := by
    rw [hinsert]
    exact evictionScan_eq_nil hwindow
  refine ⟨setPriceSnapshot s.priceSnapshots snapshot, ?_, hinsert⟩
  unfold addPriceSnapshot SeiChain.Oracle.addPriceSnapshot
  rw [if_neg (by omega)]
  simp only [hscan, List.foldl_nil, Option.map_some]

end GenesisStore

omit [LinearOrder A] in
theorem foldlM_addPriceSnapshot_eq_none_iff (blockTime : Int) (l : List PriceSnapshot) (s : GenesisStore A) :
    l.foldlM (fun s snapshot => s.addPriceSnapshot blockTime snapshot) s = none ↔
      l ≠ [] ∧ 2 ^ 63 - 1 < s.params.lookbackDuration := by
  induction l generalizing s with
  | nil => simp
  | cons x rest ih =>
    rw [List.foldlM_cons]
    cases hx : s.addPriceSnapshot blockTime x with
    | none =>
      have hlt := GenesisStore.addPriceSnapshot_eq_none_iff.1 hx
      exact iff_of_true (by simp) ⟨List.cons_ne_nil _ _, hlt⟩
    | some s' =>
      obtain ⟨store, rfl⟩ := GenesisStore.addPriceSnapshot_eq_some hx
      have hle : ¬2 ^ 63 - 1 < s.params.lookbackDuration := fun hlt => by
        rw [← GenesisStore.addPriceSnapshot_eq_none_iff, hx] at hlt
        cases hlt
      simp only [Option.bind_eq_bind, Option.bind_some, ih]
      exact iff_of_false (fun h => hle h.2) fun h => hle h.2

omit [LinearOrder A] in
theorem foldlM_addPriceSnapshot_eq_some {blockTime : Int} {l : List PriceSnapshot} {s s' : GenesisStore A}
    (h : l.foldlM (fun s snapshot => s.addPriceSnapshot blockTime snapshot) s = some s') :
    ∃ store, s' = { s with priceSnapshots := store } := by
  refine List.foldlM_option_induction (fun s' => ∃ store, s' = { s with priceSnapshots := store })
    ⟨s.priceSnapshots, rfl⟩ ?_ h
  rintro _ _ y - ⟨_, rfl⟩ hy
  obtain ⟨store, rfl⟩ := GenesisStore.addPriceSnapshot_eq_some hy
  exact ⟨store, rfl⟩

omit [LinearOrder A] in
theorem foldlM_addPriceSnapshot_of_sorted {blockTime : Int} (l : List PriceSnapshot) (s : GenesisStore A)
    (hlookback : s.params.lookbackDuration ≤ 2 ^ 63 - 1)
    (hsorted : KeySorted (s.priceSnapshots.snapshots ++ l))
    (hwindow : ∀ x ∈ (s.priceSnapshots.snapshots ++ l).tail,
      blockTime / 1000000000 ≤ wrapInt64 (x.snapshotTimestamp + s.params.lookbackDuration)) :
    ∃ store, l.foldlM (fun s snapshot => s.addPriceSnapshot blockTime snapshot) s =
        some { s with priceSnapshots := store } ∧ store.snapshots = s.priceSnapshots.snapshots ++ l := by
  induction l generalizing s with
  | nil => exact ⟨s.priceSnapshots, rfl, by simp⟩
  | cons x rest ih =>
    have hsplit : s.priceSnapshots.snapshots ++ x :: rest = (s.priceSnapshots.snapshots ++ [x]) ++ rest := by simp
    rw [hsplit] at hsorted hwindow
    have hnewest : ∀ y ∈ s.priceSnapshots.snapshots,
        snapshotKey y.snapshotTimestamp < snapshotKey x.snapshotTimestamp := by
      intro y hy
      have hfront := (List.pairwise_append.1 hsorted).1
      exact (List.pairwise_append.1 hfront).2.2 y hy x List.mem_cons_self
    -- the window condition on the snapshots so far is part of that on all of them
    have htail : (s.priceSnapshots.snapshots ++ [x] ++ rest).tail =
        (s.priceSnapshots.snapshots ++ [x]).tail ++ rest := List.tail_append_of_ne_nil (by simp)
    obtain ⟨store, hstep, hstore⟩ := GenesisStore.addPriceSnapshot_of_newest hlookback hnewest
      fun y hy => hwindow y (htail ▸ List.mem_append_left _ hy)
    obtain ⟨store', hrun, hstore'⟩ := ih { s with priceSnapshots := store } hlookback
      (by rw [hstore]; exact hsorted) (by rw [hstore]; exact hwindow)
    refine ⟨store', ?_, by rw [hstore', hstore, hsplit]⟩
    rw [List.foldlM_cons, hstep]
    exact hrun

end Snapshots

-- A genesis in the shape `ExportGenesis` gives: the entries of each store in increasing key
-- order, parameters that `SetParamSet` accepts, and snapshots in key order all but the first of
-- which lie in the lookback window at the genesis block.
structure GenesisState.Canonical (blockTime : Int) (data : GenesisState A) : Prop where
  params : setParamSet data.params = .ok ()
  exchangeRates : (data.exchangeRates.map Prod.fst).Pairwise (· < ·)
  feederDelegations : (data.feederDelegations.map (·.validatorAddress)).Pairwise (· < ·)
  penaltyCounters : (data.penaltyCounters.map (·.validatorAddress)).Pairwise (· < ·)
  aggregateVotes : (data.aggregateExchangeRateVotes.map (·.voter)).Pairwise (· < ·)
  priceSnapshots : KeySorted data.priceSnapshots
  lookbackDuration : data.params.lookbackDuration ≤ 2 ^ 63 - 1
  inWindow : ∀ snapshot ∈ data.priceSnapshots.tail,
    blockTime / 1000000000 ≤ wrapInt64 (snapshot.snapshotTimestamp + data.params.lookbackDuration)

theorem foldl_set_nil_of_sorted {K V α : Type} [LinearOrder K] (entry : α → K × V) {l : List α}
    (hl : (l.map fun a => (entry a).1).Pairwise (· < ·)) :
    (l.map entry).foldl (fun s e => KVStore.set e.1 e.2 s) [] = l.map entry := by
  have hkeys : ((l.map entry).map Prod.fst).Pairwise (· < ·) := by
    rwa [List.map_map]
  simpa using KVStore.foldl_set_of_sorted hkeys fun _ ha => absurd ha List.not_mem_nil

theorem initGenesis_of_setParamSet (blockHeight blockTime : Int) (s : GenesisStore A)
    {data : GenesisState A} (hp : setParamSet data.params = .ok ()) :
    initGenesis blockHeight blockTime s data =
      data.priceSnapshots.foldlM (fun s snapshot => s.addPriceSnapshot blockTime snapshot)
        (loadGenesisEntries blockHeight blockTime { s with params := data.params } data) := by
  unfold initGenesis
  rw [hp]

theorem initGenesis_eq_some {blockHeight blockTime : Int} {s s' : GenesisStore A} {data : GenesisState A}
    (h : initGenesis blockHeight blockTime s data = some s') :
    setParamSet data.params = .ok () ∧ ∃ store, s' =
      { loadGenesisEntries blockHeight blockTime { s with params := data.params } data with
        priceSnapshots := store } := by
  cases hp : setParamSet data.params with
  | error e =>
    unfold initGenesis at h
    rw [hp] at h
    cases h
  | ok u =>
    cases u
    rw [initGenesis_of_setParamSet blockHeight blockTime s hp] at h
    exact ⟨rfl, foldlM_addPriceSnapshot_eq_some h⟩

-- Exporting right after loading a genesis of that shape gives it back.
theorem oracle_genesis_round_trip (blockHeight : Int) {blockTime : Int} {data : GenesisState A}
    (h : data.Canonical blockTime) :
    (initGenesis blockHeight blockTime GenesisStore.empty data).map exportGenesis = some data := by
  obtain ⟨params, rates, delegations, counters, votes, snapshots⟩ := data
  -- the four stores load as the lists they are given
  set loaded := loadGenesisEntries blockHeight blockTime
    { (GenesisStore.empty : GenesisStore A) with params := params }
    ⟨params, rates, delegations, counters, votes, snapshots⟩ with hloaded
  rw [loadGenesisEntries_eq] at hloaded
  have hrates := foldl_set_nil_of_sorted
    (fun ex : String × Dec => (ex.1, (⟨ex.2, blockHeight, blockTime / 1000000⟩ : OracleExchangeRate)))
    h.exchangeRates
  have hdelegations := foldl_set_nil_of_sorted
    (fun d : FeederDelegation A => (d.validatorAddress, d.feederAddress)) h.feederDelegations
  have hcounters := foldl_set_nil_of_sorted
    (fun pc : PenaltyCounter A => (pc.validatorAddress, pc.votePenaltyCounter)) h.penaltyCounters
  have hvotes := foldl_set_nil_of_sorted (fun av : AggregateVote A => (av.voter, av)) h.aggregateVotes
  -- then the snapshots, none of which is evicted
  obtain ⟨store, hrun, hstore⟩ := foldlM_addPriceSnapshot_of_sorted snapshots loaded
    (by rw [hloaded]; exact h.lookbackDuration) (by rw [hloaded]; exact h.priceSnapshots)
    (by rw [hloaded]; exact h.inWindow)
  have hinit : initGenesis blockHeight blockTime GenesisStore.empty ⟨params, rates, delegations, counters, votes,
      snapshots⟩ = some { loaded with priceSnapshots := store } := by
    rw [initGenesis_of_setParamSet blockHeight blockTime _ h.params]
    exact hrun
  rw [hinit, Option.map_some, hloaded]
  simp only [exportGenesis, GenesisStore.empty, hrates, hdelegations, hcounters, hvotes, List.map_map]
  rw [hloaded] at hstore
  simp [hstore, GenesisStore.empty, SnapshotStore.empty, Function.comp_def]

def hourlyGenesis : GenesisState Nat where
  params := defaultParams
  exchangeRates := [("uatom", Dec.ofInt 12), ("ueth", Dec.ofInt 3000)]
  feederDelegations := [⟨5, 1⟩]
  penaltyCounters := [⟨1, ⟨0, 1, 2⟩⟩]
  aggregateExchangeRateVotes := [⟨1, [("uatom", Dec.ofInt 12)]⟩]
  priceSnapshots := [⟨1680307200, []⟩, ⟨1680310800, []⟩]

theorem hourly_genesis_round_trip :
    hourlyGenesis.Canonical (1680310800 * 1000000000) ∧
      (initGenesis 7 (1680310800 * 1000000000) GenesisStore.empty hourlyGenesis).map exportGenesis =
        some hourlyGenesis := by
  have hcanonical : hourlyGenesis.Canonical (1680310800 * 1000000000) :=
    ⟨defaultParams_setParamSet, by decide, by decide, by decide, by decide, by unfold KeySorted; decide,
      by decide, by decide⟩
  exact ⟨hcanonical, oracle_genesis_round_trip 7 hcanonical⟩

theorem initGenesis_eq_none_iff (blockHeight blockTime : Int) (s : GenesisStore A)
    {data : GenesisState A} (hvalid : validateGenesis data = .ok ()) :
    initGenesis blockHeight blockTime s data = none ↔
      Dec.one.i < data.params.voteThreshold.i ∨
        (data.priceSnapshots ≠ [] ∧ 2 ^ 63 - 1 < data.params.lookbackDuration) := by
  have hset := setParamSet_eq_ok_of_validate hvalid
  by_cases hvt : data.params.voteThreshold.i ≤ Dec.one.i
  · rw [initGenesis_of_setParamSet blockHeight blockTime s (hset.2 hvt),
      foldlM_addPriceSnapshot_eq_none_iff, loadGenesisEntries_eq]
    simp only [not_lt.2 hvt, false_or]
  · -- `SetParamSet` rejects the threshold, so no run of `InitGenesis` succeeds
    have hnone : initGenesis blockHeight blockTime s data = none := by
      cases hinit : initGenesis blockHeight blockTime s data with
      | none => rfl
      | some s' => exact absurd (hset.1 (initGenesis_eq_some hinit).1) hvt
    exact iff_of_true hnone (Or.inl (lt_of_not_ge hvt))

section Decode

variable {B : Type} (valAddressFromBech32 accAddressFromBech32 : B → Option A)

omit [LinearOrder A] in
theorem FeederDelegation.decode_eq_none_iff (d : FeederDelegation B) :
    d.decode valAddressFromBech32 accAddressFromBech32 = none ↔
      valAddressFromBech32 d.validatorAddress = none ∨ accAddressFromBech32 d.feederAddress = none := by
  unfold FeederDelegation.decode
  cases valAddressFromBech32 d.validatorAddress <;> cases accAddressFromBech32 d.feederAddress <;> simp

omit [LinearOrder A] in
theorem PenaltyCounter.decode_eq_none_iff (pc : PenaltyCounter B) :
    pc.decode valAddressFromBech32 = none ↔ valAddressFromBech32 pc.validatorAddress = none := by
  unfold PenaltyCounter.decode
  cases valAddressFromBech32 pc.validatorAddress <;> simp

omit [LinearOrder A] in
theorem AggregateVote.decode_eq_none_iff (av : AggregateVote B) :
    av.decode valAddressFromBech32 = none ↔ valAddressFromBech32 av.voter = none := by
  unfold AggregateVote.decode
  cases valAddressFromBech32 av.voter <;> simp

omit [LinearOrder A] in
theorem decodeGenesis_eq_none_iff (data : GenesisState B) :
    decodeGenesis valAddressFromBech32 accAddressFromBech32 data = none ↔
      (∃ d ∈ data.feederDelegations,
        valAddressFromBech32 d.validatorAddress = none ∨ accAddressFromBech32 d.feederAddress = none) ∨
      (∃ pc ∈ data.penaltyCounters, valAddressFromBech32 pc.validatorAddress = none) ∨
      (∃ av ∈ data.aggregateExchangeRateVotes, valAddressFromBech32 av.voter = none) := by
  -- decoding fails exactly when one of the three lists fails to decode
  simp only [← FeederDelegation.decode_eq_none_iff, ← PenaltyCounter.decode_eq_none_iff,
    ← AggregateVote.decode_eq_none_iff, ← List.mapM_eq_none_iff]
  unfold decodeGenesis
  cases data.feederDelegations.mapM (·.decode valAddressFromBech32 accAddressFromBech32) <;>
    cases data.penaltyCounters.mapM (·.decode valAddressFromBech32) <;>
    cases data.aggregateExchangeRateVotes.mapM (·.decode valAddressFromBech32) <;> simp

omit [LinearOrder A] in
theorem decodeGenesis_eq_some {data : GenesisState B} {data' : GenesisState A}
    (h : decodeGenesis valAddressFromBech32 accAddressFromBech32 data = some data') :
    data'.params = data.params ∧ data'.priceSnapshots = data.priceSnapshots := by
  unfold decodeGenesis at h
  cases hd : data.feederDelegations.mapM (·.decode valAddressFromBech32 accAddressFromBech32) <;>
    cases hp : data.penaltyCounters.mapM (·.decode valAddressFromBech32) <;>
    cases hv : data.aggregateExchangeRateVotes.mapM (·.decode valAddressFromBech32) <;>
    simp [hd, hp, hv] at h
  subst h
  exact ⟨rfl, rfl⟩

end Decode

-- The default genesis with a vote threshold of two, and a genesis file of one delegation whose
-- feeder address is malformed. Addresses are numbers; a negative one does not decode.
def thresholdTwoGenesis : GenesisState Int :=
  ⟨{ defaultParams with voteThreshold := Dec.ofInt 2 }, [], [], [], [], []⟩

def malformedFeederGenesis : GenesisState Int :=
  ⟨defaultParams, [], [⟨-1, 1⟩], [], [], []⟩

def decodeAddress (a : Int) : Option Nat := if 0 ≤ a then some a.toNat else none

end SeiChain.Oracle
