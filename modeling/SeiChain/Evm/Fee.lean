import SeiChain.Math.DecOrder
import SeiChain.Lib.GoInt

namespace SeiChain.Evm

open Sdk GoInt

-- The whitelist of CosmWasm code hashes, which `Validate` only type-checks, is left out.
structure Params where
  priorityNormalizer : Dec
  baseFeePerGas : Dec
  maxDynamicBaseFeeUpwardAdjustment : Dec
  maxDynamicBaseFeeDownwardAdjustment : Dec
  minimumFeePerGas : Dec
  deliverTxHookWasmGasLimit : Nat
  targetGasUsedPerBlock : Nat
  maximumFeePerGas : Dec
  deriving DecidableEq

def defaultParams : Params where
  priorityNormalizer := Dec.ofInt 1
  baseFeePerGas := Dec.ofInt 0
  maxDynamicBaseFeeUpwardAdjustment := Dec.withPrec 189 4
  maxDynamicBaseFeeDownwardAdjustment := Dec.withPrec 39 4
  minimumFeePerGas := Dec.ofInt 1000000000
  deliverTxHookWasmGasLimit := 300000
  targetGasUsedPerBlock := 250000
  maximumFeePerGas := Dec.ofInt 1000000000000

def validatePriorityNormalizer (v : Dec) : Except String Unit :=
  if !v.isPositive then .error ("nonpositive priority normalizer: " ++ v.toString) else .ok ()

def validateNonNegativeFee (name : String) (v : Dec) : Except String Unit :=
  if v.isNegative then .error ("negative " ++ name ++ ": " ++ v.toString) else .ok ()

def validateBaseFeePerGas : Dec → Except String Unit := validateNonNegativeFee "base fee per gas"

def validateMinFeePerGas : Dec → Except String Unit := validateNonNegativeFee "min fee per gas"

def validateMaxFeePerGas : Dec → Except String Unit := validateNonNegativeFee "max fee per gas"

def validateDeliverTxHookWasmGasLimit (v : Nat) : Except String Unit :=
  if v = 0 then
    .error ("invalid deliver_tx_hook_wasm_gas_limit: must be greater than 0, got " ++ toString v)
  else .ok ()

def validateBaseFeeAdjustment (adjustment : Dec) : Except String Unit :=
  if adjustment.isNegative then .error ("negative base fee adjustment: " ++ adjustment.toString)
  else if Dec.one < adjustment then
    .error ("base fee adjustment must be less than or equal to 1: " ++ adjustment.toString)
  else .ok ()

def Params.validate (p : Params) : Except String Unit := do
  validatePriorityNormalizer p.priorityNormalizer
  validateBaseFeePerGas p.baseFeePerGas
  validateMinFeePerGas p.minimumFeePerGas
  validateMaxFeePerGas p.maximumFeePerGas
  validateDeliverTxHookWasmGasLimit p.deliverTxHookWasmGasLimit
  (if p.minimumFeePerGas < p.baseFeePerGas then
    throw "minimum fee cannot be lower than base fee" else pure ())
  (validateBaseFeeAdjustment p.maxDynamicBaseFeeUpwardAdjustment).mapError fun err =>
    "invalid max dynamic base fee upward adjustment: " ++
      p.maxDynamicBaseFeeUpwardAdjustment.toString ++ ", err: " ++ err
  (validateBaseFeeAdjustment p.maxDynamicBaseFeeDownwardAdjustment).mapError fun err =>
    "invalid max dynamic base fee downward adjustment: " ++
      p.maxDynamicBaseFeeDownwardAdjustment.toString ++ ", err: " ++ err

theorem except_seq_eq_ok {ε : Type} {a b : Except ε Unit} :
    (do a; b) = Except.ok () ↔ a = .ok () ∧ b = .ok () := by
  cases a <;> simp [bind, Except.bind]

theorem mapError_eq_ok {ε ε' : Type} {f : ε → ε'} {a : Except ε Unit} :
    a.mapError f = .ok () ↔ a = .ok () := by
  cases a <;> simp [Except.mapError]

theorem validateNonNegativeFee_eq_ok (name : String) (v : Dec) :
    validateNonNegativeFee name v = .ok () ↔ 0 ≤ v.i := by
  unfold validateNonNegativeFee
  split_ifs with h <;> simp_all

theorem validateBaseFeeAdjustment_eq_ok (adjustment : Dec) :
    validateBaseFeeAdjustment adjustment = .ok () ↔ 0 ≤ adjustment.i ∧ adjustment.i ≤ Dec.one.i := by
  unfold validateBaseFeeAdjustment
  split_ifs with hneg hone
  · simp only [Dec.isNegative_iff] at hneg
    simp only [false_iff, not_and]
    omega
  · simp only [Dec.lt_iff] at hone
    simp only [false_iff, not_and]
    omega
  · simp only [Dec.isNegative_iff, Dec.lt_iff] at hneg hone
    simp only [true_iff]
    omega

theorem validate_eq_ok (p : Params) :
    p.validate = .ok () ↔
      0 < p.priorityNormalizer.i ∧ 0 ≤ p.baseFeePerGas.i ∧ 0 ≤ p.minimumFeePerGas.i ∧
      0 ≤ p.maximumFeePerGas.i ∧ 0 < p.deliverTxHookWasmGasLimit ∧
      p.baseFeePerGas.i ≤ p.minimumFeePerGas.i ∧
      (0 ≤ p.maxDynamicBaseFeeUpwardAdjustment.i ∧ p.maxDynamicBaseFeeUpwardAdjustment.i ≤ Dec.one.i) ∧
      (0 ≤ p.maxDynamicBaseFeeDownwardAdjustment.i ∧
        p.maxDynamicBaseFeeDownwardAdjustment.i ≤ Dec.one.i) := by
  have hmin : (if p.minimumFeePerGas < p.baseFeePerGas then
      (throw "minimum fee cannot be lower than base fee" : Except String Unit) else pure ()) = .ok () ↔
      p.baseFeePerGas.i ≤ p.minimumFeePerGas.i := by
    split_ifs with h <;> simp_all [pure, Except.pure]
  simp only [Params.validate, except_seq_eq_ok, mapError_eq_ok, validateBaseFeeAdjustment_eq_ok,
    validateBaseFeePerGas, validateMinFeePerGas, validateMaxFeePerGas,
    validateNonNegativeFee_eq_ok, hmin]
  simp [validatePriorityNormalizer, validateDeliverTxHookWasmGasLimit, Nat.pos_iff_ne_zero]

theorem defaultParams_validate : defaultParams.validate = .ok () := by
  rw [validate_eq_ok]
  decide

-- The two fees the module stores, each absent until it is first set.
structure FeeStore where
  currBaseFeePerGas : Option Dec
  nextBaseFeePerGas : Option Dec
  deriving DecidableEq

def FeeStore.empty : FeeStore := ⟨none, none⟩

-- A fee not yet set reads as the minimum fee.
def getCurrBaseFeePerGas (params : Params) (st : FeeStore) : Dec :=
  st.currBaseFeePerGas.getD params.minimumFeePerGas

def getNextBaseFeePerGas (params : Params) (st : FeeStore) : Dec :=
  st.nextBaseFeePerGas.getD params.minimumFeePerGas

def setCurrBaseFeePerGas (st : FeeStore) (baseFeePerGas : Dec) : FeeStore :=
  { st with currBaseFeePerGas := some baseFeePerGas }

def setNextBaseFeePerGas (st : FeeStore) (baseFeePerGas : Dec) : FeeStore :=
  { st with nextBaseFeePerGas := some baseFeePerGas }

@[simp] theorem getCurrBaseFeePerGas_setCurr (params : Params) (st : FeeStore) (d : Dec) :
    getCurrBaseFeePerGas params (setCurrBaseFeePerGas st d) = d := rfl

@[simp] theorem getNextBaseFeePerGas_setCurr (params : Params) (st : FeeStore) (d : Dec) :
    getNextBaseFeePerGas params (setCurrBaseFeePerGas st d) = getNextBaseFeePerGas params st := rfl

@[simp] theorem getCurrBaseFeePerGas_setNext (params : Params) (st : FeeStore) (d : Dec) :
    getCurrBaseFeePerGas params (setNextBaseFeePerGas st d) = getCurrBaseFeePerGas params st := rfl

@[simp] theorem getNextBaseFeePerGas_setNext (params : Params) (st : FeeStore) (d : Dec) :
    getNextBaseFeePerGas params (setNextBaseFeePerGas st d) = d := rfl

def raiseBaseFee (upward prevBaseFee blockGasLimit targetGasUsed blockGasUsedDec : Dec) :
    Option Dec := do
  let numerator ← blockGasUsedDec.sub targetGasUsed
  let denominator ← blockGasLimit.sub targetGasUsed
  let percentageFull ← numerator.quo denominator
  let adjustmentFactor ← upward.mul percentageFull
  prevBaseFee.mul (← (Dec.ofInt 1).add adjustmentFactor)

def lowerBaseFee (downward prevBaseFee targetGasUsed blockGasUsedDec : Dec) : Option Dec := do
  let numerator ← targetGasUsed.sub blockGasUsedDec
  let denominator := targetGasUsed
  let percentageEmpty ← numerator.quo denominator
  let adjustmentFactor ← downward.mul percentageEmpty
  prevBaseFee.mul (← (Dec.ofInt 1).sub adjustmentFactor)

-- Not below the minimum, then not above the maximum: the maximum wins when the two cross.
def clampBaseFee (minimumFeePerGas maximumFeePerGas newBaseFee : Dec) : Dec :=
  let newBaseFee := if newBaseFee < minimumFeePerGas then minimumFeePerGas else newBaseFee
  if maximumFeePerGas < newBaseFee then maximumFeePerGas else newBaseFee

-- The block's gas used as the decimal the branches compare: the `uint64` converted to `int64`
-- by Go, then capped at the block gas limit.
def cappedGasUsed (blockGasLimit : Dec) (blockGasUsed : Nat) : Dec :=
  let blockGasUsedDec := Dec.ofInt (toInt64 blockGasUsed)
  if blockGasLimit < blockGasUsedDec then blockGasLimit else blockGasUsedDec

def adjustedBaseFee (params : Params) (blockGasLimit targetGasUsed prevBaseFee blockGasUsedDec : Dec) :
    Option Dec :=
  if targetGasUsed < blockGasUsedDec then
    raiseBaseFee params.maxDynamicBaseFeeUpwardAdjustment prevBaseFee blockGasLimit targetGasUsed
      blockGasUsedDec
  else
    lowerBaseFee params.maxDynamicBaseFeeDownwardAdjustment prevBaseFee targetGasUsed blockGasUsedDec

def nextBaseFee (params : Params) (blockGasLimit targetGasUsed prevBaseFee : Dec)
    (blockGasUsed : Nat) : Option Dec :=
  (adjustedBaseFee params blockGasLimit targetGasUsed prevBaseFee
    (cappedGasUsed blockGasLimit blockGasUsed)).map
    (clampBaseFee params.minimumFeePerGas params.maximumFeePerGas)

-- `AdjustDynamicBaseFeePerGas`. `maxGas` is the block gas limit of the consensus parameters,
-- `none` when the context has none; the returned fee is `none` for Go's nil, and the outer
-- `none` is a panic of the decimal arithmetic.
def adjustDynamicBaseFeePerGas (params : Params) (maxGas : Option Int) (st : FeeStore)
    (blockGasUsed : Nat) : Option (Option Dec × FeeStore) :=
  match maxGas with
  | none => some (none, st)
  | some maxGas =>
    let prevBaseFee := getNextBaseFeePerGas params st
    -- the fee block n-1 computed becomes the current fee of block n
    let st := setCurrBaseFeePerGas st prevBaseFee
    let targetGasUsed := Dec.ofInt (toInt64 params.targetGasUsedPerBlock)
    if targetGasUsed.isZero then some (some prevBaseFee, st)
    else
      (nextBaseFee params (Dec.ofInt maxGas) targetGasUsed prevBaseFee blockGasUsed).map
        fun newBaseFee => (some newBaseFee, setNextBaseFeePerGas st newBaseFee)

-- Consecutive blocks' adjustments, each with its block gas limit and gas used; `none` once one
-- of them panics.
def adjustRun (params : Params) : FeeStore → List (Option Int × Nat) → Option FeeStore
  | st, [] => some st
  | st, (maxGas, blockGasUsed) :: blocks =>
    (adjustDynamicBaseFeePerGas params maxGas st blockGasUsed).bind fun r =>
      adjustRun params r.2 blocks

example : adjustRun defaultParams FeeStore.empty [(some 10000000, 0)] =
    some ⟨some (Dec.ofInt 1000000000), some (Dec.ofInt 1000000000)⟩ := by decide

theorem clampBaseFee_le (minimumFeePerGas maximumFeePerGas newBaseFee : Dec) :
    (clampBaseFee minimumFeePerGas maximumFeePerGas newBaseFee).i ≤ maximumFeePerGas.i := by
  unfold clampBaseFee
  dsimp only
  split_ifs with hmin hmax <;> simp_all

theorem le_clampBaseFee {minimumFeePerGas maximumFeePerGas : Dec}
    (hle : minimumFeePerGas.i ≤ maximumFeePerGas.i) (newBaseFee : Dec) :
    minimumFeePerGas.i ≤ (clampBaseFee minimumFeePerGas maximumFeePerGas newBaseFee).i := by
  unfold clampBaseFee
  dsimp only
  split_ifs with hmin hmax <;> simp_all

-- Both fees, as the getters read them, lie within the parameters' bounds.
structure FeesInBounds (params : Params) (st : FeeStore) : Prop where
  curr_ge : params.minimumFeePerGas.i ≤ (getCurrBaseFeePerGas params st).i
  curr_le : (getCurrBaseFeePerGas params st).i ≤ params.maximumFeePerGas.i
  next_ge : params.minimumFeePerGas.i ≤ (getNextBaseFeePerGas params st).i
  next_le : (getNextBaseFeePerGas params st).i ≤ params.maximumFeePerGas.i

theorem feesInBounds_empty {params : Params}
    (hle : params.minimumFeePerGas.i ≤ params.maximumFeePerGas.i) :
    FeesInBounds params FeeStore.empty :=
  ⟨Int.le_refl _, hle, Int.le_refl _, hle⟩

theorem nextBaseFee_eq_some {params : Params} {blockGasLimit targetGasUsed prevBaseFee : Dec}
    {blockGasUsed : Nat} {fee : Dec}
    (h : nextBaseFee params blockGasLimit targetGasUsed prevBaseFee blockGasUsed = some fee) :
    ∃ newBaseFee, fee = clampBaseFee params.minimumFeePerGas params.maximumFeePerGas newBaseFee := by
  obtain ⟨newBaseFee, -, rfl⟩ := Option.map_eq_some_iff.1 h
  exact ⟨newBaseFee, rfl⟩

theorem adjustDynamicBaseFeePerGas_store {params : Params} {maxGas : Option Int} {st st' : FeeStore}
    {blockGasUsed : Nat} {fee : Option Dec}
    (h : adjustDynamicBaseFeePerGas params maxGas st blockGasUsed = some (fee, st')) :
    st' = st ∨ st' = setCurrBaseFeePerGas st (getNextBaseFeePerGas params st) ∨
      ∃ newBaseFee, st' = setNextBaseFeePerGas (setCurrBaseFeePerGas st (getNextBaseFeePerGas params st))
        (clampBaseFee params.minimumFeePerGas params.maximumFeePerGas newBaseFee) := by
  unfold adjustDynamicBaseFeePerGas at h
  cases maxGas with
  | none =>
    cases h
    exact .inl rfl
  | some maxGas =>
    dsimp only at h
    split_ifs at h with hzero
    · cases h
      exact .inr (.inl rfl)
    · obtain ⟨fee', hfee, hst⟩ := Option.map_eq_some_iff.1 h
      obtain ⟨newBaseFee, rfl⟩ := nextBaseFee_eq_some hfee
      cases hst
      exact .inr (.inr ⟨newBaseFee, rfl⟩)

-- The step: with the minimum no larger than the maximum, one adjustment keeps both fees within
-- the bounds. The fee it moves to the current slot was the next fee, already within them.
theorem FeesInBounds.adjust {params : Params} {st st' : FeeStore} {maxGas : Option Int}
    {blockGasUsed : Nat} {fee : Option Dec}
    (hle : params.minimumFeePerGas.i ≤ params.maximumFeePerGas.i) (hst : FeesInBounds params st)
    (h : adjustDynamicBaseFeePerGas params maxGas st blockGasUsed = some (fee, st')) :
    FeesInBounds params st' := by
  rcases adjustDynamicBaseFeePerGas_store h with rfl | rfl | ⟨newBaseFee, rfl⟩
  · exact hst
  · exact ⟨hst.next_ge, hst.next_le, hst.next_ge, hst.next_le⟩
  · exact ⟨hst.next_ge, hst.next_le, le_clampBaseFee hle newBaseFee, clampBaseFee_le _ _ _⟩

-- The run: by induction on the blocks, from the step.
theorem FeesInBounds.adjustRun {params : Params}
    (hle : params.minimumFeePerGas.i ≤ params.maximumFeePerGas.i) :
    ∀ {st st' : FeeStore} {blocks : List (Option Int × Nat)}, FeesInBounds params st →
      adjustRun params st blocks = some st' → FeesInBounds params st'
  | _, _, [], hst, h => by
    cases h
    exact hst
  | st, _, (maxGas, blockGasUsed) :: blocks, hst, h => by
    obtain ⟨⟨fee, st₁⟩, hstep, hrest⟩ := Option.bind_eq_some_iff.1 h
    exact FeesInBounds.adjustRun hle (hst.adjust hle hstep) hrest

theorem base_fee_in_bounds_when_min_le_max (params : Params)
    (hle : params.minimumFeePerGas.i ≤ params.maximumFeePerGas.i) (st : FeeStore)
    (hst : FeesInBounds params st) (blocks : List (Option Int × Nat)) (st' : FeeStore)
    (hrun : adjustRun params st blocks = some st') : FeesInBounds params st' :=
  FeesInBounds.adjustRun hle hst hrun

theorem base_fee_in_bounds_after_default_block :
    FeesInBounds defaultParams ⟨some (Dec.ofInt 1000000000), some (Dec.ofInt 1000000000)⟩ :=
  base_fee_in_bounds_when_min_le_max defaultParams (by decide) FeeStore.empty
    (feesInBounds_empty (by decide)) [(some 10000000, 0)] _ (by decide)

-- `Validate` accepts a minimum fee above the maximum.
def invertedFeeBounds : Params :=
  { defaultParams with minimumFeePerGas := Dec.ofInt 2, maximumFeePerGas := Dec.ofInt 1 }

theorem base_fee_leaves_inverted_bounds :
    invertedFeeBounds.validate = .ok () ∧
      adjustRun invertedFeeBounds FeeStore.empty [(some 10000000, 0)] =
        some ⟨some (Dec.ofInt 2), some (Dec.ofInt 1)⟩ ∧
      invertedFeeBounds.maximumFeePerGas < Dec.ofInt 2 ∧
      Dec.ofInt 1 < invertedFeeBounds.minimumFeePerGas := by
  decide

theorem raiseBaseFee_eq_some {upward prevBaseFee blockGasLimit targetGasUsed blockGasUsedDec fee : Dec} :
    raiseBaseFee upward prevBaseFee blockGasLimit targetGasUsed blockGasUsedDec = some fee ↔
      ∃ numerator denominator percentageFull adjustmentFactor factor,
        blockGasUsedDec.sub targetGasUsed = some numerator ∧
        blockGasLimit.sub targetGasUsed = some denominator ∧
        numerator.quo denominator = some percentageFull ∧
        upward.mul percentageFull = some adjustmentFactor ∧
        (Dec.ofInt 1).add adjustmentFactor = some factor ∧ prevBaseFee.mul factor = some fee := by
  simp [raiseBaseFee, Option.bind_eq_some_iff]

theorem lowerBaseFee_eq_some {downward prevBaseFee targetGasUsed blockGasUsedDec fee : Dec} :
    lowerBaseFee downward prevBaseFee targetGasUsed blockGasUsedDec = some fee ↔
      ∃ numerator percentageEmpty adjustmentFactor factor,
        targetGasUsed.sub blockGasUsedDec = some numerator ∧
        numerator.quo targetGasUsed = some percentageEmpty ∧
        downward.mul percentageEmpty = some adjustmentFactor ∧
        (Dec.ofInt 1).sub adjustmentFactor = some factor ∧ prevBaseFee.mul factor = some fee := by
  simp [lowerBaseFee, Option.bind_eq_some_iff]

-- Above the target, more gas used is a larger share of the same room, so a larger rise.
theorem raiseBaseFee_mono {upward prevBaseFee blockGasLimit targetGasUsed u₁ u₂ fee₁ fee₂ : Dec}
    (hup : 0 ≤ upward.i) (hprev : 0 ≤ prevBaseFee.i) (hu₁ : targetGasUsed.i < u₁.i)
    (hu : u₁.i ≤ u₂.i) (hu₂ : u₂.i ≤ blockGasLimit.i)
    (h₁ : raiseBaseFee upward prevBaseFee blockGasLimit targetGasUsed u₁ = some fee₁)
    (h₂ : raiseBaseFee upward prevBaseFee blockGasLimit targetGasUsed u₂ = some fee₂) :
    fee₁.i ≤ fee₂.i := by
  obtain ⟨n₁, d₁, p₁, a₁, f₁, hn₁, hd₁, hp₁, ha₁, hf₁, hfee₁⟩ := raiseBaseFee_eq_some.1 h₁
  obtain ⟨n₂, d₂, p₂, a₂, f₂, hn₂, hd₂, hp₂, ha₂, hf₂, hfee₂⟩ := raiseBaseFee_eq_some.1 h₂
  obtain rfl : d₁ = d₂ := Option.some.inj (hd₁.symm.trans hd₂)
  have hn₁i := Dec.sub_i hn₁
  have hn₂i := Dec.sub_i hn₂
  have hdi := Dec.sub_i hd₁
  have hpct : p₁.i ≤ p₂.i := Dec.quo_le_quo (by omega) (by omega) (by omega) hp₁ hp₂
  have hadj : a₁.i ≤ a₂.i := Dec.mul_le_mul_left hpct hup ha₁ ha₂
  have hfactor : f₁.i ≤ f₂.i := by
    rw [Dec.add_i hf₁, Dec.add_i hf₂]
    omega
  exact Dec.mul_le_mul_left hfactor hprev hfee₁ hfee₂

-- At or below the target, more gas used leaves less of it empty, so a smaller fall.
theorem lowerBaseFee_mono {downward prevBaseFee targetGasUsed u₁ u₂ fee₁ fee₂ : Dec}
    (hdown : 0 ≤ downward.i) (hprev : 0 ≤ prevBaseFee.i) (htarget : 0 < targetGasUsed.i)
    (hu : u₁.i ≤ u₂.i) (hu₂ : u₂.i ≤ targetGasUsed.i)
    (h₁ : lowerBaseFee downward prevBaseFee targetGasUsed u₁ = some fee₁)
    (h₂ : lowerBaseFee downward prevBaseFee targetGasUsed u₂ = some fee₂) :
    fee₁.i ≤ fee₂.i := by
  obtain ⟨n₁, p₁, a₁, f₁, hn₁, hp₁, ha₁, hf₁, hfee₁⟩ := lowerBaseFee_eq_some.1 h₁
  obtain ⟨n₂, p₂, a₂, f₂, hn₂, hp₂, ha₂, hf₂, hfee₂⟩ := lowerBaseFee_eq_some.1 h₂
  have hn₁i := Dec.sub_i hn₁
  have hn₂i := Dec.sub_i hn₂
  have hpct : p₂.i ≤ p₁.i := Dec.quo_le_quo (by omega) (by omega) htarget hp₂ hp₁
  have hadj : a₂.i ≤ a₁.i := Dec.mul_le_mul_left hpct hdown ha₂ ha₁
  have hfactor : f₁.i ≤ f₂.i := by
    rw [Dec.sub_i hf₁, Dec.sub_i hf₂]
    omega
  exact Dec.mul_le_mul_left hfactor hprev hfee₁ hfee₂

theorem lowerBaseFee_le {downward prevBaseFee targetGasUsed u fee : Dec}
    (hdown : 0 ≤ downward.i) (hprev : 0 ≤ prevBaseFee.i) (htarget : 0 < targetGasUsed.i)
    (hu : u.i ≤ targetGasUsed.i) (h : lowerBaseFee downward prevBaseFee targetGasUsed u = some fee) :
    fee.i ≤ prevBaseFee.i := by
  obtain ⟨n, p, a, f, hn, hp, ha, hf, hfee⟩ := lowerBaseFee_eq_some.1 h
  have hpct : 0 ≤ p.i := Dec.quo_nonneg (by rw [Dec.sub_i hn]; omega) htarget hp
  have hadj : 0 ≤ a.i := Dec.mul_nonneg hdown hpct ha
  have hfactor : f.i ≤ precisionReuse := by
    rw [Dec.sub_i hf, Dec.ofInt_i]
    omega
  exact Dec.mul_le_of_le_one hprev hfactor hfee

theorem le_raiseBaseFee {upward prevBaseFee blockGasLimit targetGasUsed u fee : Dec}
    (hup : 0 ≤ upward.i) (hprev : 0 ≤ prevBaseFee.i) (hu₁ : targetGasUsed.i < u.i)
    (hu : u.i ≤ blockGasLimit.i)
    (h : raiseBaseFee upward prevBaseFee blockGasLimit targetGasUsed u = some fee) :
    prevBaseFee.i ≤ fee.i := by
  obtain ⟨n, d, p, a, f, hn, hd, hp, ha, hf, hfee⟩ := raiseBaseFee_eq_some.1 h
  have hpct : 0 ≤ p.i :=
    Dec.quo_nonneg (by rw [Dec.sub_i hn]; omega) (by rw [Dec.sub_i hd]; omega) hp
  have hadj : 0 ≤ a.i := Dec.mul_nonneg hup hpct ha
  have hfactor : precisionReuse ≤ f.i := by
    rw [Dec.add_i hf, Dec.ofInt_i]
    omega
  exact Dec.le_mul_of_one_le hprev hfactor hfee

theorem adjustedBaseFee_mono {params : Params}
    {blockGasLimit targetGasUsed prevBaseFee u₁ u₂ fee₁ fee₂ : Dec}
    (hup : 0 ≤ params.maxDynamicBaseFeeUpwardAdjustment.i)
    (hdown : 0 ≤ params.maxDynamicBaseFeeDownwardAdjustment.i) (hprev : 0 ≤ prevBaseFee.i)
    (htarget : 0 < targetGasUsed.i) (hu : u₁.i ≤ u₂.i) (hu₂ : u₂.i ≤ blockGasLimit.i)
    (h₁ : adjustedBaseFee params blockGasLimit targetGasUsed prevBaseFee u₁ = some fee₁)
    (h₂ : adjustedBaseFee params blockGasLimit targetGasUsed prevBaseFee u₂ = some fee₂) :
    fee₁.i ≤ fee₂.i := by
  unfold adjustedBaseFee at h₁ h₂
  by_cases hab₁ : targetGasUsed < u₁
  · have hab₂ : targetGasUsed < u₂ := by
      rw [Dec.lt_iff] at hab₁ ⊢
      omega
    rw [if_pos hab₁] at h₁
    rw [if_pos hab₂] at h₂
    exact raiseBaseFee_mono hup hprev hab₁ hu hu₂ h₁ h₂
  · rw [if_neg hab₁] at h₁
    rw [Dec.lt_iff, Int.not_lt] at hab₁
    by_cases hab₂ : targetGasUsed < u₂
    · rw [if_pos hab₂] at h₂
      exact Int.le_trans (lowerBaseFee_le hdown hprev htarget hab₁ h₁)
        (le_raiseBaseFee hup hprev hab₂ hu₂ h₂)
    · rw [if_neg hab₂] at h₂
      rw [Dec.lt_iff, Int.not_lt] at hab₂
      exact lowerBaseFee_mono hdown hprev htarget hu hab₂ h₁ h₂

theorem clampBaseFee_mono (minimumFeePerGas maximumFeePerGas : Dec) {a b : Dec} (h : a.i ≤ b.i) :
    (clampBaseFee minimumFeePerGas maximumFeePerGas a).i ≤
      (clampBaseFee minimumFeePerGas maximumFeePerGas b).i := by
  unfold clampBaseFee
  dsimp only
  split_ifs <;> simp only [Dec.lt_iff, Int.not_lt] at * <;> omega

theorem cappedGasUsed_le (blockGasLimit : Dec) (blockGasUsed : Nat) :
    (cappedGasUsed blockGasLimit blockGasUsed).i ≤ blockGasLimit.i := by
  unfold cappedGasUsed
  dsimp only
  split_ifs with h
  · exact Int.le_refl _
  · rw [Dec.lt_iff, Int.not_lt] at h
    exact h

-- Below `2 ^ 63` the conversion to `int64` keeps the value, so the cap is monotone there.
theorem cappedGasUsed_mono (blockGasLimit : Dec) {used₁ used₂ : Nat} (hle : used₁ ≤ used₂)
    (hlt : used₂ < 2 ^ 63) :
    (cappedGasUsed blockGasLimit used₁).i ≤ (cappedGasUsed blockGasLimit used₂).i := by
  unfold cappedGasUsed
  rw [toInt64_of_lt hlt, toInt64_of_lt (by omega)]
  dsimp only
  split_ifs <;> simp only [Dec.lt_iff, Int.not_lt, Dec.ofInt_i, precisionReuse] at * <;> omega

theorem nextBaseFee_mono {params : Params} {blockGasLimit targetGasUsed prevBaseFee : Dec}
    {used₁ used₂ : Nat} {fee₁ fee₂ : Dec}
    (hup : 0 ≤ params.maxDynamicBaseFeeUpwardAdjustment.i)
    (hdown : 0 ≤ params.maxDynamicBaseFeeDownwardAdjustment.i) (hprev : 0 ≤ prevBaseFee.i)
    (htarget : 0 < targetGasUsed.i) (hle : used₁ ≤ used₂) (hlt : used₂ < 2 ^ 63)
    (h₁ : nextBaseFee params blockGasLimit targetGasUsed prevBaseFee used₁ = some fee₁)
    (h₂ : nextBaseFee params blockGasLimit targetGasUsed prevBaseFee used₂ = some fee₂) :
    fee₁.i ≤ fee₂.i := by
  obtain ⟨new₁, hnew₁, rfl⟩ := Option.map_eq_some_iff.1 h₁
  obtain ⟨new₂, hnew₂, rfl⟩ := Option.map_eq_some_iff.1 h₂
  apply clampBaseFee_mono
  exact adjustedBaseFee_mono hup hdown hprev htarget (cappedGasUsed_mono _ hle hlt)
    (cappedGasUsed_le _ _) hnew₁ hnew₂

theorem lowerBaseFee_self {downward prevBaseFee targetGasUsed : Dec} (htarget : targetGasUsed.i ≠ 0)
    (hprev : Dec.fits prevBaseFee.i = true) :
    lowerBaseFee downward prevBaseFee targetGasUsed targetGasUsed = some prevBaseFee := by
  have hzero : Dec.fits 0 = true := by decide
  have hchop : Dec.chopPrecisionAndRound 0 = 0 := by
    simpa using Dec.chopPrecisionAndRound_mul_scale 0
  have hnum : targetGasUsed.sub targetGasUsed = some ⟨0⟩ := by
    rw [Dec.sub, Int.sub_self]
    exact Dec.checked_of_fits hzero
  have hpct : Dec.quo ⟨0⟩ targetGasUsed = some ⟨0⟩ := by
    rw [Dec.quo, if_neg htarget]
    simpa [hchop] using Dec.checked_of_fits hzero
  have hadj : downward.mul ⟨0⟩ = some ⟨0⟩ := by
    simpa [Dec.mul, hchop] using Dec.checked_of_fits hzero
  have hfactor : (Dec.ofInt 1).sub ⟨0⟩ = some ⟨precisionReuse⟩ := by
    simpa [Dec.sub] using Dec.checked_of_fits (show Dec.fits precisionReuse = true by decide)
  have hfee : prevBaseFee.mul ⟨precisionReuse⟩ = some prevBaseFee := by
    rw [Dec.mul, Dec.chopPrecisionAndRound_mul_scale, Dec.checked_of_fits hprev]
  exact lowerBaseFee_eq_some.2 ⟨_, _, _, _, hnum, hpct, hadj, hfactor, hfee⟩

theorem raiseBaseFee_exists {upward prevBaseFee blockGasLimit targetGasUsed u : Dec}
    (hup0 : 0 ≤ upward.i) (hup1 : upward.i ≤ precisionReuse) (hprev0 : 0 ≤ prevBaseFee.i)
    (hprev : prevBaseFee.i < 2 ^ 314) (htarget : 0 ≤ targetGasUsed.i)
    (hu₁ : targetGasUsed.i < u.i) (hu : u.i ≤ blockGasLimit.i) (hlimit : blockGasLimit.i < 2 ^ 315) :
    ∃ fee, raiseBaseFee upward prevBaseFee blockGasLimit targetGasUsed u = some fee := by
  have hscale : precisionReuse = 1000000000000000000 := rfl
  have hone : (Dec.ofInt 1).i = precisionReuse := by simp
  have hnum : u.sub targetGasUsed = some ⟨u.i - targetGasUsed.i⟩ :=
    Dec.sub_eq_some (by omega) (by omega)
  have hden : blockGasLimit.sub targetGasUsed = some ⟨blockGasLimit.i - targetGasUsed.i⟩ :=
    Dec.sub_eq_some (by omega) (by omega)
  -- the share of the room used lies in [0, 1], since the gas used is capped at the limit
  obtain ⟨pct, hpct, hpct0, hpct1⟩ :=
    @Dec.quo_exists_le_one ⟨u.i - targetGasUsed.i⟩ ⟨blockGasLimit.i - targetGasUsed.i⟩
      (by dsimp only; omega) (by dsimp only; omega) (by dsimp only; omega)
  obtain ⟨adj, hadj, hadj0, hadj1⟩ := @Dec.mul_exists_le upward pct 1 hup0 hpct0 (by omega) (by omega)
  have hfactor := @Dec.add_eq_some (Dec.ofInt 1) adj (by omega) (by omega)
  -- so the factor lies in [1, 2], and the fee at most doubles
  obtain ⟨fee, hfee, -, -⟩ := @Dec.mul_exists_le prevBaseFee ⟨(Dec.ofInt 1).i + adj.i⟩ 2 hprev0
    (by dsimp only; omega) (by dsimp only; omega) (by omega)
  exact ⟨fee, raiseBaseFee_eq_some.2 ⟨_, _, _, _, _, hnum, hden, hpct, hadj, hfactor, hfee⟩⟩

theorem lowerBaseFee_exists {downward prevBaseFee targetGasUsed u : Dec}
    (hdown0 : 0 ≤ downward.i) (hdown1 : downward.i ≤ precisionReuse) (hprev0 : 0 ≤ prevBaseFee.i)
    (hprev : prevBaseFee.i < 2 ^ 314) (htarget : 0 < targetGasUsed.i)
    (htarget' : targetGasUsed.i < 2 ^ 315) (hu0 : 0 ≤ u.i) (hu : u.i ≤ targetGasUsed.i) :
    ∃ fee, lowerBaseFee downward prevBaseFee targetGasUsed u = some fee := by
  have hscale : precisionReuse = 1000000000000000000 := rfl
  have hone : (Dec.ofInt 1).i = precisionReuse := by simp
  have hnum : targetGasUsed.sub u = some ⟨targetGasUsed.i - u.i⟩ :=
    Dec.sub_eq_some (by omega) (by omega)
  obtain ⟨pct, hpct, hpct0, hpct1⟩ := @Dec.quo_exists_le_one ⟨targetGasUsed.i - u.i⟩ targetGasUsed
    (by dsimp only; omega) (by dsimp only; omega) htarget
  obtain ⟨adj, hadj, hadj0, hadj1⟩ :=
    @Dec.mul_exists_le downward pct 1 hdown0 hpct0 (by omega) (by omega)
  have hfactor := @Dec.sub_eq_some (Dec.ofInt 1) adj (by omega) (by omega)
  obtain ⟨fee, hfee, -, -⟩ := @Dec.mul_exists_le prevBaseFee ⟨(Dec.ofInt 1).i - adj.i⟩ 1 hprev0
    (by dsimp only; omega) (by dsimp only; omega) (by omega)
  exact ⟨fee, lowerBaseFee_eq_some.2 ⟨_, _, _, _, hnum, hpct, hadj, hfactor, hfee⟩⟩

theorem adjustedBaseFee_exists {params : Params} {blockGasLimit targetGasUsed prevBaseFee u : Dec}
    (hup : 0 ≤ params.maxDynamicBaseFeeUpwardAdjustment.i ∧
      params.maxDynamicBaseFeeUpwardAdjustment.i ≤ precisionReuse)
    (hdown : 0 ≤ params.maxDynamicBaseFeeDownwardAdjustment.i ∧
      params.maxDynamicBaseFeeDownwardAdjustment.i ≤ precisionReuse)
    (hprev0 : 0 ≤ prevBaseFee.i) (hprev : prevBaseFee.i < 2 ^ 314) (htarget : 0 < targetGasUsed.i)
    (htargetLimit : targetGasUsed.i ≤ blockGasLimit.i) (hu0 : 0 ≤ u.i) (hu : u.i ≤ blockGasLimit.i)
    (hlimit : blockGasLimit.i < 2 ^ 315) :
    ∃ fee, adjustedBaseFee params blockGasLimit targetGasUsed prevBaseFee u = some fee := by
  unfold adjustedBaseFee
  split_ifs with habove
  · exact raiseBaseFee_exists hup.1 hup.2 hprev0 hprev (Int.le_of_lt htarget) habove hu hlimit
  · rw [Dec.lt_iff, Int.not_lt] at habove
    exact lowerBaseFee_exists hdown.1 hdown.2 hprev0 hprev htarget (by omega) hu0 habove

theorem cappedGasUsed_nonneg {blockGasLimit : Dec} (hlimit : 0 ≤ blockGasLimit.i) {blockGasUsed : Nat}
    (hused : blockGasUsed < 2 ^ 63) : 0 ≤ (cappedGasUsed blockGasLimit blockGasUsed).i := by
  unfold cappedGasUsed
  rw [toInt64_of_lt hused]
  dsimp only
  split_ifs
  · exact hlimit
  · simp only [Dec.ofInt_i, precisionReuse]
    omega

theorem nextBaseFee_exists {params : Params} {blockGasLimit targetGasUsed prevBaseFee : Dec}
    {blockGasUsed : Nat}
    (hup : 0 ≤ params.maxDynamicBaseFeeUpwardAdjustment.i ∧
      params.maxDynamicBaseFeeUpwardAdjustment.i ≤ precisionReuse)
    (hdown : 0 ≤ params.maxDynamicBaseFeeDownwardAdjustment.i ∧
      params.maxDynamicBaseFeeDownwardAdjustment.i ≤ precisionReuse)
    (hprev0 : 0 ≤ prevBaseFee.i) (hprev : prevBaseFee.i < 2 ^ 314) (htarget : 0 < targetGasUsed.i)
    (htargetLimit : targetGasUsed.i ≤ blockGasLimit.i) (hlimit : blockGasLimit.i < 2 ^ 315)
    (hused : blockGasUsed < 2 ^ 63) :
    ∃ fee, nextBaseFee params blockGasLimit targetGasUsed prevBaseFee blockGasUsed = some fee := by
  obtain ⟨fee, hfee⟩ := adjustedBaseFee_exists hup hdown hprev0 hprev htarget htargetLimit
    (cappedGasUsed_nonneg (by omega) hused) (cappedGasUsed_le _ _) hlimit
  exact ⟨_, by rw [nextBaseFee, hfee]; rfl⟩

theorem nextBaseFee_target {params : Params} {blockGasLimit prevBaseFee : Dec} {target : Nat}
    (htarget : 0 < target) (htarget' : target < 2 ^ 63)
    (hlimit : (Dec.ofInt target).i ≤ blockGasLimit.i) (hprev : Dec.fits prevBaseFee.i = true) :
    nextBaseFee params blockGasLimit (Dec.ofInt target) prevBaseFee target =
      some (clampBaseFee params.minimumFeePerGas params.maximumFeePerGas prevBaseFee) := by
  have hcap : cappedGasUsed blockGasLimit target = Dec.ofInt target := by
    unfold cappedGasUsed
    rw [toInt64_of_lt htarget']
    dsimp only
    rw [if_neg (by rw [Dec.lt_iff]; omega)]
  have hnonzero : (Dec.ofInt target).i ≠ 0 := by
    simp only [Dec.ofInt_i, precisionReuse]
    omega
  have hlower : adjustedBaseFee params blockGasLimit (Dec.ofInt target) prevBaseFee (Dec.ofInt target) =
      some prevBaseFee := by
    unfold adjustedBaseFee
    rw [if_neg (by rw [Dec.lt_iff]; exact Int.lt_irrefl _), lowerBaseFee_self hnonzero hprev]
  rw [nextBaseFee, hcap, hlower]
  rfl

theorem adjustDynamicBaseFeePerGas_eq {params : Params} {maxGas : Int} {st : FeeStore}
    {blockGasUsed : Nat} (htarget : 0 < params.targetGasUsedPerBlock)
    (htarget' : params.targetGasUsedPerBlock < 2 ^ 63) :
    adjustDynamicBaseFeePerGas params (some maxGas) st blockGasUsed =
      (nextBaseFee params (Dec.ofInt maxGas) (Dec.ofInt params.targetGasUsedPerBlock)
        (getNextBaseFeePerGas params st) blockGasUsed).map fun newBaseFee =>
          (some newBaseFee,
            setNextBaseFeePerGas (setCurrBaseFeePerGas st (getNextBaseFeePerGas params st)) newBaseFee) := by
  have hzero : (Dec.ofInt params.targetGasUsedPerBlock).isZero = false := by
    simp only [Dec.isZero, Dec.ofInt_i, precisionReuse, beq_eq_false_iff_ne]
    omega
  simp only [adjustDynamicBaseFeePerGas, toInt64_of_lt htarget', hzero]
  rfl

theorem base_fee_monotone_below_int64_wrap (params : Params) (st : FeeStore) (maxGas : Int)
    (hprev : 0 ≤ (getNextBaseFeePerGas params st).i)
    (hup : 0 ≤ params.maxDynamicBaseFeeUpwardAdjustment.i ∧
      params.maxDynamicBaseFeeUpwardAdjustment.i ≤ Dec.one.i)
    (hdown : 0 ≤ params.maxDynamicBaseFeeDownwardAdjustment.i ∧
      params.maxDynamicBaseFeeDownwardAdjustment.i ≤ Dec.one.i)
    (htarget : 0 < params.targetGasUsedPerBlock) (hlimit : (params.targetGasUsedPerBlock : Int) < maxGas)
    (hmaxGas : maxGas ≤ maxInt64) :
    (∀ used₁ used₂ fee₁ fee₂ st₁ st₂, used₁ ≤ used₂ → used₂ < 2 ^ 63 →
      adjustDynamicBaseFeePerGas params (some maxGas) st used₁ = some (some fee₁, st₁) →
      adjustDynamicBaseFeePerGas params (some maxGas) st used₂ = some (some fee₂, st₂) →
      fee₁.i ≤ fee₂.i) ∧
    ((getNextBaseFeePerGas params st).i < 2 ^ 314 → ∀ used < 2 ^ 63, ∃ fee st',
      adjustDynamicBaseFeePerGas params (some maxGas) st used = some (some fee, st')) ∧
    (Dec.fits (getNextBaseFeePerGas params st).i = true → ∃ st',
      adjustDynamicBaseFeePerGas params (some maxGas) st params.targetGasUsedPerBlock =
        some (some (clampBaseFee params.minimumFeePerGas params.maximumFeePerGas
          (getNextBaseFeePerGas params st)), st')) := by
  have htarget' : params.targetGasUsedPerBlock < 2 ^ 63 := by
    unfold maxInt64 at hmaxGas
    omega
  -- the target and the limit as decimals: the target positive and below the limit, which is
  -- below `2 ^ 63` whole units
  have hscale : precisionReuse = 1000000000000000000 := rfl
  have htargetPos : 0 < (Dec.ofInt params.targetGasUsedPerBlock).i := by
    simp only [Dec.ofInt_i, hscale]
    omega
  have htargetLimit : (Dec.ofInt params.targetGasUsedPerBlock).i ≤ (Dec.ofInt maxGas).i := by
    simp only [Dec.ofInt_i, hscale]
    omega
  have hlimit' : (Dec.ofInt maxGas).i < 2 ^ 315 := by
    unfold maxInt64 at hmaxGas
    simp only [Dec.ofInt_i, hscale]
    omega
  refine ⟨?_, ?_, ?_⟩
  · intro used₁ used₂ fee₁ fee₂ st₁ st₂ hle hlt h₁ h₂
    rw [adjustDynamicBaseFeePerGas_eq htarget htarget'] at h₁ h₂
    obtain ⟨new₁, hnew₁, hr₁⟩ := Option.map_eq_some_iff.1 h₁
    obtain ⟨new₂, hnew₂, hr₂⟩ := Option.map_eq_some_iff.1 h₂
    simp only [Prod.mk.injEq, Option.some.injEq] at hr₁ hr₂
    rw [← hr₁.1, ← hr₂.1]
    exact nextBaseFee_mono hup.1 hdown.1 hprev htargetPos hle hlt hnew₁ hnew₂
  · intro hbound used hused
    obtain ⟨fee, hfee⟩ :=
      nextBaseFee_exists hup hdown hprev hbound htargetPos htargetLimit hlimit' hused
    exact ⟨fee, _, by rw [adjustDynamicBaseFeePerGas_eq htarget htarget', hfee]; rfl⟩
  · intro hfits
    rw [adjustDynamicBaseFeePerGas_eq htarget htarget',
      nextBaseFee_target htarget htarget' htargetLimit hfits]
    exact ⟨_, rfl⟩

theorem base_fee_fixed_at_default_target :
    ∃ st', adjustDynamicBaseFeePerGas defaultParams (some 10000000) FeeStore.empty
        defaultParams.targetGasUsedPerBlock =
      some (some (clampBaseFee defaultParams.minimumFeePerGas defaultParams.maximumFeePerGas
        (getNextBaseFeePerGas defaultParams FeeStore.empty)), st') :=
  (base_fee_monotone_below_int64_wrap defaultParams FeeStore.empty 10000000 (by decide) (by decide)
    (by decide) (by decide) (by decide) (by decide)).2.2 (by decide)

-- Past `2 ^ 63` the gas used reads as a negative `int64`: a full block at the default
-- parameters raises the fee, one more unit of gas drops it to the minimum.
theorem base_fee_falls_past_int64_wrap :
    adjustDynamicBaseFeePerGas defaultParams (some 10000000) FeeStore.empty (2 ^ 63 - 1) =
      some (some (Dec.ofInt 1018900000),
        ⟨some (Dec.ofInt 1000000000), some (Dec.ofInt 1018900000)⟩) ∧
    adjustDynamicBaseFeePerGas defaultParams (some 10000000) FeeStore.empty (2 ^ 63) =
      some (some (Dec.ofInt 1000000000),
        ⟨some (Dec.ofInt 1000000000), some (Dec.ofInt 1000000000)⟩) := by
  decide

end SeiChain.Evm
