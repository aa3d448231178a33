import SeiChain.Lib.GoInt

namespace SeiChain.App

open GoInt

-- What the check reads of a transaction that decodes: the results of `IsTxGasless` and
-- `IsEVMMessage`, an EVM transaction's association flag and gas limit, a Cosmos one's `GetGas`.
structure DecodedTx where
  isGasless : Except String Bool
  isEVM : Except String Bool
  isAssociateTx : Bool
  evmGas : UInt64
  feeGas : Option UInt64
  gasEstimate : UInt64
  deriving DecidableEq

-- The consensus block parameters the check reads.
structure BlockParams where
  maxGas : Int
  minTxsInBlock : Int
  deriving DecidableEq

def minGasEVMTx : Nat := 21000

-- The gas a counted transaction wants; `none` for the transactions the loop skips.
def DecodedTx.gasWanted? (tx : DecodedTx) : Option Nat :=
  match tx.isGasless, tx.isEVM with
  | .ok false, .ok true => if tx.isAssociateTx then none else some tx.evmGas.toNat
  | .ok false, .ok false => tx.feeGas.map UInt64.toNat
  | _, _ => none

def DecodedTx.charge (tx : DecodedTx) (gasWanted : Nat) : Nat :=
  if minGasEVMTx ≤ tx.gasEstimate.toNat then tx.gasEstimate.toNat else gasWanted

-- The loop, from a running `uint64` total and the count of transactions that want gas; a
-- transaction that does not decode is `none`.
def checkTotalBlockGasFrom (params : BlockParams) : Nat → Nat → List (Option DecodedTx) → Bool
  | _, _, [] => true
  | totalGas, nonzeroTxsCnt, none :: txs => checkTotalBlockGasFrom params totalGas nonzeroTxsCnt txs
  | totalGas, nonzeroTxsCnt, some tx :: txs =>
    match tx.gasWanted? with
    | none => checkTotalBlockGasFrom params totalGas nonzeroTxsCnt txs
    | some gasWanted =>
      -- Go evaluates the subtraction only when `int64(gasWanted)` is not negative, so it
      -- cannot wrap
      if toInt64 gasWanted < 0 ∨ maxInt64 - toInt64 gasWanted < toInt64 totalGas then false
      else
        let nonzeroTxsCnt := if 0 < gasWanted then nonzeroTxsCnt + 1 else nonzeroTxsCnt
        let totalGas := addUint64 totalGas (tx.charge gasWanted)
        if (toUint64 params.maxGas : Int) < totalGas ∧ params.minTxsInBlock < nonzeroTxsCnt then
          false
        else checkTotalBlockGasFrom params totalGas nonzeroTxsCnt txs

def checkTotalBlockGas (params : BlockParams) (txs : List (Option DecodedTx)) : Bool :=
  checkTotalBlockGasFrom params 0 0 txs

def countedTxs (txs : List (Option DecodedTx)) : List (DecodedTx × Nat) :=
  txs.filterMap fun tx => tx.bind fun tx => tx.gasWanted?.map fun gasWanted => (tx, gasWanted)

-- Rejects when a counted transaction wants `2 ^ 63` gas or more, or its gas wanted takes the
-- exact total before it past the `int64` range, or the exact total after it passes the limit
-- with more than `MinTxsInBlock` transactions so far wanting gas.
def exactRejects (params : BlockParams) : Nat → Nat → List (DecodedTx × Nat) → Bool
  | _, _, [] => false
  | total, count, (tx, gasWanted) :: rest =>
    let count := if 0 < gasWanted then count + 1 else count
    decide (2 ^ 63 ≤ gasWanted) || decide (maxInt64 < total + gasWanted) ||
      (decide (params.maxGas < total + tx.charge gasWanted) && decide (params.minTxsInBlock < count)) ||
      exactRejects params (total + tx.charge gasWanted) count rest

def exactStops (params : BlockParams) (total count gasWanted charge : Nat) : Bool :=
  decide (2 ^ 63 ≤ gasWanted) || decide (maxInt64 < total + gasWanted) ||
    (decide (params.maxGas < total + charge) && decide (params.minTxsInBlock < count))

theorem exactRejects_cons (params : BlockParams) (total count : Nat) (tx : DecodedTx)
    (gasWanted : Nat) (rest : List (DecodedTx × Nat)) :
    exactRejects params total count ((tx, gasWanted) :: rest) =
      let count := if 0 < gasWanted then count + 1 else count
      (exactStops params total count gasWanted (tx.charge gasWanted) ||
        exactRejects params (total + tx.charge gasWanted) count rest) := rfl

theorem lt_of_exactStops_eq_false {params : BlockParams} {total count gasWanted charge : Nat}
    (h : exactStops params total count gasWanted charge = false) (hcharge : charge ≤ gasWanted) :
    total + charge < 2 ^ 63 := by
  simp only [exactStops, Bool.or_eq_false_iff, decide_eq_false_iff_not, not_lt] at h
  unfold maxInt64 at h
  omega

@[simp] theorem countedTxs_nil : countedTxs [] = [] := rfl

@[simp] theorem countedTxs_none (txs : List (Option DecodedTx)) :
    countedTxs (none :: txs) = countedTxs txs := rfl

theorem countedTxs_skip {tx : DecodedTx} (txs : List (Option DecodedTx)) (h : tx.gasWanted? = none) :
    countedTxs (some tx :: txs) = countedTxs txs := by
  simp [countedTxs, h]

theorem countedTxs_counted {tx : DecodedTx} {gasWanted : Nat} (txs : List (Option DecodedTx))
    (h : tx.gasWanted? = some gasWanted) :
    countedTxs (some tx :: txs) = (tx, gasWanted) :: countedTxs txs := by
  simp [countedTxs, h]

theorem gasWanted?_lt {tx : DecodedTx} {gasWanted : Nat} (h : tx.gasWanted? = some gasWanted) :
    gasWanted < 2 ^ 64 := by
  unfold DecodedTx.gasWanted? at h
  split at h
  · split at h
    · cases h
    · cases h
      exact UInt64.toNat_lt _
  · obtain ⟨g, -, rfl⟩ := Option.map_eq_some_iff.1 h
    exact UInt64.toNat_lt g
  · cases h

-- Where exact arithmetic stops the guard on the gas wanted stops the code; otherwise the total it
-- goes on with is exact.
theorem checkTotalBlockGasFrom_counted {params : BlockParams} (hmax0 : 0 ≤ params.maxGas)
    (hmax : params.maxGas ≤ maxInt64) {tx : DecodedTx} {gasWanted totalGas nonzeroTxsCnt : Nat}
    (txs : List (Option DecodedTx)) (hgw : tx.gasWanted? = some gasWanted)
    (hcharged : tx.charge gasWanted ≤ gasWanted) (htotal : totalGas < 2 ^ 63) :
    checkTotalBlockGasFrom params totalGas nonzeroTxsCnt (some tx :: txs) =
      let count := if 0 < gasWanted then nonzeroTxsCnt + 1 else nonzeroTxsCnt
      (!exactStops params totalGas count gasWanted (tx.charge gasWanted) &&
        checkTotalBlockGasFrom params (totalGas + tx.charge gasWanted) count txs) := by
  have hgw64 := gasWanted?_lt hgw
  simp only [checkTotalBlockGasFrom, hgw, exactStops]
  generalize (if 0 < gasWanted then nonzeroTxsCnt + 1 else nonzeroTxsCnt) = count
  by_cases hbig : 2 ^ 63 ≤ gasWanted
  · -- the code sees a negative `int64`, exact arithmetic a gas wanted out of range
    rw [if_pos (Or.inl ((toInt64_neg_iff hgw64).2 hbig)), decide_eq_true hbig]
    rfl
  rw [decide_eq_false hbig, Bool.false_or]
  have hg : toInt64 gasWanted = gasWanted := toInt64_of_lt (by omega)
  have ht : toInt64 totalGas = totalGas := toInt64_of_lt htotal
  by_cases hover : maxInt64 < (totalGas : Int) + gasWanted
  · have hguard : toInt64 gasWanted < 0 ∨ maxInt64 - toInt64 gasWanted < toInt64 totalGas :=
      Or.inr (by rw [hg, ht]; omega)
    rw [if_pos hguard, decide_eq_true hover]
    rfl
  -- the guard passes, and the charge fits in the room it left
  have hguard : ¬ (toInt64 gasWanted < 0 ∨ maxInt64 - toInt64 gasWanted < toInt64 totalGas) := by
    rw [hg, ht]
    omega
  rw [if_neg hguard, decide_eq_false hover, Bool.false_or]
  unfold maxInt64 at hmax hover
  have hsum : addUint64 totalGas (tx.charge gasWanted) = totalGas + tx.charge gasWanted :=
    addUint64_of_lt (by omega)
  have hmaxGas : (toUint64 params.maxGas : Int) = params.maxGas :=
    toUint64_of_nonneg hmax0 (by omega)
  rw [hsum, hmaxGas, Int.natCast_add]
  by_cases hlimit : params.maxGas < (totalGas : Int) + (tx.charge gasWanted : Int) ∧
      params.minTxsInBlock < count
  · rw [if_pos hlimit, decide_eq_true hlimit.1, decide_eq_true hlimit.2]
    rfl
  · have hstop : (decide (params.maxGas < (totalGas : Int) + (tx.charge gasWanted : Int)) &&
        decide (params.minTxsInBlock < (count : Int))) = false := by
      rw [← Bool.decide_and, decide_eq_false hlimit]
    rw [if_neg hlimit, hstop]
    rfl

-- While no charge exceeds the gas wanted the guard also bounds the total, which stays exact and
-- below `2 ^ 63`. By induction on the transactions.
theorem checkTotalBlockGasFrom_eq_exact {params : BlockParams} (hmax0 : 0 ≤ params.maxGas)
    (hmax : params.maxGas ≤ maxInt64) (txs : List (Option DecodedTx)) :
    ∀ {totalGas nonzeroTxsCnt : Nat}, (∀ p ∈ countedTxs txs, p.1.charge p.2 ≤ p.2) →
      totalGas < 2 ^ 63 →
      checkTotalBlockGasFrom params totalGas nonzeroTxsCnt txs =
        !exactRejects params totalGas nonzeroTxsCnt (countedTxs txs) := by
  induction txs with
  | nil => intros; rfl
  | cons tx txs ih =>
    intro totalGas nonzeroTxsCnt hcharge htotal
    cases tx with
    | none =>
      rw [countedTxs_none] at hcharge ⊢
      exact ih hcharge htotal
    | some tx =>
      cases hgw : tx.gasWanted? with
      | none =>
        rw [countedTxs_skip txs hgw] at hcharge ⊢
        simp only [checkTotalBlockGasFrom, hgw]
        exact ih hcharge htotal
      | some gasWanted =>
        rw [countedTxs_counted txs hgw] at hcharge ⊢
        have hcharged : tx.charge gasWanted ≤ gasWanted := hcharge _ List.mem_cons_self
        have hrest : ∀ p ∈ countedTxs txs, p.1.charge p.2 ≤ p.2 :=
          fun p hp => hcharge p (List.mem_cons_of_mem _ hp)
        rw [checkTotalBlockGasFrom_counted hmax0 hmax txs hgw hcharged htotal, exactRejects_cons]
        dsimp only
        cases hstop : exactStops params totalGas _ gasWanted (tx.charge gasWanted) with
        | true => rfl
        | false =>
          -- both go on, with the same exact total
          rw [ih hrest (lt_of_exactStops_eq_false hstop hcharged)]
          rfl

theorem checkTotalBlockGas_eq_exact {params : BlockParams} (hmax0 : 0 ≤ params.maxGas)
    (hmax : params.maxGas ≤ maxInt64) (txs : List (Option DecodedTx))
    (hcharge : ∀ p ∈ countedTxs txs, p.1.charge p.2 ≤ p.2) :
    checkTotalBlockGas params txs = !exactRejects params 0 0 (countedTxs txs) :=
  checkTotalBlockGasFrom_eq_exact hmax0 hmax txs hcharge (by decide)

def evmTxWithEstimate (gasEstimate : UInt64) : DecodedTx :=
  ⟨.ok false, .ok true, false, 21000, none, gasEstimate⟩

theorem two_transfers_checked_exactly :
    (0 : Int) ≤ (⟨10000000, 1⟩ : BlockParams).maxGas ∧ (⟨10000000, 1⟩ : BlockParams).maxGas ≤ maxInt64 ∧
      (∀ p ∈ countedTxs [some (evmTxWithEstimate 21000), some (evmTxWithEstimate 0)], p.1.charge p.2 ≤ p.2) ∧
      checkTotalBlockGas ⟨10000000, 1⟩ [some (evmTxWithEstimate 21000), some (evmTxWithEstimate 0)] =
        !exactRejects ⟨10000000, 1⟩ 0 0
          (countedTxs [some (evmTxWithEstimate 21000), some (evmTxWithEstimate 0)]) := by
  have hmax0 : (0 : Int) ≤ (⟨10000000, 1⟩ : BlockParams).maxGas := by decide
  have hmax : (⟨10000000, 1⟩ : BlockParams).maxGas ≤ maxInt64 := by decide
  have hcharge : ∀ p ∈ countedTxs [some (evmTxWithEstimate 21000), some (evmTxWithEstimate 0)],
      p.1.charge p.2 ≤ p.2 := by decide
  exact ⟨hmax0, hmax, hcharge, checkTotalBlockGas_eq_exact hmax0 hmax _ hcharge⟩

-- The second estimate takes the `uint64` total around to 100000, under the limit, while the exact
-- total is past both the limit and the `int64` range.
theorem block_gas_check_accepts_wrapped_total :
    checkTotalBlockGas ⟨10000000, 1⟩
        [some (evmTxWithEstimate 18446744073709451616), some (evmTxWithEstimate 200000)] = true ∧
      exactRejects ⟨10000000, 1⟩ 0 0 (countedTxs
        [some (evmTxWithEstimate 18446744073709451616), some (evmTxWithEstimate 200000)]) = true := by
  decide

end SeiChain.App
