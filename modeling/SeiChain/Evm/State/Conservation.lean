import SeiChain.Evm.State.Balance
import SeiChain.Evm.State.Revert

namespace SeiChain.Evm.State

open KVStore

namespace DBImpl

variable {bank : BankKeeper} {totalWei : BankView → Int}

structure Conserved (totalWei : BankView → Int) (T : Int) (s : DBImpl) : Prop where
  current : worth totalWei s = T
  saved : ∀ i (hi : i < s.snapshottedCtxs.length),
    totalWei (bankView (s.store.get s.snapshottedCtxs[i])) +
      ((s.tempStatesHist.take (i + 1)).map TemporaryState.surplus).sum = T

theorem Conserved.of_local {T : Int} {s s' : DBImpl} (h : Conserved totalWei T s) (ha : Aligned s)
    (hl : Local s s') (hw : worth totalWei s' = worth totalWei s) : Conserved totalWei T s' where
  current := hw.trans h.current
  saved i hi := by
    have hi' : i < s.snapshottedCtxs.length := hl.snapshottedCtxs_eq ▸ hi
    obtain ⟨t, rest, hctx⟩ := ha.exists_cons
    have hnot : t ∉ s.snapshottedCtxs[i] := by
      rw [ha.snapshotted_eq i hi', hctx]
      exact not_mem_drop_of_pos (hctx ▸ ha.wellFormed) (by omega)
    have hget : s'.store.get s.snapshottedCtxs[i] = s.store.get s.snapshottedCtxs[i] :=
      funext (MultiStore.get_congr (hl.agree t rest hctx _ hnot))
    simp only [hl.snapshottedCtxs_eq, hl.tempStatesHist_eq, hget]
    exact h.saved i hi'

theorem conserved_addLog {T : Int} {s : DBImpl} (h : Conserved totalWei T s) (l : Log) :
    Conserved totalWei T (s.addLog l) :=
  ⟨h.current, h.saved⟩

-- The new saved entry is the context just left, with all the surplus recorded so far.
theorem conserved_snapshot {T : Int} {s : DBImpl} (h : Conserved totalWei T s) (hs : Stacked s) :
    Conserved totalWei T s.snapshot.1 where
  current := (worth_snapshot hs.wellFormed).trans h.current
  saved i hi := by
    have hagree : ∀ c : Chain, (∀ j ∈ c, j ∈ s.ctx) →
        (s.store.cacheMultiStore s.ctx).1.get c = s.store.get c := fun c hc =>
      funext (MultiStore.get_congr
        (MultiStore.agreeOn_cacheMultiStore s.store s.ctx c fun j hj => hs.wellFormed.2 j (hc j hj)))
    simp only [snapshot, List.length_append, List.length_singleton] at hi ⊢
    rcases Nat.lt_succ_iff_lt_or_eq.mp hi with hi | rfl
    · -- an entry saved before: the layer and the surplus up to it are unchanged
      have hsub : ∀ j ∈ s.snapshottedCtxs[i], j ∈ s.ctx := by
        rw [hs.snapshotted_eq i hi]
        exact fun j hj => List.mem_of_mem_drop hj
      rw [List.getElem_append_left hi, List.take_append_of_le_length (by rw [hs.length_hist]; omega)]
      rw [hagree _ hsub]
      exact h.saved i hi
    · -- the entry for the context just saved
      rw [List.getElem_append_right (Nat.le_refl _), List.take_of_length_le (by simp [hs.length_hist])]
      simp only [Nat.sub_self, List.getElem_cons_zero, List.map_append, List.sum_append,
        List.map_cons, List.map_nil, List.sum_cons, List.sum_nil]
      have hcur := h.current
      simp only [worth, weiTotal, view, totalSurplus] at hcur
      rw [← hcur, hagree s.ctx fun _ hj => hj]
      omega

theorem conserved_revertToSnapshot {T : Int} {s s' : DBImpl} {rev : Nat}
    (h : Conserved totalWei T s) (ha : Aligned s) (hs : s.revertToSnapshot rev = some s') :
    Conserved totalWei T s' := by
  obtain ⟨hrev, hhist, rfl⟩ := revertToSnapshot_eq hs
  apply conserved_snapshot _ (stacked_truncate ha hrev _)
  constructor
  · have hsaved := h.saved rev hrev
    rw [List.take_succ_eq_append_getElem hhist, List.map_append, List.sum_append] at hsaved
    simp only [worth, weiTotal, view, totalSurplus, truncate]
    simp only [List.map_cons, List.map_nil, List.sum_cons, List.sum_nil] at hsaved
    omega
  · intro i hi
    simp only [truncate, List.length_take] at hi ⊢
    have hi' : i < rev := by omega
    rw [List.getElem_take, List.take_take, Nat.min_eq_left (by omega)]
    exact h.saved i (by omega)

theorem conserved_step (hbank : bank.Exact totalWei) {T : Int} {s s' : DBImpl} {op : Op}
    (h : Conserved totalWei T s) (ha : Aligned s) (hs : step bank s op = some s')
    (herr : s'.err = none) : Conserved totalWei T s' := by
  cases op with
  | revertToSnapshot rev => exact conserved_revertToSnapshot h ha hs
  | _ =>
    have hw := worth_step hbank ha.wellFormed (by intro rev hop; cases hop) hs herr
    rcases step_cases bank hs with hl | ⟨l, rfl⟩ | rfl | ⟨rev, hop, -⟩
    · exact h.of_local ha hl hw
    · exact conserved_addLog h l
    · exact conserved_snapshot h ha.toStacked
    · cases hop

theorem err_none_of_step {s s' : DBImpl} {op : Op} (hs : step bank s op = some s')
    (herr : s'.err = none) : s.err = none := by
  rcases step_cases bank hs with hl | ⟨l, rfl⟩ | rfl | ⟨rev, -, hrev⟩
  · exact hl.err_none herr
  · exact herr
  · exact herr
  · obtain ⟨_, _, rfl⟩ := revertToSnapshot_eq hrev
    exact herr

theorem err_none_of_run {s s' : DBImpl} {ops : List Op} (hrun : run bank s ops = some s')
    (herr : s'.err = none) : s.err = none := by
  induction ops generalizing s with
  | nil =>
    cases hrun
    exact herr
  | cons op ops ih =>
    rw [run_cons] at hrun
    cases hs : step bank s op with
    | none => simp [hs] at hrun
    | some s₁ =>
      rw [hs, Option.bind_some] at hrun
      exact err_none_of_step hs (ih hrun)

-- Along a run that records no error, by induction on the calls.
theorem conserved_run (hbank : bank.Exact totalWei) {T : Int} {s s' : DBImpl} {ops : List Op}
    (h : Conserved totalWei T s) (ha : Aligned s) (hrun : run bank s ops = some s')
    (herr : s'.err = none) : Conserved totalWei T s' := by
  induction ops generalizing s with
  | nil =>
    cases hrun
    exact h
  | cons op ops ih =>
    rw [run_cons] at hrun
    cases hs : step bank s op with
    | none => simp [hs] at hrun
    | some s₁ =>
      rw [hs, Option.bind_some] at hrun
      have herr₁ : s₁.err = none := err_none_of_run hrun herr
      exact ih (conserved_step hbank h ha hs herr₁) (aligned_step bank ha hs) hrun

theorem conserved_newDBImpl {store : Store} {ctx : Chain} (hwf : store.WellFormed ctx)
    (coinbaseAddress : AccAddress) (coinbaseEvmAddress : Address) (simulation : Bool) :
    Conserved totalWei (totalWei (bankView (store.get ctx)))
      (newDBImpl store ctx coinbaseAddress coinbaseEvmAddress simulation) := by
  unfold newDBImpl
  refine conserved_snapshot ⟨?_, fun i hi => absurd hi (Nat.not_lt_zero i)⟩
    ⟨rfl, Nat.zero_le _, hwf, fun i hi => absurd hi (Nat.not_lt_zero i)⟩
  simp [worth, weiTotal, view, totalSurplus, newTemporaryState]

section Exact

variable (hbank : bank.Exact totalWei)
include hbank

theorem sweepAccount_keeps {s : DBImpl} (hnd : s.ctx.Nodup) (entry : Address × Bytes)
    (herr : (sweepAccount bank s entry).err = none) :
    weiTotal totalWei (sweepAccount bank s entry) = weiTotal totalWei s ∧
      (sweepAccount bank s entry).totalSurplus = s.totalSurplus := by
  unfold sweepAccount at herr ⊢
  dsimp only at herr ⊢
  split_ifs at herr ⊢ with hdel hzero
  · exact ⟨rfl, rfl⟩
  · exact ⟨rfl, rfl⟩
  · -- the debit of the account, then the credit of the coinbase, both of `residual`
    have hl := local_subBalance bank s entry.1 (getBalance bank s entry.1)
    have herr₁ := (local_addBalance bank _ s.coinbaseEvmAddress (getBalance bank s entry.1)).err_none herr
    obtain ⟨ht₁, hs₁⟩ := subBalance_moves hbank hnd entry.1 _ herr₁
    obtain ⟨ht₂, hs₂⟩ := addBalance_moves hbank (hl.ctx_eq ▸ hnd) s.coinbaseEvmAddress _ herr
    exact ⟨by omega, by omega⟩

theorem foldl_sweepAccount_keeps {s : DBImpl} (hnd : s.ctx.Nodup) (entries : List (Address × Bytes))
    (herr : (entries.foldl (sweepAccount bank) s).err = none) :
    weiTotal totalWei (entries.foldl (sweepAccount bank) s) = weiTotal totalWei s ∧
      (entries.foldl (sweepAccount bank) s).totalSurplus = s.totalSurplus := by
  induction entries generalizing s with
  | nil => exact ⟨rfl, rfl⟩
  | cons entry entries ih =>
    rw [List.foldl_cons] at herr ⊢
    have hl := local_sweepAccount bank s entry
    have herr₁ := (local_foldl_sweepAccount bank _ entries).err_none herr
    obtain ⟨ht₁, hs₁⟩ := sweepAccount_keeps hbank hnd entry herr₁
    obtain ⟨ht₂, hs₂⟩ := ih (hl.ctx_eq ▸ hnd) herr
    exact ⟨ht₂.trans ht₁, hs₂.trans hs₁⟩

omit hbank in
theorem worth_clearAccountStateIfDestructed {s : DBImpl} (hnd : s.ctx.Nodup) (st : TemporaryState) :
    worth totalWei (clearAccountStateIfDestructed s st) = worth totalWei s := by
  unfold clearAccountStateIfDestructed
  induction st.transientAccounts generalizing s with
  | nil => rfl
  | cons entry entries ih =>
    rw [List.foldl_cons]
    by_cases hdel : entry.2 ≠ accountDeleted
    · rw [if_pos hdel]
      exact ih hnd
    · -- the account's own keys are deleted, none of them the bank's
      rw [if_neg hdel, @ih (s.applyWrites (clearAccountState s.view entry.1)) hnd]
      exact worth_applyWrites_of_not_bank hnd (clearAccountState_not_bank _ _)

theorem worth_finalizeLayer {s : DBImpl} (hnd : s.ctx.Nodup) (st : TemporaryState)
    (herr : (finalizeLayer bank s st).err = none) :
    worth totalWei (finalizeLayer bank s st) = worth totalWei s := by
  have hl := local_handleResidualFundsInDestructedAccounts bank s st
  have herr₁ := (local_clearAccountStateIfDestructed _ st).err_none herr
  obtain ⟨ht, hs⟩ := foldl_sweepAccount_keeps hbank hnd st.transientAccounts herr₁
  rw [finalizeLayer, worth_clearAccountStateIfDestructed (hl.ctx_eq ▸ hnd)]
  simp only [worth, handleResidualFundsInDestructedAccounts] at ht hs ⊢
  omega

theorem worth_foldl_finalizeLayer {s : DBImpl} (hnd : s.ctx.Nodup) (hist : List TemporaryState)
    (herr : (hist.foldl (finalizeLayer bank) s).err = none) :
    worth totalWei (hist.foldl (finalizeLayer bank) s) = worth totalWei s := by
  induction hist generalizing s with
  | nil => rfl
  | cons st hist ih =>
    rw [List.foldl_cons] at herr ⊢
    have hl := local_finalizeLayer bank s st
    have herr₁ := (local_foldl_finalizeLayer bank _ hist).err_none herr
    rw [ih (hl.ctx_eq ▸ hnd) herr, worth_finalizeLayer hbank hnd st herr₁]

omit hbank in
theorem err_none_of_finalize {s s' : DBImpl} {surplus : Int}
    (hfin : finalize bank s = some (s', .ok surplus)) : s.err = none := by
  unfold finalize at hfin
  split at hfin
  · cases hfin
  · split at hfin
    · cases hfin
    · assumption

theorem finalize_conserved {T : Int} {s s' : DBImpl} {surplus : Int} (h : Conserved totalWei T s)
    (ha : Aligned s) (hfin : finalize bank s = some (s', .ok surplus)) (herr : s'.err = none) :
    totalWei (bankView (s'.store.get (s.ctx.drop s.snapshottedCtxs.length))) = T - surplus := by
  unfold finalize at hfin
  split at hfin
  · cases hfin
  · split at hfin
    · cases hfin
    · simp only [Option.some.injEq, Prod.mk.injEq, Except.ok.injEq] at hfin
      obtain ⟨rfl, rfl⟩ := hfin
      -- the layers are swept and cleared in place: a local change of the state
      have hl := (local_finalizeLayer bank s s.tempStateCurrent).trans
        (local_foldl_finalizeLayer bank _ s.tempStatesHist)
      have hw := worth_foldl_finalizeLayer hbank ((local_finalizeLayer bank s _).ctx_eq ▸
        ha.wellFormed.nodup) s.tempStatesHist herr
      have hw₀ := worth_finalizeLayer hbank ha.wellFormed.nodup s.tempStateCurrent
        ((local_foldl_finalizeLayer bank _ s.tempStatesHist).err_none herr)
      have hflush := get_flushCtxs (ha.of_local hl)
      rw [hl.ctx_eq, hl.snapshottedCtxs_eq] at hflush
      have hcur := h.current
      simp only [worth, weiTotal, totalSurplus] at hw hw₀ hcur ⊢
      simp only [hflush]
      omega

end Exact

-- A bank of two accounts `p` and `q`, their usei and wei kept as unary byte strings under the
-- keys `0 :: a` and `1 :: a`; every call but those on the two fails.
def unaryAmount (v : BankView) (k : Bytes) : Int := ((v k).map List.length).getD 0

def setAmount (k : Bytes) (n : Int) : Writes Bytes Bytes :=
  fun k' => if k' = k then some (some (List.replicate n.toNat 1)) else none

def twoAccountBank (p q : AccAddress) : BankKeeper where
  getBalance v a := unaryAmount v (0 :: a)
  lockedCoins _ _ := 0
  getWeiBalance v a := unaryAmount v (1 :: a)
  addCoins v a x :=
    if (a = p ∨ a = q) ∧ 0 ≤ x then .ok (setAmount (0 :: a) (unaryAmount v (0 :: a) + x))
    else .error "unknown account"
  subUnlockedCoins v a x :=
    if (a = p ∨ a = q) ∧ 0 ≤ x ∧ x ≤ unaryAmount v (0 :: a) then
      .ok (setAmount (0 :: a) (unaryAmount v (0 :: a) - x))
    else .error "insufficient funds"
  addWei v a x :=
    if (a = p ∨ a = q) ∧ 0 ≤ x then .ok (setAmount (1 :: a) (unaryAmount v (1 :: a) + x))
    else .error "unknown account"
  subWei _ _ _ := .error "insufficient funds"

def twoAccountTotal (p q : AccAddress) (v : BankView) : Int :=
  (unaryAmount v (0 :: p) * useiToSweiMultiplier + unaryAmount v (1 :: p)) +
    (unaryAmount v (0 :: q) * useiToSweiMultiplier + unaryAmount v (1 :: q))

theorem unaryAmount_nonneg (v : BankView) (k : Bytes) : 0 ≤ unaryAmount v k := by
  unfold unaryAmount
  cases v k <;> simp

theorem unaryAmount_setAmount (v : BankView) (k k' : Bytes) {n : Int} (hn : 0 ≤ n) :
    unaryAmount ((setAmount k n).applyTo v) k' = if k' = k then n else unaryAmount v k' := by
  unfold unaryAmount setAmount
  by_cases h : k' = k
  · simp only [h, if_true, Writes.applyTo_apply, Option.getD_some, Option.map_some,
      List.length_replicate, Option.getD_some]
    omega
  · simp [h]

theorem twoAccountTotal_setAmount {p q : AccAddress} (hpq : p ≠ q) (v : BankView)
    {a : AccAddress} (ha : a = p ∨ a = q) {b : UInt8} (hb : b = 0 ∨ b = 1) {n : Int}
    (hn : 0 ≤ n) :
    twoAccountTotal p q ((setAmount (b :: a) n).applyTo v) = twoAccountTotal p q v +
      (n - unaryAmount v (b :: a)) * (if b = 0 then useiToSweiMultiplier else 1) := by
  rcases ha with rfl | rfl <;> rcases hb with rfl | rfl <;>
    simp [twoAccountTotal, unaryAmount_setAmount _ _ _ hn, hpq, Ne.symm hpq,
      useiToSweiMultiplier] <;> omega

theorem twoAccountBank_exact {p q : AccAddress} (hpq : p ≠ q) :
    (twoAccountBank p q).Exact (twoAccountTotal p q) where
  addCoins v a x w h := by
    simp only [twoAccountBank] at h
    split_ifs at h with ha
    cases h
    have hn := unaryAmount_nonneg v (0 :: a)
    rw [twoAccountTotal_setAmount hpq v ha.1 (.inl rfl) (by omega), if_pos rfl]
    simp only [useiToSweiMultiplier]
    omega
  subUnlockedCoins v a x w h := by
    simp only [twoAccountBank] at h
    split_ifs at h with ha
    cases h
    rw [twoAccountTotal_setAmount hpq v ha.1 (.inl rfl) (by omega), if_pos rfl]
    simp only [useiToSweiMultiplier]
    omega
  addWei v a x w h := by
    simp only [twoAccountBank] at h
    split_ifs at h with ha
    cases h
    have hn := unaryAmount_nonneg v (1 :: a)
    rw [twoAccountTotal_setAmount hpq v ha.1 (.inr rfl) (by omega), if_neg (by decide)]
    omega
  subWei v a x w h := by
    cases h

end DBImpl

end SeiChain.Evm.State
