import SeiChain.Evm.State.Finalize

namespace SeiChain.Evm.State

open KVStore

-- The bank keeper moves exactly the amount it is asked to: `totalWei` is the sum over every
-- account of usei·10^12 + wei, and a successful call changes it by the amount, in usei for
-- the coin calls and in wei for the wei calls. A failed call writes nothing.
structure BankKeeper.Exact (bank : BankKeeper) (totalWei : BankView → Int) : Prop where
  addCoins : ∀ v a x w, bank.addCoins v a x = .ok w →
    totalWei (w.applyTo v) = totalWei v + x * useiToSweiMultiplier
  subUnlockedCoins : ∀ v a x w, bank.subUnlockedCoins v a x = .ok w →
    totalWei (w.applyTo v) = totalWei v - x * useiToSweiMultiplier
  addWei : ∀ v a x w, bank.addWei v a x = .ok w → totalWei (w.applyTo v) = totalWei v + x
  subWei : ∀ v a x w, bank.subWei v a x = .ok w → totalWei (w.applyTo v) = totalWei v - x

theorem splitUseiWeiAmount_recombine {amt : Int} (h : 0 ≤ amt) :
    (splitUseiWeiAmount amt).1 * useiToSweiMultiplier + (splitUseiWeiAmount amt).2 = amt := by
  simp only [splitUseiWeiAmount]
  rw [Int.tdiv_eq_ediv_of_nonneg h]
  exact Int.ediv_mul_add_emod amt useiToSweiMultiplier

namespace DBImpl

@[simp] theorem view_setCurrent (s : DBImpl) (f : TemporaryState → TemporaryState) :
    (s.setCurrent f).view = s.view := rfl

@[simp] theorem totalSurplus_applyWrites (s : DBImpl) (w : Writes StoreKey Bytes) :
    (s.applyWrites w).totalSurplus = s.totalSurplus := rfl

@[simp] theorem ctx_applyWrites (s : DBImpl) (w : Writes StoreKey Bytes) :
    (s.applyWrites w).ctx = s.ctx := rfl

theorem totalSurplus_addSurplus (s : DBImpl) (amt : Int) :
    (s.setCurrent fun ts => { ts with surplus := ts.surplus + amt }).totalSurplus =
      s.totalSurplus + amt := by
  simp only [totalSurplus, setCurrent]
  omega

theorem view_applyWrites {s : DBImpl} (h : s.ctx.Nodup) (w : Writes StoreKey Bytes) :
    (s.applyWrites w).view = w.applyTo s.view := by
  funext k
  exact MultiStore.get_update s.store h w k

theorem bankView_applyWrites_liftBank (s : DBImpl) (h : s.ctx.Nodup) (w : Writes Bytes Bytes) :
    bankView (s.applyWrites (liftBank w)).view = w.applyTo (bankView s.view) := by
  rw [view_applyWrites h]
  rfl

theorem bankView_applyWrites_of_not_bank {s : DBImpl} (h : s.ctx.Nodup)
    {w : Writes StoreKey Bytes} (hw : ∀ k, w (.bank k) = none) :
    bankView (s.applyWrites w).view = bankView s.view := by
  rw [view_applyWrites h]
  funext k
  simp [bankView, hw k]

theorem single_not_bank (key : StoreKey) (hkey : ∀ k, key ≠ .bank k) (v : Option Bytes)
    (k : Bytes) : single key v (.bank k) = none := by
  simp [single, Ne.symm (hkey k)]

theorem deleteAddressMapping_not_bank (seiAddress : AccAddress) (evmAddress : Address)
    (k : Bytes) : deleteAddressMapping seiAddress evmAddress (.bank k) = none := by
  simp [deleteAddressMapping]

theorem clearAccountState_not_bank (v : View) (acc : Address) (k : Bytes) :
    clearAccountState v acc (.bank k) = none := by
  simp [clearAccountState, StoreKey.account]

variable {bank : BankKeeper} {totalWei : BankView → Int}

def weiTotal (totalWei : BankView → Int) (s : DBImpl) : Int := totalWei (bankView s.view)

def worth (totalWei : BankView → Int) (s : DBImpl) : Int := weiTotal totalWei s + s.totalSurplus

theorem worth_applyWrites_of_not_bank {s : DBImpl} (h : s.ctx.Nodup) {w : Writes StoreKey Bytes}
    (hw : ∀ k, w (.bank k) = none) : worth totalWei (s.applyWrites w) = worth totalWei s := by
  simp only [worth, weiTotal, bankView_applyWrites_of_not_bank h hw, totalSurplus_applyWrites]

@[simp] theorem worth_markAccount (s : DBImpl) (acc : Address) (status : Bytes) :
    worth totalWei (s.markAccount acc status) = worth totalWei s := rfl

theorem worth_removeAssociation {s : DBImpl} (hnd : s.ctx.Nodup) (acc : Address) :
    worth totalWei (s.removeAssociation acc) = worth totalWei s := by
  unfold removeAssociation
  split
  · exact worth_applyWrites_of_not_bank hnd (deleteAddressMapping_not_bank _ _)
  · rfl

theorem worth_snapshot {s : DBImpl} (h : s.store.WellFormed s.ctx) :
    worth totalWei s.snapshot.1 = worth totalWei s := by
  have hview : s.snapshot.1.view = s.view :=
    funext (MultiStore.get_cacheMultiStore s.store s.ctx h.2)
  simp only [worth, weiTotal]
  rw [hview]
  simp only [totalSurplus, snapshot, newTemporaryState, List.map_append, List.sum_append,
    List.map_cons, List.map_nil, List.sum_cons, List.sum_nil]
  omega

section Exact

variable (hbank : bank.Exact totalWei)
include hbank

theorem subBalancePos_moves {s : DBImpl} (hnd : s.ctx.Nodup) (evmAddr : Address) {amt : Int}
    (hamt : 0 ≤ amt) (herr : (subBalancePos bank s evmAddr amt).err = none) :
    weiTotal totalWei (subBalancePos bank s evmAddr amt) = weiTotal totalWei s - amt ∧
      (subBalancePos bank s evmAddr amt).totalSurplus = s.totalSurplus + amt := by
  have hsum := splitUseiWeiAmount_recombine hamt
  unfold subBalancePos at herr ⊢
  generalize splitUseiWeiAmount amt = p at hsum herr ⊢
  obtain ⟨usei, wei⟩ := p
  dsimp only at hsum herr ⊢
  cases h₁ : bank.subUnlockedCoins (bankView s.view) (s.getSeiAddress evmAddr) usei with
  | error e => simp [h₁] at herr
  | ok w₁ =>
    cases h₂ : bank.subWei (bankView (s.applyWrites (liftBank w₁)).view)
        (s.getSeiAddress evmAddr) wei with
    | error e => simp [h₁, h₂] at herr
    | ok w₂ =>
      simp only [h₂]
      -- the two writes, one after the other, each measured by its own call
      have e₁ := hbank.subUnlockedCoins _ _ _ _ h₁
      have e₂ := hbank.subWei _ _ _ _ h₂
      rw [bankView_applyWrites_liftBank s hnd] at e₂
      refine ⟨?_, totalSurplus_addSurplus _ amt⟩
      simp only [weiTotal, view_setCurrent]
      rw [bankView_applyWrites_liftBank (s.applyWrites (liftBank w₁)) hnd,
        bankView_applyWrites_liftBank s hnd, e₂, e₁]
      omega

theorem addBalancePos_moves {s : DBImpl} (hnd : s.ctx.Nodup) (evmAddr : Address) {amt : Int}
    (hamt : 0 ≤ amt) (herr : (addBalancePos bank s evmAddr amt).err = none) :
    weiTotal totalWei (addBalancePos bank s evmAddr amt) = weiTotal totalWei s + amt ∧
      (addBalancePos bank s evmAddr amt).totalSurplus = s.totalSurplus - amt := by
  have hsum := splitUseiWeiAmount_recombine hamt
  unfold addBalancePos at herr ⊢
  generalize splitUseiWeiAmount amt = p at hsum herr ⊢
  obtain ⟨usei, wei⟩ := p
  dsimp only at hsum herr ⊢
  cases h₁ : bank.addCoins (bankView s.view) (s.getSeiAddress evmAddr) usei with
  | error e => simp [h₁] at herr
  | ok w₁ =>
    cases h₂ : bank.addWei (bankView (s.applyWrites (liftBank w₁)).view)
        (s.getSeiAddress evmAddr) wei with
    | error e => simp [h₁, h₂] at herr
    | ok w₂ =>
      simp only [h₂]
      have e₁ := hbank.addCoins _ _ _ _ h₁
      have e₂ := hbank.addWei _ _ _ _ h₂
      rw [bankView_applyWrites_liftBank s hnd] at e₂
      refine ⟨?_, ?_⟩
      · simp only [weiTotal, view_setCurrent]
        rw [bankView_applyWrites_liftBank (s.applyWrites (liftBank w₁)) hnd,
          bankView_applyWrites_liftBank s hnd, e₂, e₁]
        omega
      · simp only [totalSurplus, setCurrent, applyWrites]
        omega

theorem subBalance_moves {s : DBImpl} (hnd : s.ctx.Nodup) (evmAddr : Address) (amt : Int)
    (herr : (subBalance bank s evmAddr amt).err = none) :
    weiTotal totalWei (subBalance bank s evmAddr amt) = weiTotal totalWei s - amt ∧
      (subBalance bank s evmAddr amt).totalSurplus = s.totalSurplus + amt := by
  unfold subBalance at herr ⊢
  split_ifs at herr ⊢ with hzero hneg
  · subst hzero
    simp
  · -- a negative amount is credited instead
    obtain ⟨ht, hs⟩ := addBalancePos_moves hbank hnd evmAddr (by omega) herr
    exact ⟨by omega, by omega⟩
  · exact subBalancePos_moves hbank hnd evmAddr (by omega) herr

theorem addBalance_moves {s : DBImpl} (hnd : s.ctx.Nodup) (evmAddr : Address) (amt : Int)
    (herr : (addBalance bank s evmAddr amt).err = none) :
    weiTotal totalWei (addBalance bank s evmAddr amt) = weiTotal totalWei s + amt ∧
      (addBalance bank s evmAddr amt).totalSurplus = s.totalSurplus - amt := by
  unfold addBalance at herr ⊢
  split_ifs at herr ⊢ with hzero hneg
  · subst hzero
    simp
  · obtain ⟨ht, hs⟩ := subBalancePos_moves hbank hnd evmAddr (by omega) herr
    exact ⟨by omega, by omega⟩
  · exact addBalancePos_moves hbank hnd evmAddr (by omega) herr

theorem worth_selfDestruct {s : DBImpl} (hnd : s.ctx.Nodup) (acc : Address)
    (herr : (selfDestruct bank s acc).err = none) :
    worth totalWei (selfDestruct bank s acc) = worth totalWei s := by
  have hnd₁ : (s.removeAssociation acc).ctx.Nodup := (local_removeAssociation s acc).ctx_eq ▸ hnd
  obtain ⟨ht, hs⟩ := subBalance_moves hbank hnd₁ acc _ herr
  rw [selfDestruct, worth_markAccount, ← worth_removeAssociation hnd acc]
  simp only [worth]
  omega

theorem worth_step {s s' : DBImpl} (hwf : s.store.WellFormed s.ctx) {op : Op}
    (hop : ∀ rev, op ≠ .revertToSnapshot rev) (hs : step bank s op = some s')
    (herr : s'.err = none) : worth totalWei s' = worth totalWei s := by
  have hnd := hwf.nodup
  cases op with
  | setState addr key val =>
    cases hs
    exact worth_applyWrites_of_not_bank hnd (single_not_bank (.state addr key) (fun _ => nofun) _)
  | setNonce addr nonce =>
    cases hs
    exact worth_applyWrites_of_not_bank hnd (single_not_bank (.nonce addr) (fun _ => nofun) _)
  | addBalance addr amt =>
    cases hs
    obtain ⟨ht, hs⟩ := addBalance_moves hbank hnd addr amt herr
    simp only [worth]
    omega
  | subBalance addr amt =>
    cases hs
    obtain ⟨ht, hs⟩ := subBalance_moves hbank hnd addr amt herr
    simp only [worth]
    omega
  | createAccount acc =>
    cases hs
    exact worth_applyWrites_of_not_bank hnd (clearAccountState_not_bank _ acc)
  | selfDestruct acc =>
    cases hs
    exact worth_selfDestruct hbank hnd acc herr
  | subRefund gas =>
    simp only [step, subRefund] at hs
    split at hs
    · cases hs
    · cases hs
      rfl
  | snapshot =>
    cases hs
    exact worth_snapshot hwf
  | revertToSnapshot rev => exact absurd rfl (hop rev)
  -- the rest change only the temporary state's logs, refunds or access lists
  | setTransientState | markAccount | addLog | addRefund | addAddressToAccessList
    | addSlotToAccessList =>
    cases hs
    rfl

end Exact

end DBImpl

end SeiChain.Evm.State
