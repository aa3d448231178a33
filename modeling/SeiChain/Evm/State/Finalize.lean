import SeiChain.Evm.State.Journal

namespace SeiChain.Evm.State

open KVStore

namespace DBImpl

variable (bank : BankKeeper)

-- One entry of `handleResidualFundsInDestructedAccounts`: whatever a destructed account
-- still holds is taken from it and credited to the coinbase.
def sweepAccount (s : DBImpl) (entry : Address × Bytes) : DBImpl :=
  if entry.2 ≠ accountDeleted then s
  else
    let residual := getBalance bank s entry.1
    if residual = 0 then s
    else addBalance bank (subBalance bank s entry.1 residual) s.coinbaseEvmAddress residual

def handleResidualFundsInDestructedAccounts (s : DBImpl) (st : TemporaryState) : DBImpl :=
  st.transientAccounts.foldl (sweepAccount bank) s

def clearAccountStateIfDestructed (s : DBImpl) (st : TemporaryState) : DBImpl :=
  st.transientAccounts.foldl
    (fun s entry =>
      if entry.2 ≠ accountDeleted then s else s.applyWrites (clearAccountState s.view entry.1))
    s

-- `flushCtx(s.ctx)`, then `flushCtx(snapshottedCtxs[i])` for `i` from the top down to 1;
-- the base context `snapshottedCtxs[0]` is left to the caller.
def flushCtxs (s : DBImpl) : Store :=
  (s.snapshottedCtxs.drop 1).reverse.foldl MultiStore.write (s.store.write s.ctx)

def finalizeLayer (s : DBImpl) (st : TemporaryState) : DBImpl :=
  clearAccountStateIfDestructed (handleResidualFundsInDestructedAccounts bank s st) st

-- `Finalize`; `none` is the panic on a simulation DB. The error returned is the one
-- recorded before the sweep: the sweep's own calls run after the check.
def finalize (s : DBImpl) : Option (DBImpl × Except String Int) :=
  if s.simulation then none
  else match s.err with
    | some e => some (s, .error e)
    | none =>
      let s₁ := s.tempStatesHist.foldl (finalizeLayer bank) (finalizeLayer bank s s.tempStateCurrent)
      let s₂ := { s₁ with store := flushCtxs s₁ }
      some (s₂, .ok s₂.totalSurplus)

theorem local_sweepAccount (s : DBImpl) (entry : Address × Bytes) :
    Local s (sweepAccount bank s entry) := by
  unfold sweepAccount
  split
  · exact Local.refl s
  · dsimp only
    split
    · exact Local.refl s
    · exact (local_subBalance bank s _ _).trans (local_addBalance bank _ _ _)

theorem local_foldl_sweepAccount (s : DBImpl) (entries : List (Address × Bytes)) :
    Local s (entries.foldl (sweepAccount bank) s) := by
  induction entries generalizing s with
  | nil => exact Local.refl s
  | cons entry entries ih => exact (local_sweepAccount bank s entry).trans (ih _)

theorem local_handleResidualFundsInDestructedAccounts (s : DBImpl) (st : TemporaryState) :
    Local s (handleResidualFundsInDestructedAccounts bank s st) :=
  local_foldl_sweepAccount bank s st.transientAccounts

theorem local_clearAccountStateIfDestructed (s : DBImpl) (st : TemporaryState) :
    Local s (clearAccountStateIfDestructed s st) := by
  unfold clearAccountStateIfDestructed
  induction st.transientAccounts generalizing s with
  | nil => exact Local.refl s
  | cons entry entries ih =>
    rw [List.foldl_cons]
    have h₁ : Local s (if entry.2 ≠ accountDeleted then s
        else s.applyWrites (clearAccountState s.view entry.1)) := by
      split
      · exact Local.refl s
      · exact local_applyWrites s _
    exact h₁.trans (ih _)

theorem local_finalizeLayer (s : DBImpl) (st : TemporaryState) :
    Local s (finalizeLayer bank s st) :=
  (local_handleResidualFundsInDestructedAccounts bank s st).trans
    (local_clearAccountStateIfDestructed _ st)

theorem local_foldl_finalizeLayer (s : DBImpl) (hist : List TemporaryState) :
    Local s (hist.foldl (finalizeLayer bank) s) := by
  induction hist generalizing s with
  | nil => exact Local.refl s
  | cons st hist ih => exact (local_finalizeLayer bank s st).trans (ih _)

theorem finalize_of_err_none {s : DBImpl} (hsim : s.simulation = false) (herr : s.err = none) :
    finalize bank s =
      let s₁ := s.tempStatesHist.foldl (finalizeLayer bank) (finalizeLayer bank s s.tempStateCurrent)
      some ({ s₁ with store := flushCtxs s₁ }, .ok s₁.totalSurplus) := by
  simp only [finalize, hsim, herr]
  rfl

theorem drop_one_reverse {s : DBImpl} (h : Aligned s) :
    (s.snapshottedCtxs.drop 1).reverse =
      (List.range (s.snapshottedCtxs.length - 1)).map fun j => s.ctx.drop (j + 1) := by
  apply List.ext_getElem
  · simp
  · intro j hj _
    simp only [List.length_reverse, List.length_drop] at hj
    rw [List.getElem_reverse, List.getElem_drop, List.getElem_map, List.getElem_range,
      h.snapshotted_eq _ (by simp only [List.length_drop]; omega)]
    congr 1
    simp only [List.length_drop]
    omega

theorem flushCtxs_eq_flushTop {s : DBImpl} (h : Aligned s) :
    flushCtxs s = s.store.flushTop s.ctx s.snapshottedCtxs.length := by
  obtain ⟨n, hn⟩ : ∃ n, s.snapshottedCtxs.length = n + 1 :=
    ⟨s.snapshottedCtxs.length - 1, by have := h.length_pos; omega⟩
  rw [flushCtxs, drop_one_reverse h, hn, Nat.add_sub_cancel, ← MultiStore.foldl_write_eq_flushTop,
    List.range_succ_eq_map, List.map_cons, List.foldl_cons, List.map_map, List.drop_zero]
  rfl

theorem get_flushCtxs {s : DBImpl} (h : Aligned s) :
    (flushCtxs s).get (s.ctx.drop s.snapshottedCtxs.length) = s.view := by
  funext k
  rw [flushCtxs_eq_flushTop h]
  exact MultiStore.get_flushTop s.store h.wellFormed.nodup _ k

end DBImpl

end SeiChain.Evm.State
