import SeiChain.Evm.State.Step

namespace SeiChain.Evm.State

open KVStore

namespace DBImpl

variable (bank : BankKeeper)

structure Stacked (s : DBImpl) : Prop where
  length_hist : s.tempStatesHist.length = s.snapshottedCtxs.length
  length_le : s.snapshottedCtxs.length ≤ s.ctx.length
  wellFormed : s.store.WellFormed s.ctx
  snapshotted_eq : ∀ i (hi : i < s.snapshottedCtxs.length),
    s.snapshottedCtxs[i] = s.ctx.drop (s.snapshottedCtxs.length - i)

structure Aligned (s : DBImpl) : Prop extends Stacked s where
  length_pos : 0 < s.snapshottedCtxs.length

theorem wellFormed_drop {ms : Store} {c : Chain} (h : ms.WellFormed c) (k : Nat) :
    ms.WellFormed (c.drop k) :=
  ⟨h.1.sublist (List.drop_sublist k c), fun i hi => h.2 i (List.mem_of_mem_drop hi)⟩

theorem not_mem_drop_of_pos {ms : Store} {t : Nat} {rest : Chain} (h : ms.WellFormed (t :: rest))
    {k : Nat} (hk : 0 < k) : t ∉ (t :: rest).drop k := by
  obtain ⟨k, rfl⟩ : ∃ j, k = j + 1 := ⟨k - 1, by omega⟩
  exact fun hmem => h.head_not_mem (List.mem_of_mem_drop hmem)

theorem aligned_snapshot {s : DBImpl} (h : Stacked s) : Aligned s.snapshot.1 where
  length_hist := by simp [snapshot, h.length_hist]
  length_le := by simp [snapshot, h.length_le]
  wellFormed := MultiStore.wellFormed_cacheMultiStore h.wellFormed
  snapshotted_eq i hi := by
    simp only [snapshot, List.length_append, List.length_singleton] at hi ⊢
    rcases Nat.lt_succ_iff_lt_or_eq.mp hi with hi | rfl
    · rw [List.getElem_append_left hi, h.snapshotted_eq i hi,
        show s.snapshottedCtxs.length + 1 - i = (s.snapshottedCtxs.length - i) + 1 by omega]
      rfl
    · simp
  length_pos := by simp [snapshot]

theorem Stacked.of_local {s s' : DBImpl} (h : Stacked s) (hl : Local s s') : Stacked s' where
  length_hist := by rw [hl.tempStatesHist_eq, hl.snapshottedCtxs_eq]; exact h.length_hist
  length_le := by rw [hl.snapshottedCtxs_eq, hl.ctx_eq]; exact h.length_le
  wellFormed := by
    rw [hl.ctx_eq]
    exact ⟨h.wellFormed.1, fun i hi => hl.fresh_eq ▸ h.wellFormed.2 i hi⟩
  snapshotted_eq i hi := by
    simp only [hl.snapshottedCtxs_eq, hl.ctx_eq] at hi ⊢
    exact h.snapshotted_eq i hi

theorem Aligned.exists_cons {s : DBImpl} (h : Aligned s) : ∃ t rest, s.ctx = t :: rest := by
  have hlen : 0 < s.ctx.length := Nat.lt_of_lt_of_le h.length_pos h.length_le
  cases hc : s.ctx with
  | nil => rw [hc] at hlen; exact absurd hlen (Nat.lt_irrefl 0)
  | cons t rest => exact ⟨t, rest, rfl⟩

theorem Aligned.of_local {s s' : DBImpl} (h : Aligned s) (hl : Local s s') : Aligned s' :=
  { h.toStacked.of_local hl with length_pos := hl.snapshottedCtxs_eq ▸ h.length_pos }

-- What `RevertToSnapshot rev` snapshots again: the stacks cut at `rev`.
def truncate (s : DBImpl) (rev : Nat) (ctx : Chain) (current : TemporaryState) : DBImpl :=
  { s with
    ctx := ctx
    snapshottedCtxs := s.snapshottedCtxs.take rev
    tempStateCurrent := current
    tempStatesHist := s.tempStatesHist.take rev }

theorem revertToSnapshot_eq {s s' : DBImpl} {rev : Nat} (h : s.revertToSnapshot rev = some s') :
    ∃ (hrev : rev < s.snapshottedCtxs.length) (hhist : rev < s.tempStatesHist.length),
      s' = (snapshot (s.truncate rev s.snapshottedCtxs[rev] s.tempStatesHist[rev])).1 := by
  unfold revertToSnapshot at h
  cases hc : s.snapshottedCtxs[rev]? with
  | none => simp [hc] at h
  | some ctx =>
    cases ht : s.tempStatesHist[rev]? with
    | none => simp [hc, ht] at h
    | some current =>
      obtain ⟨hrev, rfl⟩ := List.getElem?_eq_some_iff.mp hc
      obtain ⟨hhist, rfl⟩ := List.getElem?_eq_some_iff.mp ht
      simp only [hc, ht, Option.bind_eq_bind, Option.bind_some, Option.some.injEq] at h
      exact ⟨hrev, hhist, h.symm⟩

theorem revertToSnapshot_of_lt {s : DBImpl} {rev : Nat} (hrev : rev < s.snapshottedCtxs.length)
    (hhist : rev < s.tempStatesHist.length) :
    s.revertToSnapshot rev =
      some (snapshot (s.truncate rev s.snapshottedCtxs[rev] s.tempStatesHist[rev])).1 := by
  simp [revertToSnapshot, truncate, List.getElem?_eq_getElem hrev, List.getElem?_eq_getElem hhist]

theorem stacked_truncate {s : DBImpl} (h : Aligned s) {rev : Nat}
    (hrev : rev < s.snapshottedCtxs.length) (current : TemporaryState) :
    Stacked (s.truncate rev s.snapshottedCtxs[rev] current) where
  length_hist := by simp [truncate, h.length_hist]
  length_le := by
    simp only [truncate, List.length_take, h.snapshotted_eq rev hrev, List.length_drop]
    have := h.length_le
    omega
  wellFormed := by
    simp only [truncate, h.snapshotted_eq rev hrev]
    exact wellFormed_drop h.wellFormed _
  snapshotted_eq i hi := by
    simp only [truncate, List.length_take] at hi ⊢
    have hi' : i < rev := by omega
    rw [List.getElem_take, h.snapshotted_eq i (by omega), h.snapshotted_eq rev hrev, List.drop_drop,
      show min rev s.snapshottedCtxs.length = rev by omega]
    congr 1
    omega

theorem aligned_revertToSnapshot {s s' : DBImpl} {rev : Nat} (h : Aligned s)
    (hs : s.revertToSnapshot rev = some s') : Aligned s' := by
  obtain ⟨hrev, _, rfl⟩ := revertToSnapshot_eq hs
  exact aligned_snapshot (stacked_truncate h hrev _)

theorem aligned_addLog {s : DBImpl} (h : Aligned s) (l : Log) : Aligned (s.addLog l) :=
  ⟨⟨h.length_hist, h.length_le, h.wellFormed, h.snapshotted_eq⟩, h.length_pos⟩

theorem aligned_step {s s' : DBImpl} {op : Op} (h : Aligned s) (hs : step bank s op = some s') :
    Aligned s' := by
  rcases step_cases bank hs with hl | ⟨l, rfl⟩ | rfl | ⟨rev, -, hrev⟩
  · exact h.of_local hl
  · exact aligned_addLog h l
  · exact aligned_snapshot h.toStacked
  · exact aligned_revertToSnapshot h hrev

theorem aligned_of_reachable {s : DBImpl} (h : Reachable bank s) : Aligned s := by
  induction h with
  | init store ctx coinbaseAddress coinbaseEvmAddress simulation hwf =>
    exact aligned_snapshot ⟨rfl, Nat.zero_le _, hwf, fun i hi => absurd hi (Nat.not_lt_zero i)⟩
  | step op _ hs ih => exact aligned_step bank ih hs

end DBImpl

end SeiChain.Evm.State
