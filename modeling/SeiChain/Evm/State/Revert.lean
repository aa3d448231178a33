import SeiChain.Evm.State.Journal

namespace SeiChain.Evm.State

open KVStore

-- Every read of the journaling contract, as functions of their arguments.
structure Observation where
  getState : Address → Hash → Hash
  getCommittedState : Address → Hash → Option Hash
  getTransientState : Address → Hash → Hash
  getBalance : Address → Int
  getNonce : Address → UInt64
  getRefund : UInt64
  addressInAccessList : Address → Bool
  slotInAccessList : Address → Hash → Bool × Bool
  hasSelfDestructed : Address → Bool
  created : Address → Bool
  getAllLogs : List Log
  totalSurplus : Int

namespace DBImpl

variable (bank : BankKeeper)

def observe (s : DBImpl) : Observation where
  getState := s.getState
  getCommittedState := s.getCommittedState
  getTransientState := s.getTransientState
  getBalance := getBalance bank s
  getNonce := s.getNonce
  getRefund := s.getRefund
  addressInAccessList := s.addressInAccessList
  slotInAccessList := s.slotInAccessList
  hasSelfDestructed := s.hasSelfDestructed
  created := s.created
  getAllLogs := s.getAllLogs
  totalSurplus := s.totalSurplus

-- Two states every read agrees on: the same view through `ctx`, the same committed
-- context, the same temporary states and coinbase.
structure SameReads (s s' : DBImpl) : Prop where
  view_eq : s'.view = s.view
  snapshottedCtxs_eq : s'.snapshottedCtxs = s.snapshottedCtxs
  committed_eq : ∀ c ∈ s.snapshottedCtxs.head?, s'.store.get c = s.store.get c
  current_eq : s'.tempStateCurrent = s.tempStateCurrent
  hist_eq : s'.tempStatesHist = s.tempStatesHist
  coinbaseAddress_eq : s'.coinbaseAddress = s.coinbaseAddress
  coinbaseEvmAddress_eq : s'.coinbaseEvmAddress = s.coinbaseEvmAddress

theorem observe_eq_of_sameReads {s s' : DBImpl} (h : SameReads s s') :
    observe bank s' = observe bank s := by
  have hsei : s'.getSeiAddress = s.getSeiAddress := by
    funext a
    simp only [getSeiAddress, h.view_eq, h.coinbaseAddress_eq, h.coinbaseEvmAddress_eq]
  have hcommitted : s'.getCommittedState = s.getCommittedState := by
    funext a k
    unfold getCommittedState
    rw [h.snapshottedCtxs_eq]
    cases hc : s.snapshottedCtxs.head? with
    | none => rfl
    | some c => simp only [Option.map_some, h.committed_eq c hc]
  have haccount : s'.getTransientAccount = s.getTransientAccount := by
    funext a
    simp only [getTransientAccount, h.current_eq, h.hist_eq]
  have haddress : s'.addressInAccessList = s.addressInAccessList := by
    funext a
    simp only [addressInAccessList, h.current_eq, h.hist_eq]
  unfold observe
  congr 1
  · funext a k; simp only [getState, h.view_eq]
  · funext a k; simp only [getTransientState, h.current_eq, h.hist_eq]
  · funext a; simp only [getBalance, h.view_eq, hsei]
  · funext a; simp only [getNonce, h.view_eq]
  · simp only [getRefund, h.current_eq, h.hist_eq]
  · funext a k; simp only [slotInAccessList, haddress, h.current_eq, h.hist_eq]
  · funext a; simp only [hasSelfDestructed, haccount]
  · funext a; simp only [created, haccount]
  · simp only [getAllLogs, h.current_eq, h.hist_eq]
  · simp only [totalSurplus, h.current_eq, h.hist_eq]

-- Nothing at or below `id` changes: the first `id + 1` saved contexts and temporary
-- states are those right after the snapshot, and no layer of the context that was
-- saved (`σ₀.ctx.tail`) is written.
structure Keeps (σ₀ : DBImpl) (id : Nat) (s : DBImpl) : Prop where
  aligned : Aligned s
  length_gt : id < s.snapshottedCtxs.length
  take_snapshotted : s.snapshottedCtxs.take (id + 1) = σ₀.snapshottedCtxs
  take_hist : s.tempStatesHist.take (id + 1) = σ₀.tempStatesHist
  agree : σ₀.store.AgreeOn s.store σ₀.ctx.tail
  coinbaseAddress_eq : s.coinbaseAddress = σ₀.coinbaseAddress
  coinbaseEvmAddress_eq : s.coinbaseEvmAddress = σ₀.coinbaseEvmAddress

section Keeps

variable {σ₀ : DBImpl} {id : Nat} (h₀ : Aligned σ₀) (hlen : σ₀.snapshottedCtxs.length = id + 1)
include h₀ hlen

theorem Keeps.getElem_snapshotted {s : DBImpl} (h : Keeps σ₀ id s)
    (hid : id < s.snapshottedCtxs.length) : s.snapshottedCtxs[id] = σ₀.ctx.tail := by
  have hid₀ : id < σ₀.snapshottedCtxs.length := by omega
  have hget : s.snapshottedCtxs[id] = σ₀.snapshottedCtxs[id] := by
    simp only [← h.take_snapshotted, List.getElem_take]
  rw [hget, h₀.snapshotted_eq id hid₀, hlen, Nat.add_sub_cancel_left, List.drop_one]

-- The saved context lies below the innermost layer, so writes never reach it.
theorem Keeps.head_not_mem {s : DBImpl} (h : Keeps σ₀ id s) {t : Nat} {rest : Chain}
    (hctx : s.ctx = t :: rest) : t ∉ σ₀.ctx.tail := by
  rw [← h.getElem_snapshotted h₀ hlen h.length_gt, h.aligned.snapshotted_eq id h.length_gt, hctx]
  exact not_mem_drop_of_pos (hctx ▸ h.aligned.wellFormed) (by have := h.length_gt; omega)

theorem Keeps.lt_fresh {s : DBImpl} (h : Keeps σ₀ id s) : ∀ i ∈ σ₀.ctx.tail, i < s.store.fresh := by
  intro i hi
  rw [← h.getElem_snapshotted h₀ hlen h.length_gt, h.aligned.snapshotted_eq id h.length_gt] at hi
  exact h.aligned.wellFormed.2 i (List.mem_of_mem_drop hi)

theorem keeps_local {s s' : DBImpl} (h : Keeps σ₀ id s) (hl : Local s s') : Keeps σ₀ id s' where
  aligned := h.aligned.of_local hl
  length_gt := hl.snapshottedCtxs_eq ▸ h.length_gt
  take_snapshotted := hl.snapshottedCtxs_eq ▸ h.take_snapshotted
  take_hist := hl.tempStatesHist_eq ▸ h.take_hist
  agree := by
    obtain ⟨t, rest, hctx⟩ := h.aligned.exists_cons
    exact h.agree.trans (hl.agree t rest hctx _ (h.head_not_mem h₀ hlen hctx))
  coinbaseAddress_eq := hl.coinbaseAddress_eq.trans h.coinbaseAddress_eq
  coinbaseEvmAddress_eq := hl.coinbaseEvmAddress_eq.trans h.coinbaseEvmAddress_eq

omit h₀ hlen in
theorem keeps_addLog {s : DBImpl} (h : Keeps σ₀ id s) (l : Log) : Keeps σ₀ id (s.addLog l) :=
  ⟨aligned_addLog h.aligned l, h.length_gt, h.take_snapshotted, h.take_hist, h.agree,
    h.coinbaseAddress_eq, h.coinbaseEvmAddress_eq⟩

theorem keeps_snapshot {s : DBImpl} (h : Keeps σ₀ id s) : Keeps σ₀ id s.snapshot.1 where
  aligned := aligned_snapshot h.aligned.toStacked
  length_gt := by
    simp only [snapshot, List.length_append, List.length_singleton]
    exact Nat.lt_succ_of_lt h.length_gt
  take_snapshotted := by
    simp only [snapshot]
    rw [List.take_append_of_le_length h.length_gt, h.take_snapshotted]
  take_hist := by
    simp only [snapshot]
    rw [List.take_append_of_le_length (h.aligned.length_hist ▸ h.length_gt), h.take_hist]
  agree := h.agree.trans
    (MultiStore.agreeOn_cacheMultiStore s.store s.ctx _ (h.lt_fresh h₀ hlen))
  coinbaseAddress_eq := h.coinbaseAddress_eq
  coinbaseEvmAddress_eq := h.coinbaseEvmAddress_eq

end Keeps

theorem take_append_getElem_take {α : Type} (l : List α) {id rev : Nat} (hid : id ≤ rev)
    (hrev : rev < l.length) : (l.take rev ++ [l[rev]]).take (id + 1) = l.take (id + 1) := by
  rw [← List.take_succ_eq_append_getElem hrev, List.take_take]
  congr 1
  omega

section Revert

variable {σ₀ : DBImpl} {id : Nat} (h₀ : Aligned σ₀) (hlen : σ₀.snapshottedCtxs.length = id + 1)
include h₀ hlen

theorem keeps_self : Keeps σ₀ id σ₀ where
  aligned := h₀
  length_gt := by omega
  take_snapshotted := List.take_of_length_le (by omega)
  take_hist := List.take_of_length_le (by rw [h₀.length_hist]; omega)
  agree := MultiStore.AgreeOn.refl σ₀.store σ₀.ctx.tail
  coinbaseAddress_eq := rfl
  coinbaseEvmAddress_eq := rfl

-- The revert to `id` rebuilds every read of the state the snapshot left: the stacks are
-- cut back to what they were, and the context again reads through the saved one.
theorem sameReads_revertToSnapshot {s : DBImpl} (h : Keeps σ₀ id s)
    (hcur : σ₀.tempStateCurrent = newTemporaryState)
    (hview : σ₀.view = σ₀.store.get σ₀.ctx.tail) :
    ∃ σ', s.revertToSnapshot id = some σ' ∧ SameReads σ₀ σ' := by
  have hid := h.length_gt
  have hhist : id < s.tempStatesHist.length := h.aligned.length_hist ▸ hid
  have hsaved := h.getElem_snapshotted h₀ hlen hid
  have hfresh := h.lt_fresh h₀ hlen
  -- the committed context is the bottom of the saved one
  have hbase : ∀ c ∈ σ₀.snapshottedCtxs.head?, ∀ i ∈ c, i ∈ σ₀.ctx.tail := by
    intro c hc i hi
    have h0 : 0 < σ₀.snapshottedCtxs.length := h₀.length_pos
    rw [List.head?_eq_getElem?, List.getElem?_eq_getElem h0, Option.mem_some_iff] at hc
    rw [← hc, h₀.snapshotted_eq 0 h0, hlen, Nat.sub_zero, ← List.drop_tail] at hi
    exact List.mem_of_mem_drop hi
  refine ⟨_, revertToSnapshot_of_lt hid hhist, ?_⟩
  refine ⟨?_, ?_, ?_, ?_, ?_, h.coinbaseAddress_eq, h.coinbaseEvmAddress_eq⟩
  · funext k
    rw [congrFun hview k]
    simp only [view, snapshot, truncate]
    rw [MultiStore.get_cacheMultiStore s.store _ (by rw [hsaved]; exact hfresh), hsaved,
      MultiStore.get_congr h.agree]
  · simp only [snapshot, truncate]
    rw [← List.take_succ_eq_append_getElem hid, h.take_snapshotted]
  · intro c hc
    funext k
    simp only [snapshot, truncate]
    rw [MultiStore.get_congr (MultiStore.agreeOn_cacheMultiStore s.store _ c
      (fun i hi => hfresh i (hbase c hc i hi))), MultiStore.get_congr (h.agree.mono (hbase c hc))]
  · simp [snapshot, truncate, hcur]
  · simp only [snapshot, truncate]
    rw [← List.take_succ_eq_append_getElem hhist, h.take_hist]

theorem keeps_revertToSnapshot {s s' : DBImpl} (h : Keeps σ₀ id s) {rev : Nat} (hid : id ≤ rev)
    (hs : s.revertToSnapshot rev = some s') : Keeps σ₀ id s' := by
  obtain ⟨hrev, hhist, rfl⟩ := revertToSnapshot_eq hs
  refine ⟨aligned_revertToSnapshot h.aligned hs, ?_, ?_, ?_, ?_, h.coinbaseAddress_eq,
    h.coinbaseEvmAddress_eq⟩
  · simp [snapshot, truncate]; omega
  · simp only [snapshot, truncate]
    rw [take_append_getElem_take _ hid hrev, h.take_snapshotted]
  · simp only [snapshot, truncate]
    rw [take_append_getElem_take _ hid hhist, h.take_hist]
  · exact h.agree.trans
      (MultiStore.agreeOn_cacheMultiStore s.store s.snapshottedCtxs[rev] _ (h.lt_fresh h₀ hlen))

theorem keeps_step {s s' : DBImpl} {op : Op} (h : Keeps σ₀ id s)
    (hop : ∀ rev, op = .revertToSnapshot rev → id ≤ rev) (hs : step bank s op = some s') :
    Keeps σ₀ id s' := by
  rcases step_cases bank hs with hl | ⟨l, rfl⟩ | rfl | ⟨rev, rfl, hrev⟩
  · exact keeps_local h₀ hlen h hl
  · exact keeps_addLog h l
  · exact keeps_snapshot h₀ hlen h
  · exact keeps_revertToSnapshot h₀ hlen h (hop rev rfl) hrev

theorem keeps_run {s σ : DBImpl} {ops : List Op} (h : Keeps σ₀ id s)
    (hops : ∀ rev, Op.revertToSnapshot rev ∈ ops → id ≤ rev) (hrun : run bank s ops = some σ) :
    Keeps σ₀ id σ := by
  induction ops generalizing s with
  | nil =>
    cases hrun
    exact h
  | cons op ops ih =>
    rw [run_cons] at hrun
    cases hs : step bank s op with
    | none => simp [hs] at hrun
    | some s' =>
      rw [hs, Option.bind_some] at hrun
      have hop : ∀ rev, op = .revertToSnapshot rev → id ≤ rev :=
        fun rev he => hops rev (he ▸ List.mem_cons_self)
      exact ih (keeps_step bank h₀ hlen h hop hs)
        (fun rev hm => hops rev (List.mem_cons_of_mem op hm)) hrun

end Revert

def LogsIndexed (s : DBImpl) : Prop :=
  (getAllLogs s).map Log.index = List.range (getAllLogs s).length

theorem map_index_of_prefix {l l' : List Log} (h : l.map Log.index = List.range l.length)
    (hp : l' <+: l) : l'.map Log.index = List.range l'.length := by
  obtain ⟨r, rfl⟩ := hp
  rw [List.map_append, List.length_append, List.range_add] at h
  exact (List.append_inj h (by simp)).1

theorem getAllLogs_of_local {s s' : DBImpl} (hl : Local s s') : getAllLogs s' = getAllLogs s := by
  simp only [getAllLogs, hl.tempStatesHist_eq, hl.logs_eq]

theorem getAllLogs_addLog (s : DBImpl) (l : Log) :
    getAllLogs (s.addLog l) = getAllLogs s ++ [{ l with index := (getAllLogs s).length }] := by
  simp only [addLog, setCurrent, getAllLogs, List.append_assoc]

theorem getAllLogs_snapshot (s : DBImpl) : getAllLogs s.snapshot.1 = getAllLogs s := by
  simp [getAllLogs, snapshot, newTemporaryState]

theorem getAllLogs_revertToSnapshot_leading {s s' : DBImpl} {rev : Nat}
    (hs : s.revertToSnapshot rev = some s') : getAllLogs s' <+: getAllLogs s := by
  obtain ⟨_, hhist, rfl⟩ := revertToSnapshot_eq hs
  have hkept : getAllLogs (snapshot (s.truncate rev s.snapshottedCtxs[rev] s.tempStatesHist[rev])).1
      = (s.tempStatesHist.take (rev + 1)).flatMap TemporaryState.logs := by
    rw [getAllLogs_snapshot]
    simp only [getAllLogs, truncate]
    rw [List.take_succ_eq_append_getElem hhist, List.flatMap_append]
    simp
  rw [hkept]
  have hsplit : s.tempStatesHist.flatMap TemporaryState.logs =
      (s.tempStatesHist.take (rev + 1)).flatMap TemporaryState.logs ++
        (s.tempStatesHist.drop (rev + 1)).flatMap TemporaryState.logs := by
    rw [← List.flatMap_append, List.take_append_drop]
  exact (hsplit ▸ List.prefix_append _ _ : _ <+: _).trans (List.prefix_append _ _)

theorem logsIndexed_step {s s' : DBImpl} {op : Op} (h : LogsIndexed s)
    (hs : step bank s op = some s') : LogsIndexed s' := by
  unfold LogsIndexed at h ⊢
  rcases step_cases bank hs with hl | ⟨l, rfl⟩ | rfl | ⟨rev, -, hrev⟩
  · rw [getAllLogs_of_local hl]
    exact h
  · rw [getAllLogs_addLog, List.map_append, h, List.length_append, List.length_singleton,
      List.range_succ]
    rfl
  · rw [getAllLogs_snapshot]
    exact h
  · exact map_index_of_prefix h (getAllLogs_revertToSnapshot_leading hrev)

theorem logsIndexed_of_reachable {s : DBImpl} (h : Reachable bank s) : LogsIndexed s := by
  induction h with
  | init store ctx coinbaseAddress coinbaseEvmAddress simulation _ =>
    unfold LogsIndexed newDBImpl
    rw [getAllLogs_snapshot]
    rfl
  | step op _ hs ih => exact logsIndexed_step bank ih hs

-- After a revert to an `id` no later revert went below, every read returns what it returned right
-- after the snapshot that gave `id`.
theorem revertToSnapshot_restores_reads :
    (∀ (s σ : DBImpl) (mid : List Op), Reachable bank s →
      (∀ rev, Op.revertToSnapshot rev ∈ mid → s.snapshot.2 ≤ rev) →
      run bank s.snapshot.1 mid = some σ →
      ∃ σ', σ.revertToSnapshot s.snapshot.2 = some σ' ∧
        observe bank σ' = observe bank s.snapshot.1) ∧
    ∀ s, Reachable bank s → (getAllLogs s).map Log.index = List.range (getAllLogs s).length := by
  refine ⟨fun s σ mid hs hmid hrun => ?_, fun s hs => logsIndexed_of_reachable bank hs⟩
  have hstacked := (aligned_of_reachable bank hs).toStacked
  have h₀ : Aligned s.snapshot.1 := aligned_snapshot hstacked
  have hlen : s.snapshot.1.snapshottedCtxs.length = s.snapshot.2 + 1 := by simp [snapshot]
  have hview : s.snapshot.1.view = s.snapshot.1.store.get s.snapshot.1.ctx.tail := by
    funext k
    simp [view, snapshot, MultiStore.cacheMultiStore]
  have hk := keeps_run bank h₀ hlen (keeps_self h₀ hlen) hmid hrun
  obtain ⟨σ', hrev, hsame⟩ := sameReads_revertToSnapshot h₀ hlen hk rfl hview
  exact ⟨σ', hrev, observe_eq_of_sameReads bank hsame⟩

end DBImpl

end SeiChain.Evm.State
