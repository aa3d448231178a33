import SeiChain.Evm.State.DB

namespace SeiChain.Evm.State

open KVStore

-- The `vm.StateDB` calls whose effects the journal has to undo.
inductive Op where
  | setState (addr : Address) (key val : Hash)
  | setTransientState (addr : Address) (key val : Hash)
  | addBalance (addr : Address) (amt : Int)
  | subBalance (addr : Address) (amt : Int)
  | setNonce (addr : Address) (nonce : UInt64)
  | createAccount (acc : Address)
  | selfDestruct (acc : Address)
  | markAccount (acc : Address) (status : Bytes)
  | addLog (l : Log)
  | addRefund (gas : UInt64)
  | subRefund (gas : UInt64)
  | addAddressToAccessList (addr : Address)
  | addSlotToAccessList (addr : Address) (slot : Hash)
  | snapshot
  | revertToSnapshot (rev : Nat)

namespace DBImpl

variable (bank : BankKeeper)

-- One call; `none` is a panic.
def step (s : DBImpl) : Op → Option DBImpl
  | .setState addr key val => some (s.setState addr key val)
  | .setTransientState addr key val => some (s.setTransientState addr key val)
  | .addBalance addr amt => some (addBalance bank s addr amt)
  | .subBalance addr amt => some (subBalance bank s addr amt)
  | .setNonce addr nonce => some (s.setNonce addr nonce)
  | .createAccount acc => some (s.createAccount acc)
  | .selfDestruct acc => some (selfDestruct bank s acc)
  | .markAccount acc status => some (s.markAccount acc status)
  | .addLog l => some (s.addLog l)
  | .addRefund gas => some (s.addRefund gas)
  | .subRefund gas => s.subRefund gas
  | .addAddressToAccessList addr => some (s.addAddressToAccessList addr)
  | .addSlotToAccessList addr slot => some (s.addSlotToAccessList addr slot)
  | .snapshot => some s.snapshot.1
  | .revertToSnapshot rev => s.revertToSnapshot rev

def run (s : DBImpl) : List Op → Option DBImpl
  | [] => some s
  | op :: ops => (step bank s op).bind fun s' => run s' ops

@[simp] theorem run_nil (s : DBImpl) : run bank s [] = some s := rfl

theorem run_cons (s : DBImpl) (op : Op) (ops : List Op) :
    run bank s (op :: ops) = (step bank s op).bind fun s' => run bank s' ops := rfl

-- Every state a transaction's `DBImpl` can be in: built by `NewDBImpl` over a well-formed
-- context, then any calls that did not panic.
inductive Reachable : DBImpl → Prop where
  | init (store : Store) (ctx : Chain) (coinbaseAddress : AccAddress)
      (coinbaseEvmAddress : Address) (simulation : Bool) (h : store.WellFormed ctx) :
      Reachable (newDBImpl store ctx coinbaseAddress coinbaseEvmAddress simulation)
  | step {s s' : DBImpl} (op : Op) : Reachable s → step bank s op = some s' → Reachable s'

-- The frame of a call other than a snapshot, a revert or `AddLog`: the stacks and the logs are
-- untouched, the store changes only in the innermost layer of `ctx`, and no layer is allocated.
structure Local (s s' : DBImpl) : Prop where
  ctx_eq : s'.ctx = s.ctx
  snapshottedCtxs_eq : s'.snapshottedCtxs = s.snapshottedCtxs
  tempStatesHist_eq : s'.tempStatesHist = s.tempStatesHist
  fresh_eq : s'.store.fresh = s.store.fresh
  agree : ∀ t rest, s.ctx = t :: rest → ∀ c : Chain, t ∉ c → s.store.AgreeOn s'.store c
  logs_eq : s'.tempStateCurrent.logs = s.tempStateCurrent.logs
  coinbaseAddress_eq : s'.coinbaseAddress = s.coinbaseAddress
  coinbaseEvmAddress_eq : s'.coinbaseEvmAddress = s.coinbaseEvmAddress
  -- an error, once recorded, is never cleared
  err_none : s'.err = none → s.err = none

theorem Local.refl (s : DBImpl) : Local s s :=
  ⟨rfl, rfl, rfl, rfl, fun _ _ _ c _ => MultiStore.AgreeOn.refl s.store c, rfl, rfl, rfl, id⟩

theorem Local.trans {s₁ s₂ s₃ : DBImpl} (h₁ : Local s₁ s₂) (h₂ : Local s₂ s₃) : Local s₁ s₃ where
  ctx_eq := h₂.ctx_eq.trans h₁.ctx_eq
  snapshottedCtxs_eq := h₂.snapshottedCtxs_eq.trans h₁.snapshottedCtxs_eq
  tempStatesHist_eq := h₂.tempStatesHist_eq.trans h₁.tempStatesHist_eq
  fresh_eq := h₂.fresh_eq.trans h₁.fresh_eq
  agree t rest hctx c hc :=
    (h₁.agree t rest hctx c hc).trans (h₂.agree t rest (h₁.ctx_eq.trans hctx) c hc)
  logs_eq := h₂.logs_eq.trans h₁.logs_eq
  coinbaseAddress_eq := h₂.coinbaseAddress_eq.trans h₁.coinbaseAddress_eq
  coinbaseEvmAddress_eq := h₂.coinbaseEvmAddress_eq.trans h₁.coinbaseEvmAddress_eq
  err_none h := h₁.err_none (h₂.err_none h)

theorem local_applyWrites (s : DBImpl) (w : Writes StoreKey Bytes) : Local s (s.applyWrites w) where
  ctx_eq := rfl
  snapshottedCtxs_eq := rfl
  tempStatesHist_eq := rfl
  fresh_eq := MultiStore.update_fresh _ _ _
  agree t rest hctx c hc := by
    simp only [applyWrites, hctx]
    exact MultiStore.agreeOn_update_of_not_mem s.store w hc
  logs_eq := rfl
  coinbaseAddress_eq := rfl
  coinbaseEvmAddress_eq := rfl
  err_none := id

theorem local_setCurrent (s : DBImpl) {f : TemporaryState → TemporaryState}
    (hf : ∀ ts, (f ts).logs = ts.logs) : Local s (s.setCurrent f) :=
  ⟨rfl, rfl, rfl, rfl, fun _ _ _ c _ => MultiStore.AgreeOn.refl s.store c, hf _, rfl, rfl, id⟩

theorem local_setErr (s : DBImpl) (e : String) : Local s { s with err := some e } :=
  ⟨rfl, rfl, rfl, rfl, fun _ _ _ c _ => MultiStore.AgreeOn.refl s.store c, rfl, rfl, rfl,
    fun h => absurd h (Option.some_ne_none e)⟩

theorem local_setTransientState (s : DBImpl) (addr : Address) (key val : Hash) :
    Local s (s.setTransientState addr key val) :=
  local_setCurrent s fun _ => rfl

theorem local_markAccount (s : DBImpl) (acc : Address) (status : Bytes) :
    Local s (s.markAccount acc status) :=
  local_setCurrent s fun _ => rfl

theorem local_setRefund (s : DBImpl) (refund : UInt64) : Local s (s.setRefund refund) :=
  local_setCurrent s fun _ => rfl

theorem local_addAddressToAccessList (s : DBImpl) (addr : Address) :
    Local s (s.addAddressToAccessList addr) :=
  local_setCurrent s fun _ => rfl

theorem local_addSlotToAccessList (s : DBImpl) (addr : Address) (slot : Hash) :
    Local s (s.addSlotToAccessList addr slot) :=
  local_setCurrent s fun _ => rfl

theorem local_subBalancePos (s : DBImpl) (evmAddr : Address) (amt : Int) :
    Local s (subBalancePos bank s evmAddr amt) := by
  unfold subBalancePos
  -- the amount's split, then the two bank calls
  split
  dsimp only
  split
  · exact local_setErr s _
  · rename_i w₁ _
    have h₁ := local_applyWrites s (liftBank w₁)
    split
    · exact h₁.trans (local_setErr _ _)
    · exact h₁.trans ((local_applyWrites _ _).trans (local_setCurrent _ fun _ => rfl))

theorem local_addBalancePos (s : DBImpl) (evmAddr : Address) (amt : Int) :
    Local s (addBalancePos bank s evmAddr amt) := by
  unfold addBalancePos
  -- the amount's split, then the two bank calls
  split
  dsimp only
  split
  · exact local_setErr s _
  · rename_i w₁ _
    have h₁ := local_applyWrites s (liftBank w₁)
    split
    · exact h₁.trans (local_setErr _ _)
    · exact h₁.trans ((local_applyWrites _ _).trans (local_setCurrent _ fun _ => rfl))

theorem local_subBalance (s : DBImpl) (evmAddr : Address) (amt : Int) :
    Local s (subBalance bank s evmAddr amt) := by
  unfold subBalance
  split
  · exact Local.refl s
  · split
    · exact local_addBalancePos bank s evmAddr _
    · exact local_subBalancePos bank s evmAddr _

theorem local_addBalance (s : DBImpl) (evmAddr : Address) (amt : Int) :
    Local s (addBalance bank s evmAddr amt) := by
  unfold addBalance
  split
  · exact Local.refl s
  · split
    · exact local_subBalancePos bank s evmAddr _
    · exact local_addBalancePos bank s evmAddr _

theorem local_removeAssociation (s : DBImpl) (acc : Address) :
    Local s (s.removeAssociation acc) := by
  unfold removeAssociation
  split
  · exact local_applyWrites s _
  · exact Local.refl s

theorem local_selfDestruct (s : DBImpl) (acc : Address) : Local s (selfDestruct bank s acc) :=
  (local_removeAssociation s acc).trans ((local_subBalance bank _ acc _).trans
    (local_markAccount _ acc _))

theorem local_createAccount (s : DBImpl) (acc : Address) : Local s (s.createAccount acc) :=
  (local_applyWrites s _).trans (local_markAccount _ acc _)

theorem local_subRefund {s s' : DBImpl} {gas : UInt64} (h : s.subRefund gas = some s') :
    Local s s' := by
  unfold subRefund at h
  split at h
  · cases h
  · cases h
    exact local_setRefund s _

theorem step_cases {s s' : DBImpl} {op : Op} (h : step bank s op = some s') :
    Local s s' ∨ (∃ l, s' = s.addLog l) ∨ s' = s.snapshot.1 ∨
      ∃ rev, op = .revertToSnapshot rev ∧ s.revertToSnapshot rev = some s' := by
  cases op with
  | setState addr key val => cases h; exact .inl (local_applyWrites s _)
  | setTransientState addr key val => cases h; exact .inl (local_setTransientState s addr key val)
  | addBalance addr amt => cases h; exact .inl (local_addBalance bank s addr amt)
  | subBalance addr amt => cases h; exact .inl (local_subBalance bank s addr amt)
  | setNonce addr nonce => cases h; exact .inl (local_applyWrites s _)
  | createAccount acc => cases h; exact .inl (local_createAccount s acc)
  | selfDestruct acc => cases h; exact .inl (local_selfDestruct bank s acc)
  | markAccount acc status => cases h; exact .inl (local_markAccount s acc status)
  | addLog l => cases h; exact .inr (.inl ⟨l, rfl⟩)
  | addRefund gas => cases h; exact .inl (local_setRefund s _)
  | subRefund gas => exact .inl (local_subRefund h)
  | addAddressToAccessList addr => cases h; exact .inl (local_addAddressToAccessList s addr)
  | addSlotToAccessList addr slot => cases h; exact .inl (local_addSlotToAccessList s addr slot)
  | snapshot => cases h; exact .inr (.inr (.inl rfl))
  | revertToSnapshot rev => exact .inr (.inr (.inr ⟨rev, rfl, h⟩))

end DBImpl

end SeiChain.Evm.State
