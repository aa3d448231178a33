import SeiChain.Evm.State.Revert
import SeiChain.Evm.Bloom

namespace SeiChain.Evm

open State

-- `types.Receipt`, with the fields the RPC reads to number transactions and logs and to
-- filter receipts.
structure Receipt where
  txType : Nat
  txHashHex : Hash
  blockNumber : Nat
  transactionIndex : Nat
  effectiveGasPrice : Nat
  logs : List Log
  logsBloom : Bytes

-- `ShellEVMTxType`, `math.MaxUint32`.
def shellEVMTxType : Nat := 4294967295

-- `WriteReceipt`: the logs are all that the transaction's `DBImpl` kept; `ConvertEthLog` keeps
-- their address, topics, data and index. The bloom is `CreateBloom` of them.
def writeReceipt (keccak256 : Bytes → Hash) (stateDB : DBImpl) (txType : Nat) (txHash : Hash)
    (blockHeight txIndex : Nat) (gasPrice : Nat) : Receipt where
  txType := txType
  txHashHex := txHash
  blockNumber := blockHeight
  transactionIndex := txIndex
  effectiveGasPrice := gasPrice
  logs := DBImpl.getAllLogs stateDB
  logsBloom := createBloom keccak256 (DBImpl.getAllLogs stateDB)

def errorReceipt (txHash : Hash) (blockHeight txIndex : Nat) : Receipt where
  txType := 0
  txHashHex := txHash
  blockNumber := blockHeight
  transactionIndex := txIndex
  effectiveGasPrice := 0
  logs := []
  logsBloom := []

def renumberLogs (logs : List Log) : List Log :=
  logs.mapIdx fun i l => { l with index := i }

-- `AddCosmosEventsToEVMReceiptIfApplicable` once the wasm events are translated: nothing when
-- no event translates; otherwise the synthetic logs appended to the transaction's receipt
-- and all renumbered, or a shell receipt holding them, with the bloom of the logs it holds.
def addCosmosEventsToEVMReceipt (keccak256 : Bytes → Hash) (existing : Option Receipt)
    (logs : List Log) (txHash : Hash) (blockHeight txIndex : Nat) : Option Receipt :=
  if logs = [] then none
  else
    match existing with
    | some r => some
      { r with
        logs := renumberLogs (r.logs ++ logs)
        logsBloom := createBloom keccak256 (renumberLogs (r.logs ++ logs)) }
    | none => some
      { txType := shellEVMTxType
        txHashHex := txHash
        blockNumber := blockHeight
        transactionIndex := txIndex
        effectiveGasPrice := 0
        logs := renumberLogs logs
        logsBloom := createBloom keccak256 logs }

def Receipt.LogsNumbered (r : Receipt) : Prop :=
  r.logs.map Log.index = List.range r.logs.length

theorem logsNumbered_writeReceipt {bank : BankKeeper} {stateDB : DBImpl}
    (h : DBImpl.Reachable bank stateDB) (keccak256 : Bytes → Hash) (txType : Nat) (txHash : Hash)
    (blockHeight txIndex gasPrice : Nat) :
    (writeReceipt keccak256 stateDB txType txHash blockHeight txIndex gasPrice).LogsNumbered :=
  DBImpl.logsIndexed_of_reachable bank h

theorem logsNumbered_errorReceipt (txHash : Hash) (blockHeight txIndex : Nat) :
    (errorReceipt txHash blockHeight txIndex).LogsNumbered := rfl

theorem map_index_renumberLogs (logs : List Log) :
    (renumberLogs logs).map Log.index = List.range (renumberLogs logs).length := by
  apply List.ext_getElem
  · simp
  · intro i h₁ h₂
    simp [renumberLogs]

theorem logsNumbered_addCosmosEventsToEVMReceipt {keccak256 : Bytes → Hash}
    {existing : Option Receipt} {logs : List Log} {txHash : Hash} {blockHeight txIndex : Nat}
    {r : Receipt} (h : addCosmosEventsToEVMReceipt keccak256 existing logs txHash blockHeight txIndex = some r) :
    r.LogsNumbered := by
  unfold addCosmosEventsToEVMReceipt at h
  split_ifs at h with hlogs
  cases existing with
  | some r₀ =>
    cases h
    exact map_index_renumberLogs _
  | none =>
    cases h
    exact map_index_renumberLogs _

def Receipt.Bloomed (keccak256 : Bytes → Hash) (r : Receipt) : Prop :=
  r.logsBloom = createBloom keccak256 r.logs ∨ r.logs = []

theorem createBloom_eq_of_map_eq {keccak256 : Bytes → Hash} {logs logs' : List Log}
    (h : logs.map (fun l => (l.address, l.topics)) = logs'.map (fun l => (l.address, l.topics))) :
    createBloom keccak256 logs = createBloom keccak256 logs' := by
  unfold createBloom
  generalize List.replicate bloomByteLength (0 : UInt8) = init
  induction logs generalizing logs' init with
  | nil =>
    cases logs' with
    | nil => rfl
    | cons l' logs' => simp at h
  | cons l logs ih =>
    cases logs' with
    | nil => simp at h
    | cons l' logs' =>
      simp only [List.map_cons, List.cons.injEq, Prod.mk.injEq] at h
      obtain ⟨⟨haddr, htopics⟩, hrest⟩ := h
      -- the two heads add the same address and topics
      have hstep : Bloom.addLog keccak256 init l = Bloom.addLog keccak256 init l' := by
        simp only [Bloom.addLog, haddr, htopics]
      rw [List.foldl_cons, List.foldl_cons, hstep]
      exact ih hrest _

theorem map_renumberLogs (logs : List Log) :
    (renumberLogs logs).map (fun l => (l.address, l.topics)) = logs.map (fun l => (l.address, l.topics)) := by
  apply List.ext_getElem
  · simp [renumberLogs]
  · intro i h₁ h₂
    simp [renumberLogs]

theorem bloomed_writeReceipt (keccak256 : Bytes → Hash) (stateDB : DBImpl) (txType : Nat) (txHash : Hash)
    (blockHeight txIndex gasPrice : Nat) :
    (writeReceipt keccak256 stateDB txType txHash blockHeight txIndex gasPrice).Bloomed keccak256 :=
  .inl rfl

theorem bloomed_errorReceipt (keccak256 : Bytes → Hash) (txHash : Hash) (blockHeight txIndex : Nat) :
    (errorReceipt txHash blockHeight txIndex).Bloomed keccak256 :=
  .inr rfl

theorem bloomed_addCosmosEventsToEVMReceipt {keccak256 : Bytes → Hash}
    {existing : Option Receipt} {logs : List Log} {txHash : Hash} {blockHeight txIndex : Nat}
    {r : Receipt} (h : addCosmosEventsToEVMReceipt keccak256 existing logs txHash blockHeight txIndex = some r) :
    r.Bloomed keccak256 := by
  unfold addCosmosEventsToEVMReceipt at h
  split_ifs at h with hlogs
  cases existing with
  | some r₀ =>
    cases h
    exact .inl rfl
  | none =>
    cases h
    -- the shell receipt's bloom was built before the logs were renumbered
    exact .inl (createBloom_eq_of_map_eq (map_renumberLogs logs).symm)

-- The receipt of a transaction from the StateDB after any run, that of a failed one, and the one
-- `AddCosmosEventsToEVMReceipt` writes or extends.
theorem receipts_number_logs_and_carry_bloom {bank : BankKeeper} {stateDB : DBImpl}
    (h : DBImpl.Reachable bank stateDB) (keccak256 : Bytes → Hash) (txType : Nat) (txHash : Hash)
    (blockHeight txIndex gasPrice : Nat) :
    ((writeReceipt keccak256 stateDB txType txHash blockHeight txIndex gasPrice).LogsNumbered ∧
      (writeReceipt keccak256 stateDB txType txHash blockHeight txIndex gasPrice).Bloomed keccak256) ∧
    ((errorReceipt txHash blockHeight txIndex).LogsNumbered ∧
      (errorReceipt txHash blockHeight txIndex).Bloomed keccak256) ∧
    ∀ existing logs r, addCosmosEventsToEVMReceipt keccak256 existing logs txHash blockHeight txIndex = some r →
      r.LogsNumbered ∧ r.Bloomed keccak256 :=
  ⟨⟨logsNumbered_writeReceipt h keccak256 txType txHash blockHeight txIndex gasPrice,
      bloomed_writeReceipt keccak256 stateDB txType txHash blockHeight txIndex gasPrice⟩,
    ⟨logsNumbered_errorReceipt txHash blockHeight txIndex, bloomed_errorReceipt keccak256 txHash blockHeight txIndex⟩,
    fun _ _ _ hr => ⟨logsNumbered_addCosmosEventsToEVMReceipt hr, bloomed_addCosmosEventsToEVMReceipt hr⟩⟩

def refusingBank : BankKeeper :=
  ⟨fun _ _ => 0, fun _ _ => 0, fun _ _ => 0, fun _ _ _ => .error "refused", fun _ _ _ => .error "refused",
    fun _ _ _ => .error "refused", fun _ _ _ => .error "refused"⟩

def freshStateDB : DBImpl :=
  DBImpl.newDBImpl ⟨fun _ => none, fun _ => KVStore.Writes.empty, 0⟩ [] [] (bytesToAddress []) false

theorem fresh_state_db_receipts :
    DBImpl.Reachable refusingBank freshStateDB ∧
      ((writeReceipt (fun _ => Hash.zero) freshStateDB 0 Hash.zero 1 0 0).LogsNumbered ∧
        (writeReceipt (fun _ => Hash.zero) freshStateDB 0 Hash.zero 1 0 0).Bloomed fun _ => Hash.zero) ∧
      ((errorReceipt Hash.zero 1 0).LogsNumbered ∧ (errorReceipt Hash.zero 1 0).Bloomed fun _ => Hash.zero) ∧
      ∀ existing logs r, addCosmosEventsToEVMReceipt (fun _ => Hash.zero) existing logs Hash.zero 1 0 = some r →
        r.LogsNumbered ∧ r.Bloomed fun _ => Hash.zero := by
  have hreach : DBImpl.Reachable refusingBank freshStateDB :=
    .init _ _ _ _ _ ⟨List.Pairwise.nil, fun _ hi => by cases hi⟩
  exact ⟨hreach, receipts_number_logs_and_carry_bloom hreach _ 0 Hash.zero 1 0 0⟩

end SeiChain.Evm
