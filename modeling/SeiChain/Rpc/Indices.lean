import SeiChain.Rpc.Block
import SeiChain.Lib.Fold

namespace SeiChain.Rpc

open Evm State

-- What the chain stored for a block: a receipt of the block under a hash the block lists names
-- its transaction's position (`ctx.TxIndex()`), and every receipt numbers its logs from zero.
structure Stored (getReceipt : Hash → Option Receipt) (block : Block) : Prop where
  position : ∀ i tx, block.txs[i]? = some tx → ∀ hash ∈ txHashes true tx, ∀ receipt,
    getReceipt hash = some receipt → receipt.blockNumber = block.height →
      receipt.transactionIndex = i
  numbered : ∀ hash receipt, getReceipt hash = some receipt → receipt.LogsNumbered

theorem mem_txHashes_of_getEthTxForTxBz {tx : Tx} {hash : Hash} (h : getEthTxForTxBz tx = some hash)
    (shouldIncludeSynthetic : Bool) : hash ∈ txHashes shouldIncludeSynthetic tx := by
  unfold getEthTxForTxBz at h
  split at h
  · next ethTxHash hmsgs =>
    cases h
    simp [txHashes, hmsgs]
  · cases h

theorem skip_eq_not_counted (receiptChecker : Hash → Bool) (tx : Tx) :
    ((getEthTxForTxBz tx).isNone && !receiptChecker tx.checksum) = !counted receiptChecker tx := by
  unfold counted
  cases getEthTxForTxBz tx <;> cases receiptChecker tx.checksum <;> rfl

-- From position `i`, the loop finds a counted transaction `j` places on after the counted
-- ones in between.
theorem getEvmTxIndexFrom_eq {receiptChecker : Hash → Bool} {txs : List Tx} {j : Nat}
    (hj : j < txs.length) (hc : counted receiptChecker txs[j] = true) (i evmTxIndex : Nat) :
    getEvmTxIndexFrom receiptChecker (i + j) txs i evmTxIndex =
      some (evmTxIndex + (txs.take j).countP (counted receiptChecker)) := by
  induction txs generalizing i evmTxIndex j with
  | nil => exact absurd hj (Nat.not_lt_zero _)
  | cons tx txs ih =>
    cases j with
    | zero =>
      -- the transaction itself is counted, so the loop stops at it
      simp only [List.getElem_cons_zero] at hc
      simp [getEvmTxIndexFrom, skip_eq_not_counted, hc]
    | succ j =>
      simp only [List.length_cons, Nat.add_lt_add_iff_right] at hj
      simp only [List.getElem_cons_succ] at hc
      have hshift : i + (j + 1) = i + 1 + j := by omega
      have hne : i ≠ i + (j + 1) := by omega
      rw [List.take_succ_cons]
      cases htx : counted receiptChecker tx with
      | false =>
        rw [getEvmTxIndexFrom, skip_eq_not_counted, htx, Bool.not_false, if_pos rfl, hshift,
          ih hj hc, List.countP_cons_of_neg (by simp [htx])]
      | true =>
        rw [getEvmTxIndexFrom, skip_eq_not_counted, htx, Bool.not_true, if_neg Bool.false_ne_true,
          if_neg hne, hshift, ih hj hc, List.countP_cons_of_pos htx, Option.some.injEq]
        omega

theorem getEvmTxIndex_eq {txs : List Tx} {j : Nat} {receiptChecker : Hash → Bool}
    (hj : j < txs.length) (hc : counted receiptChecker txs[j] = true) :
    getEvmTxIndex txs j receiptChecker = some ((txs.take j).countP (counted receiptChecker)) := by
  have h := getEvmTxIndexFrom_eq hj hc 0 0
  rw [Nat.zero_add, Nat.zero_add] at h
  exact h

theorem countP_take_eq_iff {txs : List Tx} {j : Nat} (hj : j ≤ txs.length) (p : Tx → Bool) :
    (txs.take j).countP p = j ↔ ∀ tx ∈ txs.take j, p tx = true := by
  have hlen : (txs.take j).length = j := List.length_take_of_le hj
  have h := List.countP_eq_length (p := p) (l := txs.take j)
  rw [hlen] at h
  exact h

-- The EVM transaction at position `i` of a block that the node serves, with its receipt of
-- that block.
structure AtPosition (node : Node) (block : Block) (i : Nat) (hash : Hash) (receipt : Receipt) :
    Prop where
  tx_at : ∃ tx, block.txs[i]? = some tx ∧ getEthTxForTxBz tx = some hash
  found : node.getReceipt hash = some receipt
  of_block : receipt.blockNumber = block.height
  fetched : node.blockByNumber block.height = .ok block

section Endpoints

variable {node : Node} {block : Block} {i : Nat} {hash : Hash} {receipt : Receipt}
  (hstored : Stored node.getReceipt block) (hat : AtPosition node block i hash receipt)
include hstored hat

theorem AtPosition.transactionIndex_eq : receipt.transactionIndex = i := by
  obtain ⟨tx, htx, heth⟩ := hat.tx_at
  exact hstored.position i tx htx hash (mem_txHashes_of_getEthTxForTxBz heth true) receipt hat.found
    hat.of_block

theorem getTransactionWithBlock_eq :
    getTransactionWithBlock node block i = .ok (some ⟨hash, some block.height, some i⟩) := by
  obtain ⟨tx, htx, heth⟩ := hat.tx_at
  simp [getTransactionWithBlock, htx, heth, hat.found, receiptEntry,
    AtPosition.transactionIndex_eq hstored hat]

theorem getTransactionByHash_eq
    (hpending : node.unconfirmed.any (fun tx => getEthTxForTxBz tx = some hash) = false) :
    getTransactionByHash node hash = .ok (some ⟨hash, some block.height, some i⟩) := by
  have hindex := AtPosition.transactionIndex_eq hstored hat
  rw [getTransactionByHash, if_neg (by simp [hpending]), hat.found]
  simp only [hat.of_block, hat.fetched, hindex]
  exact getTransactionWithBlock_eq hstored hat

theorem getTransactionReceipt_eq :
    getTransactionReceipt node hash = .ok (some ⟨block.height, receipt.txHashHex,
      (block.txs.take i).countP (counted node.hasReceipt), getLogsForTx receipt 0⟩) := by
  obtain ⟨tx, htx, heth⟩ := hat.tx_at
  have hindex := AtPosition.transactionIndex_eq hstored hat
  obtain ⟨hi, htx'⟩ := List.getElem?_eq_some_iff.1 htx
  -- the transaction itself is counted: it is an EVM transaction
  have hc : counted node.hasReceipt block.txs[i] = true := by
    simp [counted, htx', heth]
  have henc : encodeReceipt receipt block node.hasReceipt = .ok ⟨block.height, receipt.txHashHex,
      (block.txs.take i).countP (counted node.hasReceipt), getLogsForTx receipt 0⟩ := by
    simp [encodeReceipt, hindex, getEvmTxIndex_eq hi hc, hat.of_block]
  rw [getTransactionReceipt, hat.found]
  simp only [hat.of_block, hat.fetched, bind, Except.bind, henc]
  rfl

end Endpoints

def Located (node : Node) (block : Block) (entry : RpcTransaction) : Prop :=
  ∃ receipt, node.getReceipt entry.hash = some receipt ∧
    entry = receiptEntry block entry.hash receipt

theorem evmTxEntry_located (node : Node) (block : Block) (includeSyntheticTxs : Bool)
    (hash : Hash) : ∀ entry ∈ evmTxEntry node block includeSyntheticTxs hash, Located node block entry := by
  intro entry hentry
  unfold evmTxEntry at hentry
  cases hr : node.getReceipt hash with
  | none => simp [hr] at hentry
  | some receipt =>
    simp only [hr] at hentry
    split_ifs at hentry
    · cases hentry
    · rw [List.mem_singleton] at hentry
      subst hentry
      exact ⟨receipt, hr, rfl⟩

theorem encodeTmBlockMsg_located {node : Node} {block : Block} {includeSyntheticTxs : Bool}
    {isPanicOrSynthetic : Option (Hash → Except String Bool)} {tx : Tx} {msg : Msg}
    {entries : List RpcTransaction}
    (h : encodeTmBlockMsg node block includeSyntheticTxs isPanicOrSynthetic tx msg = .ok entries) :
    ∀ entry ∈ entries, Located node block entry := by
  cases msg with
  | evmTransaction hash associate =>
    cases associate with
    | true =>
      cases h
      simp
    | false =>
      -- past the panic check, what is listed is the transaction's receipt entry
      simp only [encodeTmBlockMsg] at h
      cases hp : panicOrSynthetic isPanicOrSynthetic hash with
      | error e =>
        rw [hp] at h
        cases h
      | ok skip =>
        rw [hp] at h
        cases skip with
        | true =>
          cases h
          simp
        | false =>
          cases h
          exact evmTxEntry_located node block includeSyntheticTxs hash
  | executeContract =>
    simp only [encodeTmBlockMsg] at h
    split_ifs at h
    · cases h
      simp
    · cases hr : node.getReceipt tx.checksum with
      | none =>
        simp only [hr] at h
        cases h
        simp
      | some receipt =>
        simp only [hr] at h
        cases h
        intro entry hentry
        rw [List.mem_singleton] at hentry
        subst hentry
        exact ⟨receipt, hr, rfl⟩
  | other =>
    cases h
    simp

-- `eth_getBlockByNumber` with full transactions reports every transaction at its receipt's
-- `TransactionIndex`.
theorem encodeTmBlockTxs_located {node : Node} {block : Block} {includeSyntheticTxs : Bool}
    {isPanicOrSynthetic : Option (Hash → Except String Bool)} {entries : List RpcTransaction}
    (h : encodeTmBlockTxs node block includeSyntheticTxs isPanicOrSynthetic = .ok entries) :
    ∀ entry ∈ entries, Located node block entry := by
  intro entry hentry
  unfold encodeTmBlockTxs at h
  cases hmap : block.txs.mapM (encodeTmBlockTx node block includeSyntheticTxs isPanicOrSynthetic) with
  | error e =>
    rw [hmap] at h
    cases h
  | ok perTx =>
    rw [hmap] at h
    cases h
    obtain ⟨txEntries, hmem, hin⟩ := List.mem_flatten.1 hentry
    obtain ⟨tx, -, htx⟩ := List.exists_of_mem_mapM_except hmap hmem
    unfold encodeTmBlockTx at htx
    cases hmsgs : tx.msgs with
    | none =>
      rw [hmsgs] at htx
      cases htx
    | some msgs =>
      simp only [hmsgs] at htx
      cases hmsgMap : msgs.mapM (encodeTmBlockMsg node block includeSyntheticTxs isPanicOrSynthetic tx) with
      | error e =>
        rw [hmsgMap] at htx
        cases htx
      | ok perMsg =>
        rw [hmsgMap] at htx
        cases htx
        obtain ⟨msgEntries, hmem', hin'⟩ := List.mem_flatten.1 hin
        obtain ⟨msg, -, hmsg⟩ := List.exists_of_mem_mapM_except hmsgMap hmem'
        exact encodeTmBlockMsg_located hmsg entry hin'

theorem getLogsForTx_indices {receipt : Receipt} (h : receipt.LogsNumbered) (logStartIndex : Nat) :
    (getLogsForTx receipt logStartIndex).map EthLog.index =
      List.range' logStartIndex receipt.logs.length := by
  have hmap : (getLogsForTx receipt logStartIndex).map EthLog.index =
      (receipt.logs.map Log.index).map (· + logStartIndex) := by
    simp [getLogsForTx, convertLog, Function.comp_def]
  rw [hmap, h, List.range_eq_range']
  apply List.ext_getElem
  · simp
  · intro i h₁ h₂
    simp only [List.getElem_map, List.getElem_range']
    omega

def logsBefore (getReceipt : Hash → Option Receipt) (includeSyntheticReceipts : Bool) :
    List Hash → Nat
  | [] => 0
  | hash :: hashes =>
    (match getReceipt hash with
      | none => 0
      | some receipt =>
        if !includeSyntheticReceipts &&
            (receipt.txType = shellEVMTxType || receipt.effectiveGasPrice = 0) then 0
        else receipt.logs.length) +
      logsBefore getReceipt includeSyntheticReceipts hashes

section FindLogs

variable {getReceipt : Hash → Option Receipt} {includeSyntheticReceipts : Bool}
  {matchBloom : Receipt → Bool}

theorem findLogsByBloomFrom_indices_sublist
    (hnum : ∀ hash receipt, getReceipt hash = some receipt → receipt.LogsNumbered)
    (hashes : List Hash) (totalLogs : Nat) :
    ((findLogsByBloomFrom getReceipt includeSyntheticReceipts matchBloom hashes totalLogs).map
      EthLog.index).Sublist
      (List.range' totalLogs (logsBefore getReceipt includeSyntheticReceipts hashes)) := by
  induction hashes generalizing totalLogs with
  | nil => simp [findLogsByBloomFrom, logsBefore]
  | cons hash hashes ih =>
    simp only [findLogsByBloomFrom, logsBefore]
    cases hr : getReceipt hash with
    | none => simpa using ih totalLogs
    | some receipt =>
      dsimp only
      split_ifs with hskip hmatch
      · simpa using ih totalLogs
      · -- this receipt's logs take the next block of indices, the rest follow it
        rw [List.map_append, getLogsForTx_indices (hnum hash receipt hr), ← List.range'_append_1]
        exact (ih (totalLogs + receipt.logs.length)).append_left _
      · rw [← List.range'_append_1, List.nil_append]
        exact (ih (totalLogs + receipt.logs.length)).trans (List.sublist_append_right _ _)

end FindLogs

theorem nodup_findLogsByBloom_indices {node : Node} {block : Block}
    (hstored : Stored node.getReceipt block) (includeSyntheticReceipts : Bool)
    (matchBloom : Receipt → Bool) :
    ((findLogsByBloom node includeSyntheticReceipts matchBloom block).map EthLog.index).Nodup :=
  ((findLogsByBloomFrom_indices_sublist hstored.numbered _ 0)).nodup List.nodup_range'

theorem encodeReceipt_logs_indices {receipt : Receipt} {block : Block} {receiptChecker : Hash → Bool}
    {fields : ReceiptFields} (h : encodeReceipt receipt block receiptChecker = .ok fields)
    (hnum : receipt.LogsNumbered) : fields.logs.map EthLog.index = List.range receipt.logs.length := by
  unfold encodeReceipt at h
  split at h
  · cases h
  · cases h
    rw [getLogsForTx_indices hnum, List.range_eq_range']

def oneLog : Log := ⟨bytesToAddress [], [], [], 0⟩

def bankSendTx : Tx := ⟨some [.other], bytesToHash [1]⟩

def evmTxA : Tx := ⟨some [.evmTransaction (bytesToHash [2]) false], bytesToHash [3]⟩

def evmTxB : Tx := ⟨some [.evmTransaction (bytesToHash [4]) false], bytesToHash [5]⟩

def mixedBlock : Block := ⟨7, [bankSendTx, evmTxA, evmTxB]⟩

def fullBloom : Bytes := List.replicate 256 255

def receiptA : Receipt := ⟨0, bytesToHash [2], 7, 1, 1, [oneLog], fullBloom⟩

def receiptB : Receipt := ⟨0, bytesToHash [4], 7, 2, 1, [oneLog], fullBloom⟩

def mixedNode : Node where
  getReceipt hash :=
    if hash = bytesToHash [2] then some receiptA
    else if hash = bytesToHash [4] then some receiptB
    else none
  blockByNumber _ := .ok mixedBlock
  unconfirmed := []

theorem mixedNode_getReceipt_checksums :
    mixedNode.getReceipt (bytesToHash [1]) = none ∧ mixedNode.getReceipt (bytesToHash [3]) = none ∧
      mixedNode.getReceipt (bytesToHash [5]) = none := ⟨rfl, rfl, rfl⟩

theorem stored_mixedBlock : Stored mixedNode.getReceipt mixedBlock := by
  obtain ⟨h₁, h₃, h₅⟩ := mixedNode_getReceipt_checksums
  constructor
  · intro i tx htx hash hhash receipt hr _
    rcases i with _ | _ | _ | i
    · -- the bank send: only its checksum is listed, and it has no receipt
      cases htx
      have hh : hash = bytesToHash [1] := by simpa [txHashes, bankSendTx] using hhash
      rw [hh, h₁] at hr
      cases hr
    · cases htx
      have hh : hash = bytesToHash [2] ∨ hash = bytesToHash [3] := by
        simpa [txHashes, evmTxA] using hhash
      rcases hh with rfl | rfl
      · cases hr
        rfl
      · rw [h₃] at hr
        cases hr
    · cases htx
      have hh : hash = bytesToHash [4] ∨ hash = bytesToHash [5] := by
        simpa [txHashes, evmTxB] using hhash
      rcases hh with rfl | rfl
      · cases hr
        rfl
      · rw [h₅] at hr
        cases hr
    · simp [mixedBlock] at htx
  · intro hash receipt hr
    simp only [mixedNode] at hr
    split_ifs at hr
    · cases hr
      rfl
    · cases hr
      rfl

theorem rpc_indices_disagree_after_bank_send :
    Stored mixedNode.getReceipt mixedBlock ∧
    (getTransactionReceipt mixedNode (bytesToHash [2])).map
        (Option.map ReceiptFields.transactionIndex) = .ok (some 0) ∧
    (getTransactionByHash mixedNode (bytesToHash [2])).map
        (Option.bind · RpcTransaction.transactionIndex) = .ok (some 1) ∧
    (encodeTmBlockTxs mixedNode mixedBlock false none).map
        (List.map RpcTransaction.transactionIndex) = .ok [some 1, some 2] ∧
    (getBlockReceipts mixedNode mixedBlock false false).map
        (List.map fun fields => fields.logs.map EthLog.index) = .ok [[0], [0]] ∧
    (findLogsByBloom mixedNode false (fun _ => true) mixedBlock).map EthLog.index = [0, 1] :=
  ⟨stored_mixedBlock, rfl, rfl, rfl, rfl, rfl⟩

end SeiChain.Rpc
