import SeiChain.Evm.Receipt

namespace SeiChain.Rpc

open Evm State

-- A message of a decoded transaction, as far as the RPC tells messages apart.
inductive Msg where
  | evmTransaction (ethTxHash : Hash) (associate : Bool)
  | executeContract
  | other
  deriving DecidableEq

-- A transaction of a block: its messages, `none` when `TxDecoder` fails, and its
-- `sha256.Sum256`.
structure Tx where
  msgs : Option (List Msg)
  checksum : Hash
  deriving DecidableEq

structure Block where
  height : Nat
  txs : List Tx

-- What the node answers: `GetReceipt` (`none` is its "not found"), `blockByNumberWithRetry`,
-- and the transactions `UnconfirmedTxs` pages through.
structure Node where
  getReceipt : Hash → Option Receipt
  blockByNumber : Nat → Except String Block
  unconfirmed : List Tx

-- go-ethereum's `types.Log` as the RPC returns it, without the block hash.
structure EthLog where
  address : Address
  topics : List Hash
  data : Bytes
  blockNumber : Nat
  txHash : Hash
  txIndex : Nat
  index : Nat
  deriving DecidableEq

def convertLog (l : Log) (receipt : Receipt) (logStartIndex : Nat) : EthLog where
  address := l.address
  topics := l.topics
  data := l.data
  blockNumber := receipt.blockNumber
  txHash := receipt.txHashHex
  txIndex := receipt.transactionIndex
  index := l.index + logStartIndex

def getLogsForTx (receipt : Receipt) (logStartIndex : Nat) : List EthLog :=
  receipt.logs.map fun l => convertLog l receipt logStartIndex

-- `getEthTxForTxBz`: the Ethereum transaction of a transaction made of exactly one
-- `MsgEVMTransaction` that is not an association.
def getEthTxForTxBz (tx : Tx) : Option Hash :=
  match tx.msgs with
  | some [.evmTransaction ethTxHash false] => some ethTxHash
  | _ => none

-- `getTxHashesFromBlock`: undecodable transactions and associations are skipped; a transaction
-- whose first message is an EVM one gives its Ethereum hash; with synthetic receipts every
-- other one also gives its checksum.
def txHashes (shouldIncludeSynthetic : Bool) (tx : Tx) : List Hash :=
  let synthetic := if shouldIncludeSynthetic then [tx.checksum] else []
  match tx.msgs with
  | none => []
  | some (.evmTransaction _ true :: _) => []
  | some (.evmTransaction ethTxHash false :: _) => ethTxHash :: synthetic
  | some _ => synthetic

def getTxHashesFromBlock (block : Block) (shouldIncludeSynthetic : Bool) : List Hash :=
  block.txs.flatMap (txHashes shouldIncludeSynthetic)

-- Whether `GetEvmTxIndex` counts a transaction: an EVM transaction, or one with a receipt under
-- its checksum.
def counted (receiptChecker : Hash → Bool) (tx : Tx) : Bool :=
  (getEthTxForTxBz tx).isSome || receiptChecker tx.checksum

-- `GetEvmTxIndex`'s loop from position `i` with `evmTxIndex` counted transactions before it;
-- `none` is its `(-1, false)`.
def getEvmTxIndexFrom (receiptChecker : Hash → Bool) (txIndex : Nat) :
    List Tx → Nat → Nat → Option Nat
  | [], _, _ => none
  | tx :: txs, i, evmTxIndex =>
    if (getEthTxForTxBz tx).isNone && !receiptChecker tx.checksum then
      getEvmTxIndexFrom receiptChecker txIndex txs (i + 1) evmTxIndex
    else if i = txIndex then some evmTxIndex
    else getEvmTxIndexFrom receiptChecker txIndex txs (i + 1) (evmTxIndex + 1)

-- `GetEvmTxIndex`: the position of the transaction at `txIndex` among the counted ones.
def getEvmTxIndex (txs : List Tx) (txIndex : Nat) (receiptChecker : Hash → Bool) : Option Nat :=
  getEvmTxIndexFrom receiptChecker txIndex txs 0 0

-- The fields of `encodeReceipt` that locate the receipt and its logs.
structure ReceiptFields where
  blockNumber : Nat
  transactionHash : Hash
  transactionIndex : Nat
  logs : List EthLog
  deriving DecidableEq

-- `encodeReceipt`: the logs numbered from 0, the index from `GetEvmTxIndex`.
def encodeReceipt (receipt : Receipt) (block : Block) (receiptChecker : Hash → Bool) :
    Except String ReceiptFields :=
  let logs := getLogsForTx receipt 0
  match getEvmTxIndex block.txs receipt.transactionIndex receiptChecker with
  | none => .error "failed to find transaction in block"
  | some evmTxIndex =>
    .ok { blockNumber := receipt.blockNumber
          transactionHash := receipt.txHashHex
          transactionIndex := evmTxIndex
          logs := logs }

def Node.hasReceipt (node : Node) (hash : Hash) : Bool :=
  (node.getReceipt hash).isSome

-- `eth_getTransactionReceipt`: JSON null when the receipt is not found.
def getTransactionReceipt (node : Node) (hash : Hash) : Except String (Option ReceiptFields) :=
  match node.getReceipt hash with
  | none => .ok none
  | some receipt => do
    let block ← node.blockByNumber receipt.blockNumber
    let fields ← encodeReceipt receipt block node.hasReceipt
    pure (some fields)

-- `eth_getBlockReceipts` for one hash of the block: skipped when not found, when it is a shell
-- receipt and those are not included, or when the receipt is of another block.
def blockReceipt (node : Node) (block : Block) (includeShellReceipts : Bool) (hash : Hash) :
    Except String (Option ReceiptFields) :=
  match node.getReceipt hash with
  | none => .ok none
  | some receipt =>
    if !includeShellReceipts && receipt.txType = shellEVMTxType then .ok none
    else if receipt.blockNumber ≠ block.height then .ok none
    else some <$> encodeReceipt receipt block node.hasReceipt

def getBlockReceipts (node : Node) (block : Block) (includeShellReceipts shouldIncludeSynthetic : Bool) :
    Except String (List ReceiptFields) := do
  let receipts ← (getTxHashesFromBlock block shouldIncludeSynthetic).mapM
    (blockReceipt node block includeShellReceipts)
  pure receipts.reduceOption

-- `ethapi.RPCTransaction`, with the fields that locate it; a pending transaction has neither
-- block nor index.
structure RpcTransaction where
  hash : Hash
  blockNumber : Option Nat
  transactionIndex : Option Nat
  deriving DecidableEq

def receiptEntry (block : Block) (hash : Hash) (receipt : Receipt) : RpcTransaction :=
  ⟨hash, some block.height, some receipt.transactionIndex⟩

-- `getTransactionWithBlock`: the index is the receipt's `TransactionIndex`.
def getTransactionWithBlock (node : Node) (block : Block) (index : Nat) :
    Except String (Option RpcTransaction) :=
  match block.txs[index]? with
  | none => .ok none
  | some tx =>
    match getEthTxForTxBz tx with
    | none => .ok none
    | some ethTxHash =>
      match node.getReceipt ethTxHash with
      | none => .error "not found"
      | some receipt => .ok (some (receiptEntry block ethTxHash receipt))

-- `eth_getTransactionByHash`: the mempool first, then the committed transaction at its
-- receipt's block and index.
def getTransactionByHash (node : Node) (hash : Hash) : Except String (Option RpcTransaction) :=
  if node.unconfirmed.any (fun tx => getEthTxForTxBz tx = some hash) then
    .ok (some ⟨hash, none, none⟩)
  else
    match node.getReceipt hash with
    | none => .ok none
    | some receipt => do
      let block ← node.blockByNumber receipt.blockNumber
      getTransactionWithBlock node block receipt.transactionIndex

-- The verdict of `isPanicOrSynthetic`, which the `eth` namespace does not pass.
def panicOrSynthetic (isPanicOrSynthetic : Option (Hash → Except String Bool)) (hash : Hash) :
    Except String Bool :=
  match isPanicOrSynthetic with
  | none => .ok false
  | some check =>
    match check hash with
    | .error e => .error ("failed to check if tx is panic tx: " ++ e)
    | .ok b => .ok b

-- An EVM transaction the panic check let through: nothing without a receipt, or for a shell
-- receipt when synthetic transactions are not included.
def evmTxEntry (node : Node) (block : Block) (includeSyntheticTxs : Bool) (hash : Hash) :
    List RpcTransaction :=
  match node.getReceipt hash with
  | none => []
  | some receipt =>
    if !includeSyntheticTxs && receipt.txType = shellEVMTxType then []
    else [receiptEntry block hash receipt]

def encodeTmBlockMsg (node : Node) (block : Block) (includeSyntheticTxs : Bool)
    (isPanicOrSynthetic : Option (Hash → Except String Bool)) (tx : Tx) :
    Msg → Except String (List RpcTransaction)
  | .evmTransaction _ true => .ok []
  | .evmTransaction hash false => do
    let skip ← panicOrSynthetic isPanicOrSynthetic hash
    if skip then pure [] else pure (evmTxEntry node block includeSyntheticTxs hash)
  | .executeContract =>
    if !includeSyntheticTxs then .ok []
    else
      match node.getReceipt tx.checksum with
      | none => .ok []
      | some receipt => .ok [receiptEntry block tx.checksum receipt]
  | .other => .ok []

def encodeTmBlockTx (node : Node) (block : Block) (includeSyntheticTxs : Bool)
    (isPanicOrSynthetic : Option (Hash → Except String Bool)) (tx : Tx) :
    Except String (List RpcTransaction) :=
  match tx.msgs with
  | none => .error "failed to decode transaction"
  | some msgs => do
    let entries ← msgs.mapM (encodeTmBlockMsg node block includeSyntheticTxs isPanicOrSynthetic tx)
    pure entries.flatten

def encodeTmBlockTxs (node : Node) (block : Block) (includeSyntheticTxs : Bool)
    (isPanicOrSynthetic : Option (Hash → Except String Bool)) : Except String (List RpcTransaction) := do
  let entries ← block.txs.mapM (encodeTmBlockTx node block includeSyntheticTxs isPanicOrSynthetic)
  pure entries.flatten

-- The loop over the block's hashes with the count of logs of the receipts before; `matchBloom`
-- is `len(receipt.LogsBloom) > 0 && MatchFilters(receipt.LogsBloom, filters)`.
def findLogsByBloomFrom (getReceipt : Hash → Option Receipt) (includeSyntheticReceipts : Bool)
    (matchBloom : Receipt → Bool) : List Hash → Nat → List EthLog
  | [], _ => []
  | hash :: hashes, totalLogs =>
    match getReceipt hash with
    | none => findLogsByBloomFrom getReceipt includeSyntheticReceipts matchBloom hashes totalLogs
    | some receipt =>
      if !includeSyntheticReceipts &&
          (receipt.txType = shellEVMTxType || receipt.effectiveGasPrice = 0) then
        findLogsByBloomFrom getReceipt includeSyntheticReceipts matchBloom hashes totalLogs
      else
        (if matchBloom receipt then getLogsForTx receipt totalLogs else []) ++
          findLogsByBloomFrom getReceipt includeSyntheticReceipts matchBloom hashes
            (totalLogs + receipt.logs.length)

def findLogsByBloom (node : Node) (includeSyntheticReceipts : Bool) (matchBloom : Receipt → Bool)
    (block : Block) : List EthLog :=
  findLogsByBloomFrom node.getReceipt includeSyntheticReceipts matchBloom
    (getTxHashesFromBlock block includeSyntheticReceipts) 0

end SeiChain.Rpc
