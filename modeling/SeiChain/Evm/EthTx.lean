import SeiChain.Evm.Ethtypes

namespace SeiChain.Evm.Ethtx

open BigInt Ethtypes

-- `sdk.Int`: at most 256 bits; the constructors that would exceed that panic.
structure SdkInt where
  i : Int
  bitLen_le : bitLen i ≤ 256

def maxBitLen : Nat := 256

def newIntFromBigInt (i : Int) : Option SdkInt :=
  if h : bitLen i ≤ 256 then some ⟨i, h⟩ else none

-- `IsValidInt256`: a nil number passes.
def isValidInt256 : Option Int → Bool
  | none => true
  | some i => decide (bitLen i ≤ maxBitLen)

-- An encoding to strings and the reading back, with the laws go-ethereum documents: the
-- encoding (`Hex`, `0x`-prefixed) is never empty, and `HexToAddress` / `HexToHash` read it back.
structure HexCodec (α : Type) where
  hex : α → String
  fromHex : String → α
  fromHex_hex : ∀ a, fromHex (hex a) = a
  hex_ne_empty : ∀ a, hex a ≠ ""

-- The encodings the conversions use, and `common.IsHexAddress`.
structure Codecs where
  address : HexCodec Address
  hash : HexCodec Hash
  isHexAddress : String → Bool

structure AccessTuple where
  address : String
  storageKeys : List String

abbrev AccessList := List AccessTuple

structure LegacyTx where
  nonce : UInt64 := 0
  gasPrice : Option SdkInt := none
  gasLimit : UInt64 := 0
  toAddr : String := ""
  amount : Option SdkInt := none
  data : Bytes := []
  v : Bytes := []
  r : Bytes := []
  s : Bytes := []

structure AccessListTx where
  chainID : Option SdkInt := none
  nonce : UInt64 := 0
  gasPrice : Option SdkInt := none
  gasLimit : UInt64 := 0
  toAddr : String := ""
  amount : Option SdkInt := none
  data : Bytes := []
  accesses : AccessList := []
  v : Bytes := []
  r : Bytes := []
  s : Bytes := []

structure DynamicFeeTx where
  chainID : Option SdkInt := none
  nonce : UInt64 := 0
  gasTipCap : Option SdkInt := none
  gasFeeCap : Option SdkInt := none
  gasLimit : UInt64 := 0
  toAddr : String := ""
  amount : Option SdkInt := none
  data : Bytes := []
  accesses : AccessList := []
  v : Bytes := []
  r : Bytes := []
  s : Bytes := []

-- The sidecar, which nothing signed covers, is left out.
structure BlobTx where
  chainID : Option SdkInt := none
  nonce : UInt64 := 0
  gasTipCap : Option SdkInt := none
  gasFeeCap : Option SdkInt := none
  gasLimit : UInt64 := 0
  toAddr : String := ""
  amount : Option SdkInt := none
  data : Bytes := []
  accesses : AccessList := []
  blobFeeCap : Option SdkInt := none
  blobHashes : List Bytes := []
  v : Bytes := []
  r : Bytes := []
  s : Bytes := []

inductive TxData
  | legacyTx (tx : LegacyTx)
  | accessListTx (tx : AccessListTx)
  | dynamicFeeTx (tx : DynamicFeeTx)
  | blobTx (tx : BlobTx)

def validateEthTx (tx : Transaction) : Except String Unit :=
  if !isValidInt256 (some tx.value) then .error "value overflow"
  else if !isValidInt256 (some tx.gasPrice) then .error "gas price overflow"
  else if !isValidInt256 (some tx.gasFeeCap) then .error "gas fee cap overflow"
  else if !isValidInt256 (some tx.gasTipCap) then .error "gas tip cap overflow"
  else if !isValidInt256 tx.blobGasFeeCap then .error "blob gas fee cap overflow"
  else .ok ()

-- `SetConvertIfPresent(tx.To(), to.Hex, SetTo)`: a contract creation keeps the empty string.
def hexTo (codecs : Codecs) (toAddr : Option Address) : String :=
  (toAddr.map codecs.address.hex).getD ""

def getTo (codecs : Codecs) (toAddr : String) : Option Address :=
  if toAddr = "" then none else some (codecs.address.fromHex toAddr)

def newAccessList (codecs : Codecs) (al : Ethtypes.AccessList) : AccessList :=
  al.map fun tuple => ⟨codecs.address.hex tuple.address, tuple.storageKeys.map codecs.hash.hex⟩

def AccessList.toEthAccessList (codecs : Codecs) (al : AccessList) : Ethtypes.AccessList :=
  al.map fun tuple =>
    ⟨codecs.address.fromHex tuple.address, tuple.storageKeys.map codecs.hash.fromHex⟩

-- `rawSignatureValues`: an empty slice reads as zero.
def rawSignatureValues (vBz rBz sBz : Bytes) : Int × Int × Int :=
  ((if vBz.length > 0 then setBytes vBz else 0 : Nat),
    (if rBz.length > 0 then setBytes rBz else 0 : Nat),
    (if sBz.length > 0 then setBytes sBz else 0 : Nat))

def copyBig (x : Option SdkInt) : Int := (x.map SdkInt.i).getD 0

-- `uint256.MustFromBig`, which panics on nil and beyond 256 bits and wraps a negative number.
def mustFromBig : Option Int → Option U256
  | none => none
  | some x =>
    if x.natAbs < 2 ^ 256 then
      some ⟨(x % 2 ^ 256).toNat, by
        have := Int.emod_lt_of_pos x (by decide : (0 : Int) < 2 ^ 256)
        have := Int.emod_nonneg x (by decide : (2 : Int) ^ 256 ≠ 0)
        omega⟩
    else none

-- `copy` of a blob hash slice into a `common.Hash`: its first bytes, padded with zeros.
def hashFromSlice (b : Bytes) : Hash :=
  ⟨(b ++ List.replicate 32 0).take 32, by simp⟩

def zeroAddress : Address := ⟨List.replicate 20 0, by simp⟩

def fee (gasPrice : Int) (gas : UInt64) : Int := gasPrice * gas.toNat

def checkGasPrice (gasPrice : Option SdkInt) : Except String SdkInt :=
  match gasPrice with
  | none => .error "gas price cannot be nil"
  | some gasPrice =>
    if gasPrice.i < 0 then .error ("gas price cannot be negative " ++ toString gasPrice.i)
    else .ok gasPrice

def checkCaps (gasTipCap gasFeeCap : Option SdkInt) : Except String (SdkInt × SdkInt) :=
  match gasTipCap, gasFeeCap with
  | none, _ => .error "gas tip cap cannot nil"
  | _, none => .error "gas fee cap cannot nil"
  | some gasTipCap, some gasFeeCap =>
    if gasTipCap.i < 0 then .error ("gas tip cap cannot be negative " ++ toString gasTipCap.i)
    else if gasFeeCap.i < 0 then
      .error ("gas fee cap cannot be negative " ++ toString gasFeeCap.i)
    else if gasFeeCap.i < gasTipCap.i then
      .error ("max priority fee per gas higher than max fee per gas (" ++ toString gasTipCap.i ++
        " > " ++ toString gasFeeCap.i ++ ")")
    else .ok (gasTipCap, gasFeeCap)

def checkFee (fee : Int) : Except String Unit :=
  if isValidInt256 (some fee) then .ok () else .error "fee out of bound"

def checkAmount (amount : Option SdkInt) : Except String Unit :=
  match amount with
  | some amount =>
    if amount.i < 0 then .error ("amount cannot be negative " ++ toString amount.i) else .ok ()
  | none => .ok ()

def checkTo (codecs : Codecs) (toAddr : String) : Except String Unit :=
  if toAddr ≠ "" ∧ codecs.isHexAddress toAddr = false then .error "invalid to address" else .ok ()

def checkChainID (chainID : Option Int) : Except String Unit :=
  if chainID.isNone then .error "chain ID must be present on AccessList txs" else .ok ()

namespace LegacyTx

def getChainID (tx : LegacyTx) : Option Int :=
  some (deriveChainId (rawSignatureValues tx.v tx.r tx.s).1)

def validate (codecs : Codecs) (tx : LegacyTx) : Except String Unit := do
  let gasPrice ← checkGasPrice tx.gasPrice
  checkFee (fee gasPrice.i tx.gasLimit)
  checkAmount tx.amount
  checkTo codecs tx.toAddr
  checkChainID tx.getChainID

def asEthereumData (codecs : Codecs) (tx : LegacyTx) : Transaction :=
  let (v, r, s) := rawSignatureValues tx.v tx.r tx.s
  .legacyTx
    { nonce := tx.nonce, gasPrice := copyBig tx.gasPrice, gas := tx.gasLimit,
      toAddr := getTo codecs tx.toAddr, value := copyBig tx.amount, data := tx.data, v, r, s }

end LegacyTx

namespace AccessListTx

-- The amount is checked before the fee here.
def validate (codecs : Codecs) (tx : AccessListTx) : Except String Unit := do
  let gasPrice ← checkGasPrice tx.gasPrice
  checkAmount tx.amount
  checkFee (fee gasPrice.i tx.gasLimit)
  checkTo codecs tx.toAddr
  checkChainID (tx.chainID.map SdkInt.i)

def asEthereumData (codecs : Codecs) (tx : AccessListTx) : Transaction :=
  let (v, r, s) := rawSignatureValues tx.v tx.r tx.s
  .accessListTx
    { chainID := copyBig tx.chainID, nonce := tx.nonce, gasPrice := copyBig tx.gasPrice,
      gas := tx.gasLimit, toAddr := getTo codecs tx.toAddr, value := copyBig tx.amount,
      data := tx.data, accessList := tx.accesses.toEthAccessList codecs, v, r, s }

end AccessListTx

namespace DynamicFeeTx

def validate (codecs : Codecs) (tx : DynamicFeeTx) : Except String Unit := do
  let (_, gasFeeCap) ← checkCaps tx.gasTipCap tx.gasFeeCap
  checkFee (fee gasFeeCap.i tx.gasLimit)
  checkAmount tx.amount
  checkTo codecs tx.toAddr
  checkChainID (tx.chainID.map SdkInt.i)

def asEthereumData (codecs : Codecs) (tx : DynamicFeeTx) : Transaction :=
  let (v, r, s) := rawSignatureValues tx.v tx.r tx.s
  .dynamicFeeTx
    { chainID := copyBig tx.chainID, nonce := tx.nonce, gasTipCap := copyBig tx.gasTipCap,
      gasFeeCap := copyBig tx.gasFeeCap, gas := tx.gasLimit, toAddr := getTo codecs tx.toAddr,
      value := copyBig tx.amount, data := tx.data,
      accessList := tx.accesses.toEthAccessList codecs, v, r, s }

end DynamicFeeTx

namespace BlobTx

def blobTxBlobGasPerBlob : Nat := 131072

-- `Fee`, the gas fee and the blob fee. A nil blob fee cap is a nil-pointer panic.
def fee (tx : BlobTx) (gasFeeCap : SdkInt) : Option Int :=
  tx.blobFeeCap.map fun blobFeeCap =>
    Ethtx.fee gasFeeCap.i tx.gasLimit + blobFeeCap.i * (blobTxBlobGasPerBlob * tx.blobHashes.length)

def validate (codecs : Codecs) (tx : BlobTx) : Option (Except String Unit) :=
  match checkCaps tx.gasTipCap tx.gasFeeCap with
  | .error err => some (.error err)
  | .ok (_, gasFeeCap) =>
    (tx.fee gasFeeCap).map fun fee => do
      checkFee fee
      checkAmount tx.amount
      checkTo codecs tx.toAddr
      checkChainID (tx.chainID.map SdkInt.i)

-- `GetTo`: an empty recipient reads as the zero address.
def getTo (codecs : Codecs) (tx : BlobTx) : Address :=
  if tx.toAddr = "" then zeroAddress else codecs.address.fromHex tx.toAddr

def asEthereumData (codecs : Codecs) (tx : BlobTx) : Option Transaction := do
  let (v, r, s) := rawSignatureValues tx.v tx.r tx.s
  let chainID ← mustFromBig (tx.chainID.map SdkInt.i)
  let gasTipCap ← mustFromBig (tx.gasTipCap.map SdkInt.i)
  let gasFeeCap ← mustFromBig (tx.gasFeeCap.map SdkInt.i)
  let value ← mustFromBig (tx.amount.map SdkInt.i)
  let blobFeeCap ← mustFromBig (tx.blobFeeCap.map SdkInt.i)
  let v ← mustFromBig (some v)
  let r ← mustFromBig (some r)
  let s ← mustFromBig (some s)
  pure <| .blobTx
    { chainID, nonce := tx.nonce, gasTipCap, gasFeeCap, gas := tx.gasLimit,
      toAddr := tx.getTo codecs, value, data := tx.data,
      accessList := tx.accesses.toEthAccessList codecs, blobFeeCap,
      blobHashes := tx.blobHashes.map hashFromSlice, v, r, s }

end BlobTx

def TxData.asEthereumData (codecs : Codecs) : TxData → Option Transaction
  | legacyTx tx => some (tx.asEthereumData codecs)
  | accessListTx tx => some (tx.asEthereumData codecs)
  | dynamicFeeTx tx => some (tx.asEthereumData codecs)
  | blobTx tx => tx.asEthereumData codecs

def newLegacyTx (codecs : Codecs) (tx : Transaction) : Option (Except String LegacyTx) :=
  match validateEthTx tx with
  | .error err => some (.error err)
  | .ok () => do
    let (v, r, s) := tx.rawSignatureValues
    let amount ← newIntFromBigInt tx.value
    let gasPrice ← newIntFromBigInt tx.gasPrice
    let txData : LegacyTx :=
      { nonce := tx.nonce, data := tx.data, gasLimit := tx.gas,
        toAddr := hexTo codecs tx.toAddr, amount := some amount, gasPrice := some gasPrice,
        v := bytes v, r := bytes r, s := bytes s }
    pure ((txData.validate codecs).map fun () => txData)

def newAccessListTx (codecs : Codecs) (tx : Transaction) : Option (Except String AccessListTx) :=
  match validateEthTx tx with
  | .error err => some (.error err)
  | .ok () => do
    let (v, r, s) := tx.rawSignatureValues
    let amount ← newIntFromBigInt tx.value
    let gasPrice ← newIntFromBigInt tx.gasPrice
    let chainID ← newIntFromBigInt tx.chainId
    let txData : AccessListTx :=
      { nonce := tx.nonce, data := tx.data, gasLimit := tx.gas,
        toAddr := hexTo codecs tx.toAddr, amount := some amount, gasPrice := some gasPrice,
        accesses := newAccessList codecs tx.accessList, v := bytes v, r := bytes r,
        s := bytes s, chainID := some chainID }
    pure ((txData.validate codecs).map fun () => txData)

def newDynamicFeeTx (codecs : Codecs) (tx : Transaction) : Option (Except String DynamicFeeTx) :=
  match validateEthTx tx with
  | .error err => some (.error err)
  | .ok () => do
    let (v, r, s) := tx.rawSignatureValues
    let amount ← newIntFromBigInt tx.value
    let gasFeeCap ← newIntFromBigInt tx.gasFeeCap
    let gasTipCap ← newIntFromBigInt tx.gasTipCap
    let chainID ← newIntFromBigInt tx.chainId
    let txData : DynamicFeeTx :=
      { nonce := tx.nonce, data := tx.data, gasLimit := tx.gas,
        toAddr := hexTo codecs tx.toAddr, amount := some amount, gasFeeCap := some gasFeeCap,
        gasTipCap := some gasTipCap, accesses := newAccessList codecs tx.accessList,
        v := bytes v, r := bytes r, s := bytes s, chainID := some chainID }
    pure ((txData.validate codecs).map fun () => txData)

-- The blob fee cap and hashes are set when present; the numbers of a blob transaction are
-- `uint256`, so no conversion can panic on them.
def newBlobTx (codecs : Codecs) (tx : Transaction) : Option (Except String BlobTx) :=
  match validateEthTx tx with
  | .error err => some (.error err)
  | .ok () => do
    let (v, r, s) := tx.rawSignatureValues
    let amount ← newIntFromBigInt tx.value
    let gasFeeCap ← newIntFromBigInt tx.gasFeeCap
    let gasTipCap ← newIntFromBigInt tx.gasTipCap
    let blobFeeCap ← tx.blobGasFeeCap.mapM newIntFromBigInt
    let chainID ← newIntFromBigInt tx.chainId
    let txData : BlobTx :=
      { nonce := tx.nonce, data := tx.data, gasLimit := tx.gas,
        toAddr := hexTo codecs tx.toAddr, amount := some amount, gasFeeCap := some gasFeeCap,
        gasTipCap := some gasTipCap, accesses := newAccessList codecs tx.accessList,
        blobFeeCap, blobHashes := tx.blobHashes.map Hash.bytes,
        v := bytes v, r := bytes r, s := bytes s, chainID := some chainID }
    (txData.validate codecs).map fun result => result.map fun () => txData

-- `NewTxDataFromTx`: by the transaction's type, any other type read as legacy.
def newTxDataFromTx (codecs : Codecs) (tx : Transaction) : Option (Except String TxData) :=
  if tx.type = dynamicFeeTxType then (newDynamicFeeTx codecs tx).map (·.map .dynamicFeeTx)
  else if tx.type = accessListTxType then (newAccessListTx codecs tx).map (·.map .accessListTx)
  else if tx.type = blobTxType then (newBlobTx codecs tx).map (·.map .blobTx)
  else (newLegacyTx codecs tx).map (·.map .legacyTx)

theorem newIntFromBigInt_of_le {i : Int} (h : bitLen i ≤ 256) : newIntFromBigInt i = some ⟨i, h⟩ := by
  simp [newIntFromBigInt, h]

theorem newIntFromBigInt_eq_none_iff {i : Int} : newIntFromBigInt i = none ↔ 256 < bitLen i := by
  unfold newIntFromBigInt
  split_ifs with h
  · simp only [false_iff]
    omega
  · simp only [true_iff]
    omega

theorem i_of_newIntFromBigInt {i : Int} {x : SdkInt} (h : newIntFromBigInt i = some x) : x.i = i := by
  unfold newIntFromBigInt at h
  split_ifs at h
  cases h
  rfl

theorem validateEthTx_eq_ok_iff {tx : Transaction} :
    validateEthTx tx = .ok () ↔ bitLen tx.value ≤ 256 ∧ bitLen tx.gasPrice ≤ 256 ∧
      bitLen tx.gasFeeCap ≤ 256 ∧ bitLen tx.gasTipCap ≤ 256 ∧
        ∀ c ∈ tx.blobGasFeeCap, bitLen c ≤ 256 := by
  have hvalid : ∀ i, isValidInt256 (some i) = true ↔ bitLen i ≤ 256 := fun i => by
    rw [isValidInt256, decide_eq_true_iff, maxBitLen]
  have hblob : isValidInt256 tx.blobGasFeeCap = true ↔ ∀ c ∈ tx.blobGasFeeCap, bitLen c ≤ 256 := by
    cases tx.blobGasFeeCap with
    | none => simp [isValidInt256]
    | some c => simp only [hvalid, Option.mem_def, Option.some.injEq, forall_eq']
  rw [← hvalid, ← hvalid, ← hvalid, ← hvalid, ← hblob]
  unfold validateEthTx
  split_ifs <;> simp_all

theorem rawSignatureValues_eq (vBz rBz sBz : Bytes) :
    rawSignatureValues vBz rBz sBz = ((setBytes vBz : Int), (setBytes rBz : Int), (setBytes sBz : Int)) := by
  unfold rawSignatureValues
  congr 2 <;> split_ifs with h <;> simp_all

theorem rawSignatureValues_bytes_eq_natAbs (v r s : Int) :
    rawSignatureValues (bytes v) (bytes r) (bytes s) =
      ((v.natAbs : Int), (r.natAbs : Int), (s.natAbs : Int)) := by
  rw [rawSignatureValues_eq, setBytes_bytes, setBytes_bytes, setBytes_bytes]

theorem rawSignatureValues_bytes {v r s : Int} (hv : 0 ≤ v) (hr : 0 ≤ r) (hs : 0 ≤ s) :
    rawSignatureValues (bytes v) (bytes r) (bytes s) = (v, r, s) := by
  rw [rawSignatureValues_bytes_eq_natAbs, Int.natAbs_of_nonneg hv, Int.natAbs_of_nonneg hr,
    Int.natAbs_of_nonneg hs]

theorem getTo_hexTo (codecs : Codecs) (toAddr : Option Address) :
    getTo codecs (hexTo codecs toAddr) = toAddr := by
  cases toAddr with
  | none => rfl
  | some a => simp [getTo, hexTo, codecs.address.hex_ne_empty a, codecs.address.fromHex_hex a]

theorem toEthAccessList_newAccessList (codecs : Codecs) (al : Ethtypes.AccessList) :
    (newAccessList codecs al).toEthAccessList codecs = al := by
  simp [newAccessList, AccessList.toEthAccessList, Function.comp_def, codecs.address.fromHex_hex,
    codecs.hash.fromHex_hex]

@[simp] theorem copyBig_some (x : SdkInt) : copyBig (some x) = x.i := rfl

theorem mustFromBig_val (n : U256) : mustFromBig (some (n.val : Int)) = some n := by
  have hlt := n.isLt
  simp only [mustFromBig, Int.natAbs_natCast, hlt, if_true, Option.some.injEq]
  ext
  simp only
  omega

theorem hashFromSlice_bytes (h : Hash) : hashFromSlice h.bytes = h := by
  cases h with
  | mk bytes hlen => simp [hashFromSlice, hlen]

theorem newIntFromBigInt_val (n : U256) :
    newIntFromBigInt (n.val : Int) = some ⟨n.val, bitLen_le_iff.2 (by simp)⟩ :=
  newIntFromBigInt_of_le _

theorem eq_of_map_eq_ok {α : Type} {e : Except String Unit} {a b : α}
    (h : e.map (fun _ => a) = .ok b) : a = b := by
  cases e with
  | error err => cases h
  | ok u => simpa [Except.map] using h

theorem eq_of_map_map_eq_ok {α : Type} {o : Option (Except String Unit)} {a b : α}
    (h : o.map (fun result => result.map fun _ => a) = some (.ok b)) : a = b := by
  obtain ⟨result, -, hresult⟩ := Option.map_eq_some_iff.1 h
  exact eq_of_map_eq_ok hresult

theorem exists_of_map_map_eq_ok {α β : Type} {o : Option (Except String α)} {f : α → β} {b : β}
    (h : o.map (·.map f) = some (.ok b)) : ∃ a, o = some (.ok a) ∧ f a = b := by
  obtain ⟨result, hresult, hmap⟩ := Option.map_eq_some_iff.1 h
  cases result with
  | error err => cases hmap
  | ok a => exact ⟨a, hresult, by simpa [Except.map] using hmap⟩

theorem LegacyTx.asEthereumData_of_newLegacyTx {codecs : Codecs} {inner : Ethtypes.LegacyTx}
    {d : LegacyTx} (hsig : 0 ≤ inner.v ∧ 0 ≤ inner.r ∧ 0 ≤ inner.s)
    (h : newLegacyTx codecs (.legacyTx inner) = some (.ok d)) :
    d.asEthereumData codecs = .legacyTx inner := by
  unfold newLegacyTx at h
  split at h
  · cases h
  rename_i hok
  obtain ⟨hvalue, hprice, -⟩ := validateEthTx_eq_ok_iff.1 hok
  rw [newIntFromBigInt_of_le hvalue, newIntFromBigInt_of_le hprice] at h
  simp only [Option.bind_eq_bind, Option.bind_some, Option.pure_def, Option.some.injEq] at h
  rw [← eq_of_map_eq_ok h]
  simp [LegacyTx.asEthereumData, Transaction.rawSignatureValues,
    rawSignatureValues_bytes hsig.1 hsig.2.1 hsig.2.2, getTo_hexTo, Transaction.nonce,
    Transaction.gasPrice, Transaction.gas, Transaction.toAddr, Transaction.value, Transaction.data]

theorem AccessListTx.asEthereumData_of_newAccessListTx {codecs : Codecs}
    {inner : Ethtypes.AccessListTx} {d : AccessListTx}
    (hsig : 0 ≤ inner.v ∧ 0 ≤ inner.r ∧ 0 ≤ inner.s)
    (h : newAccessListTx codecs (.accessListTx inner) = some (.ok d)) :
    d.asEthereumData codecs = .accessListTx inner := by
  unfold newAccessListTx at h
  split at h
  · cases h
  rename_i hok
  obtain ⟨hvalue, hprice, -⟩ := validateEthTx_eq_ok_iff.1 hok
  rw [newIntFromBigInt_of_le hvalue, newIntFromBigInt_of_le hprice] at h
  -- The chain ID is the one number that `ValidateEthTx` leaves unbounded.
  cases hchain : newIntFromBigInt (Transaction.accessListTx inner).chainId with
  | none => simp [hchain] at h
  | some chainID =>
    have hi := i_of_newIntFromBigInt hchain
    simp only [hchain, Option.bind_eq_bind, Option.bind_some, Option.pure_def,
      Option.some.injEq] at h
    rw [← eq_of_map_eq_ok h]
    simp [AccessListTx.asEthereumData, hi, Transaction.rawSignatureValues,
      rawSignatureValues_bytes hsig.1 hsig.2.1 hsig.2.2, getTo_hexTo,
      toEthAccessList_newAccessList, Transaction.chainId, Transaction.nonce, Transaction.gasPrice,
      Transaction.gas, Transaction.toAddr, Transaction.value, Transaction.data,
      Transaction.accessList]

theorem DynamicFeeTx.asEthereumData_of_newDynamicFeeTx {codecs : Codecs}
    {inner : Ethtypes.DynamicFeeTx} {d : DynamicFeeTx}
    (hsig : 0 ≤ inner.v ∧ 0 ≤ inner.r ∧ 0 ≤ inner.s)
    (h : newDynamicFeeTx codecs (.dynamicFeeTx inner) = some (.ok d)) :
    d.asEthereumData codecs = .dynamicFeeTx inner := by
  unfold newDynamicFeeTx at h
  split at h
  · cases h
  rename_i hok
  obtain ⟨hvalue, -, hfee, htip, -⟩ := validateEthTx_eq_ok_iff.1 hok
  rw [newIntFromBigInt_of_le hvalue, newIntFromBigInt_of_le hfee,
    newIntFromBigInt_of_le htip] at h
  cases hchain : newIntFromBigInt (Transaction.dynamicFeeTx inner).chainId with
  | none => simp [hchain] at h
  | some chainID =>
    have hi := i_of_newIntFromBigInt hchain
    simp only [hchain, Option.bind_eq_bind, Option.bind_some, Option.pure_def,
      Option.some.injEq] at h
    rw [← eq_of_map_eq_ok h]
    simp [DynamicFeeTx.asEthereumData, hi, Transaction.rawSignatureValues,
      rawSignatureValues_bytes hsig.1 hsig.2.1 hsig.2.2, getTo_hexTo,
      toEthAccessList_newAccessList, Transaction.chainId, Transaction.nonce,
      Transaction.gasTipCap, Transaction.gasFeeCap, Transaction.gas, Transaction.toAddr,
      Transaction.value, Transaction.data, Transaction.accessList]

theorem BlobTx.asEthereumData_of_newBlobTx {codecs : Codecs} {inner : Ethtypes.BlobTx}
    {d : BlobTx} (h : newBlobTx codecs (.blobTx inner) = some (.ok d)) :
    d.asEthereumData codecs = some (.blobTx inner) := by
  unfold newBlobTx at h
  split at h
  · cases h
  simp only [Transaction.value, Transaction.gasFeeCap, Transaction.gasTipCap,
    Transaction.blobGasFeeCap, Transaction.chainId, newIntFromBigInt_val, Option.mapM_some,
    Option.map_eq_map, Option.map_some, Option.bind_eq_bind, Option.bind_some] at h
  rw [← eq_of_map_map_eq_ok h]
  simp [BlobTx.asEthereumData, Transaction.rawSignatureValues,
    rawSignatureValues_bytes (Int.natCast_nonneg inner.v.val) (Int.natCast_nonneg inner.r.val)
      (Int.natCast_nonneg inner.s.val), mustFromBig_val, BlobTx.getTo, hexTo,
    codecs.address.hex_ne_empty, codecs.address.fromHex_hex, toEthAccessList_newAccessList,
    Function.comp_def, hashFromSlice_bytes, Transaction.nonce, Transaction.gas,
    Transaction.toAddr, Transaction.data, Transaction.accessList, Transaction.blobHashes]

theorem newLegacyTx_ne_none (codecs : Codecs) (tx : Transaction) : newLegacyTx codecs tx ≠ none := by
  unfold newLegacyTx
  split
  · simp
  rename_i hok
  obtain ⟨hvalue, hprice, -⟩ := validateEthTx_eq_ok_iff.1 hok
  rw [newIntFromBigInt_of_le hvalue, newIntFromBigInt_of_le hprice]
  simp

theorem newAccessListTx_eq_none_iff (codecs : Codecs) (tx : Transaction) :
    newAccessListTx codecs tx = none ↔ validateEthTx tx = .ok () ∧ 256 < bitLen tx.chainId := by
  rw [← newIntFromBigInt_eq_none_iff]
  unfold newAccessListTx
  split
  · rename_i herr
    simp [herr]
  rename_i hok
  obtain ⟨hvalue, hprice, -⟩ := validateEthTx_eq_ok_iff.1 hok
  rw [newIntFromBigInt_of_le hvalue, newIntFromBigInt_of_le hprice]
  cases newIntFromBigInt tx.chainId <;> simp [hok]

theorem newDynamicFeeTx_eq_none_iff (codecs : Codecs) (tx : Transaction) :
    newDynamicFeeTx codecs tx = none ↔ validateEthTx tx = .ok () ∧ 256 < bitLen tx.chainId := by
  rw [← newIntFromBigInt_eq_none_iff]
  unfold newDynamicFeeTx
  split
  · rename_i herr
    simp [herr]
  rename_i hok
  obtain ⟨hvalue, -, hfee, htip, -⟩ := validateEthTx_eq_ok_iff.1 hok
  rw [newIntFromBigInt_of_le hvalue, newIntFromBigInt_of_le hfee, newIntFromBigInt_of_le htip]
  cases newIntFromBigInt tx.chainId <;> simp [hok]

theorem BlobTx.validate_ne_none (codecs : Codecs) {tx : BlobTx} (h : tx.blobFeeCap.isSome) :
    tx.validate codecs ≠ none := by
  unfold BlobTx.validate
  split
  · simp
  simpa [BlobTx.fee, Option.isSome_iff_ne_none] using h

theorem newBlobTx_ne_none (codecs : Codecs) (inner : Ethtypes.BlobTx) :
    newBlobTx codecs (.blobTx inner) ≠ none := by
  unfold newBlobTx
  split
  · simp
  simp only [Transaction.value, Transaction.gasFeeCap, Transaction.gasTipCap,
    Transaction.blobGasFeeCap, Transaction.chainId, newIntFromBigInt_val, Option.mapM_some,
    Option.map_eq_map, Option.map_some, Option.bind_eq_bind, Option.bind_some, ne_eq,
    Option.map_eq_none_iff]
  exact BlobTx.validate_ne_none codecs rfl

theorem newTxDataFromTx_eq_none_iff (codecs : Codecs) (tx : Transaction) :
    newTxDataFromTx codecs tx = none ↔
      (tx.type = accessListTxType ∨ tx.type = dynamicFeeTxType) ∧ validateEthTx tx = .ok () ∧
        256 < bitLen tx.chainId := by
  cases tx with
  | legacyTx inner =>
    simp [newTxDataFromTx, Transaction.type, legacyTxType, dynamicFeeTxType, accessListTxType,
      blobTxType, newLegacyTx_ne_none]
  | accessListTx inner =>
    simp [newTxDataFromTx, Transaction.type, dynamicFeeTxType, accessListTxType,
      newAccessListTx_eq_none_iff]
  | dynamicFeeTx inner =>
    simp [newTxDataFromTx, Transaction.type, dynamicFeeTxType, accessListTxType,
      newDynamicFeeTx_eq_none_iff]
  | blobTx inner =>
    simp [newTxDataFromTx, Transaction.type, dynamicFeeTxType, accessListTxType, blobTxType,
      newBlobTx_ne_none]

def wideChainIdTx : Ethtypes.DynamicFeeTx :=
  { chainID := 2 ^ 256, nonce := 0, gasTipCap := 0, gasFeeCap := 0, gas := 21000, toAddr := none,
    value := 0, data := [], accessList := [], v := 0, r := 0, s := 0 }

theorem ingest_panics_on_wide_chain_id (codecs : Codecs) :
    validateEthTx (.dynamicFeeTx wideChainIdTx) = .ok () ∧
      newTxDataFromTx codecs (.dynamicFeeTx wideChainIdTx) = none := by
  have hvalid : validateEthTx (.dynamicFeeTx wideChainIdTx) = .ok () :=
    validateEthTx_eq_ok_iff.2 (by simp [wideChainIdTx, bitLen, Transaction.value,
      Transaction.gasPrice, Transaction.gasFeeCap, Transaction.gasTipCap, Transaction.blobGasFeeCap])
  have hwide : 256 < bitLen (Transaction.dynamicFeeTx wideChainIdTx).chainId := by
    by_contra hle
    have hlt := bitLen_le_iff.1 (not_lt.1 hle)
    simp [Transaction.chainId, wideChainIdTx] at hlt
  exact ⟨hvalid, (newTxDataFromTx_eq_none_iff codecs _).2 ⟨Or.inr rfl, hvalid, hwide⟩⟩

-- Data that `NewTxDataFromTx` accepts converts back to the transaction it came from, provided no
-- signature value is negative: `Bytes` drops the sign.
theorem asEthereumData_of_newTxDataFromTx {codecs : Codecs} {tx : Transaction} {d : TxData}
    (hsig : 0 ≤ tx.rawSignatureValues.1 ∧ 0 ≤ tx.rawSignatureValues.2.1 ∧
      0 ≤ tx.rawSignatureValues.2.2)
    (h : newTxDataFromTx codecs tx = some (.ok d)) : d.asEthereumData codecs = some tx := by
  cases tx with
  | legacyTx inner =>
    obtain ⟨d', hd', rfl⟩ := exists_of_map_map_eq_ok (by
      simpa [newTxDataFromTx, Transaction.type, legacyTxType, dynamicFeeTxType, accessListTxType,
        blobTxType] using h)
    simp [TxData.asEthereumData, LegacyTx.asEthereumData_of_newLegacyTx hsig hd']
  | accessListTx inner =>
    obtain ⟨d', hd', rfl⟩ := exists_of_map_map_eq_ok (by
      simpa [newTxDataFromTx, Transaction.type, dynamicFeeTxType, accessListTxType] using h)
    simp [TxData.asEthereumData, AccessListTx.asEthereumData_of_newAccessListTx hsig hd']
  | dynamicFeeTx inner =>
    obtain ⟨d', hd', rfl⟩ := exists_of_map_map_eq_ok (by
      simpa [newTxDataFromTx, Transaction.type, dynamicFeeTxType] using h)
    simp [TxData.asEthereumData, DynamicFeeTx.asEthereumData_of_newDynamicFeeTx hsig hd']
  | blobTx inner =>
    obtain ⟨d', hd', rfl⟩ := exists_of_map_map_eq_ok (by
      simpa [newTxDataFromTx, Transaction.type, dynamicFeeTxType, accessListTxType, blobTxType]
        using h)
    simp [TxData.asEthereumData, BlobTx.asEthereumData_of_newBlobTx hd']

-- An encoding of addresses and hashes that reads back: `0x`, then each byte as the character of
-- its code.
def byteChars (b : Bytes) : String := "0x" ++ String.ofList (b.map fun c => Char.ofNat c.toNat)

def charBytes (s : String) : Bytes := (s.toList.drop 2).map fun c => c.toNat.toUInt8

theorem charBytes_byteChars (b : Bytes) : charBytes (byteChars b) = b := by
  -- every byte is below the surrogates, so it is the code of its character
  have hbyte : (fun c : Char => c.toNat.toUInt8) ∘ (fun c : UInt8 => Char.ofNat c.toNat) = id := by
    funext c
    have := c.toNat_lt
    simp [Char.toNat_ofNat, Nat.isValidChar, show c.toNat < 55296 by omega]
  rw [charBytes, byteChars, String.toList_append, String.toList_ofList]
  show List.map _ (String.ofList _).toList = b
  rw [String.toList_ofList, List.map_map, hbyte, List.map_id]

def byteCodecs : Codecs where
  address := ⟨fun a => byteChars a.bytes, fun s => bytesToAddress (charBytes s),
    fun a => by simp [charBytes_byteChars], fun _ => by simp [byteChars]⟩
  hash := ⟨fun h => byteChars h.bytes, fun s => bytesToHash (charBytes s),
    fun h => by
      obtain ⟨bytes, hl⟩ := h
      simp [charBytes_byteChars, bytesToHash, fixedBytes_of_length hl],
    fun _ => by simp [byteChars]⟩
  isHexAddress s := s.length = 22

def contractCreation : Transaction :=
  .legacyTx ⟨0, 1, 21000, none, 0, [], 0, 0, 0⟩

theorem contract_creation_round_trip :
    ∃ d, newTxDataFromTx byteCodecs contractCreation = some (.ok d) ∧
      d.asEthereumData byteCodecs = some contractCreation := by
  obtain ⟨d, hd⟩ : ∃ d, newTxDataFromTx byteCodecs contractCreation = some (.ok d) :=
    ⟨_, by
      simp [newTxDataFromTx, contractCreation, newLegacyTx, Transaction.type, dynamicFeeTxType,
        accessListTxType, blobTxType, validateEthTx, isValidInt256, bitLen_le_iff, maxBitLen,
        newIntFromBigInt, LegacyTx.validate, checkGasPrice, checkFee, fee, checkAmount, checkTo,
        checkChainID, LegacyTx.getChainID, Transaction.value, Transaction.gasPrice,
        Transaction.gasFeeCap, Transaction.gasTipCap, Transaction.blobGasFeeCap, legacyTxType,
        Transaction.nonce, Transaction.gas, Transaction.toAddr, Transaction.data,
        Transaction.rawSignatureValues, hexTo, bytes, Except.map]
      rfl⟩
  exact ⟨d, hd, asEthereumData_of_newTxDataFromTx (by decide) hd⟩

end SeiChain.Evm.Ethtx
