import SeiChain.Common.Bytes
import SeiChain.Lib.BigInt

namespace SeiChain.Evm.Ethtypes

open BigInt

abbrev U256 := Fin (2 ^ 256)

structure AccessTuple where
  address : Address
  storageKeys : List Hash
  deriving DecidableEq

abbrev AccessList := List AccessTuple

structure LegacyTx where
  nonce : UInt64
  gasPrice : Int
  gas : UInt64
  toAddr : Option Address
  value : Int
  data : Bytes
  v : Int
  r : Int
  s : Int
  deriving DecidableEq

structure AccessListTx where
  chainID : Int
  nonce : UInt64
  gasPrice : Int
  gas : UInt64
  toAddr : Option Address
  value : Int
  data : Bytes
  accessList : AccessList
  v : Int
  r : Int
  s : Int
  deriving DecidableEq

structure DynamicFeeTx where
  chainID : Int
  nonce : UInt64
  gasTipCap : Int
  gasFeeCap : Int
  gas : UInt64
  toAddr : Option Address
  value : Int
  data : Bytes
  accessList : AccessList
  v : Int
  r : Int
  s : Int
  deriving DecidableEq

-- A blob transaction always has a recipient. Its sidecar is not part of what is signed and is
-- left out.
structure BlobTx where
  chainID : U256
  nonce : UInt64
  gasTipCap : U256
  gasFeeCap : U256
  gas : UInt64
  toAddr : Address
  value : U256
  data : Bytes
  accessList : AccessList
  blobFeeCap : U256
  blobHashes : List Hash
  v : U256
  r : U256
  s : U256
  deriving DecidableEq

inductive Transaction
  | legacyTx (inner : LegacyTx)
  | accessListTx (inner : AccessListTx)
  | dynamicFeeTx (inner : DynamicFeeTx)
  | blobTx (inner : BlobTx)
  deriving DecidableEq

def legacyTxType : UInt8 := 0

def accessListTxType : UInt8 := 1

def dynamicFeeTxType : UInt8 := 2

def blobTxType : UInt8 := 3

-- `deriveChainId`: the chain ID an EIP-155 `v` encodes. Below 64 bits the arithmetic is that of
-- `uint64`, and `v - 35` wraps under 35.
def deriveChainId (v : Int) : Int :=
  if bitLen v ≤ 64 then
    if v.natAbs = 27 ∨ v.natAbs = 28 then 0
    else ((v.natAbs + 2 ^ 64 - 35) % 2 ^ 64 / 2 : Nat)
  else (v - 35) / 2

namespace Transaction

def type : Transaction → UInt8
  | legacyTx _ => legacyTxType
  | accessListTx _ => accessListTxType
  | dynamicFeeTx _ => dynamicFeeTxType
  | blobTx _ => blobTxType

def chainId : Transaction → Int
  | legacyTx inner => deriveChainId inner.v
  | accessListTx inner => inner.chainID
  | dynamicFeeTx inner => inner.chainID
  | blobTx inner => inner.chainID.val

def nonce : Transaction → UInt64
  | legacyTx inner => inner.nonce
  | accessListTx inner => inner.nonce
  | dynamicFeeTx inner => inner.nonce
  | blobTx inner => inner.nonce

def gas : Transaction → UInt64
  | legacyTx inner => inner.gas
  | accessListTx inner => inner.gas
  | dynamicFeeTx inner => inner.gas
  | blobTx inner => inner.gas

def data : Transaction → Bytes
  | legacyTx inner => inner.data
  | accessListTx inner => inner.data
  | dynamicFeeTx inner => inner.data
  | blobTx inner => inner.data

def toAddr : Transaction → Option Address
  | legacyTx inner => inner.toAddr
  | accessListTx inner => inner.toAddr
  | dynamicFeeTx inner => inner.toAddr
  | blobTx inner => some inner.toAddr

def value : Transaction → Int
  | legacyTx inner => inner.value
  | accessListTx inner => inner.value
  | dynamicFeeTx inner => inner.value
  | blobTx inner => inner.value.val

-- The fee cap stands for the gas price of a transaction with a tip.
def gasPrice : Transaction → Int
  | legacyTx inner => inner.gasPrice
  | accessListTx inner => inner.gasPrice
  | dynamicFeeTx inner => inner.gasFeeCap
  | blobTx inner => inner.gasFeeCap.val

def gasTipCap : Transaction → Int
  | legacyTx inner => inner.gasPrice
  | accessListTx inner => inner.gasPrice
  | dynamicFeeTx inner => inner.gasTipCap
  | blobTx inner => inner.gasTipCap.val

def gasFeeCap : Transaction → Int
  | legacyTx inner => inner.gasPrice
  | accessListTx inner => inner.gasPrice
  | dynamicFeeTx inner => inner.gasFeeCap
  | blobTx inner => inner.gasFeeCap.val

-- nil but for a blob transaction.
def blobGasFeeCap : Transaction → Option Int
  | blobTx inner => some inner.blobFeeCap.val
  | _ => none

def blobHashes : Transaction → List Hash
  | blobTx inner => inner.blobHashes
  | _ => []

def accessList : Transaction → AccessList
  | legacyTx _ => []
  | accessListTx inner => inner.accessList
  | dynamicFeeTx inner => inner.accessList
  | blobTx inner => inner.accessList

def rawSignatureValues : Transaction → Int × Int × Int
  | legacyTx inner => (inner.v, inner.r, inner.s)
  | accessListTx inner => (inner.v, inner.r, inner.s)
  | dynamicFeeTx inner => (inner.v, inner.r, inner.s)
  | blobTx inner => (inner.v.val, inner.r.val, inner.s.val)

end Transaction

end SeiChain.Evm.Ethtypes
