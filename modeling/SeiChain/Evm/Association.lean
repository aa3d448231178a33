import SeiChain.Evm.State.Balance

namespace SeiChain.Evm.Association

open KVStore SeiChain.Evm.State

-- The hashes the paths use: `PubkeyToSeiAddress`, `PubkeyToEVMAddress` of a secp256k1 key
-- of type `P`, and `Keccak256` of a contract's code.
structure Hashes (P : Type) where
  pubkeyToSeiAddress : P → AccAddress
  pubkeyToEVMAddress : P → Address
  keccak256 : Bytes → Hash

variable {P : Type}

-- `SetAddressMapping` writes both directions, whatever either key held before. The account
-- it creates for a new Sei address is the account keeper's.
def setAddressMapping (seiAddress : AccAddress) (evmAddress : Address) :
    Writes StoreKey Bytes := fun k =>
  if k = .evmAddressToSeiAddress evmAddress then some (some seiAddress)
  else if k = .seiAddressToEVMAddress seiAddress then some (some evmAddress.bytes)
  else none

-- `copy(addr[:], bz)`: the first twenty bytes, zero-filled on the right.
def copyAddress (bz : Bytes) : Address :=
  ⟨(bz ++ List.replicate 20 0).take 20, by
    simp only [List.length_take, List.length_append, List.length_replicate]
    omega⟩

def getEVMAddressIn (v : View) (seiAddress : AccAddress) : Option Address :=
  (v (.seiAddressToEVMAddress seiAddress)).map copyAddress

-- `AssociateAddresses`. Setting the account's public key and `MigrateBalance` are the
-- account and bank keepers'; `keepers` is how they ended.
def associateAddresses (v : View) (seiAddr : AccAddress) (evmAddr : Address)
    (keepers : Except String Unit) : Except String View := do
  let v := (setAddressMapping seiAddr evmAddr).applyTo v
  keepers
  pure v

def evmPreprocessAnteHandle (H : Hashes P) (v : View) (pubKey : P)
    (isAssociateTx balancePositive : Bool) (keepers : Except String Unit) :
    Except String View :=
  let seiAddr := H.pubkeyToSeiAddress pubKey
  let evmAddr := H.pubkeyToEVMAddress pubKey
  let isAssociated := (getEVMAddressIn v seiAddr).isSome
  if isAssociateTx && isAssociated then .error "account already has association set: invalid request"
  else if isAssociateTx then
    if !balancePositive then
      .error "account needs to have at least 1 wei to force association: insufficient funds"
    else associateAddresses v seiAddr evmAddr keepers
  else if isAssociated then .ok v
  else associateAddresses v seiAddr evmAddr keepers

-- A signer: its account's public key (`none` when the account has none, or one that is not a
-- secp256k1 key), how `MigrateBalance` of its EVM address ended, and whether it holds usei or
-- wei after it.
structure Signer (P : Type) where
  address : AccAddress
  pubKey : Option P
  migrated : Except String Unit
  funded : Bool

def evmAddressSigner (H : Hashes P) (isTxMsgAssociate : Bool) (v : View) (signer : Signer P) :
    Except String View :=
  match getEVMAddressIn v signer.address with
  | some _ => .ok v
  | none =>
    match signer.pubKey with
    | none => .ok v
    | some pk => do
      let v := (setAddressMapping signer.address (H.pubkeyToEVMAddress pk)).applyTo v
      signer.migrated
      if isTxMsgAssociate && !signer.funded then
        throw "account needs to have at least 1 wei to force association: insufficient funds"
      pure v

def evmAddressAnteHandle (H : Hashes P) (v : View) (signers : List (Signer P))
    (isTxMsgAssociate : Bool) : Except String View :=
  signers.foldlM (evmAddressSigner H isTxMsgAssociate) v

def associateContractAddress (v : View) (addr : AccAddress) (hasContractInfo : Bool) :
    Except String View :=
  if !hasContractInfo then .error "no wasm contract found at the given address"
  else
    let evmAddr := bytesToAddress addr
    match getEVMAddressIn v addr with
    | some _ => .error "contract already has an associated address"
    | none => .ok ((setAddressMapping addr evmAddr).applyTo v)

def storeCode (H : Hashes P) (v : View) (addr : Address) (code : Bytes) : View :=
  let v := (single (.code addr) (some code)).applyTo v
  let v := (single (.codeSize addr) (some (putUint64 code.length.toUInt64))).applyTo v
  (single (.codeHash addr) (some (H.keccak256 code).bytes)).applyTo v

-- A new contract is associated with its cast Sei address, unless its address already has an
-- association; only that side is checked.
def setCode (H : Hashes P) (v : View) (addr : Address) (code : Bytes) : View :=
  let v := storeCode H v addr code
  match getSeiAddressIn v addr with
  | some _ => v
  | none => (setAddressMapping (getSeiAddressOrDefaultIn v addr) addr).applyTo v

def removeAssociationIn (v : View) (acc : Address) : View :=
  match getSeiAddressIn v acc with
  | some seiAddr => (deleteAddressMapping seiAddr acc).applyTo v
  | none => v

inductive Path (P : Type) where
  | evmPreprocess (pubKey : P) (isAssociateTx balancePositive : Bool)
      (keepers : Except String Unit)
  | evmAddress (signers : List (Signer P)) (isTxMsgAssociate : Bool)
  | associateContractAddress (addr : AccAddress) (hasContractInfo : Bool)
  | setCode (addr : Address) (code : Bytes)
  | selfDestruct (acc : Address)

def commitOr (v : View) : Except String View → View
  | .ok v' => v'
  | .error _ => v

def step (H : Hashes P) (v : View) : Path P → View
  | .evmPreprocess pubKey isAssociateTx balancePositive keepers =>
    commitOr v (evmPreprocessAnteHandle H v pubKey isAssociateTx balancePositive keepers)
  | .evmAddress signers isTxMsgAssociate =>
    commitOr v (evmAddressAnteHandle H v signers isTxMsgAssociate)
  | .associateContractAddress addr hasContractInfo =>
    commitOr v (associateContractAddress v addr hasContractInfo)
  | .setCode addr code => setCode H v addr code
  | .selfDestruct acc => removeAssociationIn v acc

def run (H : Hashes P) (v : View) (paths : List (Path P)) : View :=
  paths.foldl (step H) v

end SeiChain.Evm.Association
