import SeiChain.Store.CacheKV
import SeiChain.Evm.State.Temporary

namespace SeiChain.Evm.State

open KVStore

-- The keys of the multistore that `DBImpl` reaches through its context. The EVM keys
-- stand for the byte keys `types.StateKey(addr) ++ key`, `CodeKeyPrefix ++ addr` and so
-- on; the bank module's keys are its own and stay opaque.
inductive StoreKey where
  | state (addr : Address) (key : Hash)
  | code (addr : Address)
  | codeSize (addr : Address)
  | codeHash (addr : Address)
  | nonce (addr : Address)
  | evmAddressToSeiAddress (addr : Address)
  | seiAddressToEVMAddress (addr : AccAddress)
  | bank (key : Bytes)
  deriving DecidableEq

def StoreKey.account : StoreKey → Option Address
  | .state addr _ => some addr
  | .code addr => some addr
  | .codeSize addr => some addr
  | .codeHash addr => some addr
  | .nonce addr => some addr
  | _ => none

abbrev View := StoreKey → Option Bytes
abbrev Store := MultiStore StoreKey Bytes

def single (k : StoreKey) (v : Option Bytes) : Writes StoreKey Bytes :=
  fun k' => if k' = k then some v else none

abbrev BankView := Bytes → Option Bytes

def bankView (v : View) : BankView := fun k => v (.bank k)

def liftBank (w : Writes Bytes Bytes) : Writes StoreKey Bytes
  | .bank k => w k
  | _ => none

-- The bank keeper, outside this repository: its reads and the writes each call makes,
-- or the error it fails with.
structure BankKeeper where
  getBalance : BankView → AccAddress → Int
  lockedCoins : BankView → AccAddress → Int
  getWeiBalance : BankView → AccAddress → Int
  addCoins : BankView → AccAddress → Int → Except String (Writes Bytes Bytes)
  subUnlockedCoins : BankView → AccAddress → Int → Except String (Writes Bytes Bytes)
  addWei : BankView → AccAddress → Int → Except String (Writes Bytes Bytes)
  subWei : BankView → AccAddress → Int → Except String (Writes Bytes Bytes)

def useiToSweiMultiplier : Int := 1000000000000

-- `SplitUseiWeiAmount`: `big.Int` `Quo` truncates, `Mod` is Euclidean.
def splitUseiWeiAmount (amt : Int) : Int × Int :=
  (amt.tdiv useiToSweiMultiplier, amt % useiToSweiMultiplier)

def getStateIn (v : View) (addr : Address) (hash : Hash) : Hash :=
  match v (.state addr hash) with
  | some val => bytesToHash val
  | none => Hash.zero

def getNonceIn (v : View) (addr : Address) : UInt64 :=
  match v (.nonce addr) with
  | some bz => getUint64 bz
  | none => 0

def getSeiAddressIn (v : View) (evmAddress : Address) : Option AccAddress :=
  v (.evmAddressToSeiAddress evmAddress)

def getSeiAddressOrDefaultIn (v : View) (evmAddress : Address) : AccAddress :=
  (getSeiAddressIn v evmAddress).getD evmAddress.bytes

-- The EVM keeper's `GetBalance`: spendable usei in wei plus the wei balance.
def getBalanceIn (bank : BankKeeper) (v : View) (addr : AccAddress) : Int :=
  (bank.getBalance (bankView v) addr - bank.lockedCoins (bankView v) addr) * useiToSweiMultiplier +
    bank.getWeiBalance (bankView v) addr

def deleteAddressMapping (seiAddress : AccAddress) (evmAddress : Address) :
    Writes StoreKey Bytes :=
  fun k => if k = .evmAddressToSeiAddress evmAddress ∨ k = .seiAddressToEVMAddress seiAddress
    then some none else none

-- `clearAccountState`: `PurgePrefix` on the account's storage and `deleteIfExists` on its
-- code, code size, code hash and nonce; only keys that hold a value get a delete.
def clearAccountState (v : View) (acc : Address) : Writes StoreKey Bytes :=
  fun k => if k.account = some acc ∧ (v k).isSome then some none else none

-- `DBImpl`, with the multistore its contexts point into. `ctx` and every entry of
-- `snapshottedCtxs` is a chain of cache layers of `store`.
structure DBImpl where
  ctx : Chain
  snapshottedCtxs : List Chain
  tempStateCurrent : TemporaryState
  tempStatesHist : List TemporaryState
  err : Option String
  coinbaseAddress : AccAddress
  coinbaseEvmAddress : Address
  simulation : Bool
  store : Store

namespace DBImpl

variable (bank : BankKeeper)

def view (s : DBImpl) : View := s.store.get s.ctx

def applyWrites (s : DBImpl) (w : Writes StoreKey Bytes) : DBImpl :=
  { s with store := s.store.update s.ctx w }

def setCurrent (s : DBImpl) (f : TemporaryState → TemporaryState) : DBImpl :=
  { s with tempStateCurrent := f s.tempStateCurrent }

def getSeiAddress (s : DBImpl) (evmAddr : Address) : AccAddress :=
  if s.coinbaseEvmAddress = evmAddr then s.coinbaseAddress
  else getSeiAddressOrDefaultIn s.view evmAddr

def snapshot (s : DBImpl) : DBImpl × Nat :=
  let (store, newCtx) := s.store.cacheMultiStore s.ctx
  ({ s with
      ctx := newCtx
      store := store
      snapshottedCtxs := s.snapshottedCtxs ++ [s.ctx]
      tempStatesHist := s.tempStatesHist ++ [s.tempStateCurrent]
      tempStateCurrent := newTemporaryState },
    s.snapshottedCtxs.length)

-- `RevertToSnapshot`: an index outside either stack panics.
def revertToSnapshot (s : DBImpl) (rev : Nat) : Option DBImpl := do
  let ctx ← s.snapshottedCtxs[rev]?
  let current ← s.tempStatesHist[rev]?
  some (snapshot { s with
    ctx := ctx
    snapshottedCtxs := s.snapshottedCtxs.take rev
    tempStateCurrent := current
    tempStatesHist := s.tempStatesHist.take rev }).1

-- `NewDBImpl` takes an initial snapshot so that `snapshottedCtxs[0]` is the base context.
def newDBImpl (store : Store) (ctx : Chain) (coinbaseAddress : AccAddress)
    (coinbaseEvmAddress : Address) (simulation : Bool) : DBImpl :=
  (snapshot
    { ctx := ctx
      snapshottedCtxs := []
      tempStateCurrent := newTemporaryState
      tempStatesHist := []
      err := none
      coinbaseAddress := coinbaseAddress
      coinbaseEvmAddress := coinbaseEvmAddress
      simulation := simulation
      store := store }).1

def subBalancePos (s : DBImpl) (evmAddr : Address) (amt : Int) : DBImpl :=
  let (usei, wei) := splitUseiWeiAmount amt
  let addr := s.getSeiAddress evmAddr
  match bank.subUnlockedCoins (bankView s.view) addr usei with
  | .error e => { s with err := some e }
  | .ok w₁ =>
    let s₁ := s.applyWrites (liftBank w₁)
    match bank.subWei (bankView s₁.view) addr wei with
    | .error e => { s₁ with err := some e }
    | .ok w₂ => (s₁.applyWrites (liftBank w₂)).setCurrent fun ts => { ts with surplus := ts.surplus + amt }

def addBalancePos (s : DBImpl) (evmAddr : Address) (amt : Int) : DBImpl :=
  let (usei, wei) := splitUseiWeiAmount amt
  let addr := s.getSeiAddress evmAddr
  match bank.addCoins (bankView s.view) addr usei with
  | .error e => { s with err := some e }
  | .ok w₁ =>
    let s₁ := s.applyWrites (liftBank w₁)
    match bank.addWei (bankView s₁.view) addr wei with
    | .error e => { s₁ with err := some e }
    | .ok w₂ => (s₁.applyWrites (liftBank w₂)).setCurrent fun ts => { ts with surplus := ts.surplus - amt }

-- A negative amount is redirected to the other direction.
def subBalance (s : DBImpl) (evmAddr : Address) (amt : Int) : DBImpl :=
  if amt = 0 then s
  else if amt < 0 then addBalancePos bank s evmAddr (-amt)
  else subBalancePos bank s evmAddr amt

def addBalance (s : DBImpl) (evmAddr : Address) (amt : Int) : DBImpl :=
  if amt = 0 then s
  else if amt < 0 then subBalancePos bank s evmAddr (-amt)
  else addBalancePos bank s evmAddr amt

def getBalance (s : DBImpl) (evmAddr : Address) : Int :=
  getBalanceIn bank s.view (s.getSeiAddress evmAddr)

def setState (s : DBImpl) (addr : Address) (key val : Hash) : DBImpl :=
  s.applyWrites (single (.state addr key) (some val.bytes))

def setNonce (s : DBImpl) (addr : Address) (nonce : UInt64) : DBImpl :=
  s.applyWrites (single (.nonce addr) (some (putUint64 nonce)))

def setTransientState (s : DBImpl) (addr : Address) (key val : Hash) : DBImpl :=
  s.setCurrent fun ts => { ts with
    transientStates := Function.update ts.transientStates addr
      (Function.update (ts.transientStates addr) key (some val)) }

def markAccount (s : DBImpl) (acc : Address) (status : Bytes) : DBImpl :=
  s.setCurrent fun ts => { ts with
    transientAccounts := (acc, status) :: ts.transientAccounts.filter (·.1 != acc) }

def createAccount (s : DBImpl) (acc : Address) : DBImpl :=
  (s.applyWrites (clearAccountState s.view acc)).markAccount acc accountCreated

def removeAssociation (s : DBImpl) (acc : Address) : DBImpl :=
  match getSeiAddressIn s.view acc with
  | some seiAddr => s.applyWrites (deleteAddressMapping seiAddr acc)
  | none => s

-- The association is removed before the balance is read, so the balance debited is the
-- one the address has after the removal.
def selfDestruct (s : DBImpl) (acc : Address) : DBImpl :=
  let s₁ := s.removeAssociation acc
  let s₂ := subBalance bank s₁ acc (getBalance bank s₁ acc)
  s₂.markAccount acc accountDeleted

def getAllLogs (s : DBImpl) : List Log :=
  s.tempStatesHist.flatMap TemporaryState.logs ++ s.tempStateCurrent.logs

def addLog (s : DBImpl) (l : Log) : DBImpl :=
  let l' := { l with index := (getAllLogs s).length }
  s.setCurrent fun ts => { ts with logs := ts.logs ++ [l'] }

def getRefund (s : DBImpl) : UInt64 :=
  ((topDown s.tempStateCurrent s.tempStatesHist).findSome?
    fun ts => ts.transientModuleStates gasRefundKey).getD 0

def setRefund (s : DBImpl) (refund : UInt64) : DBImpl :=
  s.setCurrent fun ts => { ts with
    transientModuleStates := Function.update ts.transientModuleStates gasRefundKey (some refund) }

def addRefund (s : DBImpl) (gas : UInt64) : DBImpl :=
  s.setRefund (s.getRefund + gas)

-- `SubRefund` panics when the counter would go below zero.
def subRefund (s : DBImpl) (gas : UInt64) : Option DBImpl :=
  if gas > s.getRefund then none else some (s.setRefund (s.getRefund - gas))

def addAddressToAccessList (s : DBImpl) (addr : Address) : DBImpl :=
  s.setCurrent fun ts => { ts with transientAccessLists := ts.transientAccessLists.addAddress addr }

def addSlotToAccessList (s : DBImpl) (addr : Address) (slot : Hash) : DBImpl :=
  s.setCurrent fun ts => { ts with
    transientAccessLists := ts.transientAccessLists.addSlot addr slot }

def getState (s : DBImpl) (addr : Address) (hash : Hash) : Hash :=
  getStateIn s.view addr hash

-- `snapshottedCtxs[0]` panics on an empty stack.
def getCommittedState (s : DBImpl) (addr : Address) (hash : Hash) : Option Hash :=
  s.snapshottedCtxs.head?.map fun c => getStateIn (s.store.get c) addr hash

def getNonce (s : DBImpl) (addr : Address) : UInt64 :=
  getNonceIn s.view addr

def getTransientState (s : DBImpl) (addr : Address) (key : Hash) : Hash :=
  ((topDown s.tempStateCurrent s.tempStatesHist).findSome?
    fun ts => ts.transientStates addr key).getD Hash.zero

def getTransientAccount (s : DBImpl) (acc : Address) : Option Bytes :=
  (topDown s.tempStateCurrent s.tempStatesHist).findSome? fun ts => ts.transientAccounts.lookup acc

def hasSelfDestructed (s : DBImpl) (acc : Address) : Bool :=
  s.getTransientAccount acc == some accountDeleted

def created (s : DBImpl) (acc : Address) : Bool :=
  s.getTransientAccount acc == some accountCreated

def addressInAccessList (s : DBImpl) (addr : Address) : Bool :=
  (s.tempStateCurrent :: s.tempStatesHist).any fun ts => ts.transientAccessLists.addressIn addr

def slotInAccessList (s : DBImpl) (addr : Address) (slot : Hash) : Bool × Bool :=
  if (s.tempStateCurrent :: s.tempStatesHist).any (fun ts => ts.transientAccessLists.slotIn addr slot)
  then (true, true)
  else (s.addressInAccessList addr, false)

-- The surplus `Finalize` returns: the current layer's plus every historical layer's.
def totalSurplus (s : DBImpl) : Int :=
  s.tempStateCurrent.surplus + (s.tempStatesHist.map TemporaryState.surplus).sum

end DBImpl

end SeiChain.Evm.State
