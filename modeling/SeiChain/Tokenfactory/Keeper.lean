import Mathlib
import SeiChain.Tokenfactory.Denoms
import SeiChain.Store.Sorted
import SeiChain.Lib.Fold

namespace SeiChain.Tokenfactory

-- `DenomAuthorityMetadata`: an empty admin is no admin.
structure DenomAuthorityMetadata where
  admin : List UInt8
  deriving DecidableEq

-- `banktypes.Metadata`, with the fields `createDenomAfterValidation` fills.
structure Metadata where
  denomUnits : List (List UInt8 × Nat)
  base : List UInt8
  display : List UInt8
  name : List UInt8
  symbol : List UInt8
  deriving DecidableEq

-- `sdk.Coin`, with its `sdk.Int` amount.
structure Coin where
  denom : List UInt8
  amount : Int
  deriving DecidableEq

-- The checks of the SDK the module calls: those of the denoms, and `Metadata.Validate`.
structure Sdk extends SdkChecks where
  validateMetadata : Metadata → Except String Unit

-- The methods of `types.BankKeeper` the module calls, the module account being its own in every
-- mint, burn and send. `getSupply` is the amount `IterateTotalSupply` walks for a denom.
structure BankKeeper (B : Type) where
  getDenomMetaData : B → List UInt8 → Option Metadata
  setDenomMetaData : B → Metadata → B
  setDenomAllowList : B → List UInt8 → List (List UInt8) → B
  hasSupply : B → List UInt8 → Bool
  getSupply : B → List UInt8 → Int
  mintCoins : B → Coin → Except String B
  burnCoins : B → Coin → Except String B
  sendCoinsFromModuleToAccount : B → AccAddress → Coin → Except String B
  sendCoinsFromAccountToModule : B → AccAddress → Coin → Except String B

variable {B : Type}

-- What the module relies on of the bank: minting and burning move the supply of their denom by
-- the amount, sends and the metadata and allow-list writes leave the supply alone, and metadata
-- is read back as it was last set for its base.
structure BankKeeper.Lawful (bank : BankKeeper B) : Prop where
  supply_mintCoins : ∀ {b b' : B} {c : Coin}, bank.mintCoins b c = .ok b' → ∀ d,
    bank.getSupply b' d = bank.getSupply b d + if d = c.denom then c.amount else 0
  supply_burnCoins : ∀ {b b' : B} {c : Coin}, bank.burnCoins b c = .ok b' → ∀ d,
    bank.getSupply b' d = bank.getSupply b d - if d = c.denom then c.amount else 0
  supply_sendCoinsFromModuleToAccount : ∀ {b b' : B} {a : AccAddress} {c : Coin},
    bank.sendCoinsFromModuleToAccount b a c = .ok b' → bank.getSupply b' = bank.getSupply b
  supply_sendCoinsFromAccountToModule : ∀ {b b' : B} {a : AccAddress} {c : Coin},
    bank.sendCoinsFromAccountToModule b a c = .ok b' → bank.getSupply b' = bank.getSupply b
  supply_setDenomMetaData : ∀ (b : B) (md : Metadata),
    bank.getSupply (bank.setDenomMetaData b md) = bank.getSupply b
  supply_setDenomAllowList : ∀ (b : B) (d : List UInt8) (l : List (List UInt8)),
    bank.getSupply (bank.setDenomAllowList b d l) = bank.getSupply b
  metadata_setDenomMetaData : ∀ (b : B) (md : Metadata) (d : List UInt8),
    bank.getDenomMetaData (bank.setDenomMetaData b md) d =
      if d = md.base then some md else bank.getDenomMetaData b d
  metadata_setDenomAllowList : ∀ (b : B) (d : List UInt8) (l : List (List UInt8)),
    bank.getDenomMetaData (bank.setDenomAllowList b d l) = bank.getDenomMetaData b
  metadata_mintCoins : ∀ {b b' : B} {c : Coin}, bank.mintCoins b c = .ok b' →
    bank.getDenomMetaData b' = bank.getDenomMetaData b
  metadata_burnCoins : ∀ {b b' : B} {c : Coin}, bank.burnCoins b c = .ok b' →
    bank.getDenomMetaData b' = bank.getDenomMetaData b
  metadata_sendCoinsFromModuleToAccount : ∀ {b b' : B} {a : AccAddress} {c : Coin},
    bank.sendCoinsFromModuleToAccount b a c = .ok b' →
      bank.getDenomMetaData b' = bank.getDenomMetaData b
  metadata_sendCoinsFromAccountToModule : ∀ {b b' : B} {a : AccAddress} {c : Coin},
    bank.sendCoinsFromAccountToModule b a c = .ok b' →
      bank.getDenomMetaData b' = bank.getDenomMetaData b

-- The module's state: the bank, the `authoritymetadata` entry under each denom's prefix, the
-- entries of the creators prefix store (`creator|denom` to the denom) in key order, and the
-- `DenomAllowlistMaxSize` parameter.
structure State (B : Type) where
  bank : B
  authority : List UInt8 → Option DenomAuthorityMetadata
  creators : List (List UInt8 × List UInt8)
  denomAllowListMaxSize : Nat

section Keeper

variable (sdk : Sdk) (bank : BankKeeper B)

def DenomAuthorityMetadata.validate (metadata : DenomAuthorityMetadata) : Except String Unit :=
  if metadata.admin ≠ [] then (sdk.accAddressFromBech32 metadata.admin).map fun _ => ()
  else .ok ()

-- `GetAuthorityMetadata`. A denom without an entry reads as the zero metadata, with no admin,
-- since `proto.Unmarshal` of no bytes gives the zero value.
def getAuthorityMetadata (s : State B) (denom : List UInt8) : DenomAuthorityMetadata :=
  (s.authority denom).getD ⟨[]⟩

def setAuthorityMetadata (s : State B) (denom : List UInt8) (metadata : DenomAuthorityMetadata) :
    Except String (State B) := do
  metadata.validate sdk
  pure { s with authority := Function.update s.authority denom (some metadata) }

def setAdmin (s : State B) (denom admin : List UInt8) : Except String (State B) :=
  setAuthorityMetadata sdk s denom { getAuthorityMetadata s denom with admin := admin }

def creatorKey (creator denom : List UInt8) : List UInt8 := creator ++ 124 :: denom

def addDenomFromCreator (s : State B) (creator denom : List UInt8) : State B :=
  { s with creators := KVStore.set (creatorKey creator denom) denom s.creators }

def getDenomsFromCreator (s : State B) (creator : List UInt8) : List (List UInt8) :=
  (s.creators.filter fun e => (creator ++ [124]).isPrefixOf e.1).map
    fun e => e.1.drop (creator.length + 1)

def newDenomMetaData (denom : List UInt8) : Metadata :=
  ⟨[(denom, 0)], denom, denom, denom, denom⟩

def createDenomAfterValidation (s : State B) (creatorAddr denom : List UInt8) :
    Except String (State B) := do
  let s := { s with bank := bank.setDenomMetaData s.bank (newDenomMetaData denom) }
  let s ← setAuthorityMetadata sdk s denom ⟨creatorAddr⟩
  pure (addDenomFromCreator s creatorAddr denom)

def validateCreateDenom (s : State B) (creatorAddr subdenom : List UInt8) :
    Except String (List UInt8) := do
  if bank.hasSupply s.bank subdenom then
    throw "temporary error until IBC bug is sorted out, can't create subdenoms that are the same as a native denom"
  let denom ← getTokenDenom sdk.toSdkChecks creatorAddr subdenom
  if (bank.getDenomMetaData s.bank denom).isSome then
    throw "attempting to create a denom that already exists (has bank metadata)"
  pure denom

def createDenom (s : State B) (creatorAddr subdenom : List UInt8) :
    Except String (List UInt8 × State B) := do
  let denom ← validateCreateDenom sdk bank s creatorAddr subdenom
  let s ← createDenomAfterValidation sdk bank s creatorAddr denom
  pure (denom, s)

-- `validateAllowListSize`; an absent allow list is the nil pointer.
def validateAllowListSize (s : State B) : Option (List (List UInt8)) → Except String Unit
  | none => .error "allowlist undefined"
  | some addresses =>
    if addresses.length > s.denomAllowListMaxSize then .error "allowlist too large" else .ok ()

def validateAllowList (s : State B) (allowList : Option (List (List UInt8))) :
    Except String Unit := do
  validateAllowListSize s allowList
  forM (allowList.getD []) fun addr =>
    match sdk.accAddressFromBech32 addr with
    | .error err => throw ("invalid address: " ++ err)
    | .ok _ => pure ()

def validateUpdateDenom (s : State B) (denom : List UInt8) (allowList : Option (List (List UInt8))) :
    Except String (List UInt8) := do
  let _ ← deconstructDenom sdk.toSdkChecks denom
  if (bank.getDenomMetaData s.bank denom).isNone then throw "denom does not exist"
  validateAllowList sdk s allowList
  pure denom

-- `mintTo`: mint to the module account, then send to the address.
def mintTo (s : State B) (amount : Coin) (mintTo : List UInt8) : Except String (State B) := do
  let _ ← deconstructDenom sdk.toSdkChecks amount.denom
  let b ← bank.mintCoins s.bank amount
  let addr ← sdk.accAddressFromBech32 mintTo
  let b ← bank.sendCoinsFromModuleToAccount b addr amount
  pure { s with bank := b }

-- `burnFrom`: send from the address to the module account, then burn there.
def burnFrom (s : State B) (amount : Coin) (burnFrom : List UInt8) : Except String (State B) := do
  let _ ← deconstructDenom sdk.toSdkChecks amount.denom
  let addr ← sdk.accAddressFromBech32 burnFrom
  let b ← bank.sendCoinsFromAccountToModule s.bank addr amount
  let b ← bank.burnCoins b amount
  pure { s with bank := b }

end Keeper

namespace MsgServer

variable (sdk : Sdk) (bank : BankKeeper B)

def createDenom (s : State B) (sender subdenom : List UInt8)
    (allowList : Option (List (List UInt8))) : Except String (State B) := do
  let (denom, s) ← Tokenfactory.createDenom sdk bank s sender subdenom
  match allowList with
  | none => pure s
  | some addresses =>
    validateAllowList sdk s allowList
    pure { s with bank := bank.setDenomAllowList s.bank denom addresses }

def updateDenom (s : State B) (sender denom : List UInt8) (allowList : Option (List (List UInt8))) :
    Except String (State B) := do
  let denom ← validateUpdateDenom sdk bank s denom allowList
  let authorityMetadata := getAuthorityMetadata s denom
  if sender ≠ authorityMetadata.admin then throw "unauthorized account"
  match allowList with
  | none => pure s
  | some addresses => pure { s with bank := bank.setDenomAllowList s.bank denom addresses }

def mint (s : State B) (sender : List UInt8) (amount : Coin) : Except String (State B) := do
  if (bank.getDenomMetaData s.bank amount.denom).isNone then throw "denom does not exist"
  let authorityMetadata := getAuthorityMetadata s amount.denom
  if sender ≠ authorityMetadata.admin then throw "unauthorized account"
  mintTo sdk bank s amount sender

def burn (s : State B) (sender : List UInt8) (amount : Coin) : Except String (State B) := do
  let authorityMetadata := getAuthorityMetadata s amount.denom
  if sender ≠ authorityMetadata.admin then throw "unauthorized account"
  burnFrom sdk bank s amount sender

def changeAdmin (s : State B) (sender denom newAdmin : List UInt8) : Except String (State B) := do
  let authorityMetadata := getAuthorityMetadata s denom
  if sender ≠ authorityMetadata.admin then throw "unauthorized account"
  if newAdmin = authorityMetadata.admin then
    throw "attempting to create a new admin that already exists for the denom"
  setAdmin sdk s denom newAdmin

def setDenomMetadata (s : State B) (sender : List UInt8) (metadata : Metadata) :
    Except String (State B) := do
  sdk.validateMetadata metadata
  let authorityMetadata := getAuthorityMetadata s metadata.base
  if sender ≠ authorityMetadata.admin then throw "unauthorized account"
  pure { s with bank := bank.setDenomMetaData s.bank metadata }

end MsgServer

inductive Msg where
  | createDenom (sender subdenom : List UInt8) (allowList : Option (List (List UInt8)))
  | updateDenom (sender denom : List UInt8) (allowList : Option (List (List UInt8)))
  | mint (sender : List UInt8) (amount : Coin)
  | burn (sender : List UInt8) (amount : Coin)
  | changeAdmin (sender denom newAdmin : List UInt8)
  | setDenomMetadata (sender : List UInt8) (metadata : Metadata)
  deriving DecidableEq

def Msg.sender : Msg → List UInt8
  | .createDenom sender _ _ => sender
  | .updateDenom sender _ _ => sender
  | .mint sender _ => sender
  | .burn sender _ => sender
  | .changeAdmin sender _ _ => sender
  | .setDenomMetadata sender _ => sender

section Tx

variable (sdk : Sdk) (bank : BankKeeper B)

def Coin.validate (coin : Coin) : Except String Unit := do
  sdk.validateDenom coin.denom
  if coin.amount < 0 then throw "negative coin amount"

def validateSender (sender : List UInt8) : Except String Unit :=
  match sdk.accAddressFromBech32 sender with
  | .error err => .error ("Invalid sender address (" ++ err ++ "): invalid address")
  | .ok _ => .ok ()

def validateAmount (amount : Coin) : Except String Unit :=
  match amount.validate sdk with
  | .error _ => .error "invalid coins"
  | .ok () => if amount.amount = 0 then .error "invalid coins" else .ok ()

def Msg.validateBasic : Msg → Except String Unit
  | .createDenom sender subdenom _ => do
    validateSender sdk sender
    match getTokenDenom sdk.toSdkChecks sender subdenom with
    | .error err => throw (err ++ ": invalid denom")
    | .ok _ => pure ()
  | .updateDenom sender denom _ => do
    validateSender sdk sender
    match deconstructDenom sdk.toSdkChecks denom with
    | .error err => throw (err ++ ": invalid denom")
    | .ok _ => pure ()
  | .mint sender amount => do
    validateSender sdk sender
    validateAmount sdk amount
  | .burn sender amount => do
    validateSender sdk sender
    validateAmount sdk amount
  | .changeAdmin sender denom newAdmin => do
    validateSender sdk sender
    match sdk.accAddressFromBech32 newAdmin with
    | .error err => throw ("Invalid address (" ++ err ++ "): invalid address")
    | .ok _ => pure ()
    let _ ← deconstructDenom sdk.toSdkChecks denom
  | .setDenomMetadata sender metadata => do
    validateSender sdk sender
    sdk.validateMetadata metadata
    let _ ← deconstructDenom sdk.toSdkChecks metadata.base

def Msg.handle (s : State B) : Msg → Except String (State B)
  | .createDenom sender subdenom allowList => MsgServer.createDenom sdk bank s sender subdenom allowList
  | .updateDenom sender denom allowList => MsgServer.updateDenom sdk bank s sender denom allowList
  | .mint sender amount => MsgServer.mint sdk bank s sender amount
  | .burn sender amount => MsgServer.burn sdk bank s sender amount
  | .changeAdmin sender denom newAdmin => MsgServer.changeAdmin sdk s sender denom newAdmin
  | .setDenomMetadata sender metadata => MsgServer.setDenomMetadata sdk bank s sender metadata

-- A transaction: `ValidateBasic` of every message, then the messages in order on a cache of the
-- state, written back only when all of them succeed.
def deliverTx (s : State B) (msgs : List Msg) : Except String (State B) := do
  forM msgs (Msg.validateBasic sdk)
  msgs.foldlM (fun s msg => msg.handle sdk bank s) s

def runTxs (s : State B) (txs : List (List Msg)) : State B :=
  txs.foldl (fun s msgs => Except.commitOr s (deliverTx sdk bank s msgs)) s

end Tx

section Specs

variable {sdk : Sdk} {bank : BankKeeper B}

theorem DenomAuthorityMetadata.validate_eq_ok_iff {metadata : DenomAuthorityMetadata} :
    metadata.validate sdk = .ok () ↔ (metadata.admin ≠ [] → (sdk.accAddressFromBech32 metadata.admin).isOk) := by
  unfold DenomAuthorityMetadata.validate
  by_cases hadmin : metadata.admin = []
  · simp [hadmin]
  · simp only [ne_eq, hadmin, not_false_eq_true, if_true, true_implies]
    cases sdk.accAddressFromBech32 metadata.admin <;> simp [Except.map, Except.isOk, Except.toBool]

theorem setAuthorityMetadata_eq_ok {s s' : State B} {denom : List UInt8}
    {metadata : DenomAuthorityMetadata} (h : setAuthorityMetadata sdk s denom metadata = .ok s') :
    metadata.validate sdk = .ok () ∧
      s' = { s with authority := Function.update s.authority denom (some metadata) } := by
  unfold setAuthorityMetadata at h
  obtain ⟨u, hvalid, hs'⟩ := Except.bind_eq_ok.1 h
  cases hs'
  exact ⟨hvalid, rfl⟩

theorem createDenomAfterValidation_eq_ok {s s' : State B} {creatorAddr denom : List UInt8}
    (h : createDenomAfterValidation sdk bank s creatorAddr denom = .ok s') :
    (⟨creatorAddr⟩ : DenomAuthorityMetadata).validate sdk = .ok () ∧
      s' = { s with
        bank := bank.setDenomMetaData s.bank (newDenomMetaData denom)
        authority := Function.update s.authority denom (some ⟨creatorAddr⟩)
        creators := KVStore.set (creatorKey creatorAddr denom) denom s.creators } := by
  unfold createDenomAfterValidation at h
  obtain ⟨s₁, hset, hs'⟩ := Except.bind_eq_ok.1 h
  obtain ⟨hvalid, rfl⟩ := setAuthorityMetadata_eq_ok hset
  cases hs'
  exact ⟨hvalid, rfl⟩

theorem validateCreateDenom_eq_ok {s : State B} {creatorAddr subdenom denom : List UInt8}
    (h : validateCreateDenom sdk bank s creatorAddr subdenom = .ok denom) :
    bank.hasSupply s.bank subdenom = false ∧ getTokenDenom sdk.toSdkChecks creatorAddr subdenom = .ok denom ∧
      bank.getDenomMetaData s.bank denom = none := by
  unfold validateCreateDenom at h
  by_cases hsupply : bank.hasSupply s.bank subdenom = true
  · simp [hsupply] at h
  · rw [Bool.not_eq_true] at hsupply
    simp only [hsupply, Bool.false_eq_true, if_false] at h
    obtain ⟨denom', hget, hrest⟩ := Except.bind_eq_ok.1 h
    -- the denom is new to the bank, or the creation stops
    cases hmeta : bank.getDenomMetaData s.bank denom' with
    | some md =>
      simp [hmeta] at hrest
      cases hrest
    | none =>
      simp only [hmeta, Option.isSome_none, Bool.false_eq_true, if_false] at hrest
      cases hrest
      exact ⟨hsupply, hget, hmeta⟩

theorem createDenom_eq_ok {s s' : State B} {creatorAddr subdenom denom : List UInt8}
    (h : createDenom sdk bank s creatorAddr subdenom = .ok (denom, s')) :
    validateCreateDenom sdk bank s creatorAddr subdenom = .ok denom ∧
      createDenomAfterValidation sdk bank s creatorAddr denom = .ok s' := by
  unfold createDenom at h
  obtain ⟨denom', hvalid, hrest⟩ := Except.bind_eq_ok.1 h
  obtain ⟨s₁, hcreate, hs'⟩ := Except.bind_eq_ok.1 hrest
  cases hs'
  exact ⟨hvalid, hcreate⟩

theorem mintTo_eq_ok {s s' : State B} {amount : Coin} {addr : List UInt8}
    (h : mintTo sdk bank s amount addr = .ok s') :
    ∃ parts b₁ acc b₂, deconstructDenom sdk.toSdkChecks amount.denom = .ok parts ∧
      bank.mintCoins s.bank amount = .ok b₁ ∧ sdk.accAddressFromBech32 addr = .ok acc ∧
      bank.sendCoinsFromModuleToAccount b₁ acc amount = .ok b₂ ∧ s' = { s with bank := b₂ } := by
  unfold mintTo at h
  obtain ⟨parts, hparts, h⟩ := Except.bind_eq_ok.1 h
  obtain ⟨b₁, hmint, h⟩ := Except.bind_eq_ok.1 h
  obtain ⟨acc, hacc, h⟩ := Except.bind_eq_ok.1 h
  obtain ⟨b₂, hsend, h⟩ := Except.bind_eq_ok.1 h
  cases h
  exact ⟨parts, b₁, acc, b₂, hparts, hmint, hacc, hsend, rfl⟩

theorem burnFrom_eq_ok {s s' : State B} {amount : Coin} {addr : List UInt8}
    (h : burnFrom sdk bank s amount addr = .ok s') :
    ∃ parts acc b₁ b₂, deconstructDenom sdk.toSdkChecks amount.denom = .ok parts ∧
      sdk.accAddressFromBech32 addr = .ok acc ∧
      bank.sendCoinsFromAccountToModule s.bank acc amount = .ok b₁ ∧
      bank.burnCoins b₁ amount = .ok b₂ ∧ s' = { s with bank := b₂ } := by
  unfold burnFrom at h
  obtain ⟨parts, hparts, h⟩ := Except.bind_eq_ok.1 h
  obtain ⟨acc, hacc, h⟩ := Except.bind_eq_ok.1 h
  obtain ⟨b₁, hsend, h⟩ := Except.bind_eq_ok.1 h
  obtain ⟨b₂, hburn, h⟩ := Except.bind_eq_ok.1 h
  cases h
  exact ⟨parts, acc, b₁, b₂, hparts, hacc, hsend, hburn, rfl⟩

theorem validateUpdateDenom_eq_ok {s : State B} {denom denom' : List UInt8}
    {allowList : Option (List (List UInt8))}
    (h : validateUpdateDenom sdk bank s denom allowList = .ok denom') :
    denom' = denom ∧ (∃ parts, deconstructDenom sdk.toSdkChecks denom = .ok parts) ∧
      (bank.getDenomMetaData s.bank denom).isSome ∧ validateAllowList sdk s allowList = .ok () := by
  unfold validateUpdateDenom at h
  obtain ⟨parts, hparts, h⟩ := Except.bind_eq_ok.1 h
  obtain ⟨hmeta, h⟩ := Except.ite_throw_bind_eq_ok.1 h
  obtain ⟨u, hallow, h⟩ := Except.bind_eq_ok.1 h
  cases h
  exact ⟨rfl, ⟨parts, hparts⟩, Option.ne_none_iff_isSome.1 (by simpa using hmeta), hallow⟩

namespace MsgServer

theorem mint_eq_ok {s s' : State B} {sender : List UInt8} {amount : Coin}
    (h : MsgServer.mint sdk bank s sender amount = .ok s') :
    (bank.getDenomMetaData s.bank amount.denom).isSome ∧
      sender = (getAuthorityMetadata s amount.denom).admin ∧ mintTo sdk bank s amount sender = .ok s' := by
  unfold MsgServer.mint at h
  obtain ⟨hmeta, h⟩ := Except.ite_throw_bind_eq_ok.1 h
  obtain ⟨hadmin, h⟩ := Except.ite_throw_bind_eq_ok.1 h
  exact ⟨Option.ne_none_iff_isSome.1 (by simpa using hmeta), not_not.1 hadmin, h⟩

theorem burn_eq_ok {s s' : State B} {sender : List UInt8} {amount : Coin}
    (h : MsgServer.burn sdk bank s sender amount = .ok s') :
    sender = (getAuthorityMetadata s amount.denom).admin ∧ burnFrom sdk bank s amount sender = .ok s' := by
  unfold MsgServer.burn at h
  obtain ⟨hadmin, h⟩ := Except.ite_throw_bind_eq_ok.1 h
  exact ⟨not_not.1 hadmin, h⟩

theorem changeAdmin_eq_ok {s s' : State B} {sender denom newAdmin : List UInt8}
    (h : MsgServer.changeAdmin sdk s sender denom newAdmin = .ok s') :
    sender = (getAuthorityMetadata s denom).admin ∧ newAdmin ≠ (getAuthorityMetadata s denom).admin ∧
      setAdmin sdk s denom newAdmin = .ok s' := by
  unfold MsgServer.changeAdmin at h
  obtain ⟨hadmin, h⟩ := Except.ite_throw_bind_eq_ok.1 h
  obtain ⟨hnew, h⟩ := Except.ite_throw_bind_eq_ok.1 h
  exact ⟨not_not.1 hadmin, hnew, h⟩

theorem setDenomMetadata_eq_ok {s s' : State B} {sender : List UInt8} {metadata : Metadata}
    (h : MsgServer.setDenomMetadata sdk bank s sender metadata = .ok s') :
    sdk.validateMetadata metadata = .ok () ∧ sender = (getAuthorityMetadata s metadata.base).admin ∧
      s' = { s with bank := bank.setDenomMetaData s.bank metadata } := by
  unfold MsgServer.setDenomMetadata at h
  obtain ⟨u, hvalid, h⟩ := Except.bind_eq_ok.1 h
  obtain ⟨hadmin, h⟩ := Except.ite_throw_bind_eq_ok.1 h
  cases h
  exact ⟨hvalid, not_not.1 hadmin, rfl⟩

theorem updateDenom_eq_ok {s s' : State B} {sender denom : List UInt8}
    {allowList : Option (List (List UInt8))}
    (h : MsgServer.updateDenom sdk bank s sender denom allowList = .ok s') :
    validateUpdateDenom sdk bank s denom allowList = .ok denom ∧
      sender = (getAuthorityMetadata s denom).admin ∧
      s' = { s with bank := allowList.elim s.bank (bank.setDenomAllowList s.bank denom) } := by
  unfold MsgServer.updateDenom at h
  obtain ⟨denom', hvalid, hrest⟩ := Except.bind_eq_ok.1 h
  obtain ⟨rfl, -⟩ := validateUpdateDenom_eq_ok hvalid
  dsimp only at hrest
  obtain ⟨hadmin, h⟩ := Except.ite_throw_bind_eq_ok.1 hrest
  refine ⟨hvalid, not_not.1 hadmin, ?_⟩
  cases allowList <;> (cases h; rfl)

theorem createDenom_eq_ok {s s' : State B} {sender subdenom : List UInt8}
    {allowList : Option (List (List UInt8))}
    (h : MsgServer.createDenom sdk bank s sender subdenom allowList = .ok s') :
    ∃ denom s₁, Tokenfactory.createDenom sdk bank s sender subdenom = .ok (denom, s₁) ∧
      s' = { s₁ with bank := allowList.elim s₁.bank (bank.setDenomAllowList s₁.bank denom) } := by
  unfold MsgServer.createDenom at h
  obtain ⟨⟨denom, s₁⟩, hcreate, h⟩ := Except.bind_eq_ok.1 h
  dsimp only at h
  refine ⟨denom, s₁, hcreate, ?_⟩
  cases allowList with
  | none => cases h; rfl
  | some addresses =>
    obtain ⟨u, -, h⟩ := Except.bind_eq_ok.1 h
    cases h
    rfl

end MsgServer

end Specs

theorem creatorKey_injective {sdk : SdkChecks} {creator creator' denom denom' subdenom subdenom' : List UInt8}
    (h : deconstructDenom sdk denom = .ok (creator, subdenom))
    (h' : deconstructDenom sdk denom' = .ok (creator', subdenom'))
    (hkey : creatorKey creator denom = creatorKey creator' denom') : denom = denom' := by
  obtain ⟨rfl, hslash, -⟩ := deconstructDenom_eq_ok h
  obtain ⟨rfl, hslash', -⟩ := deconstructDenom_eq_ok h'
  have hform : ∀ c sub, creatorKey c (moduleDenomPrefix ++ slash :: (c ++ slash :: sub)) =
      (c ++ 124 :: moduleDenomPrefix) ++ slash :: (c ++ slash :: sub) := by
    intro c sub
    simp [creatorKey]
  have hfree : ∀ c, slash ∉ c → slash ∉ c ++ 124 :: moduleDenomPrefix := by
    intro c hc
    simp only [List.mem_append, List.mem_cons, not_or]
    exact ⟨hc, by decide, slash_not_mem_moduleDenomPrefix⟩
  have hsplit := congrArg (List.splitOn slash) hkey
  rw [hform, hform, List.splitOn_append_cons_self_of_not_mem (hfree _ hslash),
    List.splitOn_append_cons_self_of_not_mem (hfree _ hslash'), List.cons.injEq] at hsplit
  -- the first piece is `creator|factory`, so the creators agree, and then the denoms
  have hcreator : creator = creator' := List.append_cancel_right hsplit.1
  subst hcreator
  exact List.tail_eq_of_cons_eq (List.append_cancel_left hkey)

theorem validateSender_eq_ok {sdk : Sdk} {sender : List UInt8} :
    validateSender sdk sender = .ok () ↔ (sdk.accAddressFromBech32 sender).isOk := by
  unfold validateSender
  cases sdk.accAddressFromBech32 sender <;> simp [Except.isOk, Except.toBool]

theorem validateBasic_sender {sdk : Sdk} {msg : Msg} (h : msg.validateBasic sdk = .ok ()) :
    (sdk.accAddressFromBech32 msg.sender).isOk := by
  rw [← validateSender_eq_ok]
  cases msg <;>
  · unfold Msg.validateBasic at h
    obtain ⟨u, hsender, -⟩ := Except.bind_eq_ok.1 h
    exact hsender

structure SupplyBank where
  metadata : List UInt8 → Option Metadata
  supply : List UInt8 → Int

def supplyBank : BankKeeper SupplyBank where
  getDenomMetaData b d := b.metadata d
  setDenomMetaData b md := { b with metadata := Function.update b.metadata md.base (some md) }
  setDenomAllowList b _ _ := b
  hasSupply b d := b.supply d ≠ 0
  getSupply b d := b.supply d
  mintCoins b c := .ok { b with supply := Function.update b.supply c.denom (b.supply c.denom + c.amount) }
  burnCoins b c := .ok { b with supply := Function.update b.supply c.denom (b.supply c.denom - c.amount) }
  sendCoinsFromModuleToAccount b _ _ := .ok b
  sendCoinsFromAccountToModule b _ _ := .ok b

theorem supplyBank_lawful : supplyBank.Lawful where
  supply_mintCoins {b b' c} h d := by
    cases h
    by_cases hd : d = c.denom
    · subst hd
      simp [supplyBank]
    · simp [supplyBank, hd]
  supply_burnCoins {b b' c} h d := by
    cases h
    by_cases hd : d = c.denom
    · subst hd
      simp [supplyBank]
    · simp [supplyBank, hd]
  supply_sendCoinsFromModuleToAccount h := by cases h; rfl
  supply_sendCoinsFromAccountToModule h := by cases h; rfl
  supply_setDenomMetaData _ _ := rfl
  supply_setDenomAllowList _ _ _ := rfl
  metadata_setDenomMetaData b md d := by
    simp only [supplyBank, Function.update_apply]
  metadata_setDenomAllowList _ _ _ := rfl
  metadata_mintCoins h := by cases h; rfl
  metadata_burnCoins h := by cases h; rfl
  metadata_sendCoinsFromModuleToAccount h := by cases h; rfl
  metadata_sendCoinsFromAccountToModule h := by cases h; rfl

def testSdk : Sdk := { testChecks with validateMetadata := fun _ => .ok () }

def testDenom : List UInt8 := moduleDenomPrefix ++ slash :: (testCreator ++ slash :: ascii "coin")

def otherAddress : List UInt8 := ascii "sei1other"

def emptyState : State SupplyBank := ⟨⟨fun _ => none, fun _ => 0⟩, fun _ => none, [], 2000⟩

end SeiChain.Tokenfactory
