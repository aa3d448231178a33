import Mathlib
import SeiChain.Tokenfactory.Invariant

namespace SeiChain.Tokenfactory

variable {B : Type}

def Msg.supplyDelta (denom : List UInt8) : Msg → Int
  | .mint _ amount => if denom = amount.denom then amount.amount else 0
  | .burn _ amount => if denom = amount.denom then -amount.amount else 0
  | _ => 0

section Effects

variable {sdk : Sdk} {bank : BankKeeper B}

theorem BankKeeper.Lawful.supply_allowList (hbank : bank.Lawful) (b : B) (d : List UInt8)
    (allowList : Option (List (List UInt8))) :
    bank.getSupply (allowList.elim b (bank.setDenomAllowList b d)) = bank.getSupply b := by
  cases allowList with
  | none => rfl
  | some addresses => exact hbank.supply_setDenomAllowList b d addresses

theorem Msg.handle_supply (hbank : bank.Lawful) {s s' : State B} {msg : Msg}
    (h : msg.handle sdk bank s = .ok s') (denom : List UInt8) :
    bank.getSupply s'.bank denom = bank.getSupply s.bank denom + msg.supplyDelta denom := by
  cases msg with
  | createDenom sender subdenom allowList =>
    obtain ⟨d, s₁, hcreate, rfl⟩ := MsgServer.createDenom_eq_ok h
    obtain ⟨-, hafter⟩ := createDenom_eq_ok hcreate
    obtain ⟨-, rfl⟩ := createDenomAfterValidation_eq_ok hafter
    simp only [hbank.supply_allowList, hbank.supply_setDenomMetaData, Msg.supplyDelta, add_zero]
  | updateDenom sender d allowList =>
    obtain ⟨-, -, rfl⟩ := MsgServer.updateDenom_eq_ok h
    simp only [hbank.supply_allowList, Msg.supplyDelta, add_zero]
  | mint sender amount =>
    obtain ⟨-, -, hmint⟩ := MsgServer.mint_eq_ok h
    obtain ⟨_, b₁, _, b₂, -, hm, -, hsend, rfl⟩ := mintTo_eq_ok hmint
    rw [hbank.supply_sendCoinsFromModuleToAccount hsend, hbank.supply_mintCoins hm]
    rfl
  | burn sender amount =>
    obtain ⟨-, hburn⟩ := MsgServer.burn_eq_ok h
    obtain ⟨_, _, b₁, b₂, -, -, hsend, hb, rfl⟩ := burnFrom_eq_ok hburn
    rw [hbank.supply_burnCoins hb, hbank.supply_sendCoinsFromAccountToModule hsend, Msg.supplyDelta]
    split_ifs <;> omega
  | changeAdmin sender d newAdmin =>
    obtain ⟨-, -, hset⟩ := MsgServer.changeAdmin_eq_ok h
    obtain ⟨-, rfl⟩ := setAuthorityMetadata_eq_ok hset
    simp only [Msg.supplyDelta, add_zero]
  | setDenomMetadata sender metadata =>
    obtain ⟨-, -, rfl⟩ := MsgServer.setDenomMetadata_eq_ok h
    simp only [hbank.supply_setDenomMetaData, Msg.supplyDelta, add_zero]

theorem Msg.handle_supply_authorized {s s' : State B} {msg : Msg}
    (h : msg.handle sdk bank s = .ok s') {denom : List UInt8} (hdelta : msg.supplyDelta denom ≠ 0) :
    msg.sender = (getAuthorityMetadata s denom).admin := by
  cases msg with
  | mint sender amount =>
    obtain ⟨-, hadmin, -⟩ := MsgServer.mint_eq_ok h
    have hd : denom = amount.denom := by
      by_contra hd
      simp [Msg.supplyDelta, hd] at hdelta
    exact hd ▸ hadmin
  | burn sender amount =>
    obtain ⟨hadmin, -⟩ := MsgServer.burn_eq_ok h
    have hd : denom = amount.denom := by
      by_contra hd
      simp [Msg.supplyDelta, hd] at hdelta
    exact hd ▸ hadmin
  | createDenom => exact absurd rfl hdelta
  | updateDenom => exact absurd rfl hdelta
  | changeAdmin => exact absurd rfl hdelta
  | setDenomMetadata => exact absurd rfl hdelta

-- A message that goes through and writes the authority metadata of a denom creates the denom,
-- which the bank has no metadata for, or was sent by its admin.
theorem Msg.handle_authority {s s' : State B} {msg : Msg} (h : msg.handle sdk bank s = .ok s')
    {denom : List UInt8} (hchanged : s'.authority denom ≠ s.authority denom) :
    bank.getDenomMetaData s.bank denom = none ∨ msg.sender = (getAuthorityMetadata s denom).admin := by
  cases msg with
  | createDenom sender subdenom allowList =>
    obtain ⟨d, s₁, hcreate, rfl⟩ := MsgServer.createDenom_eq_ok h
    obtain ⟨hvalid, hafter⟩ := createDenom_eq_ok hcreate
    obtain ⟨-, -, hnone⟩ := validateCreateDenom_eq_ok hvalid
    obtain ⟨-, rfl⟩ := createDenomAfterValidation_eq_ok hafter
    -- the denom created is the one whose entry changes
    by_cases hd : denom = d
    · exact Or.inl (hd ▸ hnone)
    · exact absurd (Function.update_of_ne hd _ _) hchanged
  | changeAdmin sender d newAdmin =>
    obtain ⟨hadmin, -, hset⟩ := MsgServer.changeAdmin_eq_ok h
    obtain ⟨-, rfl⟩ := setAuthorityMetadata_eq_ok hset
    by_cases hd : denom = d
    · exact Or.inr (hd ▸ hadmin)
    · exact absurd (Function.update_of_ne hd _ _) hchanged
  | updateDenom =>
    exact absurd (Msg.handle_frame h (by simp) (by simp)).1 (fun heq => hchanged (heq ▸ rfl))
  | mint =>
    exact absurd (Msg.handle_frame h (by simp) (by simp)).1 (fun heq => hchanged (heq ▸ rfl))
  | burn =>
    exact absurd (Msg.handle_frame h (by simp) (by simp)).1 (fun heq => hchanged (heq ▸ rfl))
  | setDenomMetadata =>
    exact absurd (Msg.handle_frame h (by simp) (by simp)).1 (fun heq => hchanged (heq ▸ rfl))

theorem deliverTx_supply (hbank : bank.Lawful) {s s' : State B} {msgs : List Msg}
    (h : deliverTx sdk bank s msgs = .ok s') (denom : List UInt8) :
    bank.getSupply s'.bank denom = bank.getSupply s.bank denom + (msgs.map (Msg.supplyDelta denom)).sum :=
  List.foldlM_except_sum (fun t => bank.getSupply t.bank denom) (Msg.supplyDelta denom)
    (fun _ _ _ _ hstep => Msg.handle_supply hbank hstep denom) (deliverTx_senders h).2

-- The induction is on the transactions, and within each on its messages, with the admin, the
-- supply and the metadata fixed.
theorem runTxs_denom_stable (hbank : bank.Lawful) {s : State B} {denom : List UInt8}
    (hmeta : (bank.getDenomMetaData s.bank denom).isSome) (txs : List (List Msg))
    (hsenders : ∀ tx ∈ txs, ∀ msg ∈ tx, (sdk.accAddressFromBech32 msg.sender).isOk →
      msg.sender ≠ (getAuthorityMetadata s denom).admin) :
    (runTxs sdk bank s txs).authority denom = s.authority denom ∧
      bank.getSupply (runTxs sdk bank s txs).bank denom = bank.getSupply s.bank denom := by
  let P : State B → Prop := fun t => t.authority denom = s.authority denom ∧
    bank.getSupply t.bank denom = bank.getSupply s.bank denom ∧
    (bank.getDenomMetaData t.bank denom).isSome
  have hrun : P (runTxs sdk bank s txs) := by
    refine List.foldl_commitOr_induction P ⟨rfl, rfl, hmeta⟩ fun t msgs t' hmsgs ht h => ?_
    obtain ⟨hvalid, hloop⟩ := deliverTx_senders h
    refine List.foldlM_except_induction P ht (fun u msg u' hmsg hu hstep => ?_) hloop
    obtain ⟨hauthority, hsupply, hmeta'⟩ := hu
    -- the admin of the denom is still the one at the start, and the sender is not it
    have hadmin : getAuthorityMetadata u denom = getAuthorityMetadata s denom := by
      simp only [getAuthorityMetadata, hauthority]
    have hne : msg.sender ≠ (getAuthorityMetadata u denom).admin :=
      hadmin ▸ hsenders msgs hmsgs msg hmsg (hvalid msg hmsg)
    refine ⟨?_, ?_, Msg.handle_metadata hbank hstep denom hmeta'⟩
    · by_contra hchanged
      rcases Msg.handle_authority hstep (fun heq => hchanged (heq.trans hauthority)) with hnone | hsender
      · rw [hnone] at hmeta'
        cases hmeta'
      · exact hne hsender
    · have hdelta : msg.supplyDelta denom = 0 := by
        by_contra hdelta
        exact hne (Msg.handle_supply_authorized hstep hdelta)
      rw [Msg.handle_supply hbank hstep denom, hdelta, add_zero, hsupply]
  exact ⟨hrun.1, hrun.2.1⟩

theorem frozen_denom (hbank : bank.Lawful) (hempty : ¬(sdk.accAddressFromBech32 []).isOk)
    {s : State B} {denom : List UInt8} (hmeta : (bank.getDenomMetaData s.bank denom).isSome)
    (hadmin : (getAuthorityMetadata s denom).admin = []) (txs : List (List Msg)) :
    (runTxs sdk bank s txs).authority denom = s.authority denom ∧
      bank.getSupply (runTxs sdk bank s txs).bank denom = bank.getSupply s.bank denom :=
  runTxs_denom_stable hbank hmeta txs fun _ _ msg _ hsender hsame =>
    hempty (by rw [← hadmin, ← hsame]; exact hsender)

def nativeState : State SupplyBank :=
  { emptyState with
    bank := ⟨fun d => if d = ascii "usei" then some ⟨[(ascii "usei", 0)], ascii "usei", ascii "sei",
      ascii "sei", ascii "SEI"⟩ else none, fun d => if d = ascii "usei" then 1000 else 0⟩ }

theorem frozen_native_denom :
    (runTxs testSdk supplyBank nativeState
        [[.mint testCreator ⟨ascii "usei", 5⟩], [.changeAdmin testCreator (ascii "usei") testCreator]]).authority
          (ascii "usei") = nativeState.authority (ascii "usei") ∧
      supplyBank.getSupply (runTxs testSdk supplyBank nativeState
        [[.mint testCreator ⟨ascii "usei", 5⟩], [.changeAdmin testCreator (ascii "usei") testCreator]]).bank
          (ascii "usei") = supplyBank.getSupply nativeState.bank (ascii "usei") :=
  frozen_denom supplyBank_lawful (by decide) (by decide) rfl _

theorem admin_custody (hbank : bank.Lawful) {s : State B} {denom : List UInt8}
    (hmeta : (bank.getDenomMetaData s.bank denom).isSome) (txs : List (List Msg))
    (hsenders : ∀ tx ∈ txs, ∀ msg ∈ tx, msg.sender ≠ (getAuthorityMetadata s denom).admin) :
    (runTxs sdk bank s txs).authority denom = s.authority denom ∧
      bank.getSupply (runTxs sdk bank s txs).bank denom = bank.getSupply s.bank denom :=
  runTxs_denom_stable hbank hmeta txs fun tx htx msg hmsg _ => hsenders tx htx msg hmsg

def createdState : State SupplyBank :=
  runTxs testSdk supplyBank emptyState [[.createDenom testCreator (ascii "coin") none]]

theorem admin_custody_other_sender :
    (runTxs testSdk supplyBank createdState
        [[.mint otherAddress ⟨testDenom, 5⟩], [.changeAdmin otherAddress testDenom otherAddress]]).authority
          testDenom = createdState.authority testDenom ∧
      supplyBank.getSupply (runTxs testSdk supplyBank createdState
        [[.mint otherAddress ⟨testDenom, 5⟩], [.changeAdmin otherAddress testDenom otherAddress]]).bank
          testDenom = supplyBank.getSupply createdState.bank testDenom :=
  admin_custody supplyBank_lawful (by decide) _ (by decide)

end Effects

end SeiChain.Tokenfactory
