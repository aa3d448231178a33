import Mathlib
import SeiChain.Tokenfactory.Keeper

namespace SeiChain.Tokenfactory

variable {B : Type}

def CreatorEntry (sdk : Sdk) (e : List UInt8 × List UInt8) : Prop :=
  ∃ creator subdenom, deconstructDenom sdk.toSdkChecks e.2 = .ok (creator, subdenom) ∧
    e.1 = creatorKey creator e.2

section Entries

variable {sdk : Sdk}

theorem creatorEntry_of_deconstructDenom {creator subdenom denom : List UInt8}
    (h : deconstructDenom sdk.toSdkChecks denom = .ok (creator, subdenom)) :
    CreatorEntry sdk (creatorKey creator denom, denom) :=
  ⟨creator, subdenom, h, rfl⟩

theorem CreatorEntry.denom_eq {e e' : List UInt8 × List UInt8} (he : CreatorEntry sdk e)
    (he' : CreatorEntry sdk e') (hkey : e.1 = e'.1) : e.2 = e'.2 := by
  obtain ⟨creator, subdenom, hd, hk⟩ := he
  obtain ⟨creator', subdenom', hd', hk'⟩ := he'
  exact creatorKey_injective hd hd' (hk.symm.trans (hkey.trans hk'))

theorem CreatorEntry.key_eq {e e' : List UInt8 × List UInt8} (he : CreatorEntry sdk e)
    (he' : CreatorEntry sdk e') (hdenom : e.2 = e'.2) : e.1 = e'.1 := by
  obtain ⟨creator, subdenom, hd, hk⟩ := he
  obtain ⟨creator', subdenom', hd', hk'⟩ := he'
  rw [hdenom, hd'] at hd
  obtain ⟨rfl, -⟩ := Prod.mk.inj (Except.ok.inj hd)
  rw [hk, hk', hdenom]

-- Writing the entry of a denom that deconstructs into a store of such entries: the entries are
-- the new one and the old ones, since an old one under that key is the same entry.
theorem mem_set_creatorKey {l : List (List UInt8 × List UInt8)} (hl : ∀ e ∈ l, CreatorEntry sdk e)
    {creator subdenom denom : List UInt8}
    (h : deconstructDenom sdk.toSdkChecks denom = .ok (creator, subdenom)) {e : List UInt8 × List UInt8} :
    e ∈ KVStore.set (creatorKey creator denom) denom l ↔ e = (creatorKey creator denom, denom) ∨ e ∈ l :=
  KVStore.mem_set_iff fun e' he' hkey =>
    (hl e' he').denom_eq (creatorEntry_of_deconstructDenom h) hkey

theorem mem_denoms_set_creatorKey {l : List (List UInt8 × List UInt8)} (hl : ∀ e ∈ l, CreatorEntry sdk e)
    {creator subdenom denom : List UInt8}
    (h : deconstructDenom sdk.toSdkChecks denom = .ok (creator, subdenom)) {d : List UInt8} :
    d ∈ (KVStore.set (creatorKey creator denom) denom l).map Prod.snd ↔ d = denom ∨ d ∈ l.map Prod.snd := by
  simp only [List.mem_map, mem_set_creatorKey hl h]
  constructor
  · rintro ⟨e, rfl | he, rfl⟩
    · exact Or.inl rfl
    · exact Or.inr ⟨e, he, rfl⟩
  · rintro (rfl | ⟨e, he, rfl⟩)
    · exact ⟨_, Or.inl rfl, rfl⟩
    · exact ⟨e, Or.inr he, rfl⟩

theorem creatorKey_not_mem {l : List (List UInt8 × List UInt8)} (hl : ∀ e ∈ l, CreatorEntry sdk e)
    {creator subdenom denom : List UInt8}
    (h : deconstructDenom sdk.toSdkChecks denom = .ok (creator, subdenom))
    (hdenom : denom ∉ l.map Prod.snd) : creatorKey creator denom ∉ l.map Prod.fst := by
  intro hkey
  obtain ⟨e, he, hek⟩ := List.mem_map.1 hkey
  exact hdenom (List.mem_map.2 ⟨e, he, (hl e he).denom_eq (creatorEntry_of_deconstructDenom h) hek⟩)

end Entries

-- The invariant of the module's store.
structure State.WellFormed (sdk : Sdk) (bank : BankKeeper B) (s : State B) : Prop where
  admin_valid : ∀ denom metadata, s.authority denom = some metadata → metadata.validate sdk = .ok ()
  metadata_of_authority : ∀ denom, (s.authority denom).isSome →
    (bank.getDenomMetaData s.bank denom).isSome
  creators_nodup : (s.creators.map Prod.fst).Nodup
  creators_entry : ∀ e ∈ s.creators, CreatorEntry sdk e
  indexed_iff : ∀ denom, denom ∈ s.creators.map Prod.snd ↔ (s.authority denom).isSome

namespace State.WellFormed

variable {sdk : Sdk} {bank : BankKeeper B} {s s' : State B}

theorem of_empty (hauthority : ∀ denom, s.authority denom = none) (hcreators : s.creators = []) :
    s.WellFormed sdk bank where
  admin_valid denom metadata h := by simp [hauthority] at h
  metadata_of_authority denom h := by simp [hauthority] at h
  creators_nodup := by simp [hcreators]
  creators_entry e he := by simp [hcreators] at he
  indexed_iff denom := by simp [hauthority, hcreators]

theorem of_bank (hwf : s.WellFormed sdk bank) (hauthority : s'.authority = s.authority)
    (hcreators : s'.creators = s.creators)
    (hmeta : ∀ denom, (bank.getDenomMetaData s.bank denom).isSome →
      (bank.getDenomMetaData s'.bank denom).isSome) :
    s'.WellFormed sdk bank where
  admin_valid denom metadata h := hwf.admin_valid denom metadata (hauthority ▸ h)
  metadata_of_authority denom h := hmeta denom (hwf.metadata_of_authority denom (hauthority ▸ h))
  creators_nodup := hcreators ▸ hwf.creators_nodup
  creators_entry e he := hwf.creators_entry e (hcreators ▸ he)
  indexed_iff denom := by rw [hcreators, hauthority]; exact hwf.indexed_iff denom

variable (hbank : bank.Lawful)
include hbank

-- `createDenomAfterValidation` of a denom that deconstructs into its creator: it may already be
-- there (at genesis), and then its entry is written again.
theorem createDenomAfterValidation (hwf : s.WellFormed sdk bank)
    {creator subdenom denom : List UInt8}
    (hd : deconstructDenom sdk.toSdkChecks denom = .ok (creator, subdenom))
    (h : Tokenfactory.createDenomAfterValidation sdk bank s creator denom = .ok s') :
    s'.WellFormed sdk bank := by
  obtain ⟨hvalid, rfl⟩ := createDenomAfterValidation_eq_ok h
  constructor
  · intro d metadata hm
    dsimp only at hm
    by_cases hdd : d = denom
    · subst hdd
      rw [Function.update_self, Option.some.injEq] at hm
      exact hm ▸ hvalid
    · rw [Function.update_of_ne hdd] at hm
      exact hwf.admin_valid d metadata hm
  · intro d hm
    dsimp only at hm ⊢
    rw [hbank.metadata_setDenomMetaData, newDenomMetaData]
    by_cases hdd : d = denom
    · rw [if_pos hdd]
      rfl
    · rw [Function.update_of_ne hdd] at hm
      rw [if_neg hdd]
      exact hwf.metadata_of_authority d hm
  · exact KVStore.nodup_keys_set hwf.creators_nodup _ _
  · intro e he
    rcases (mem_set_creatorKey hwf.creators_entry hd).1 he with rfl | he
    · exact creatorEntry_of_deconstructDenom hd
    · exact hwf.creators_entry e he
  · intro d
    dsimp only
    rw [mem_denoms_set_creatorKey hwf.creators_entry hd]
    by_cases hdd : d = denom
    · simp [hdd]
    · rw [Function.update_of_ne hdd, hwf.indexed_iff d]
      simp [hdd]

omit hbank in
theorem setAuthorityMetadata (hwf : s.WellFormed sdk bank) {denom : List UInt8}
    {metadata : DenomAuthorityMetadata} (hindexed : (s.authority denom).isSome)
    (h : Tokenfactory.setAuthorityMetadata sdk s denom metadata = .ok s') :
    s'.WellFormed sdk bank := by
  obtain ⟨hvalid, rfl⟩ := setAuthorityMetadata_eq_ok h
  constructor
  · intro d m hm
    dsimp only at hm
    by_cases hdd : d = denom
    · subst hdd
      rw [Function.update_self, Option.some.injEq] at hm
      exact hm ▸ hvalid
    · rw [Function.update_of_ne hdd] at hm
      exact hwf.admin_valid d m hm
  · intro d hm
    dsimp only at hm
    by_cases hdd : d = denom
    · subst hdd
      exact hwf.metadata_of_authority d hindexed
    · rw [Function.update_of_ne hdd] at hm
      exact hwf.metadata_of_authority d hm
  · exact hwf.creators_nodup
  · exact hwf.creators_entry
  · intro d
    dsimp only
    rw [hwf.indexed_iff d]
    by_cases hdd : d = denom
    · subst hdd
      simp [hindexed]
    · rw [Function.update_of_ne hdd]

end State.WellFormed

section Handlers

variable {sdk : Sdk} {bank : BankKeeper B}

theorem BankKeeper.Lawful.metadata_allowList (hbank : bank.Lawful) (b : B) (d : List UInt8)
    (allowList : Option (List (List UInt8))) :
    bank.getDenomMetaData (allowList.elim b (bank.setDenomAllowList b d)) = bank.getDenomMetaData b := by
  cases allowList with
  | none => rfl
  | some addresses => exact hbank.metadata_setDenomAllowList b d addresses

theorem Msg.handle_metadata (hbank : bank.Lawful) {s s' : State B} {msg : Msg}
    (h : msg.handle sdk bank s = .ok s') (denom : List UInt8)
    (hmeta : (bank.getDenomMetaData s.bank denom).isSome) :
    (bank.getDenomMetaData s'.bank denom).isSome := by
  have hset : ∀ (b : B) (md : Metadata), (bank.getDenomMetaData b denom).isSome →
      (bank.getDenomMetaData (bank.setDenomMetaData b md) denom).isSome := by
    intro b md hb
    rw [hbank.metadata_setDenomMetaData]
    split_ifs
    · rfl
    · exact hb
  cases msg with
  | createDenom sender subdenom allowList =>
    obtain ⟨d, s₁, hcreate, rfl⟩ := MsgServer.createDenom_eq_ok h
    obtain ⟨-, hafter⟩ := createDenom_eq_ok hcreate
    obtain ⟨-, rfl⟩ := createDenomAfterValidation_eq_ok hafter
    dsimp only
    rw [hbank.metadata_allowList]
    exact hset _ _ hmeta
  | updateDenom sender d allowList =>
    obtain ⟨-, -, rfl⟩ := MsgServer.updateDenom_eq_ok h
    dsimp only
    rw [hbank.metadata_allowList]
    exact hmeta
  | mint sender amount =>
    obtain ⟨-, -, hmint⟩ := MsgServer.mint_eq_ok h
    obtain ⟨_, b₁, _, b₂, -, hm, -, hsend, rfl⟩ := mintTo_eq_ok hmint
    rw [hbank.metadata_sendCoinsFromModuleToAccount hsend, hbank.metadata_mintCoins hm]
    exact hmeta
  | burn sender amount =>
    obtain ⟨-, hburn⟩ := MsgServer.burn_eq_ok h
    obtain ⟨_, _, b₁, b₂, -, -, hsend, hb, rfl⟩ := burnFrom_eq_ok hburn
    rw [hbank.metadata_burnCoins hb, hbank.metadata_sendCoinsFromAccountToModule hsend]
    exact hmeta
  | changeAdmin sender d newAdmin =>
    obtain ⟨-, -, hset⟩ := MsgServer.changeAdmin_eq_ok h
    obtain ⟨-, rfl⟩ := setAuthorityMetadata_eq_ok hset
    exact hmeta
  | setDenomMetadata sender metadata =>
    obtain ⟨-, -, rfl⟩ := MsgServer.setDenomMetadata_eq_ok h
    exact hset _ _ hmeta

theorem Msg.handle_frame {s s' : State B} {msg : Msg} (h : msg.handle sdk bank s = .ok s')
    (hcreate : ∀ sender subdenom allowList, msg ≠ .createDenom sender subdenom allowList)
    (hchange : ∀ sender denom newAdmin, msg ≠ .changeAdmin sender denom newAdmin) :
    s'.authority = s.authority ∧ s'.creators = s.creators := by
  cases msg with
  | createDenom sender subdenom allowList => exact absurd rfl (hcreate sender subdenom allowList)
  | updateDenom sender d allowList =>
    obtain ⟨-, -, rfl⟩ := MsgServer.updateDenom_eq_ok h
    exact ⟨rfl, rfl⟩
  | mint sender amount =>
    obtain ⟨-, -, hmint⟩ := MsgServer.mint_eq_ok h
    obtain ⟨_, _, _, _, -, -, -, -, rfl⟩ := mintTo_eq_ok hmint
    exact ⟨rfl, rfl⟩
  | burn sender amount =>
    obtain ⟨-, hburn⟩ := MsgServer.burn_eq_ok h
    obtain ⟨_, _, _, _, -, -, -, -, rfl⟩ := burnFrom_eq_ok hburn
    exact ⟨rfl, rfl⟩
  | changeAdmin sender d newAdmin => exact absurd rfl (hchange sender d newAdmin)
  | setDenomMetadata sender metadata =>
    obtain ⟨-, -, rfl⟩ := MsgServer.setDenomMetadata_eq_ok h
    exact ⟨rfl, rfl⟩

theorem Msg.handle_wellFormed (hbank : bank.Lawful) (hempty : ¬(sdk.accAddressFromBech32 []).isOk)
    {s s' : State B} {msg : Msg} (hwf : s.WellFormed sdk bank)
    (hsender : (sdk.accAddressFromBech32 msg.sender).isOk) (h : msg.handle sdk bank s = .ok s') :
    s'.WellFormed sdk bank := by
  cases msg with
  | createDenom sender subdenom allowList =>
    obtain ⟨denom, s₁, hcreate, rfl⟩ := MsgServer.createDenom_eq_ok h
    obtain ⟨hvalid, hafter⟩ := createDenom_eq_ok hcreate
    obtain ⟨-, hget, -⟩ := validateCreateDenom_eq_ok hvalid
    have hwf₁ := hwf.createDenomAfterValidation hbank (deconstructDenom_getTokenDenom hsender hget) hafter
    -- the allow list goes to the bank alone
    refine hwf₁.of_bank rfl rfl fun d hmeta => ?_
    dsimp only
    rw [hbank.metadata_allowList]
    exact hmeta
  | changeAdmin sender denom newAdmin =>
    obtain ⟨hadmin, -, hset⟩ := MsgServer.changeAdmin_eq_ok h
    -- the sender is an address, so not the empty admin of a denom without authority metadata
    have hindexed : (s.authority denom).isSome := by
      cases ha : s.authority denom with
      | none =>
        simp only [getAuthorityMetadata, ha, Option.getD_none] at hadmin
        subst hadmin
        exact absurd hsender hempty
      | some m => rfl
    exact hwf.setAuthorityMetadata hindexed hset
  | updateDenom sender denom allowList =>
    obtain ⟨hauthority, hcreators⟩ := Msg.handle_frame h (by simp) (by simp)
    exact hwf.of_bank hauthority hcreators (Msg.handle_metadata hbank h)
  | mint sender amount =>
    obtain ⟨hauthority, hcreators⟩ := Msg.handle_frame h (by simp) (by simp)
    exact hwf.of_bank hauthority hcreators (Msg.handle_metadata hbank h)
  | burn sender amount =>
    obtain ⟨hauthority, hcreators⟩ := Msg.handle_frame h (by simp) (by simp)
    exact hwf.of_bank hauthority hcreators (Msg.handle_metadata hbank h)
  | setDenomMetadata sender metadata =>
    obtain ⟨hauthority, hcreators⟩ := Msg.handle_frame h (by simp) (by simp)
    exact hwf.of_bank hauthority hcreators (Msg.handle_metadata hbank h)

theorem deliverTx_senders {s s' : State B} {msgs : List Msg} (h : deliverTx sdk bank s msgs = .ok s') :
    (∀ msg ∈ msgs, (sdk.accAddressFromBech32 msg.sender).isOk) ∧
      msgs.foldlM (fun s msg => msg.handle sdk bank s) s = .ok s' := by
  unfold deliverTx at h
  obtain ⟨u, hbasic, hrun⟩ := Except.bind_eq_ok.1 h
  exact ⟨fun msg hmsg => validateBasic_sender (List.forM_except_eq_ok_iff.1 hbasic msg hmsg), hrun⟩

theorem deliverTx_wellFormed (hbank : bank.Lawful) (hempty : ¬(sdk.accAddressFromBech32 []).isOk)
    {s s' : State B} {msgs : List Msg} (hwf : s.WellFormed sdk bank)
    (h : deliverTx sdk bank s msgs = .ok s') : s'.WellFormed sdk bank := by
  obtain ⟨hsenders, hrun⟩ := deliverTx_senders h
  exact List.foldlM_except_induction (State.WellFormed sdk bank) hwf
    (fun t msg t' hmsg ht hstep => Msg.handle_wellFormed hbank hempty ht (hsenders msg hmsg) hstep) hrun

theorem runTxs_wellFormed (hbank : bank.Lawful) (hempty : ¬(sdk.accAddressFromBech32 []).isOk)
    {s : State B} (hwf : s.WellFormed sdk bank) (txs : List (List Msg)) :
    (runTxs sdk bank s txs).WellFormed sdk bank :=
  List.foldl_commitOr_induction _ hwf fun _ _ _ _ ht h => deliverTx_wellFormed hbank hempty ht h

end Handlers

end SeiChain.Tokenfactory
