import SeiChain.Evm.Association
import SeiChain.Lib.PEquiv
import SeiChain.Lib.Fold

namespace SeiChain.Evm.Association

open KVStore SeiChain.Evm.State

variable {P : Type}

@[simp] theorem copyAddress_bytes (a : Address) : copyAddress a.bytes = a := by
  apply Address.bytes_injective
  simp [copyAddress, List.take_left' a.length_bytes]

theorem getSeiAddressIn_setAddressMapping (v : View) (s : AccAddress) (e e' : Address) :
    getSeiAddressIn ((setAddressMapping s e).applyTo v) e' =
      Function.update (getSeiAddressIn v) e (some s) e' := by
  by_cases h : e' = e
  · subst h
    simp [getSeiAddressIn, setAddressMapping]
  · simp [getSeiAddressIn, setAddressMapping, h]

theorem getEVMAddressIn_setAddressMapping (v : View) (s s' : AccAddress) (e : Address) :
    getEVMAddressIn ((setAddressMapping s e).applyTo v) s' =
      Function.update (getEVMAddressIn v) s (some e) s' := by
  by_cases h : s' = s
  · subst h
    simp [getEVMAddressIn, setAddressMapping]
  · simp [getEVMAddressIn, setAddressMapping, h]

theorem getSeiAddressIn_deleteAddressMapping (v : View) (s : AccAddress) (e e' : Address) :
    getSeiAddressIn ((deleteAddressMapping s e).applyTo v) e' =
      Function.update (getSeiAddressIn v) e none e' := by
  by_cases h : e' = e
  · subst h
    simp [getSeiAddressIn, deleteAddressMapping]
  · simp [getSeiAddressIn, deleteAddressMapping, h]

theorem getEVMAddressIn_deleteAddressMapping (v : View) (s s' : AccAddress) (e : Address) :
    getEVMAddressIn ((deleteAddressMapping s e).applyTo v) s' =
      Function.update (getEVMAddressIn v) s none s' := by
  by_cases h : s' = s
  · subst h
    simp [getEVMAddressIn, deleteAddressMapping]
  · simp [getEVMAddressIn, deleteAddressMapping, h]

@[simp] theorem getSeiAddressIn_storeCode (H : Hashes P) (v : View) (addr : Address)
    (code : Bytes) : getSeiAddressIn (storeCode H v addr code) = getSeiAddressIn v := by
  funext e
  simp [getSeiAddressIn, storeCode, single]

@[simp] theorem getEVMAddressIn_storeCode (H : Hashes P) (v : View) (addr : Address)
    (code : Bytes) : getEVMAddressIn (storeCode H v addr code) = getEVMAddressIn v := by
  funext s
  simp [getEVMAddressIn, storeCode, single]

-- The keeper's two directions are the two directions of `p`.
structure Represents (v : View) (p : Address ≃. AccAddress) : Prop where
  sei : ∀ e, getSeiAddressIn v e = p e
  evm : ∀ s, getEVMAddressIn v s = p.symm s

namespace Represents

variable {v : View} {p : Address ≃. AccAddress}

theorem agree (hr : Represents v p) (s : AccAddress) (e : Address) :
    getSeiAddressIn v e = some s ↔ getEVMAddressIn v s = some e := by
  rw [hr.sei, hr.evm]
  exact p.eq_some_iff.symm

theorem setAddressMapping (hr : Represents v p) {s : AccAddress} {e : Address} (he : p e = none)
    (hs : p.symm s = none) :
    Represents ((Association.setAddressMapping s e).applyTo v) (p.insert e s he hs) where
  sei e' := by
    rw [getSeiAddressIn_setAddressMapping, funext hr.sei, PEquiv.insert_apply]
  evm s' := by
    rw [getEVMAddressIn_setAddressMapping, funext hr.evm, PEquiv.symm_insert_apply]

theorem deleteAddressMapping (hr : Represents v p) {s : AccAddress} {e : Address}
    (h : p e = some s) : Represents ((deleteAddressMapping s e).applyTo v) (p.erase e) where
  sei e' := by
    rw [getSeiAddressIn_deleteAddressMapping, funext hr.sei, PEquiv.erase_apply]
  evm s' := by
    rw [getEVMAddressIn_deleteAddressMapping, funext hr.evm, PEquiv.symm_erase_apply_of_eq h]

theorem storeCode (hr : Represents v p) (H : Hashes P) (addr : Address) (code : Bytes) :
    Represents (Association.storeCode H v addr code) p where
  sei e := by rw [getSeiAddressIn_storeCode, hr.sei]
  evm s := by rw [getEVMAddressIn_storeCode, hr.evm]

end Represents

-- The contracts: wasm contract addresses, and the addresses CREATE and CREATE2 give EVM
-- contracts.
structure Contracts where
  wasm : AccAddress → Prop
  evm : Address → Prop

-- A key's two addresses, a wasm contract with its address cut to twenty bytes, an EVM
-- contract with its cast Sei address.
inductive Paired (H : Hashes P) (C : Contracts) : AccAddress → Address → Prop
  | key (pk : P) : Paired H C (H.pubkeyToSeiAddress pk) (H.pubkeyToEVMAddress pk)
  | wasm {addr : AccAddress} : C.wasm addr → Paired H C addr (bytesToAddress addr)
  | evm {addr : Address} : C.evm addr → Paired H C addr.bytes addr

-- Hash injectivity: addresses derived from different keys or contracts never coincide, on
-- either side.
structure CollisionFree (H : Hashes P) (C : Contracts) : Prop where
  sei_injective : Function.Injective H.pubkeyToSeiAddress
  evm_injective : Function.Injective H.pubkeyToEVMAddress
  sei_ne_wasm : ∀ pk addr, C.wasm addr → H.pubkeyToSeiAddress pk ≠ addr
  evm_ne_wasm : ∀ pk addr, C.wasm addr → H.pubkeyToEVMAddress pk ≠ bytesToAddress addr
  sei_ne_evm : ∀ pk addr, C.evm addr → H.pubkeyToSeiAddress pk ≠ addr.bytes
  evm_ne_evm : ∀ pk addr, C.evm addr → H.pubkeyToEVMAddress pk ≠ addr
  wasm_injective : ∀ a b, C.wasm a → C.wasm b → bytesToAddress a = bytesToAddress b → a = b
  wasm_evm : ∀ a b, C.wasm a → C.evm b → bytesToAddress a = b → a = b.bytes

variable {H : Hashes P} {C : Contracts}

theorem Paired.unique (hA : CollisionFree H C) {s s' : AccAddress} {e e' : Address}
    (h₁ : Paired H C s e) (h₂ : Paired H C s' e') : s = s' ↔ e = e' := by
  cases h₁ with
  | key pk =>
    cases h₂ with
    | key pk' => exact hA.sei_injective.eq_iff.trans hA.evm_injective.eq_iff.symm
    | wasm hb => exact iff_of_false (hA.sei_ne_wasm pk _ hb) (hA.evm_ne_wasm pk _ hb)
    | evm hb => exact iff_of_false (hA.sei_ne_evm pk _ hb) (hA.evm_ne_evm pk _ hb)
  | wasm ha =>
    cases h₂ with
    | key pk' =>
      exact iff_of_false (hA.sei_ne_wasm pk' _ ha).symm (hA.evm_ne_wasm pk' _ ha).symm
    | wasm hb => exact ⟨congrArg _, hA.wasm_injective _ _ ha hb⟩
    | evm hb => exact ⟨fun h => h ▸ bytesToAddress_bytes _, hA.wasm_evm _ _ ha hb⟩
  | evm ha =>
    cases h₂ with
    | key pk' => exact iff_of_false (hA.sei_ne_evm pk' _ ha).symm (hA.evm_ne_evm pk' _ ha).symm
    | wasm hb =>
      exact ⟨fun h => h ▸ (bytesToAddress_bytes _).symm,
        fun h => (hA.wasm_evm _ _ hb ha h.symm).symm⟩
    | evm hb => exact ⟨fun h => Address.bytes_injective h, congrArg _⟩

structure Pairing (H : Hashes P) (C : Contracts) where
  map : Address ≃. AccAddress
  paired : ∀ e s, map e = some s → Paired H C s e

namespace Pairing

theorem evm_free (hA : CollisionFree H C) (a : Pairing H C) {s : AccAddress} {e : Address}
    (h : Paired H C s e) (hs : a.map.symm s = none) : a.map e = none := by
  cases he : a.map e with
  | none => rfl
  | some s' =>
    have hs' : s' = s := (Paired.unique hA (a.paired e s' he) h).2 rfl
    subst hs'
    rw [a.map.eq_some_iff.2 he] at hs
    cases hs

theorem sei_free (hA : CollisionFree H C) (a : Pairing H C) {s : AccAddress} {e : Address}
    (h : Paired H C s e) (he : a.map e = none) : a.map.symm s = none := by
  cases hs : a.map.symm s with
  | none => rfl
  | some e' =>
    have he' : a.map e' = some s := a.map.eq_some_iff.1 hs
    have : e' = e := (Paired.unique hA (a.paired e' s he') h).1 rfl
    subst this
    rw [he] at he'
    cases he'

def insert (a : Pairing H C) {s : AccAddress} {e : Address} (h : Paired H C s e)
    (he : a.map e = none) (hs : a.map.symm s = none) : Pairing H C where
  map := a.map.insert e s he hs
  paired e' s' h' := by
    rw [PEquiv.insert_apply, Function.update_apply] at h'
    split_ifs at h' with he'
    · cases h'
      subst he'
      exact h
    · exact a.paired e' s' h'

def erase (a : Pairing H C) (e : Address) : Pairing H C where
  map := a.map.erase e
  paired e' s' h' := by
    rw [PEquiv.erase_apply, Function.update_apply] at h'
    split_ifs at h'
    exact a.paired e' s' h'

def empty : Pairing H C where
  map := ⊥
  paired e s h := by
    rw [PEquiv.bot_apply] at h
    cases h

end Pairing

def Associated (H : Hashes P) (C : Contracts) (v : View) : Prop :=
  ∃ a : Pairing H C, Represents v a.map

theorem associated_empty : Associated H C fun _ => none :=
  ⟨.empty, ⟨fun _ => rfl, fun _ => rfl⟩⟩

theorem associated_removeAssociationIn {v : View} (hv : Associated H C v) (acc : Address) :
    Associated H C (removeAssociationIn v acc) := by
  obtain ⟨a, hr⟩ := hv
  unfold removeAssociationIn
  cases hacc : getSeiAddressIn v acc with
  | none => exact ⟨a, hr⟩
  | some s => exact ⟨a.erase acc, hr.deleteAddressMapping ((hr.sei acc).symm.trans hacc)⟩

theorem associated_storeCode {v : View} (hv : Associated H C v) (H' : Hashes P) (addr : Address)
    (code : Bytes) : Associated H C (storeCode H' v addr code) := by
  obtain ⟨a, hr⟩ := hv
  exact ⟨a, hr.storeCode H' addr code⟩

section Writes

variable (hA : CollisionFree H C)
include hA

theorem associated_setAddressMapping_of_getEVMAddressIn {v : View} (hv : Associated H C v)
    {s : AccAddress} {e : Address} (h : Paired H C s e) (hs : getEVMAddressIn v s = none) :
    Associated H C ((setAddressMapping s e).applyTo v) := by
  obtain ⟨a, hr⟩ := hv
  have hs' : a.map.symm s = none := (hr.evm s).symm.trans hs
  have he' : a.map e = none := a.evm_free hA h hs'
  exact ⟨a.insert h he' hs', hr.setAddressMapping he' hs'⟩

theorem associated_setAddressMapping_of_getSeiAddressIn {v : View} (hv : Associated H C v)
    {s : AccAddress} {e : Address} (h : Paired H C s e) (he : getSeiAddressIn v e = none) :
    Associated H C ((setAddressMapping s e).applyTo v) := by
  obtain ⟨a, hr⟩ := hv
  have he' : a.map e = none := (hr.sei e).symm.trans he
  have hs' : a.map.symm s = none := a.sei_free hA h he'
  exact ⟨a.insert h he' hs', hr.setAddressMapping he' hs'⟩

end Writes

theorem associateAddresses_eq_ok {v v' : View} {s : AccAddress} {e : Address}
    {keepers : Except String Unit} (h : associateAddresses v s e keepers = .ok v') :
    v' = (setAddressMapping s e).applyTo v := by
  cases keepers with
  | error => cases h
  | ok => cases h; rfl

theorem evmPreprocessAnteHandle_eq_ok {v v' : View} {pubKey : P}
    {isAssociateTx balancePositive : Bool} {keepers : Except String Unit}
    (h : evmPreprocessAnteHandle H v pubKey isAssociateTx balancePositive keepers = .ok v') :
    v' = v ∨ getEVMAddressIn v (H.pubkeyToSeiAddress pubKey) = none ∧
      v' = (setAddressMapping (H.pubkeyToSeiAddress pubKey) (H.pubkeyToEVMAddress pubKey)).applyTo v := by
  unfold evmPreprocessAnteHandle at h
  dsimp only at h
  cases hg : getEVMAddressIn v (H.pubkeyToSeiAddress pubKey) with
  | some e =>
    -- an associated sender: an associate transaction is refused, any other passes
    rw [hg] at h
    cases isAssociateTx
    · cases h
      exact .inl rfl
    · cases h
  | none =>
    rw [hg] at h
    refine .inr ⟨rfl, ?_⟩
    cases isAssociateTx
    · exact associateAddresses_eq_ok h
    · cases balancePositive
      · cases h
      · exact associateAddresses_eq_ok h

-- A signer is skipped, or its account's key is associated after its Sei address was found
-- free.
theorem evmAddressSigner_eq_ok {isTxMsgAssociate : Bool} {v v' : View} {signer : Signer P}
    (h : evmAddressSigner H isTxMsgAssociate v signer = .ok v') :
    v' = v ∨ ∃ pk, signer.pubKey = some pk ∧ getEVMAddressIn v signer.address = none ∧
      v' = (setAddressMapping signer.address (H.pubkeyToEVMAddress pk)).applyTo v := by
  unfold evmAddressSigner at h
  cases hg : getEVMAddressIn v signer.address with
  | some e =>
    rw [hg] at h
    cases h
    exact .inl rfl
  | none =>
    cases hpk : signer.pubKey with
    | none =>
      rw [hg, hpk] at h
      cases h
      exact .inl rfl
    | some pk =>
      refine .inr ⟨pk, rfl, rfl, ?_⟩
      -- past the write, only the bank's outcome and the funding check can fail
      cases hm : signer.migrated with
      | error =>
        simp only [hg, hpk, hm] at h
        cases h
      | ok =>
        simp only [hg, hpk, hm] at h
        split at h
        · cases h
        · cases h
          rfl

theorem associateContractAddress_eq_ok {v v' : View} {addr : AccAddress}
    {hasContractInfo : Bool} (h : associateContractAddress v addr hasContractInfo = .ok v') :
    hasContractInfo = true ∧ getEVMAddressIn v addr = none ∧
      v' = (setAddressMapping addr (bytesToAddress addr)).applyTo v := by
  unfold associateContractAddress at h
  cases hasContractInfo with
  | false => cases h
  | true =>
    cases hg : getEVMAddressIn v addr with
    | some e =>
      rw [hg] at h
      cases h
    | none =>
      rw [hg] at h
      cases h
      exact ⟨rfl, rfl, rfl⟩

-- What the callers guarantee. The SDK has checked that a signer's public key hashes to its
-- address; the wasm keeper has contract info only at contracts; the EVM sets code only at the
-- addresses it creates contracts at.
def Path.Valid (H : Hashes P) (C : Contracts) : Path P → Prop
  | .evmPreprocess .. => True
  | .evmAddress signers _ =>
    ∀ signer ∈ signers, ∀ pk, signer.pubKey = some pk → signer.address = H.pubkeyToSeiAddress pk
  | .associateContractAddress addr hasContractInfo => hasContractInfo = true → C.wasm addr
  | .setCode addr _ => C.evm addr
  | .selfDestruct _ => True

theorem associated_commitOr {v : View} (hv : Associated H C v) {r : Except String View}
    (h : ∀ v', r = .ok v' → Associated H C v') : Associated H C (commitOr v r) := by
  cases r with
  | error => exact hv
  | ok v' => exact h v' rfl

section Paths

variable (hA : CollisionFree H C)
include hA

theorem associated_evmPreprocessAnteHandle {v v' : View} (hv : Associated H C v) {pubKey : P}
    {isAssociateTx balancePositive : Bool} {keepers : Except String Unit}
    (h : evmPreprocessAnteHandle H v pubKey isAssociateTx balancePositive keepers = .ok v') :
    Associated H C v' := by
  rcases evmPreprocessAnteHandle_eq_ok h with rfl | ⟨hs, rfl⟩
  · exact hv
  · exact associated_setAddressMapping_of_getEVMAddressIn hA hv (.key pubKey) hs

theorem associated_evmAddressAnteHandle {v v' : View} (hv : Associated H C v)
    {signers : List (Signer P)} {isTxMsgAssociate : Bool}
    (hsigners : ∀ signer ∈ signers, ∀ pk, signer.pubKey = some pk →
      signer.address = H.pubkeyToSeiAddress pk)
    (h : evmAddressAnteHandle H v signers isTxMsgAssociate = .ok v') : Associated H C v' := by
  -- one signer at a time, each seeing the writes of those before it
  refine List.foldlM_except_induction (Associated H C) hv ?_ h
  intro w signer w' hmem hw hstep
  rcases evmAddressSigner_eq_ok hstep with rfl | ⟨pk, hpk, hs, rfl⟩
  · exact hw
  · have hkey : signer.address = H.pubkeyToSeiAddress pk := hsigners signer hmem pk hpk
    rw [hkey] at hs ⊢
    exact associated_setAddressMapping_of_getEVMAddressIn hA hw (.key pk) hs

theorem associated_associateContractAddress {v v' : View} (hv : Associated H C v)
    {addr : AccAddress} {hasContractInfo : Bool} (hc : hasContractInfo = true → C.wasm addr)
    (h : associateContractAddress v addr hasContractInfo = .ok v') : Associated H C v' := by
  obtain ⟨hinfo, hs, rfl⟩ := associateContractAddress_eq_ok h
  exact associated_setAddressMapping_of_getEVMAddressIn hA hv (.wasm (hc hinfo)) hs

theorem associated_setCode {v : View} (hv : Associated H C v) {addr : Address} (hc : C.evm addr)
    (code : Bytes) : Associated H C (setCode H v addr code) := by
  have hv' := associated_storeCode hv H addr code
  unfold setCode
  dsimp only
  cases he : getSeiAddressIn (storeCode H v addr code) addr with
  | some s => exact hv'
  | none =>
    -- with no association, the default Sei address is the cast one
    have hcast : getSeiAddressOrDefaultIn (storeCode H v addr code) addr = addr.bytes := by
      rw [getSeiAddressOrDefaultIn, he, Option.getD_none]
    rw [hcast]
    exact associated_setAddressMapping_of_getSeiAddressIn hA hv' (.evm hc) he

theorem associated_step {v : View} (hv : Associated H C v) {p : Path P} (hp : p.Valid H C) :
    Associated H C (step H v p) := by
  cases p with
  | evmPreprocess pubKey isAssociateTx balancePositive keepers =>
    exact associated_commitOr hv fun _ h => associated_evmPreprocessAnteHandle hA hv h
  | evmAddress signers isTxMsgAssociate =>
    exact associated_commitOr hv fun _ h => associated_evmAddressAnteHandle hA hv hp h
  | associateContractAddress addr hasContractInfo =>
    exact associated_commitOr hv fun _ h => associated_associateContractAddress hA hv hp h
  | setCode addr code => exact associated_setCode hA hv hp code
  | selfDestruct acc => exact associated_removeAssociationIn hv acc

theorem associated_run {v : View} (hv : Associated H C v) {paths : List (Path P)}
    (hpaths : ∀ p ∈ paths, p.Valid H C) : Associated H C (run H v paths) := by
  induction paths generalizing v with
  | nil => exact hv
  | cons p paths ih =>
    exact ih (associated_step hA hv (hpaths p List.mem_cons_self))
      fun q hq => hpaths q (List.mem_cons_of_mem p hq)

end Paths

theorem association_partial_bijection (H : Hashes P) (C : Contracts) (hA : CollisionFree H C)
    {v : View} (hv : Associated H C v) (paths : List (Path P))
    (hpaths : ∀ p ∈ paths, p.Valid H C) (s : AccAddress) (e : Address) :
    getSeiAddressIn (run H v paths) e = some s ↔ getEVMAddressIn (run H v paths) s = some e := by
  obtain ⟨a, hr⟩ := associated_run hA hv hpaths
  exact hr.agree s e

def oneKey : Hashes Unit := ⟨fun _ => [1], fun _ => bytesToAddress [2], fun _ => Hash.zero⟩

def noContracts : Contracts := ⟨fun _ => False, fun _ => False⟩

theorem collisionFree_oneKey : CollisionFree oneKey noContracts where
  sei_injective _ _ _ := rfl
  evm_injective _ _ _ := rfl
  sei_ne_wasm _ _ h := h.elim
  evm_ne_wasm _ _ h := h.elim
  sei_ne_evm _ _ h := h.elim
  evm_ne_evm _ _ h := h.elim
  wasm_injective _ _ h := h.elim
  wasm_evm _ _ h := h.elim

theorem association_partial_bijection_one_key :
    getSeiAddressIn (run oneKey (fun _ => none) [.evmPreprocess () false true (.ok ()),
        .selfDestruct (bytesToAddress [2]), .evmPreprocess () true true (.ok ())])
        (bytesToAddress [2]) = some [1] ↔
      getEVMAddressIn (run oneKey (fun _ => none) [.evmPreprocess () false true (.ok ()),
        .selfDestruct (bytesToAddress [2]), .evmPreprocess () true true (.ok ())]) [1] =
        some (bytesToAddress [2]) :=
  association_partial_bijection oneKey noContracts collisionFree_oneKey associated_empty _
    (by simp [Path.Valid]) [1] (bytesToAddress [2])

end SeiChain.Evm.Association
