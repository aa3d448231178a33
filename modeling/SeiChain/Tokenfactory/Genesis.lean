import Mathlib
import SeiChain.Tokenfactory.Invariant

namespace SeiChain.Tokenfactory

variable {B : Type}

structure GenesisDenom where
  denom : List UInt8
  authorityMetadata : DenomAuthorityMetadata
  deriving DecidableEq

-- `GenesisState`, with the one field of `Params`, whose `Validate` only checks that it is a
-- `uint32`, as its type says.
structure GenesisState where
  denomAllowListMaxSize : Nat
  factoryDenoms : List GenesisDenom
  deriving DecidableEq

-- A Go string printed with `%s`: its bytes, each as a character.
def printBytes (bytes : List UInt8) : String :=
  String.ofList (bytes.map fun b => Char.ofNat b.toNat)

def validateGenesisDenom (sdk : Sdk) (denom : GenesisDenom) : Except String Unit := do
  let _ ← deconstructDenom sdk.toSdkChecks denom.denom
  if denom.authorityMetadata.admin ≠ [] then
    match sdk.accAddressFromBech32 denom.authorityMetadata.admin with
    | .error err => throw ("Invalid admin address (" ++ err ++ "): invalid authority metadata")
    | .ok _ => pure ()

-- `GenesisState.Validate`. The loop keeps the denoms seen; a denom counts as seen from the next
-- one on, which no check of its own can tell apart.
def GenesisState.validate (sdk : Sdk) (gs : GenesisState) : Except String Unit := do
  let _ ← gs.factoryDenoms.foldlM (fun seenDenoms denom => do
      if denom.denom ∈ seenDenoms then
        throw ("duplicate denom: " ++ printBytes denom.denom ++ ": invalid genesis")
      validateGenesisDenom sdk denom
      pure (denom.denom :: seenDenoms)) []
  pure ()

section Genesis

variable (sdk : Sdk) (bank : BankKeeper B)

def initGenesisDenom (s : State B) (genDenom : GenesisDenom) : Except String (State B) := do
  let (creator, _) ← deconstructDenom sdk.toSdkChecks genDenom.denom
  let s ← createDenomAfterValidation sdk bank s creator genDenom.denom
  setAuthorityMetadata sdk s genDenom.denom genDenom.authorityMetadata

-- `InitGenesis`: the parameters, then each denom. The module account is the bank's.
def initGenesis (s : State B) (genState : GenesisState) : Except String (State B) :=
  genState.factoryDenoms.foldlM (initGenesisDenom sdk bank)
    { s with denomAllowListMaxSize := genState.denomAllowListMaxSize }

def exportGenesis (s : State B) : GenesisState where
  denomAllowListMaxSize := s.denomAllowListMaxSize
  factoryDenoms := s.creators.map fun e => ⟨e.2, getAuthorityMetadata s e.2⟩

end Genesis

section Specs

variable {sdk : Sdk} {bank : BankKeeper B}

theorem validateGenesisDenom_eq_ok_iff {denom : GenesisDenom} :
    validateGenesisDenom sdk denom = .ok () ↔
      (∃ creator subdenom, deconstructDenom sdk.toSdkChecks denom.denom = .ok (creator, subdenom)) ∧
        denom.authorityMetadata.validate sdk = .ok () := by
  rw [DenomAuthorityMetadata.validate_eq_ok_iff]
  unfold validateGenesisDenom
  cases hd : deconstructDenom sdk.toSdkChecks denom.denom with
  | error err => simp
  | ok parts =>
    have hparts : ∃ creator subdenom, (Except.ok parts : Except String _) = .ok (creator, subdenom) :=
      ⟨parts.1, parts.2, rfl⟩
    simp only [Except.ok_bind, hparts, true_and]
    by_cases hadmin : denom.authorityMetadata.admin = []
    · rw [if_neg (not_not.2 hadmin)]
      exact iff_of_true rfl fun h => absurd hadmin h
    · rw [if_pos hadmin]
      -- the admin is checked as an address
      cases hb : sdk.accAddressFromBech32 denom.authorityMetadata.admin with
      | error err =>
        refine iff_of_false (fun h => ?_) fun h => ?_
        · cases h
        · simpa [hb, Except.isOk, Except.toBool] using h hadmin
      | ok addr => exact iff_of_true rfl fun _ => rfl

theorem GenesisState.validate_eq_ok_iff {gs : GenesisState} :
    gs.validate sdk = .ok () ↔ (gs.factoryDenoms.map GenesisDenom.denom).Nodup ∧
      ∀ denom ∈ gs.factoryDenoms, validateGenesisDenom sdk denom = .ok () := by
  have hloop := List.foldlM_seen_eq_ok_iff GenesisDenom.denom
    (fun denom => "duplicate denom: " ++ printBytes denom.denom ++ ": invalid genesis")
    (validateGenesisDenom sdk) gs.factoryDenoms []
  simp only [List.not_mem_nil, not_false_eq_true, true_and] at hloop
  rw [← hloop]
  unfold GenesisState.validate
  constructor
  · intro h
    obtain ⟨r, hr, -⟩ := Except.bind_eq_ok.1 h
    exact ⟨r, hr⟩
  · rintro ⟨r, hr⟩
    rw [hr]
    rfl

theorem initGenesisDenom_eq {s : State B} {genDenom : GenesisDenom} {creator subdenom : List UInt8}
    (hd : deconstructDenom sdk.toSdkChecks genDenom.denom = .ok (creator, subdenom)) :
    initGenesisDenom sdk bank s genDenom = (genDenom.authorityMetadata.validate sdk).map fun _ =>
      { s with
        bank := bank.setDenomMetaData s.bank (newDenomMetaData genDenom.denom)
        authority := Function.update s.authority genDenom.denom (some genDenom.authorityMetadata)
        creators := KVStore.set (creatorKey creator genDenom.denom) genDenom.denom s.creators } := by
  -- the creator deconstructed from a denom is an address, so its metadata passes
  have hcreator : (⟨creator⟩ : DenomAuthorityMetadata).validate sdk = .ok () :=
    DenomAuthorityMetadata.validate_eq_ok_iff.2 fun _ => (deconstructDenom_eq_ok hd).2.2.2
  unfold initGenesisDenom createDenomAfterValidation setAuthorityMetadata
  simp only [hd, Except.ok_bind, hcreator, addDenomFromCreator, pure_bind]
  cases genDenom.authorityMetadata.validate sdk with
  | error err => rfl
  | ok u =>
    simp only [Except.ok_bind, Except.map, Function.update_idem]
    rfl

end Specs

section RoundTrip

variable {sdk : Sdk} {bank : BankKeeper B}

-- A valid genesis loads into a store of other denoms' entries, adding its own with their authority
-- metadata and keeping every other denom's. The induction is on the denoms.
theorem foldlM_initGenesisDenom {l : List GenesisDenom} {s : State B}
    (hnodup : (l.map GenesisDenom.denom).Nodup)
    (hvalid : ∀ denom ∈ l, validateGenesisDenom sdk denom = .ok ())
    (hfresh : ∀ e ∈ s.creators, CreatorEntry sdk e ∧ e.2 ∉ l.map GenesisDenom.denom) :
    ∃ s', l.foldlM (initGenesisDenom sdk bank) s = .ok s' ∧
      s'.denomAllowListMaxSize = s.denomAllowListMaxSize ∧
      (s'.creators.map Prod.snd).Perm (l.map GenesisDenom.denom ++ s.creators.map Prod.snd) ∧
      (∀ denom ∈ l, s'.authority denom.denom = some denom.authorityMetadata) ∧
      ∀ d ∉ l.map GenesisDenom.denom, s'.authority d = s.authority d := by
  induction l generalizing s with
  | nil =>
    exact ⟨s, rfl, rfl, List.Perm.refl _, fun _ h => absurd h List.not_mem_nil, fun _ _ => rfl⟩
  | cons a l ih =>
    rw [List.map_cons, List.nodup_cons] at hnodup
    obtain ⟨⟨creator, subdenom, hd⟩, hadmin⟩ :=
      validateGenesisDenom_eq_ok_iff.1 (hvalid a List.mem_cons_self)
    -- the first denom is new to the store, so its entry is one more
    have hkey : creatorKey creator a.denom ∉ s.creators.map Prod.fst :=
      creatorKey_not_mem (fun e he => (hfresh e he).1) hd fun hmem => by
        obtain ⟨e, he, hea⟩ := List.mem_map.1 hmem
        exact (hfresh e he).2 (by rw [hea, List.map_cons]; exact List.mem_cons_self)
    let s₁ : State B := { s with
      bank := bank.setDenomMetaData s.bank (newDenomMetaData a.denom)
      authority := Function.update s.authority a.denom (some a.authorityMetadata)
      creators := KVStore.set (creatorKey creator a.denom) a.denom s.creators }
    have hstep : initGenesisDenom sdk bank s a = .ok s₁ := by
      rw [initGenesisDenom_eq hd, hadmin]
      rfl
    have hperm₁ : s₁.creators.Perm ((creatorKey creator a.denom, a.denom) :: s.creators) :=
      KVStore.set_perm_of_not_mem _ hkey
    have hfresh₁ : ∀ e ∈ s₁.creators, CreatorEntry sdk e ∧ e.2 ∉ l.map GenesisDenom.denom := by
      intro e he
      rcases List.mem_cons.1 (hperm₁.mem_iff.1 he) with rfl | he
      · exact ⟨creatorEntry_of_deconstructDenom hd, hnodup.1⟩
      · exact ⟨(hfresh e he).1, fun hmem => (hfresh e he).2 (List.mem_cons_of_mem _ hmem)⟩
    obtain ⟨s', hrun, hsize, hperm, hauthority, hframe⟩ :=
      ih hnodup.2 (fun denom hmem => hvalid denom (List.mem_cons_of_mem _ hmem)) hfresh₁
    refine ⟨s', by rw [List.foldlM_cons, hstep]; exact hrun, hsize, ?_, ?_, ?_⟩
    · calc List.Perm (s'.creators.map Prod.snd) (l.map GenesisDenom.denom ++ s₁.creators.map Prod.snd) :=
            hperm
        List.Perm _ (l.map GenesisDenom.denom ++ (a.denom :: s.creators.map Prod.snd)) :=
            (hperm₁.map Prod.snd).append_left _
        List.Perm _ (a.denom :: (l.map GenesisDenom.denom ++ s.creators.map Prod.snd)) :=
            List.perm_middle
    · intro denom hmem
      rcases List.mem_cons.1 hmem with rfl | hmem
      · rw [hframe denom.denom hnodup.1]
        exact Function.update_self _ _ _
      · exact hauthority denom hmem
    · intro d hd
      rw [List.map_cons, List.mem_cons, not_or] at hd
      rw [hframe d hd.2]
      exact Function.update_of_ne hd.1 _ _

theorem exportGenesis_initGenesis {genState : GenesisState} (hvalid : genState.validate sdk = .ok ())
    {s : State B} (hcreators : s.creators = []) :
    ∃ s', initGenesis sdk bank s genState = .ok s' ∧
      (exportGenesis s').denomAllowListMaxSize = genState.denomAllowListMaxSize ∧
      (exportGenesis s').factoryDenoms.Perm genState.factoryDenoms := by
  obtain ⟨hnodup, hdenoms⟩ := GenesisState.validate_eq_ok_iff.1 hvalid
  obtain ⟨s', hrun, hsize, hperm, hauthority, -⟩ :=
    @foldlM_initGenesisDenom B sdk bank genState.factoryDenoms
      { s with denomAllowListMaxSize := genState.denomAllowListMaxSize } hnodup hdenoms
      (by simp [hcreators])
  refine ⟨s', hrun, hsize, ?_⟩
  -- the export lists the denoms of the store, each with the metadata the genesis gave it
  have hexport : (exportGenesis s').factoryDenoms =
      (s'.creators.map Prod.snd).map fun d => ⟨d, getAuthorityMetadata s' d⟩ := by
    rw [List.map_map]
    rfl
  have hback : (genState.factoryDenoms.map GenesisDenom.denom).map
      (fun d => (⟨d, getAuthorityMetadata s' d⟩ : GenesisDenom)) = genState.factoryDenoms := by
    rw [List.map_map]
    conv => rhs; rw [← List.map_id genState.factoryDenoms]
    refine List.map_congr_left fun denom hmem => ?_
    simp [getAuthorityMetadata, hauthority denom hmem]
  rw [hexport, ← hback]
  rw [hcreators, List.map_nil, List.append_nil] at hperm
  exact hperm.map _

def oneDenomGenesis : GenesisState := ⟨2000, [⟨testDenom, ⟨testCreator⟩⟩]⟩

theorem export_of_init_one_denom :
    ∃ s', initGenesis testSdk supplyBank emptyState oneDenomGenesis = .ok s' ∧
      (exportGenesis s').denomAllowListMaxSize = oneDenomGenesis.denomAllowListMaxSize ∧
      (exportGenesis s').factoryDenoms.Perm oneDenomGenesis.factoryDenoms :=
  exportGenesis_initGenesis (by decide) rfl

end RoundTrip

section Reachable

variable {sdk : Sdk} {bank : BankKeeper B}

theorem initGenesisDenom_eq_ok {s s' : State B} {genDenom : GenesisDenom}
    (h : initGenesisDenom sdk bank s genDenom = .ok s') :
    ∃ creator subdenom s₁, deconstructDenom sdk.toSdkChecks genDenom.denom = .ok (creator, subdenom) ∧
      createDenomAfterValidation sdk bank s creator genDenom.denom = .ok s₁ ∧
      setAuthorityMetadata sdk s₁ genDenom.denom genDenom.authorityMetadata = .ok s' := by
  unfold initGenesisDenom at h
  obtain ⟨⟨creator, subdenom⟩, hd, h⟩ := Except.bind_eq_ok.1 h
  obtain ⟨s₁, hcreate, h⟩ := Except.bind_eq_ok.1 h
  exact ⟨creator, subdenom, s₁, hd, hcreate, h⟩

theorem State.WellFormed.initGenesis (hbank : bank.Lawful) {s s' : State B} {genState : GenesisState}
    (hwf : s.WellFormed sdk bank) (h : initGenesis sdk bank s genState = .ok s') :
    s'.WellFormed sdk bank := by
  have hwf₀ : State.WellFormed sdk bank { s with denomAllowListMaxSize := genState.denomAllowListMaxSize } :=
    hwf.of_bank rfl rfl fun _ hmeta => hmeta
  refine List.foldlM_except_induction (State.WellFormed sdk bank) hwf₀ (fun t genDenom t' _ ht hstep => ?_) h
  obtain ⟨creator, subdenom, t₁, hd, hcreate, hset⟩ := initGenesisDenom_eq_ok hstep
  -- the denom has authority metadata once its creator's entry is written
  have hindexed : (t₁.authority genDenom.denom).isSome := by
    obtain ⟨-, rfl⟩ := createDenomAfterValidation_eq_ok hcreate
    simp
  exact (ht.createDenomAfterValidation hbank hd hcreate).setAuthorityMetadata hindexed hset

theorem exportGenesis_validate {s : State B} (hwf : s.WellFormed sdk bank) :
    (exportGenesis s).validate sdk = .ok () := by
  rw [GenesisState.validate_eq_ok_iff]
  constructor
  · -- the keys are distinct and each is a function of its denom
    have hdenoms : (exportGenesis s).factoryDenoms.map GenesisDenom.denom = s.creators.map Prod.snd := by
      rw [exportGenesis, List.map_map]
      rfl
    rw [hdenoms]
    exact KVStore.nodup_values hwf.creators_nodup fun e he e' he' hdenom =>
      (hwf.creators_entry e he).key_eq (hwf.creators_entry e' he') hdenom
  · intro denom hmem
    obtain ⟨e, he, rfl⟩ := List.mem_map.1 hmem
    obtain ⟨creator, subdenom, hd, -⟩ := hwf.creators_entry e he
    refine validateGenesisDenom_eq_ok_iff.2 ⟨⟨creator, subdenom, hd⟩, ?_⟩
    -- a denom without authority metadata is exported with the empty admin, which passes
    cases ha : s.authority e.2 with
    | none =>
      simp only [getAuthorityMetadata, ha, Option.getD_none]
      exact DenomAuthorityMetadata.validate_eq_ok_iff.2 fun hne => absurd rfl hne
    | some metadata =>
      simp only [getAuthorityMetadata, ha, Option.getD_some]
      exact hwf.admin_valid e.2 metadata ha

-- Every state reached from a genesis, loaded into an empty store, keeps the invariant.
theorem reachable_wellFormed (hbank : bank.Lawful) (hempty : ¬(sdk.accAddressFromBech32 []).isOk)
    {s s' : State B} {genState : GenesisState} (hauthority : ∀ denom, s.authority denom = none)
    (hcreators : s.creators = []) (h : initGenesis sdk bank s genState = .ok s') (txs : List (List Msg)) :
    (runTxs sdk bank s' txs).WellFormed sdk bank :=
  runTxs_wellFormed hbank hempty ((State.WellFormed.of_empty hauthority hcreators).initGenesis hbank h) txs

theorem reachable_wellFormed_after_handover :
    ∃ s', initGenesis testSdk supplyBank emptyState oneDenomGenesis = .ok s' ∧
      (runTxs testSdk supplyBank s'
        [[.mint testCreator ⟨testDenom, 5⟩], [.changeAdmin testCreator testDenom otherAddress]]).WellFormed
          testSdk supplyBank := by
  obtain ⟨s', hs'⟩ := Except.exists_eq_ok_of_isOk
    (by decide : (initGenesis testSdk supplyBank emptyState oneDenomGenesis).isOk)
  exact ⟨s', hs', reachable_wellFormed supplyBank_lawful (by decide) (fun _ => rfl) rfl hs' _⟩

theorem exported_genesis_valid (hbank : bank.Lawful) (hempty : ¬(sdk.accAddressFromBech32 []).isOk)
    {s s' : State B} {genState : GenesisState} (hauthority : ∀ denom, s.authority denom = none)
    (hcreators : s.creators = []) (h : initGenesis sdk bank s genState = .ok s') (txs : List (List Msg)) :
    (exportGenesis (runTxs sdk bank s' txs)).validate sdk = .ok () :=
  exportGenesis_validate (runTxs_wellFormed hbank hempty
    ((State.WellFormed.of_empty hauthority hcreators).initGenesis hbank h) txs)

-- From the one-denom genesis, the run that mints the denom and hands its admin on.
theorem exported_genesis_valid_after_handover :
    ∃ s', initGenesis testSdk supplyBank emptyState oneDenomGenesis = .ok s' ∧
      (exportGenesis (runTxs testSdk supplyBank s'
        [[.mint testCreator ⟨testDenom, 5⟩], [.changeAdmin testCreator testDenom otherAddress]])).validate
          testSdk = .ok () := by
  obtain ⟨s', hs'⟩ := Except.exists_eq_ok_of_isOk
    (by decide : (initGenesis testSdk supplyBank emptyState oneDenomGenesis).isOk)
  exact ⟨s', hs', exported_genesis_valid supplyBank_lawful (by decide) (fun _ => rfl) rfl hs' _⟩

end Reachable

end SeiChain.Tokenfactory
