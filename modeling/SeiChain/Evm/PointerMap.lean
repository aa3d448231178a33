import SeiChain.Evm.Pointer
import SeiChain.Lib.Fold

namespace SeiChain.Evm.Pointer

theorem under_storeSet {s : EvmStore} {pref k : Bytes} (v : Bytes) (hk : pref.isPrefixOf k = false) :
    under (storeSet s k v) pref = under s pref := by
  unfold under storeSet
  rw [List.filter_cons_of_neg (by simp [hk]), List.filter_filter]
  congr 1
  apply List.filter_congr
  intro e _
  -- an entry under `pref` cannot have the key `k`, which is not under it
  by_cases he : pref.isPrefixOf e.1 = true
  · have hne : e.1 ≠ k := by
      rintro rfl
      rw [he] at hk
      cases hk
    simp [he, hne]
  · simp [he]

theorem under_storeDelete {s : EvmStore} {pref k : Bytes} (hk : pref.isPrefixOf k = false) :
    under (storeDelete s k) pref = under s pref := by
  unfold under storeDelete
  rw [List.filter_filter]
  congr 1
  apply List.filter_congr
  intro e _
  by_cases he : pref.isPrefixOf e.1 = true
  · have hne : e.1 ≠ k := by
      rintro rfl
      rw [he] at hk
      cases hk
    simp [he, hne]
  · simp [he]

theorem getPointerInfo_setPointerInfo {s : EvmStore} {pref key : Bytes} (addr : Bytes)
    {version : UInt16} (hk : pref.isPrefixOf (key ++ putUint16 version) = false) :
    getPointerInfo (setPointerInfo s key addr version) pref = getPointerInfo s pref := by
  rw [getPointerInfo, setPointerInfo, under_storeSet addr hk, getPointerInfo]

theorem getPointerInfo_deletePointerInfo {s : EvmStore} {pref key : Bytes} {version : UInt16}
    (hk : pref.isPrefixOf (key ++ putUint16 version) = false) :
    getPointerInfo (deletePointerInfo s key version) pref = getPointerInfo s pref := by
  rw [getPointerInfo, deletePointerInfo, under_storeDelete hk, getPointerInfo]

theorem setPointerWithVersion_eq {isPointer : Except String Bool}
    {key value reverseKey reverseValue : Bytes} {version : UInt16} {s s' : EvmStore}
    (h : setPointerWithVersion isPointer key value reverseKey reverseValue version s = .ok s') :
    s' = setPointerInfo (setPointerInfo s key value version) reverseKey reverseValue version := by
  unfold setPointerWithVersion at h
  cases hp : isPointer with
  | error e =>
    rw [hp] at h
    cases h
  | ok isPtr =>
    rw [hp] at h
    -- a pointee that is itself a pointer is refused
    cases isPtr
    · cases h
      rfl
    · cases h

theorem deletePointer_eq {α : Type} {get : Except String (Option (α × UInt16))} {key : Bytes}
    {reverseKey : α → Bytes} {version : UInt16} {s s' : EvmStore}
    (h : deletePointer get key reverseKey version s = .ok s') :
    s' = s ∨ ∃ addr, s' = deletePointerInfo (deletePointerInfo s key version) (reverseKey addr) version := by
  unfold deletePointer at h
  cases hg : get with
  | error e =>
    rw [hg] at h
    cases h
  | ok found =>
    rw [hg] at h
    rcases found with _ | ⟨addr, _⟩
    · cases h
      exact .inl rfl
    · cases h
      exact .inr ⟨addr, rfl⟩

theorem isPrefixOf_reverseKey {pref : Bytes} (hreg : pointerRegistryPrefix.isPrefixOf pref = true)
    (addr : Address) (t : Bytes) : pref.isPrefixOf (pointerReverseRegistryKey addr ++ t) = false := by
  obtain ⟨rest, rfl⟩ : ∃ rest, pref = 0x15 :: rest := by
    rcases pref with _ | ⟨b, rest⟩
    · simp [pointerRegistryPrefix] at hreg
    · have hb : 0x15 = b := by simpa [pointerRegistryPrefix] using hreg
      exact ⟨rest, by rw [← hb]⟩
  simp [pointerReverseRegistryKey, pointerReverseRegistryPrefix, List.isPrefixOf]

theorem getPointerInfo_setPointerWithVersion {isPointer : Except String Bool}
    {key value reverseKey reverseValue : Bytes} {version : UInt16} {s s' : EvmStore}
    (h : setPointerWithVersion isPointer key value reverseKey reverseValue version s = .ok s')
    {pref : Bytes} (hkey : pref.isPrefixOf (key ++ putUint16 version) = false)
    (hreverse : pref.isPrefixOf (reverseKey ++ putUint16 version) = false) :
    getPointerInfo s' pref = getPointerInfo s pref := by
  rw [setPointerWithVersion_eq h, getPointerInfo_setPointerInfo _ hreverse,
    getPointerInfo_setPointerInfo _ hkey]

theorem getPointerInfo_deletePointer {α : Type} {get : Except String (Option (α × UInt16))}
    {key : Bytes} {reverseKey : α → Bytes} {version : UInt16} {s s' : EvmStore}
    (h : deletePointer get key reverseKey version s = .ok s') {pref : Bytes}
    (hkey : pref.isPrefixOf (key ++ putUint16 version) = false)
    (hreverse : ∀ addr, pref.isPrefixOf (reverseKey addr ++ putUint16 version) = false) :
    getPointerInfo s' pref = getPointerInfo s pref := by
  rcases deletePointer_eq h with rfl | ⟨addr, rfl⟩
  · rfl
  · rw [getPointerInfo_deletePointerInfo (hreverse addr), getPointerInfo_deletePointerInfo hkey]

theorem getPointerInfo_step {s s' : EvmStore} {op : Op} (h : step s op = .ok s') {pref : Bytes}
    (hreg : pointerRegistryPrefix.isPrefixOf pref = true)
    (hop : pref.isPrefixOf (op.pointeeKey ++ putUint16 op.version) = false) :
    getPointerInfo s' pref = getPointerInfo s pref := by
  have hrev := isPrefixOf_reverseKey hreg
  cases op with
  | setCwPointer kind identifier addr version =>
    cases kind <;> exact getPointerInfo_setPointerWithVersion h hop (hrev _ _)
  | setEvmPointer kind identifier addr version =>
    cases kind <;> exact getPointerInfo_setPointerWithVersion h hop (hrev _ _)
  | deleteCwPointer kind identifier version =>
    cases kind <;> exact getPointerInfo_deletePointer h hop fun addr => hrev _ _
  | deleteEvmPointer kind identifier version =>
    cases kind <;> exact getPointerInfo_deletePointer h hop fun addr => hrev _ _

theorem getPointerInfo_run {s s' : EvmStore} {ops : List Op} (h : run s ops = .ok s') {pref : Bytes}
    (hreg : pointerRegistryPrefix.isPrefixOf pref = true)
    (hops : ∀ op ∈ ops, pref.isPrefixOf (op.pointeeKey ++ putUint16 op.version) = false) :
    getPointerInfo s' pref = getPointerInfo s pref :=
  List.foldlM_except_induction (fun t => getPointerInfo t pref = getPointerInfo s pref) rfl
    (fun _ op _ hmem hx hy => (getPointerInfo_step hy hreg (hops op hmem)).trans hx) h

theorem isPrefixOf_pointerKey_registry (kindByte : UInt8) (identifier : Bytes) :
    pointerRegistryPrefix.isPrefixOf (pointerKey kindByte identifier) = true := by
  simp [pointerKey, pointerRegistryPrefix, List.isPrefixOf]

theorem eq_of_isPrefixOf_append {l₁ l₂ t : Bytes} (h : l₁.isPrefixOf (l₂ ++ t) = true)
    (hlen : l₁.length = l₂.length) : l₁ = l₂ := by
  rw [List.isPrefixOf_iff_prefix] at h
  exact (List.prefix_of_prefix_length_le h (List.prefix_append l₂ t) (Nat.le_of_eq hlen)).eq_of_length hlen

theorem isPrefixOf_evmPointerKey (kind : EvmKind) (a : Address) (op : Op)
    (hop : op.pointeeKey ≠ pointerKey kind.kindByte a.bytes) :
    (pointerKey kind.kindByte a.bytes).isPrefixOf (op.pointeeKey ++ putUint16 op.version) = false := by
  cases op with
  | setEvmPointer kind' identifier _ _ =>
    -- both keys have the registry byte, a kind byte and twenty address bytes
    rw [Bool.eq_false_iff]
    intro h
    refine hop (eq_of_isPrefixOf_append h ?_).symm
    simp [Op.pointeeKey, pointerKey, a.length_bytes, identifier.length_bytes]
  | deleteEvmPointer kind' identifier _ =>
    rw [Bool.eq_false_iff]
    intro h
    refine hop (eq_of_isPrefixOf_append h ?_).symm
    simp [Op.pointeeKey, pointerKey, a.length_bytes, identifier.length_bytes]
  | setCwPointer kind' _ _ _ =>
    -- the kind bytes of the two families differ
    cases kind <;> cases kind' <;>
      simp [Op.pointeeKey, pointerKey, pointerRegistryPrefix, List.isPrefixOf, EvmKind.kindByte,
        CwKind.kindByte]
  | deleteCwPointer kind' _ _ =>
    cases kind <;> cases kind' <;>
      simp [Op.pointeeKey, pointerKey, pointerRegistryPrefix, List.isPrefixOf, EvmKind.kindByte,
        CwKind.kindByte]

-- Calls on other pointees never change the lookup of an EVM address's pointer.
theorem getPointerInfo_evmPointerKey_run {s s' : EvmStore} {ops : List Op} (h : run s ops = .ok s')
    (kind : EvmKind) (a : Address) (hops : ∀ op ∈ ops, op.pointeeKey ≠ pointerKey kind.kindByte a.bytes) :
    getPointerInfo s' (pointerKey kind.kindByte a.bytes) =
      getPointerInfo s (pointerKey kind.kindByte a.bytes) :=
  getPointerInfo_run h (isPrefixOf_pointerKey_registry _ _)
    fun op hop => isPrefixOf_evmPointerKey kind a op (hops op hop)

theorem pointers_leave_other_address :
    ∃ s', run [] [.setEvmPointer .cw20ERC20 (bytesToAddress [1]) [7] 1,
        .setEvmPointer .cw721ERC721 (bytesToAddress [2]) [8] 1] = .ok s' ∧
      (∀ op ∈ [Op.setEvmPointer .cw20ERC20 (bytesToAddress [1]) [7] 1,
        .setEvmPointer .cw721ERC721 (bytesToAddress [2]) [8] 1],
          op.pointeeKey ≠ pointerKey EvmKind.cw20ERC20.kindByte (bytesToAddress [2]).bytes) ∧
      getPointerInfo s' (pointerKey EvmKind.cw20ERC20.kindByte (bytesToAddress [2]).bytes) =
        getPointerInfo [] (pointerKey EvmKind.cw20ERC20.kindByte (bytesToAddress [2]).bytes) := by
  obtain ⟨s', hs'⟩ : ∃ s', run [] [.setEvmPointer .cw20ERC20 (bytesToAddress [1]) [7] 1,
      .setEvmPointer .cw721ERC721 (bytesToAddress [2]) [8] 1] = .ok s' := ⟨_, rfl⟩
  have hops : ∀ op ∈ [Op.setEvmPointer .cw20ERC20 (bytesToAddress [1]) [7] 1,
      .setEvmPointer .cw721ERC721 (bytesToAddress [2]) [8] 1],
        op.pointeeKey ≠ pointerKey EvmKind.cw20ERC20.kindByte (bytesToAddress [2]).bytes := by decide
  exact ⟨s', hs', hops, getPointerInfo_evmPointerKey_run hs' _ _ hops⟩

-- Denoms have any length, so the key `…uatom x 0 1` of `uatomx` lies in the prefix store of
-- `uatom`, after its own `…uatom 0 1`: `GetERC20NativePointer("uatom")` reads it, with the
-- version taken from the bytes `x 0`.
def uatom : Bytes := [0x75, 0x61, 0x74, 0x6f, 0x6d]

def uatomx : Bytes := uatom ++ [0x78]

example : bytesText uatom = "uatom" := by decide

theorem erc20NativePointer_shadowed_by_longer_denom (hex : Address → String) :
    (do
      let s₁ ← setERC20NativePointerWithVersion [] uatom (bytesToAddress [1]) 1
      let before ← getERC20NativePointer s₁ uatom
      let s₂ ← setERC20NativePointerWithVersion s₁ uatomx (bytesToAddress [2]) 1
      let after ← getERC20NativePointer s₂ uatom
      pure (before, after, sendPointerCheck hex s₂ uatom (bytesToAddress [1]),
        sendPointerCheck hex s₂ uatom (bytesToAddress [2]))) =
    (.ok (some (bytesToAddress [1], 1), some (bytesToAddress [2], 0x7800),
      .error ("only pointer " ++ hex (bytesToAddress [2]) ++ " can send " ++ bytesText uatom ++ " but got " ++
        hex (bytesToAddress [1])), .ok ()) : Except String _) := by
  rfl

end SeiChain.Evm.Pointer
