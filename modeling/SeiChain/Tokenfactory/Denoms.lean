import Mathlib
import SeiChain.Common.Bytes
import SeiChain.Lib.List
import SeiChain.Lib.Fold

namespace SeiChain.Tokenfactory

def ascii (s : String) : List UInt8 := s.toList.map Char.toUInt8

def slash : UInt8 := 47

def moduleDenomPrefix : List UInt8 := ascii "factory"

def maxSubdenomLength : Nat := 44

def maxHrpLength : Nat := 16

def maxCreatorLength : Nat := 59 + maxHrpLength

-- The checks of the SDK: `sdk.ValidateDenom` and `sdk.AccAddressFromBech32`.
structure SdkChecks where
  validateDenom : List UInt8 → Except String Unit
  accAddressFromBech32 : List UInt8 → Except String AccAddress

-- `sdk.ValidateDenom` matches the whole denom against the pattern
-- `[a-zA-Z][a-zA-Z0-9/:._-]{2,127}`.
def isDenomLetter (b : UInt8) : Bool := (65 ≤ b && b ≤ 90) || (97 ≤ b && b ≤ 122)

def isDenomChar (b : UInt8) : Bool :=
  isDenomLetter b || (48 ≤ b && b ≤ 57) || (ascii "/:._-").contains b

def validateDenom (denom : List UInt8) : Except String Unit :=
  match denom with
  | b :: rest =>
    if isDenomLetter b && rest.all isDenomChar && 2 ≤ rest.length && rest.length ≤ 127 then .ok ()
    else .error "invalid denom"
  | [] => .error "invalid denom"

-- `GetTokenDenom`, with the messages of `ErrSubdenomTooLong`, `ErrCreatorTooLong` and
-- `ErrInvalidCreator`. The denom is returned with the error of `ValidateDenom`, which callers
-- take as the result.
def getTokenDenom (sdk : SdkChecks) (creator subdenom : List UInt8) : Except String (List UInt8) :=
  if subdenom.length > maxSubdenomLength then .error "subdenom too long, max length is 44 bytes"
  else if creator.length > maxCreatorLength then .error "creator too long, max length is 75 bytes"
  else if slash ∈ creator then .error "invalid creator"
  else
    let denom := [slash].intercalate [moduleDenomPrefix, creator, subdenom]
    (sdk.validateDenom denom).map fun () => denom

-- `DeconstructDenom`, up to the strings its messages print. At least three parts: the prefix,
-- the creator, and the rest, which is the subdenom.
def deconstructDenom (sdk : SdkChecks) (denom : List UInt8) :
    Except String (List UInt8 × List UInt8) := do
  sdk.validateDenom denom
  match denom.splitOn slash with
  | pre :: creator :: strParts =>
    match strParts with
    | [] => throw "not enough parts of denom: invalid denom"
    | part :: parts =>
      if pre ≠ moduleDenomPrefix then throw "denom prefix is incorrect: invalid denom"
      else
        match sdk.accAddressFromBech32 creator with
        | .error err => throw ("Invalid creator address (" ++ err ++ "): invalid denom")
        | .ok _ => pure (creator, [slash].intercalate (part :: parts))
  | _ => throw "not enough parts of denom: invalid denom"

-- `NewTokenFactoryDenomMintCoinsRestriction`: of a coin to mint it reads the denom only, so the
-- coins are given by their denoms, and the message by the string it prints.
def newTokenFactoryDenomMintCoinsRestriction (sdk : SdkChecks) (coinsToMint : List (List UInt8)) :
    Except String Unit :=
  forM coinsToMint fun denom =>
    match deconstructDenom sdk denom with
    | .error _ => throw "does not have permission to mint"
    | .ok _ => pure ()

theorem slash_not_mem_moduleDenomPrefix : slash ∉ moduleDenomPrefix := by
  decide

theorem intercalate_denom (creator subdenom : List UInt8) :
    [slash].intercalate [moduleDenomPrefix, creator, subdenom] =
      moduleDenomPrefix ++ slash :: (creator ++ slash :: subdenom) := by
  simp [List.intercalate]

theorem getTokenDenom_eq_ok {sdk : SdkChecks} {creator subdenom denom : List UInt8}
    (h : getTokenDenom sdk creator subdenom = .ok denom) :
    denom = moduleDenomPrefix ++ slash :: (creator ++ slash :: subdenom) ∧ slash ∉ creator ∧
      sdk.validateDenom denom = .ok () := by
  unfold getTokenDenom at h
  split_ifs at h with hsub hcreator hslash
  dsimp only at h
  cases hvalid : sdk.validateDenom ([slash].intercalate [moduleDenomPrefix, creator, subdenom]) with
  | error err =>
    rw [hvalid] at h
    cases h
  | ok u =>
    rw [hvalid] at h
    cases h
    refine ⟨intercalate_denom creator subdenom, hslash, hvalid⟩

theorem splitOn_denom {creator : List UInt8} (hcreator : slash ∉ creator) (subdenom : List UInt8) :
    (moduleDenomPrefix ++ slash :: (creator ++ slash :: subdenom)).splitOn slash =
      moduleDenomPrefix :: creator :: subdenom.splitOn slash := by
  rw [List.splitOn_append_cons_self_of_not_mem slash_not_mem_moduleDenomPrefix,
    List.splitOn_append_cons_self_of_not_mem hcreator]

theorem deconstructDenom_of_shape {sdk : SdkChecks} {creator subdenom : List UInt8}
    (hslash : slash ∉ creator)
    (hvalid : sdk.validateDenom (moduleDenomPrefix ++ slash :: (creator ++ slash :: subdenom)) = .ok ())
    (hbech32 : (sdk.accAddressFromBech32 creator).isOk) :
    deconstructDenom sdk (moduleDenomPrefix ++ slash :: (creator ++ slash :: subdenom)) =
      .ok (creator, subdenom) := by
  obtain ⟨addr, haddr⟩ : ∃ addr, sdk.accAddressFromBech32 creator = .ok addr := by
    cases hc : sdk.accAddressFromBech32 creator with
    | error err => rw [hc] at hbech32; cases hbech32
    | ok addr => exact ⟨addr, rfl⟩
  -- the subdenom splits into at least one part, which the join puts back together
  obtain ⟨part, parts, hparts⟩ := List.exists_cons_of_ne_nil (List.splitOn_ne_nil slash subdenom)
  have hjoin : [slash].intercalate (part :: parts) = subdenom := by
    rw [← hparts, List.intercalate_splitOn]
  unfold deconstructDenom
  simp only [hvalid, splitOn_denom hslash, hparts, haddr, ne_eq, not_true_eq_false, if_false,
    hjoin]
  rfl

theorem deconstructDenom_getTokenDenom {sdk : SdkChecks} {creator subdenom denom : List UInt8}
    (hbech32 : (sdk.accAddressFromBech32 creator).isOk)
    (h : getTokenDenom sdk creator subdenom = .ok denom) :
    deconstructDenom sdk denom = .ok (creator, subdenom) := by
  obtain ⟨rfl, hslash, hvalid⟩ := getTokenDenom_eq_ok h
  exact deconstructDenom_of_shape hslash hvalid hbech32

theorem getTokenDenom_injective {sdk : SdkChecks} {creator₁ subdenom₁ creator₂ subdenom₂ denom : List UInt8}
    (h₁ : getTokenDenom sdk creator₁ subdenom₁ = .ok denom)
    (h₂ : getTokenDenom sdk creator₂ subdenom₂ = .ok denom) :
    creator₁ = creator₂ ∧ subdenom₁ = subdenom₂ := by
  obtain ⟨hd₁, hslash₁, -⟩ := getTokenDenom_eq_ok h₁
  obtain ⟨hd₂, hslash₂, -⟩ := getTokenDenom_eq_ok h₂
  -- split, the denom gives back both creators and both subdenoms
  have hsplit := congrArg (List.splitOn slash) (hd₁.symm.trans hd₂)
  rw [splitOn_denom hslash₁, splitOn_denom hslash₂, List.cons.injEq, List.cons.injEq] at hsplit
  obtain ⟨-, hcreator, hparts⟩ := hsplit
  refine ⟨hcreator, ?_⟩
  calc subdenom₁ = [slash].intercalate (subdenom₁.splitOn slash) := (List.intercalate_splitOn slash).symm
    _ = [slash].intercalate (subdenom₂.splitOn slash) := by rw [hparts]
    _ = subdenom₂ := List.intercalate_splitOn slash

theorem token_denom_round_trip (sdk : SdkChecks) :
    (∀ creator subdenom denom, (sdk.accAddressFromBech32 creator).isOk →
      getTokenDenom sdk creator subdenom = .ok denom →
        deconstructDenom sdk denom = .ok (creator, subdenom)) ∧
    (∀ creator₁ subdenom₁ creator₂ subdenom₂ denom,
      getTokenDenom sdk creator₁ subdenom₁ = .ok denom →
        getTokenDenom sdk creator₂ subdenom₂ = .ok denom →
          creator₁ = creator₂ ∧ subdenom₁ = subdenom₂) := by
  constructor
  · intro creator subdenom denom hbech32 h
    exact deconstructDenom_getTokenDenom hbech32 h
  · intro creator₁ subdenom₁ creator₂ subdenom₂ denom h₁ h₂
    exact getTokenDenom_injective h₁ h₂

-- The creator of the repository's tests, and a stand-in for the bech32 decoder that reads only
-- the human-readable part `sei` and the separator `1`.
def testCreator : List UInt8 := ascii "sei1y3pxq5dp900czh0mkudhjdqjq5m8cpmmps8yjw"

def testChecks : SdkChecks :=
  ⟨validateDenom, fun a =>
    if (ascii "sei1").isPrefixOf a then .ok (a.drop 4) else .error "decoding bech32 failed"⟩

theorem token_denom_round_trip_of_slashes :
    getTokenDenom testChecks testCreator (ascii "/////") =
        .ok (ascii "factory/" ++ testCreator ++ ascii "//////") ∧
      deconstructDenom testChecks (ascii "factory/" ++ testCreator ++ ascii "//////") =
        .ok (testCreator, ascii "/////") := by
  have hget : getTokenDenom testChecks testCreator (ascii "/////") =
      .ok (ascii "factory/" ++ testCreator ++ ascii "//////") := by
    decide
  have hbech32 : (testChecks.accAddressFromBech32 testCreator).isOk := by
    decide
  exact ⟨hget, (token_denom_round_trip testChecks).1 _ _ _ hbech32 hget⟩

-- A denom `DeconstructDenom` accepts is the prefix, the creator it returns and the subdenom it
-- returns, with a slash after each of the first two; the creator has no slash, and both checks
-- of the SDK pass.
theorem deconstructDenom_eq_ok {sdk : SdkChecks} {denom creator subdenom : List UInt8}
    (h : deconstructDenom sdk denom = .ok (creator, subdenom)) :
    denom = moduleDenomPrefix ++ slash :: (creator ++ slash :: subdenom) ∧ slash ∉ creator ∧
      sdk.validateDenom denom = .ok () ∧ (sdk.accAddressFromBech32 creator).isOk := by
  unfold deconstructDenom at h
  cases hvalid : sdk.validateDenom denom with
  | error err =>
    rw [hvalid] at h
    cases h
  | ok u =>
    simp only [hvalid, bind, Except.bind] at h
    split at h
    next pre c strParts hparts =>
      split at h
      · cases h
      next part parts =>
        split_ifs at h with hpre
        split at h
        · cases h
        next addr haddr =>
          cases h
          rw [not_not] at hpre
          subst hpre
          -- the denom is its parts joined again, and the creator is one of them
          have hdenom : denom = [slash].intercalate (moduleDenomPrefix :: creator :: part :: parts) := by
            rw [← hparts, List.intercalate_splitOn]
          have hcreator : creator ∈ denom.splitOn slash := by
            rw [hparts]
            simp
          refine ⟨?_, List.not_mem_of_mem_splitOn hcreator, rfl, by rw [haddr]; rfl⟩
          rw [hdenom, List.intercalate_cons_cons, List.intercalate_cons_cons]
          simp
    · cases h

theorem newTokenFactoryDenomMintCoinsRestriction_eq_ok_iff {sdk : SdkChecks}
    {coinsToMint : List (List UInt8)} :
    newTokenFactoryDenomMintCoinsRestriction sdk coinsToMint = .ok () ↔
      ∀ denom ∈ coinsToMint, ∃ creator subdenom,
        deconstructDenom sdk denom = .ok (creator, subdenom) := by
  unfold newTokenFactoryDenomMintCoinsRestriction
  rw [List.forM_except_eq_ok_iff]
  refine forall₂_congr fun denom _ => ?_
  -- one coin: the step passes exactly when its denom deconstructs
  cases hd : deconstructDenom sdk denom with
  | error err =>
    simp only [reduceCtorEq, exists_const]
  | ok parts =>
    simp only [Except.ok.injEq]
    exact ⟨fun _ => ⟨parts.1, parts.2, rfl⟩, fun _ => rfl⟩

end SeiChain.Tokenfactory
