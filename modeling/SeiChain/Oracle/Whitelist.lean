import Mathlib
import SeiChain.Oracle.Tally

namespace SeiChain.Oracle

structure DenomUnit where
  denom : String
  exponent : Nat
  aliases : List String

-- The fields of `banktypes.Metadata` that `ApplyWhitelist` sets.
structure BankMetadata where
  description : String
  denomUnits : List DenomUnit
  base : String
  display : String
  name : String
  symbol : String

-- The metadata registered for a whitelisted denom: the display is the name without its first
-- character, in three units. `base[1:]` of an empty name panics.
def whitelistMetadata (base : String) : Option BankMetadata :=
  if base.toList = [] then none
  else
    let display := String.ofList (base.toList.drop 1)
    let nameSymbol := String.ofList (display.toList.map Char.toUpper)
    some
      { description := display
        denomUnits :=
          [⟨"u" ++ display, 0, ["micro" ++ display]⟩, ⟨"m" ++ display, 3, ["milli" ++ display]⟩, ⟨display, 6, []⟩]
        base := base
        display := display
        name := nameSymbol
        symbol := nameSymbol }

-- `SetVoteTarget`, in the store of vote targets kept as its keys in order.
def setVoteTarget (voteTargets : List String) (denom : String) : List String :=
  if denom ∈ voteTargets then voteTargets else voteTargets.orderedInsert (· ≤ ·) denom

def applyWhitelistItem (acc : List String × (String → Option BankMetadata)) (name : String) :
    Option (List String × (String → Option BankMetadata)) :=
  let voteTargets := setVoteTarget acc.1 name
  match acc.2 name with
  | some _ => some (voteTargets, acc.2)
  | none => (whitelistMetadata name).map fun metadata => (voteTargets, Function.update acc.2 name (some metadata))

-- `ApplyWhitelist` on the vote targets and the bank's metadata; `none` is a panic.
def applyWhitelist (whitelist voteTargets : List String) (metadata : String → Option BankMetadata) :
    Option (List String × (String → Option BankMetadata)) :=
  let updateRequired := voteTargets.length ≠ whitelist.length ∨ whitelist.any (· ∉ voteTargets)
  if updateRequired then whitelist.foldlM applyWhitelistItem ([], metadata)
  else some (voteTargets, metadata)

theorem mem_setVoteTarget {voteTargets : List String} {denom d : String} :
    d ∈ setVoteTarget voteTargets denom ↔ d = denom ∨ d ∈ voteTargets := by
  unfold setVoteTarget
  split_ifs with hmem
  · constructor
    · exact Or.inr
    · rintro (rfl | hd)
      · exact hmem
      · exact hd
  · exact List.mem_orderedInsert _

theorem nodup_setVoteTarget {voteTargets : List String} (h : voteTargets.Nodup) (denom : String) :
    (setVoteTarget voteTargets denom).Nodup := by
  unfold setVoteTarget
  split_ifs with hmem
  · exact h
  · exact (List.perm_orderedInsert _ denom voteTargets).nodup_iff.2 (List.nodup_cons.2 ⟨hmem, h⟩)

theorem whitelistMetadata_isSome {base : String} (h : base ≠ "") : (whitelistMetadata base).isSome := by
  have hne : base.toList ≠ [] := fun hnil => h (String.toList_eq_nil_iff.1 hnil)
  simp [whitelistMetadata, hne]

theorem applyWhitelistItem_eq_some (acc : List String × (String → Option BankMetadata)) {name : String}
    (hname : name ≠ "") :
    ∃ metadata', applyWhitelistItem acc name = some (setVoteTarget acc.1 name, metadata') ∧
      (metadata' name).isSome ∧ ∀ d, (acc.2 d).isSome → metadata' d = acc.2 d := by
  unfold applyWhitelistItem
  cases hold : acc.2 name with
  | some m =>
    exact ⟨acc.2, rfl, by simp [hold], fun _ _ => rfl⟩
  | none =>
    obtain ⟨metadata, hmetadata⟩ := Option.isSome_iff_exists.1 (whitelistMetadata_isSome hname)
    refine ⟨Function.update acc.2 name (some metadata), by simp [hmetadata], by simp, ?_⟩
    intro d hd
    have hne : d ≠ name := fun he => by simp [he, hold] at hd
    exact Function.update_of_ne hne _ _

-- The loop over a whitelist of names: the vote targets gain the names, each has metadata, and no
-- metadata that was there changes. The induction is on the whitelist.
theorem foldlM_applyWhitelistItem {whitelist : List String} (hnames : ∀ name ∈ whitelist, name ≠ "")
    (acc : List String × (String → Option BankMetadata)) :
    ∃ acc', whitelist.foldlM applyWhitelistItem acc = some acc' ∧
      (∀ d, d ∈ acc'.1 ↔ d ∈ whitelist ∨ d ∈ acc.1) ∧ (acc.1.Nodup → acc'.1.Nodup) ∧
      (∀ name ∈ whitelist, (acc'.2 name).isSome) ∧ ∀ d, (acc.2 d).isSome → acc'.2 d = acc.2 d := by
  induction whitelist generalizing acc with
  | nil => exact ⟨acc, rfl, by simp, id, by simp, fun _ _ => rfl⟩
  | cons name rest ih =>
    obtain ⟨metadata', hstep, hname, hkeep⟩ :=
      applyWhitelistItem_eq_some acc (hnames name List.mem_cons_self)
    obtain ⟨acc', hrun, hmem, hnodup, hall, hkeep'⟩ :=
      ih (fun n hn => hnames n (List.mem_cons_of_mem _ hn)) (setVoteTarget acc.1 name, metadata')
    dsimp only at hmem hnodup hkeep'
    refine ⟨acc', ?_, ?_, fun h => hnodup (nodup_setVoteTarget h name), ?_, ?_⟩
    · rw [List.foldlM_cons, hstep]
      exact hrun
    · intro d
      rw [hmem, mem_setVoteTarget, List.mem_cons]
      tauto
    · intro n hn
      rcases List.mem_cons.1 hn with rfl | hn
      · rw [hkeep' n hname]
        exact hname
      · exact hall n hn
    · intro d hd
      rw [hkeep' d (by rw [hkeep d hd]; exact hd), hkeep d hd]

-- On distinct, non-empty names the targets become exactly the whitelist, existing metadata stays,
-- and an update of the targets registers metadata for every whitelisted denom.
theorem applyWhitelist_eq {whitelist voteTargets : List String} (hwhitelist : whitelist.Nodup)
    (hnames : ∀ name ∈ whitelist, name ≠ "") (htargets : voteTargets.Nodup)
    (metadata : String → Option BankMetadata) :
    ∃ voteTargets' metadata', applyWhitelist whitelist voteTargets metadata = some (voteTargets', metadata') ∧
      voteTargets'.Nodup ∧ (∀ d, d ∈ voteTargets' ↔ d ∈ whitelist) ∧
      (∀ d, (metadata d).isSome → metadata' d = metadata d) ∧
      ((voteTargets' = voteTargets ∧ metadata' = metadata) ∨ ∀ name ∈ whitelist, (metadata' name).isSome) := by
  dsimp only [applyWhitelist]
  split_ifs with hupdate
  · obtain ⟨acc', hrun, hmem, hnodup, hall, hkeep⟩ := foldlM_applyWhitelistItem hnames ([], metadata)
    refine ⟨acc'.1, acc'.2, hrun, hnodup List.nodup_nil, fun d => by simp [hmem], hkeep, .inr hall⟩
  · -- same count and every whitelisted name a target: the two lists are permutations
    simp only [not_or, not_not, List.any_eq_true, decide_eq_true_eq, not_exists, not_and, not_not] at hupdate
    obtain ⟨hlength, hlisted⟩ := hupdate
    have hperm : whitelist.Perm voteTargets :=
      (hwhitelist.subperm fun name hname => hlisted name hname).perm_of_length_le hlength.le
    exact ⟨voteTargets, metadata, rfl, htargets, fun d => hperm.mem_iff.symm, fun _ _ => rfl, .inl ⟨rfl, rfl⟩⟩

theorem apply_whitelist_two_denoms :
    ∃ voteTargets' metadata', applyWhitelist ["uatom", "ueth"] ["uatom"] (fun _ => none) =
        some (voteTargets', metadata') ∧
      voteTargets'.Nodup ∧ (∀ d, d ∈ voteTargets' ↔ d ∈ ["uatom", "ueth"]) ∧
      (∀ d, ((fun _ => none : String → Option BankMetadata) d).isSome → metadata' d = none) ∧
      ((voteTargets' = ["uatom"] ∧ metadata' = fun _ => none) ∨
        ∀ name ∈ ["uatom", "ueth"], (metadata' name).isSome) :=
  @applyWhitelist_eq ["uatom", "ueth"] ["uatom"] (by decide) (by decide) (by decide) _

-- With a repeated name the test for a change misses one: vote targets with the whitelist's count
-- and every whitelisted name are kept, and among them is a denom the whitelist does not list.
theorem applyWhitelist_keeps_unlisted_target {whitelist voteTargets : List String}
    (hrepeat : ¬whitelist.Nodup) (htargets : voteTargets.Nodup) (hlength : voteTargets.length = whitelist.length)
    (hlisted : ∀ name ∈ whitelist, name ∈ voteTargets) (metadata : String → Option BankMetadata) :
    applyWhitelist whitelist voteTargets metadata = some (voteTargets, metadata) ∧
      ∃ d ∈ voteTargets, d ∉ whitelist := by
  have hkept : applyWhitelist whitelist voteTargets metadata = some (voteTargets, metadata) := by
    dsimp only [applyWhitelist]
    rw [if_neg]
    simp only [not_or, not_not, List.any_eq_true, decide_eq_true_eq, not_exists, not_and, not_not]
    exact ⟨hlength, hlisted⟩
  refine ⟨hkept, ?_⟩
  by_contra hall
  simp only [not_exists, not_and, not_not] at hall
  -- the distinct whitelisted names are fewer than the names, and hold every vote target
  have hfewer : whitelist.dedup.length < whitelist.length := by
    apply lt_of_le_of_ne (List.dedup_sublist whitelist).length_le
    intro heq
    exact hrepeat ((List.dedup_sublist whitelist).eq_of_length heq ▸ List.nodup_dedup whitelist)
  have hle : voteTargets.length ≤ whitelist.dedup.length :=
    htargets.length_le_of_subset fun d hd => List.mem_dedup.2 (hall d hd)
  omega

theorem apply_whitelist_repeated_atom :
    applyWhitelist ["uatom", "uatom"] ["uatom", "ueth"] (fun _ => none) = some (["uatom", "ueth"], fun _ => none) ∧
      ∃ d ∈ ["uatom", "ueth"], d ∉ ["uatom", "uatom"] :=
  @applyWhitelist_keeps_unlisted_target ["uatom", "uatom"] ["uatom", "ueth"] (by decide) (by decide) rfl
    (by decide) _

end SeiChain.Oracle
