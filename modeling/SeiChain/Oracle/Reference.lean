import Mathlib
import SeiChain.Oracle.Tally

namespace SeiChain.Oracle

variable {V : Type}

section Spec

variable (targets : List String) (thresholdVotes : Int)

def Passes (entry : String × ExchangeRateBallot V) : Bool :=
  decide (entry.1 ∈ targets) && (ballotIsPassing entry.2 thresholdVotes).2

def Fails (entry : String × ExchangeRateBallot V) : Bool :=
  decide (entry.1 ∈ targets) && !(ballotIsPassing entry.2 thresholdVotes).2

-- The denom leads the ballots seen with the given power: the least denom of largest power
-- among the passing ones, or `""` with power 0 when none passes.
def Leads (seen : List (String × ExchangeRateBallot V)) (denom : String) (power : Int) : Prop :=
  (denom = "" ∧ power = 0 ∧ ∀ e ∈ seen, Passes targets thresholdVotes e = false) ∨
  (power ≠ 0 ∧ ∃ ballot, (denom, ballot) ∈ seen ∧ Passes targets thresholdVotes (denom, ballot) ∧
    ballot.power = power ∧ ∀ e ∈ seen, Passes targets thresholdVotes e = true →
      e.2.power < power ∨ (e.2.power = power ∧ denom ≤ e.1))

def IsReferenceDenom (voteMap : List (String × ExchangeRateBallot V)) (denom : String) : Prop :=
  ∃ power, Leads targets thresholdVotes voteMap denom power

theorem IsReferenceDenom.unique {voteMap : List (String × ExchangeRateBallot V)} {d d' : String}
    (h : IsReferenceDenom targets thresholdVotes voteMap d)
    (h' : IsReferenceDenom targets thresholdVotes voteMap d') : d = d' := by
  obtain ⟨p, ⟨rfl, -, hnone⟩ | ⟨-, b, hb, hpass, rfl, hbest⟩⟩ := h <;>
    obtain ⟨p', ⟨rfl, -, hnone'⟩ | ⟨-, b', hb', hpass', rfl, hbest'⟩⟩ := h'
  · rfl
  · exact absurd (hnone _ hb') (by simp [hpass'])
  · exact absurd (hnone' _ hb) (by simp [hpass])
  · -- each leads the other: equal powers, and each denom is at most the other
    rcases hbest _ hb' hpass' with hlt | ⟨heq, hle⟩
    · rcases hbest' _ hb hpass with hlt' | ⟨heq', -⟩
      · exact absurd (hlt.trans hlt') (lt_irrefl _)
      · exact absurd hlt (by simp [heq'])
    · rcases hbest' _ hb hpass with hlt' | ⟨-, hle'⟩
      · exact absurd hlt' (by simp [heq])
      · exact le_antisymm hle hle'

theorem IsReferenceDenom.of_perm {voteMap voteMap' : List (String × ExchangeRateBallot V)}
    (hperm : voteMap.Perm voteMap') {d : String}
    (h : IsReferenceDenom targets thresholdVotes voteMap d) :
    IsReferenceDenom targets thresholdVotes voteMap' d := by
  obtain ⟨p, ⟨hd, hp, hnone⟩ | ⟨hp, b, hb, hpass, hpow, hbest⟩⟩ := h
  · exact ⟨p, .inl ⟨hd, hp, fun e he => hnone e (hperm.mem_iff.2 he)⟩⟩
  · exact ⟨p, .inr ⟨hp, b, hperm.mem_iff.1 hb, hpass, hpow,
      fun e he => hbest e (hperm.mem_iff.2 he)⟩⟩

end Spec

section Loop

variable {targets : List String} {thresholdVotes : Int}

-- What the loop keeps after a prefix of the vote map: the denom that leads it, with its
-- power, and the ballots of the prefix that pass and fail, in order.
structure PickInv (targets : List String) (thresholdVotes : Int)
    (seen : List (String × ExchangeRateBallot V)) (st : Pick V) : Prop where
  leads : Leads targets thresholdVotes seen st.referenceDenom st.largestBallotPower
  passing : st.passing = seen.filter (Passes targets thresholdVotes)
  below : st.belowThreshold = seen.filter (Fails targets thresholdVotes)

theorem pickInv_nil : PickInv targets thresholdVotes [] (⟨"", 0, [], []⟩ : Pick V) :=
  ⟨.inl ⟨rfl, rfl, fun _ he => absurd he List.not_mem_nil⟩, rfl, rfl⟩

theorem Leads.append_not_passes {seen : List (String × ExchangeRateBallot V)} {d : String} {p : Int}
    (h : Leads targets thresholdVotes seen d p) {e : String × ExchangeRateBallot V}
    (he : Passes targets thresholdVotes e = false) :
    Leads targets thresholdVotes (seen ++ [e]) d p := by
  rcases h with ⟨hd, hp, hnone⟩ | ⟨hp, b, hb, hpass, hpow, hbest⟩
  · refine .inl ⟨hd, hp, fun e' he' => ?_⟩
    rcases List.mem_append.1 he' with he' | he'
    · exact hnone e' he'
    · rw [List.mem_singleton.1 he']
      exact he
  · refine .inr ⟨hp, b, List.mem_append_left _ hb, hpass, hpow, fun e' he' hpass' => ?_⟩
    rcases List.mem_append.1 he' with he' | he'
    · exact hbest e' he' hpass'
    · rw [List.mem_singleton.1 he'] at hpass'
      simp [he] at hpass'

theorem Leads.append_new_leader {seen : List (String × ExchangeRateBallot V)}
    {e : String × ExchangeRateBallot V} (he : Passes targets thresholdVotes e = true)
    (hp : e.2.power ≠ 0)
    (hbelow : ∀ e' ∈ seen, Passes targets thresholdVotes e' = true →
      e'.2.power < e.2.power ∨ (e'.2.power = e.2.power ∧ e.1 ≤ e'.1)) :
    Leads targets thresholdVotes (seen ++ [e]) e.1 e.2.power := by
  refine .inr ⟨hp, e.2, List.mem_append_right _ (List.mem_singleton_self _), he, rfl,
    fun e' he' hpass' => ?_⟩
  rcases List.mem_append.1 he' with he' | he'
  · exact hbelow e' he' hpass'
  · rw [List.mem_singleton.1 he']
    exact .inr ⟨rfl, le_rfl⟩

theorem Leads.append_stays {seen : List (String × ExchangeRateBallot V)} {d : String} {p : Int}
    (h : Leads targets thresholdVotes seen d p) (hp : p ≠ 0) {e : String × ExchangeRateBallot V}
    (he : e.2.power < p ∨ (e.2.power = p ∧ d ≤ e.1)) :
    Leads targets thresholdVotes (seen ++ [e]) d p := by
  rcases h with ⟨-, hzero, -⟩ | ⟨-, b, hb, hpassb, hpow, hbest⟩
  · exact absurd hzero hp
  · refine .inr ⟨hp, b, List.mem_append_left _ hb, hpassb, hpow, fun e' he' hpass' => ?_⟩
    rcases List.mem_append.1 he' with he' | he'
    · exact hbest e' he' hpass'
    · rw [List.mem_singleton.1 he']
      exact he

theorem PickInv.step {seen : List (String × ExchangeRateBallot V)} {st : Pick V}
    (h : PickInv targets thresholdVotes seen st) (e : String × ExchangeRateBallot V) :
    PickInv targets thresholdVotes (seen ++ [e]) (pickStep targets thresholdVotes st e) := by
  obtain ⟨hleads, hpassing, hbelow⟩ := h
  unfold pickStep
  by_cases htarget : e.1 ∈ targets
  · have hpasses : Passes targets thresholdVotes e = (ballotIsPassing e.2 thresholdVotes).2 := by
      simp [Passes, htarget]
    have hfails : Fails targets thresholdVotes e = !(ballotIsPassing e.2 thresholdVotes).2 := by
      simp [Fails, htarget]
    rw [if_neg (not_not.2 htarget)]
    dsimp only
    by_cases hok : (ballotIsPassing e.2 thresholdVotes).2 = true
    · -- a passing ballot: kept, and it may take the lead
      have hpass : Passes targets thresholdVotes e = true := hpasses.trans hok
      have hfail : Fails targets thresholdVotes e = false := by simp [hfails, hok]
      have hnz : e.2.power ≠ 0 := by
        simp only [ballotIsPassing, Bool.and_eq_true, bne_iff_ne, ne_eq] at hok
        exact hok.1
      have hpower : (ballotIsPassing e.2 thresholdVotes).1 = e.2.power := rfl
      rw [hpower, if_neg (by simp [hok])]
      have hpassing' : st.passing ++ [e] = (seen ++ [e]).filter (Passes targets thresholdVotes) := by
        simp [hpassing, List.filter_append, hpass]
      have hbelow' : st.belowThreshold = (seen ++ [e]).filter (Fails targets thresholdVotes) := by
        simp [hbelow, List.filter_append, hfail]
      split_ifs with hlead htie
      · -- a larger power, or the first passing ballot
        refine ⟨Leads.append_new_leader hpass hnz fun e' he' hpass' => ?_, hpassing', hbelow'⟩
        rcases hleads with ⟨-, -, hnone⟩ | ⟨hp, b, -, -, -, hbest⟩
        · simp [hnone e' he'] at hpass'
        · rcases hlead with hlt | hzero
          · rcases hbest e' he' hpass' with hlt' | ⟨heq, -⟩
            · exact .inl (hlt'.trans hlt)
            · exact .inl (heq ▸ hlt)
          · exact absurd hzero hp
      · -- the same power and a lesser denom
        obtain ⟨heq, hlt⟩ := htie
        refine ⟨?_, hpassing', hbelow'⟩
        show Leads targets thresholdVotes (seen ++ [e]) e.1 st.largestBallotPower
        rw [heq]
        refine Leads.append_new_leader hpass hnz fun e' he' hpass' => ?_
        rcases hleads with ⟨-, hzero, -⟩ | ⟨-, b, -, -, -, hbest⟩
        · exact absurd (Or.inr hzero) hlead
        · rcases hbest e' he' hpass' with hlt' | ⟨heq', hle⟩
          · exact .inl (heq ▸ hlt')
          · exact .inr ⟨heq'.trans heq, le_of_lt (lt_of_lt_of_le hlt hle)⟩
      · -- the leader stays: this ballot has less power, or ties with a denom not below
        have hle : e.2.power ≤ st.largestBallotPower := not_lt.1 (not_or.1 hlead).1
        refine ⟨hleads.append_stays (not_or.1 hlead).2 ?_, hpassing', hbelow'⟩
        rcases lt_or_eq_of_le hle with hlt | heq
        · exact .inl hlt
        · exact .inr ⟨heq, not_lt.1 fun hlt => htie ⟨heq.symm, hlt⟩⟩
    · -- a ballot below the threshold: set aside
      have hpass : Passes targets thresholdVotes e = false := by simp [hpasses, hok]
      have hfail : Fails targets thresholdVotes e = true := by simp [hfails, hok]
      rw [if_pos (by simpa using hok)]
      exact ⟨hleads.append_not_passes hpass, by simp [hpassing, List.filter_append, hpass],
        by simp [hbelow, List.filter_append, hfail]⟩
  · -- not a target: skipped
    have hpass : Passes targets thresholdVotes e = false := by simp [Passes, htarget]
    have hfail : Fails targets thresholdVotes e = false := by simp [Fails, htarget]
    rw [if_pos htarget]
    exact ⟨hleads.append_not_passes hpass, by simp [hpassing, List.filter_append, hpass],
      by simp [hbelow, List.filter_append, hfail]⟩

-- The whole loop, by induction on the part of the vote map still to come.
theorem PickInv.foldl {seen : List (String × ExchangeRateBallot V)} {st : Pick V}
    (h : PickInv targets thresholdVotes seen st) (rest : List (String × ExchangeRateBallot V)) :
    PickInv targets thresholdVotes (seen ++ rest) (rest.foldl (pickStep targets thresholdVotes) st) := by
  induction rest generalizing seen st with
  | nil => simpa using h
  | cons e rest ih =>
    rw [List.foldl_cons, ← List.singleton_append, ← List.append_assoc]
    exact ih (h.step e)

theorem pickInv_pickReferenceDenom (voteMap : List (String × ExchangeRateBallot V)) :
    PickInv targets thresholdVotes voteMap (pickReferenceDenom targets voteMap thresholdVotes) := by
  unfold pickReferenceDenom
  simpa using (pickInv_nil (V := V)).foldl voteMap

theorem foldl_pickVoteTargets (htargets : targets.Nodup) :
    ∀ (seen rest : List (String × ExchangeRateBallot V)), ((seen ++ rest).map Prod.fst).Nodup →
      (rest.foldl
        (fun targets' entry =>
          if entry.1 ∈ targets' ∧ !(ballotIsPassing entry.2 thresholdVotes).2 then targets'.erase entry.1
          else targets')
        (targets.filter fun d => !(seen.any fun e => e.1 == d && Fails targets thresholdVotes e))) =
      targets.filter fun d => !((seen ++ rest).any fun e => e.1 == d && Fails targets thresholdVotes e) := by
  intro seen rest hkeys
  induction rest generalizing seen with
  | nil => simp
  | cons e rest ih =>
    rw [List.foldl_cons, ← List.singleton_append, ← List.append_assoc] at *
    rw [← ih (seen ++ [e]) hkeys]
    congr 1
    -- the denom of the new ballot is not that of an earlier one
    have hfresh : ∀ e' ∈ seen, e'.1 ≠ e.1 := by
      intro e' he' heq
      have hnodup : ((seen ++ [e]).map Prod.fst).Nodup :=
        (List.map_append .. ▸ hkeys).sublist (by simp)
      rw [List.map_append, List.nodup_append] at hnodup
      exact hnodup.2.2 _ (List.mem_map_of_mem he') _ (by simp) heq
    by_cases hfail : Fails targets thresholdVotes e = true
    · -- a failing ballot of a target: its denom is still there, and is deleted
      have hfail' : e.1 ∈ targets ∧ (ballotIsPassing e.2 thresholdVotes).2 = false := by
        simpa [Fails] using hfail
      obtain ⟨htarget, hok⟩ := hfail'
      have hmem : e.1 ∈ targets.filter fun d => !(seen.any fun e' => e'.1 == d && Fails targets thresholdVotes e') := by
        refine List.mem_filter.2 ⟨htarget, ?_⟩
        simp only [Bool.not_eq_true', List.any_eq_false, Bool.and_eq_true, beq_iff_eq, not_and]
        exact fun e' he' heq => absurd heq (hfresh e' he')
      rw [if_pos ⟨hmem, by simp [hok]⟩, (htargets.filter _).erase_eq_filter, List.filter_filter]
      congr 1
      funext d
      by_cases hd : e.1 = d
      · subst hd
        simp [List.any_append, hfail]
      · have hne : (d != e.1) = true := bne_iff_ne.2 (Ne.symm hd)
        have hneq : (e.1 == d) = false := beq_eq_false_iff_ne.2 hd
        simp [List.any_append, hne, hneq]
    · -- otherwise nothing is deleted: the denom is not a target, or the ballot passes
      rw [Bool.not_eq_true] at hfail
      rw [if_neg]
      · congr 1
        funext d
        simp [List.any_append, hfail]
      · rintro ⟨hmem, hok⟩
        have htarget : e.1 ∈ targets := (List.mem_filter.1 hmem).1
        simp [Fails, htarget, hok] at hfail

theorem pickVoteTargets_eq (htargets : targets.Nodup) (voteMap : List (String × ExchangeRateBallot V))
    (hkeys : (voteMap.map Prod.fst).Nodup) :
    pickVoteTargets targets voteMap thresholdVotes =
      targets.filter fun d => !(voteMap.any fun e => e.1 == d && Fails targets thresholdVotes e) := by
  have h := @foldl_pickVoteTargets V targets thresholdVotes htargets [] voteMap hkeys
  simp only [List.any_nil, Bool.not_false, List.filter_true, List.nil_append] at h
  exact h

end Loop

theorem pick_reference_denom_order_free (targets : List String)
    (voteMap : List (String × ExchangeRateBallot V)) (thresholdVotes : Int) (htargets : targets.Nodup)
    (hkeys : (voteMap.map Prod.fst).Nodup) :
    IsReferenceDenom targets thresholdVotes voteMap
        (pickReferenceDenom targets voteMap thresholdVotes).referenceDenom ∧
      (pickReferenceDenom targets voteMap thresholdVotes).passing =
        voteMap.filter (Passes targets thresholdVotes) ∧
      (pickReferenceDenom targets voteMap thresholdVotes).belowThreshold =
        voteMap.filter (Fails targets thresholdVotes) ∧
      pickVoteTargets targets voteMap thresholdVotes =
        targets.filter (fun d => !(voteMap.any fun e => e.1 == d && Fails targets thresholdVotes e)) ∧
      ∀ voteMap' : List (String × ExchangeRateBallot V), voteMap'.Perm voteMap →
        (pickReferenceDenom targets voteMap' thresholdVotes).referenceDenom =
            (pickReferenceDenom targets voteMap thresholdVotes).referenceDenom ∧
          (pickReferenceDenom targets voteMap' thresholdVotes).passing.Perm
            (pickReferenceDenom targets voteMap thresholdVotes).passing ∧
          (pickReferenceDenom targets voteMap' thresholdVotes).belowThreshold.Perm
            (pickReferenceDenom targets voteMap thresholdVotes).belowThreshold ∧
          pickVoteTargets targets voteMap' thresholdVotes = pickVoteTargets targets voteMap thresholdVotes := by
  have hinv := @pickInv_pickReferenceDenom V targets thresholdVotes voteMap
  refine ⟨⟨_, hinv.leads⟩, hinv.passing, hinv.below, pickVoteTargets_eq htargets voteMap hkeys, ?_⟩
  intro voteMap' hperm
  have hinv' := @pickInv_pickReferenceDenom V targets thresholdVotes voteMap'
  have hkeys' : (voteMap'.map Prod.fst).Nodup := (hperm.map Prod.fst).nodup_iff.2 hkeys
  refine ⟨IsReferenceDenom.unique targets thresholdVotes
      (IsReferenceDenom.of_perm targets thresholdVotes hperm ⟨_, hinv'.leads⟩) ⟨_, hinv.leads⟩, ?_, ?_, ?_⟩
  · rw [hinv'.passing, hinv.passing]
    exact hperm.filter _
  · rw [hinv'.below, hinv.below]
    exact hperm.filter _
  · -- the targets left are read off the vote map as a collection
    rw [pickVoteTargets_eq htargets voteMap' hkeys', pickVoteTargets_eq htargets voteMap hkeys]
    congr 1
    funext d
    rw [Bool.eq_iff_iff]
    simp only [Bool.not_eq_true', List.any_eq_false, hperm.mem_iff]

-- Two targets whose ballots tie at power 5, listed in the order that makes the loop change its
-- mind, and a ballot for a denom that is no target.
def referenceTargets : List String := ["uatom", "ueth"]

def referenceVotes : List (String × ExchangeRateBallot Nat) :=
  [("ueth", [⟨"ueth", Sdk.Dec.one, 1, 5⟩]), ("uatom", [⟨"uatom", Sdk.Dec.one, 2, 5⟩]),
    ("uusdc", [⟨"uusdc", Sdk.Dec.one, 1, 9⟩])]

theorem pick_reference_denom_order_free_tie :
    referenceTargets.Nodup ∧ (referenceVotes.map Prod.fst).Nodup ∧
      IsReferenceDenom referenceTargets 3 referenceVotes "uatom" ∧
      (pickReferenceDenom referenceTargets referenceVotes 3).referenceDenom = "uatom" := by
  have htargets : referenceTargets.Nodup := by decide
  have hkeys : (referenceVotes.map Prod.fst).Nodup := by decide
  have hpick : (pickReferenceDenom referenceTargets referenceVotes 3).referenceDenom = "uatom" := by
    decide
  exact ⟨htargets, hkeys,
    hpick ▸ (pick_reference_denom_order_free referenceTargets referenceVotes 3 htargets hkeys).1, hpick⟩

end SeiChain.Oracle
