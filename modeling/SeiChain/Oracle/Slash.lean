import Mathlib
import SeiChain.Oracle.Tally
import SeiChain.Lib.GoInt
import SeiChain.Lib.Fold
import SeiChain.Store.Sorted

namespace SeiChain.Oracle

open Sdk GoInt

-- What `SlashAndResetCounters` reads of a `stakingtypes.ValidatorI`.
structure StakingValidator where
  bonded : Bool
  jailed : Bool
  consensusPower : Int
  deriving DecidableEq

def StakingValidator.status (v : StakingValidator) : Bool × Bool := (v.bonded, v.jailed)

-- The staking keeper's calls, over its state `S`. `Validator` of an unknown operator is a nil
-- validator, and the method call on it a panic: `none`. `Slash` and `Jail` name the validator by
-- its consensus address, here by its operator.
structure StakingKeeper (S V : Type) where
  validator : S → V → Option StakingValidator
  slash : S → V → Int → Int → Dec → S
  jail : S → V → S

-- The oracle parameters `EndBlocker` reads.
structure SlashParams where
  slashWindow : Nat
  minValidPerWindow : Dec
  slashFraction : Dec

-- `DefaultSlashWindow`, `DefaultMinValidPerWindow` and `DefaultSlashFraction`: two days of
-- `BlocksPerDay`, 5% and 0%.
def defaultSlashParams : SlashParams := ⟨75 * 60 * 24 * 2, Dec.withPrec 5 2, Dec.withPrec 0 4⟩

def validatorUpdateDelay : Int := 1

def distributionHeight (blockHeight : Nat) : Int := blockHeight - validatorUpdateDelay - 1

def totalVotes (c : VotePenaltyCounter) : Nat :=
  addUint64 (addUint64 c.successCount c.abstainCount) c.missCount

-- `NewDecFromInt(NewInt(int64(SuccessCount))).QuoInt64(int64(totalVotes))`.
def validVoteRate (c : VotePenaltyCounter) : Option Dec :=
  (Dec.ofInt (toInt64 c.successCount)).quoInt64 (toInt64 (totalVotes c))

section Keeper

variable {S V : Type} [DecidableEq V]

-- The loop body of `SlashAndResetCounters`, on the staking state and the counter store. A counter
-- with no votes is logged and kept.
def slashAndResetCounter (sk : StakingKeeper S V) (params : SlashParams) (blockHeight : Nat)
    (acc : S × List (V × VotePenaltyCounter)) (operator : V) (votePenaltyCounter : VotePenaltyCounter) :
    Option (S × List (V × VotePenaltyCounter)) :=
  if totalVotes votePenaltyCounter = 0 then some acc
  else do
    let validVoteRate ← validVoteRate votePenaltyCounter
    let staking ← if validVoteRate < params.minValidPerWindow then do
        let validator ← sk.validator acc.1 operator
        if validator.bonded ∧ ¬validator.jailed then
          pure (sk.jail (sk.slash acc.1 operator (distributionHeight blockHeight) validator.consensusPower
            params.slashFraction) operator)
        else pure acc.1
      else pure acc.1
    pure (staking, KVStore.delete operator acc.2)

-- `IterateVotePenaltyCounters` visits the entries the store holds when the loop starts.
def slashAndResetCounters (sk : StakingKeeper S V) (params : SlashParams) (blockHeight : Nat)
    (staking : S) (counters : List (V × VotePenaltyCounter)) :
    Option (S × List (V × VotePenaltyCounter)) :=
  counters.foldlM (fun acc e => slashAndResetCounter sk params blockHeight acc e.1 e.2) (staking, counters)

-- `RemoveExcessFeeds`: the denoms that have a rate and are not vote targets lose their rate, in
-- sorted order.
def removeExcessFeeds {R : Type} (voteTargets : List String) (exchangeRates : List (String × R)) :
    List (String × R) :=
  let excessActives := (exchangeRates.map Prod.fst).filter fun denom => denom ∉ voteTargets
  (sortStrings excessActives).foldl (fun rates denom => KVStore.delete denom rates) exchangeRates

-- `utils.IsPeriodLastBlock`; a zero period is a division by zero.
def isPeriodLastBlock (blockHeight blocksPerPeriod : Nat) : Option Bool :=
  if blocksPerPeriod = 0 then none else some ((blockHeight + 1) % blocksPerPeriod == 0)

-- The stores `EndBlocker` reads and writes: the staking state, the vote penalty counters and the
-- exchange rates in key order, and the vote targets. `R` is what a rate holds; nothing here reads it.
structure EndBlockerState (S V R : Type) where
  staking : S
  votePenaltyCounters : List (V × VotePenaltyCounter)
  exchangeRates : List (String × R)
  voteTargets : List String

def endBlocker {R : Type} (sk : StakingKeeper S V) (params : SlashParams) (blockHeight : Nat)
    (st : EndBlockerState S V R) : Option (EndBlockerState S V R) := do
  if ← isPeriodLastBlock blockHeight params.slashWindow then
    let r ← slashAndResetCounters sk params blockHeight st.staking st.votePenaltyCounters
    pure { st with
      staking := r.1
      votePenaltyCounters := r.2
      exchangeRates := removeExcessFeeds st.voteTargets st.exchangeRates }
  else pure st

end Keeper

-- A counter calls for a penalty when it has votes and a valid vote rate below the minimum; the
-- decisions read only the counter and the validator it names.
def belowMinValidPerWindow (params : SlashParams) (c : VotePenaltyCounter) : Bool :=
  totalVotes c != 0 && (validVoteRate c).any fun r => decide (r < params.minValidPerWindow)

theorem validVoteRate_isSome {c : VotePenaltyCounter} (h : totalVotes c ≠ 0) :
    (validVoteRate c).isSome := by
  have hne : toInt64 (totalVotes c) ≠ 0 := toInt64_ne_zero (addUint64_lt _ _) h
  simp [validVoteRate, Dec.quoInt64, hne]

section Decisions

variable {S V : Type}

-- The slash for one operator, read in a staking state: `none` is a panic (no validator),
-- `some none` no slash, and `some (some power)` a slash for that power.
def penalty (sk : StakingKeeper S V) (params : SlashParams) (staking : S) (operator : V)
    (c : VotePenaltyCounter) : Option (Option Int) :=
  if belowMinValidPerWindow params c then
    (sk.validator staking operator).map fun validator =>
      if validator.bonded ∧ ¬validator.jailed then some validator.consensusPower else none
  else some none

-- The validators a window's end slashes, each with its power, all read in one staking state;
-- `none` when a decision panics.
def penalties (sk : StakingKeeper S V) (params : SlashParams) (staking : S) :
    List (V × VotePenaltyCounter) → Option (List (V × Int))
  | [] => some []
  | (operator, c) :: rest =>
    (penalty sk params staking operator c).bind fun p =>
      (penalties sk params staking rest).map fun ps => p.elim ps fun power => (operator, power) :: ps

def slashJail (sk : StakingKeeper S V) (params : SlashParams) (blockHeight : Nat) (staking : S)
    (operator : V) (power : Int) : S :=
  sk.jail (sk.slash staking operator (distributionHeight blockHeight) power params.slashFraction) operator

-- `Slash` and `Jail` touch only the validator they name.
structure StakingKeeper.Frame (sk : StakingKeeper S V) : Prop where
  validator_slash_of_ne : ∀ s v h p f w, w ≠ v → sk.validator (sk.slash s v h p f) w = sk.validator s w
  validator_jail_of_ne : ∀ s v w, w ≠ v → sk.validator (sk.jail s v) w = sk.validator s w

-- `Slash` takes tokens and keeps the validator's status; `Jail` sets its jailed flag.
structure StakingKeeper.Lawful (sk : StakingKeeper S V) : Prop extends StakingKeeper.Frame sk where
  status_slash : ∀ s v h p f,
    (sk.validator (sk.slash s v h p f) v).map StakingValidator.status = (sk.validator s v).map StakingValidator.status
  status_jail : ∀ s v,
    (sk.validator (sk.jail s v) v).map StakingValidator.status = (sk.validator s v).map fun x => (x.bonded, true)

def tableStaking : StakingKeeper (Nat → Option StakingValidator) Nat where
  validator s v := s v
  slash s _ _ _ _ := s
  jail s v := Function.update s v ((s v).map fun x => { x with jailed := true })

theorem tableStaking_lawful : tableStaking.Lawful where
  validator_slash_of_ne _ _ _ _ _ _ _ := rfl
  validator_jail_of_ne _ _ _ h := Function.update_of_ne h _ _
  status_slash _ _ _ _ _ := rfl
  status_jail s v := by
    simp only [tableStaking, Function.update_self, Option.map_map]
    rfl

variable {sk : StakingKeeper S V} {params : SlashParams} {blockHeight : Nat}

theorem penalty_congr {s s' : S} {operator : V} (c : VotePenaltyCounter)
    (h : sk.validator s operator = sk.validator s' operator) :
    penalty sk params s operator c = penalty sk params s' operator c := by
  unfold penalty
  rw [h]

theorem penalty_eq_some {s : S} {operator : V} {c : VotePenaltyCounter} {p : Option Int}
    (h : penalty sk params s operator c = some p) :
    p.isSome ↔ belowMinValidPerWindow params c ∧
      ∃ v, sk.validator s operator = some v ∧ v.bonded ∧ ¬v.jailed := by
  unfold penalty at h
  split_ifs at h with hbelow
  · obtain ⟨v, hv, rfl⟩ := Option.map_eq_some_iff.1 h
    by_cases hb : v.bonded ∧ ¬v.jailed
    · simp [hbelow, hv, hb]
    · simp only [hb, if_false, Option.isSome_none, Bool.false_eq_true, false_iff, not_and]
      rintro - ⟨v', hv', hb'⟩
      obtain rfl := Option.some.inj (hv.symm.trans hv')
      exact hb hb'
  · cases h
    simp [hbelow]

theorem penalties_eq_none_iff {staking : S} {l : List (V × VotePenaltyCounter)} :
    penalties sk params staking l = none ↔
      ∃ e ∈ l, belowMinValidPerWindow params e.2 ∧ sk.validator staking e.1 = none := by
  induction l with
  | nil => simp [penalties]
  | cons e rest ih =>
    obtain ⟨operator, c⟩ := e
    -- a decision panics exactly when it needs a validator that is not there
    have hp : penalty sk params staking operator c = none ↔
        belowMinValidPerWindow params c ∧ sk.validator staking operator = none := by
      unfold penalty
      split_ifs with hbelow <;> simp [hbelow]
    cases hpen : penalty sk params staking operator c with
    | none => simp [penalties, hpen, hp.1 hpen]
    | some p =>
      have hnot : ¬(belowMinValidPerWindow params c ∧ sk.validator staking operator = none) :=
        fun h => by simp [hp.2 h] at hpen
      simp only [penalties, hpen, Option.bind_some, List.mem_cons, exists_eq_or_imp, hnot, false_or, ← ih]
      cases penalties sk params staking rest <;> simp

theorem mem_penalties {staking : S} {l : List (V × VotePenaltyCounter)} {ps : List (V × Int)}
    (h : penalties sk params staking l = some ps) (w : V) :
    w ∈ ps.map Prod.fst ↔ (∃ e ∈ l, e.1 = w ∧ belowMinValidPerWindow params e.2) ∧
      ∃ v, sk.validator staking w = some v ∧ v.bonded ∧ ¬v.jailed := by
  induction l generalizing ps with
  | nil =>
    cases h
    simp
  | cons e rest ih =>
    obtain ⟨operator, c⟩ := e
    simp only [penalties, Option.bind_eq_some_iff, Option.map_eq_some_iff] at h
    obtain ⟨p, hp, ps', hps', rfl⟩ := h
    have hkeys : w ∈ (p.elim ps' fun power => (operator, power) :: ps').map Prod.fst ↔
        (p.isSome ∧ w = operator) ∨ w ∈ ps'.map Prod.fst := by
      cases p <;> simp
    rw [hkeys, ih hps', penalty_eq_some hp]
    simp only [List.mem_cons, or_and_right, exists_or, exists_eq_left]
    constructor
    · rintro (⟨⟨hbelow, hv⟩, rfl⟩ | ⟨hrest, hv⟩)
      · exact .inl ⟨⟨rfl, hbelow⟩, hv⟩
      · exact .inr ⟨hrest, hv⟩
    · rintro (⟨⟨rfl, hbelow⟩, hv⟩ | ⟨hrest, hv⟩)
      · exact .inl ⟨⟨hbelow, hv⟩, rfl⟩
      · exact .inr ⟨hrest, hv⟩

theorem validator_slashJail_of_ne (hsk : sk.Frame) {s : S} {operator w : V} (power : Int)
    (h : w ≠ operator) :
    sk.validator (slashJail sk params blockHeight s operator power) w = sk.validator s w := by
  rw [slashJail, hsk.validator_jail_of_ne _ _ _ h, hsk.validator_slash_of_ne _ _ _ _ _ _ h]

theorem status_slashJail_self (hsk : sk.Lawful) (s : S) (operator : V) (power : Int) :
    (sk.validator (slashJail sk params blockHeight s operator power) operator).map StakingValidator.status =
      (sk.validator s operator).map fun x => (x.bonded, true) := by
  have hjail : ∀ o : Option StakingValidator,
      o.map (fun x => (x.bonded, true)) = (o.map StakingValidator.status).map fun st => (st.1, true) := by
    intro o
    cases o <;> rfl
  rw [slashJail, hsk.status_jail, hjail, hsk.status_slash, ← hjail]

-- After a run of slashes and jails, a validator is jailed when it was or when the run names it,
-- and keeps its bond status. The induction is on the run.
theorem status_foldl_slashJail [DecidableEq V] (hsk : sk.Lawful) (ps : List (V × Int)) (s : S) (w : V) :
    (sk.validator (ps.foldl (fun s p => slashJail sk params blockHeight s p.1 p.2) s) w).map
        StakingValidator.status =
      (sk.validator s w).map fun x => (x.bonded, x.jailed || decide (w ∈ ps.map Prod.fst)) := by
  induction ps generalizing s with
  | nil =>
    simp only [List.foldl_nil, List.map_nil, List.not_mem_nil, decide_false, Bool.or_false]
    rfl
  | cons p rest ih =>
    obtain ⟨operator, power⟩ := p
    -- both sides read the validator through its status
    have hstatus : ∀ (b : Bool) (o : Option StakingValidator),
        o.map (fun x => (x.bonded, x.jailed || b)) = (o.map StakingValidator.status).map
          fun st => (st.1, st.2 || b) := by
      intro b o
      cases o <;> rfl
    rw [List.foldl_cons, ih, hstatus]
    by_cases hw : w = operator
    · subst hw
      rw [status_slashJail_self hsk]
      cases sk.validator s w with
      | none => rfl
      | some x => simp
    · have hkeys : decide (w ∈ ((operator, power) :: rest).map Prod.fst) =
          decide (w ∈ rest.map Prod.fst) := by
        simp [hw]
      rw [hkeys, validator_slashJail_of_ne hsk.toFrame _ hw, ← hstatus]

end Decisions

section Run

variable {S V : Type} [DecidableEq V] {sk : StakingKeeper S V} {params : SlashParams} {blockHeight : Nat}

theorem slashAndResetCounter_eq (acc : S × List (V × VotePenaltyCounter)) (operator : V)
    (c : VotePenaltyCounter) :
    slashAndResetCounter sk params blockHeight acc operator c =
      ((penalty sk params acc.1 operator c).map fun p =>
        p.elim acc.1 (slashJail sk params blockHeight acc.1 operator)).map
          fun s => (s, if totalVotes c = 0 then acc.2 else KVStore.delete operator acc.2) := by
  unfold slashAndResetCounter penalty belowMinValidPerWindow
  by_cases h0 : totalVotes c = 0
  · simp [h0]
  · obtain ⟨r, hr⟩ := Option.isSome_iff_exists.1 (validVoteRate_isSome h0)
    by_cases hlt : r.i < params.minValidPerWindow.i
    · cases hv : sk.validator acc.1 operator with
      | none => simp [h0, hr, hlt]
      | some v =>
        -- the guard, in the form `simp` leaves it
        by_cases hb : v.bonded = true ∧ v.jailed = false
        · simp [h0, hr, hlt, hb, slashJail]
        · simp [h0, hr, hlt, hb]
    · simp [h0, hr, hlt]

omit [DecidableEq V] in
-- Each decision reads a validator no earlier step touched, so the induction carries that the state
-- agrees with the starting one on the operators still to come.
theorem foldlM_penalty (hsk : sk.Frame) {l : List (V × VotePenaltyCounter)} (hl : (l.map Prod.fst).Nodup)
    {staking s : S} (hs : ∀ w ∈ l.map Prod.fst, sk.validator s w = sk.validator staking w) :
    l.foldlM (fun s e => (penalty sk params s e.1 e.2).map fun p =>
        p.elim s (slashJail sk params blockHeight s e.1)) s =
      (penalties sk params staking l).map fun ps =>
        ps.foldl (fun s p => slashJail sk params blockHeight s p.1 p.2) s := by
  induction l generalizing s with
  | nil => rfl
  | cons e rest ih =>
    obtain ⟨operator, c⟩ := e
    rw [List.map_cons, List.nodup_cons] at hl
    rw [List.foldlM_cons, penalty_congr c (hs operator List.mem_cons_self), penalties]
    cases hp : penalty sk params staking operator c with
    | none => rfl
    | some p =>
      have hs' : ∀ w ∈ rest.map Prod.fst,
          sk.validator (p.elim s (slashJail sk params blockHeight s operator)) w = sk.validator staking w := by
        intro w hw
        have hne : w ≠ operator := fun h => hl.1 (h ▸ hw)
        cases p with
        | none => exact hs w (List.mem_cons_of_mem _ hw)
        | some power =>
          rw [Option.elim, validator_slashJail_of_ne hsk _ hne]
          exact hs w (List.mem_cons_of_mem _ hw)
      simp only [Option.map_some, Option.bind_eq_bind, Option.bind_some]
      rw [ih hl.2 hs', Option.map_map]
      cases p <;> rfl

theorem foldl_resetCounter {l : List (V × VotePenaltyCounter)} (hl : (l.map Prod.fst).Nodup) :
    l.foldl (fun t e => if totalVotes e.2 = 0 then t else KVStore.delete e.1 t) l =
      l.filter fun e => totalVotes e.2 = 0 := by
  have hdeletes : l.foldl (fun t e => if totalVotes e.2 = 0 then t else KVStore.delete e.1 t) l =
      ((l.filter fun e => totalVotes e.2 ≠ 0).map Prod.fst).foldl (fun t k => KVStore.delete k t) l := by
    rw [List.foldl_map, List.foldl_filter]
    congr 1
    funext t e
    by_cases h0 : totalVotes e.2 = 0 <;> simp [h0]
  rw [hdeletes, KVStore.foldl_delete]
  refine List.filter_congr fun e he => ?_
  -- an operator has one counter, so it is deleted exactly when its own counter has votes
  have hmem : e.1 ∈ (l.filter fun e => totalVotes e.2 ≠ 0).map Prod.fst ↔ totalVotes e.2 ≠ 0 := by
    constructor
    · intro hk
      obtain ⟨e', he', hkey⟩ := List.mem_map.1 hk
      have he'l := (List.mem_filter.1 he').1
      rw [List.inj_on_of_nodup_map hl he'l he hkey] at he'
      simpa using (List.mem_filter.1 he').2
    · intro h0
      exact List.mem_map_of_mem (List.mem_filter.2 ⟨he, by simpa using h0⟩)
  exact decide_eq_decide.2 (hmem.not.trans not_not)

theorem slashAndResetCounters_eq (hsk : sk.Frame) {staking : S} {counters : List (V × VotePenaltyCounter)}
    (hkeys : (counters.map Prod.fst).Nodup) :
    slashAndResetCounters sk params blockHeight staking counters =
      (penalties sk params staking counters).map fun ps =>
        (ps.foldl (fun s p => slashJail sk params blockHeight s p.1 p.2) staking,
          counters.filter fun e => totalVotes e.2 = 0) := by
  have hstep : (fun acc (e : V × VotePenaltyCounter) => slashAndResetCounter sk params blockHeight acc e.1 e.2) =
      fun acc e => ((penalty sk params acc.1 e.1 e.2).map fun p =>
        p.elim acc.1 (slashJail sk params blockHeight acc.1 e.1)).map
          fun s => (s, if totalVotes e.2 = 0 then acc.2 else KVStore.delete e.1 acc.2) := by
    funext acc e
    exact slashAndResetCounter_eq acc e.1 e.2
  -- the staking state and the counter store go their own ways
  have hpair := List.foldlM_option_pair
    (fun s (e : V × VotePenaltyCounter) => (penalty sk params s e.1 e.2).map fun p =>
      p.elim s (slashJail sk params blockHeight s e.1))
    (fun t (e : V × VotePenaltyCounter) => if totalVotes e.2 = 0 then t else KVStore.delete e.1 t)
    counters staking counters
  rw [slashAndResetCounters, hstep, hpair, foldlM_penalty hsk hkeys (fun _ _ => rfl), Option.map_map,
    foldl_resetCounter hkeys]
  rfl

theorem removeExcessFeeds_eq {R : Type} (voteTargets : List String) (exchangeRates : List (String × R)) :
    removeExcessFeeds voteTargets exchangeRates = exchangeRates.filter fun e => e.1 ∈ voteTargets := by
  rw [removeExcessFeeds, KVStore.foldl_delete]
  refine List.filter_congr fun e he => ?_
  have hkey : e.1 ∈ exchangeRates.map Prod.fst := List.mem_map_of_mem he
  simp [(sortStrings_perm _).mem_iff, hkey]

def windowEndState : EndBlockerState (Nat → Option StakingValidator) Nat Dec where
  staking v := if v < 3 then some ⟨true, false, 10⟩ else none
  votePenaltyCounters := [(0, ⟨0, 0, 30⟩), (1, ⟨29, 0, 1⟩), (2, ⟨0, 0, 0⟩)]
  exchangeRates := [("uatom", Dec.one), ("ueth", Dec.one)]
  voteTargets := ["uatom"]

-- At a window's end the bonded, unjailed validators below the minimum are slashed and jailed once
-- each, with the power they have then; at any other block nothing changes.
theorem endBlocker_eq {R : Type} (hsk : sk.Frame) {st : EndBlockerState S V R}
    (hkeys : (st.votePenaltyCounters.map Prod.fst).Nodup) :
    endBlocker sk params blockHeight st =
      if params.slashWindow = 0 then none
      else if (blockHeight + 1) % params.slashWindow = 0 then
        (penalties sk params st.staking st.votePenaltyCounters).map fun ps =>
          { st with
            staking := ps.foldl (fun s p => slashJail sk params blockHeight s p.1 p.2) st.staking
            votePenaltyCounters := st.votePenaltyCounters.filter fun e => totalVotes e.2 = 0
            exchangeRates := st.exchangeRates.filter fun e => e.1 ∈ st.voteTargets }
      else some st := by
  unfold endBlocker isPeriodLastBlock
  by_cases h0 : params.slashWindow = 0
  · simp [h0]
  · by_cases hlast : (blockHeight + 1) % params.slashWindow = 0
    · simp only [h0, hlast, slashAndResetCounters_eq hsk hkeys, removeExcessFeeds_eq]
      simp
      cases penalties sk params st.staking st.votePenaltyCounters <;> rfl
    · simp [h0, hlast]

theorem endBlocker_eq_window_end :
    endBlocker tableStaking defaultSlashParams 215999 windowEndState =
      if defaultSlashParams.slashWindow = 0 then none
      else if (215999 + 1) % defaultSlashParams.slashWindow = 0 then
        (penalties tableStaking defaultSlashParams windowEndState.staking
          windowEndState.votePenaltyCounters).map fun ps =>
          { windowEndState with
            staking := ps.foldl (fun s p => slashJail tableStaking defaultSlashParams 215999 s p.1 p.2)
              windowEndState.staking
            votePenaltyCounters := windowEndState.votePenaltyCounters.filter fun e => totalVotes e.2 = 0
            exchangeRates := windowEndState.exchangeRates.filter fun e => e.1 ∈ windowEndState.voteTargets }
      else some windowEndState :=
  endBlocker_eq tableStaking_lawful.toFrame (by decide)

-- The window's end panics exactly when a counter below the minimum names an operator the staking
-- keeper has no validator for.
theorem slashAndResetCounters_eq_none_iff (hsk : sk.Frame) {staking : S}
    {counters : List (V × VotePenaltyCounter)} (hkeys : (counters.map Prod.fst).Nodup) :
    slashAndResetCounters sk params blockHeight staking counters = none ↔
      ∃ e ∈ counters, belowMinValidPerWindow params e.2 ∧ sk.validator staking e.1 = none := by
  rw [slashAndResetCounters_eq hsk hkeys, Option.map_eq_none_iff, penalties_eq_none_iff]

-- A counter right once in thirty for an operator with no validator.
theorem slash_unknown_operator_panics :
    slashAndResetCounters tableStaking defaultSlashParams 215999 windowEndState.staking [(5, ⟨29, 0, 1⟩)] =
        none ↔
      ∃ e ∈ [((5 : Nat), (⟨29, 0, 1⟩ : VotePenaltyCounter))],
        belowMinValidPerWindow defaultSlashParams e.2 ∧ tableStaking.validator windowEndState.staking e.1 = none :=
  slashAndResetCounters_eq_none_iff tableStaking_lawful.toFrame (by decide)

-- After a window's end every validator keeps its bond status, and is jailed exactly when it was
-- or when it was bonded and its counter is below the minimum.
theorem slash_window_jails (hsk : sk.Lawful) {staking staking' : S}
    {counters counters' : List (V × VotePenaltyCounter)} (hkeys : (counters.map Prod.fst).Nodup)
    (h : slashAndResetCounters sk params blockHeight staking counters = some (staking', counters'))
    (operator : V) :
    (sk.validator staking' operator).map StakingValidator.status =
      (sk.validator staking operator).map fun v =>
        (v.bonded, v.jailed || v.bonded && counters.any fun e => e.1 == operator && belowMinValidPerWindow params e.2) := by
  rw [slashAndResetCounters_eq hsk.toFrame hkeys] at h
  obtain ⟨ps, hps, hres⟩ := Option.map_eq_some_iff.1 h
  have hstaking : staking' = ps.foldl (fun s p => slashJail sk params blockHeight s p.1 p.2) staking :=
    (congrArg Prod.fst hres).symm
  rw [hstaking, status_foldl_slashJail hsk]
  cases hv : sk.validator staking operator with
  | none => rfl
  | some v =>
    -- the run names the operator when its counter is below the minimum and it is bonded, unjailed
    have hkey : operator ∈ ps.map Prod.fst ↔
        (∃ e ∈ counters, e.1 = operator ∧ belowMinValidPerWindow params e.2) ∧ v.bonded ∧ ¬v.jailed := by
      rw [mem_penalties hps, hv]
      simp
    cases hj : v.jailed with
    | true => simp [hj]
    | false =>
      simp only [hj, Bool.false_eq_true, not_false_eq_true, and_true] at hkey
      have hany : (counters.any fun e => e.1 == operator && belowMinValidPerWindow params e.2) = true ↔
          ∃ e ∈ counters, e.1 = operator ∧ belowMinValidPerWindow params e.2 := by
        simp
      simp only [hj, Bool.false_or, Option.map_some, Option.some.injEq, Prod.mk.injEq, true_and]
      rw [Bool.eq_iff_iff, decide_eq_true_iff, hkey, Bool.and_eq_true, hany, and_comm]

def windowEndStaking : Nat → Option StakingValidator :=
  Function.update windowEndState.staking 1 (some ⟨true, true, 10⟩)

theorem slash_window_jails_one_in_thirty :
    (tableStaking.validator windowEndStaking 1).map StakingValidator.status =
      (tableStaking.validator windowEndState.staking 1).map fun v =>
        (v.bonded, v.jailed || v.bonded && windowEndState.votePenaltyCounters.any fun e =>
          e.1 == 1 && belowMinValidPerWindow defaultSlashParams e.2) :=
  slash_window_jails tableStaking_lawful (by decide)
    (show slashAndResetCounters tableStaking defaultSlashParams 215999 windowEndState.staking
      windowEndState.votePenaltyCounters = some (windowEndStaking, [(2, ⟨0, 0, 0⟩)]) from rfl) 1

end Run

-- With no more than 2^63 votes, the truncated division loses nothing: a counter is below the
-- minimum exactly when it has votes and its exact share of successes is below `MinValidPerWindow`.
theorem belowMinValidPerWindow_iff (params : SlashParams) (c : VotePenaltyCounter)
    (hsmall : c.successCount + c.abstainCount + c.missCount < 2 ^ 63) :
    belowMinValidPerWindow params c = true ↔
      0 < c.successCount + c.abstainCount + c.missCount ∧
        (c.successCount : ℚ) / (c.successCount + c.abstainCount + c.missCount) <
          params.minValidPerWindow.i / precisionReuse := by
  have hfirst : addUint64 c.successCount c.abstainCount = c.successCount + c.abstainCount :=
    addUint64_of_lt (by omega)
  have htotal : totalVotes c = c.successCount + c.abstainCount + c.missCount := by
    rw [totalVotes, hfirst, addUint64_of_lt (by omega)]
  have hsuccess : toInt64 c.successCount = c.successCount := toInt64_of_lt (by omega)
  have hcount : toInt64 (totalVotes c) = (c.successCount + c.abstainCount + c.missCount : Nat) := by
    rw [htotal]
    exact toInt64_of_lt hsmall
  by_cases h0 : c.successCount + c.abstainCount + c.missCount = 0
  · simp [belowMinValidPerWindow, htotal, h0]
  · have hpos : (0 : ℤ) < (c.successCount + c.abstainCount + c.missCount : Nat) := by omega
    -- the rate is the floor of the scaled successes over the total
    have hrate : validVoteRate c = some ⟨c.successCount * precisionReuse /
        (c.successCount + c.abstainCount + c.missCount : Nat)⟩ := by
      rw [validVoteRate, hsuccess, hcount, Dec.quoInt64, if_neg hpos.ne', Dec.ofInt,
        Int.tdiv_eq_ediv_of_nonneg (Int.mul_nonneg (Int.natCast_nonneg _) (by decide))]
    simp only [belowMinValidPerWindow, htotal, hrate, Option.any_some, Dec.lt_iff, Int.ediv_lt_iff_lt_mul hpos]
    -- cross-multiplied, the two comparisons are one
    have hscale : (0 : ℚ) < precisionReuse := by
      unfold precisionReuse
      norm_num
    have hcross : (c.successCount : ℚ) / (c.successCount + c.abstainCount + c.missCount) <
        params.minValidPerWindow.i / precisionReuse ↔
        (c.successCount : ℤ) * precisionReuse <
          params.minValidPerWindow.i * (c.successCount + c.abstainCount + c.missCount : Nat) := by
      have hvotes : (0 : ℚ) < c.successCount + c.abstainCount + c.missCount := by
        exact_mod_cast Nat.pos_of_ne_zero h0
      rw [div_lt_div_iff₀ hvotes hscale]
      push_cast
      exact_mod_cast Iff.rfl
    rw [hcross, Bool.and_eq_true, bne_iff_ne, decide_eq_true_iff, Nat.pos_iff_ne_zero]

theorem one_success_in_thirty_below_min :
    belowMinValidPerWindow defaultSlashParams ⟨29, 0, 1⟩ = true ↔
      0 < 1 + 0 + 29 ∧
        ((1 : Nat) : ℚ) / ((1 : Nat) + (0 : Nat) + (29 : Nat)) <
          defaultSlashParams.minValidPerWindow.i / precisionReuse :=
  belowMinValidPerWindow_iff defaultSlashParams ⟨29, 0, 1⟩ (by norm_num)

end SeiChain.Oracle
