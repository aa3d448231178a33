import SeiChain.Mint.Release

namespace SeiChain.Mint

theorem validateMinter_ok {minter : Minter} (h : validateMinter minter = .ok ()) :
    minter.remainingMintAmount.toNat ≤ minter.totalMintAmount.toNat ∧
      minter.startDate ≤ minter.endDate := by
  unfold validateMinter at h
  split_ifs at h with hamount hdates
  rw [UInt64.lt_iff_toNat_lt, not_lt] at hamount
  rw [not_lt, midnight_le_midnight] at hdates
  exact ⟨hamount, hdates⟩

theorem validateScheduledRelease_ok {prev end' : Int} {r : ScheduledTokenRelease}
    (h : validateScheduledRelease prev r = .ok end') : r.startDate ≤ r.endDate := by
  unfold validateScheduledRelease at h
  split_ifs at h with hdates
  rw [not_lt, midnight_le_midnight] at hdates
  exact hdates

theorem startDate_le_endDate_of_foldlM {l : List ScheduledTokenRelease} {prev end' : Int}
    (h : l.foldlM validateScheduledRelease prev = .ok end') : ∀ r ∈ l, r.startDate ≤ r.endDate := by
  induction l generalizing prev with
  | nil => exact fun _ hr => absurd hr List.not_mem_nil
  | cons r rest ih =>
    rw [List.foldlM_cons] at h
    cases hr : validateScheduledRelease prev r with
    | error e =>
      rw [hr] at h
      cases h
    | ok next =>
      rw [hr] at h
      intro x hx
      rcases List.mem_cons.1 hx with rfl | hx
      · exact validateScheduledRelease_ok hr
      · exact ih h x hx

theorem validateTokenReleaseSchedule_ok {tokenReleaseSchedule : List ScheduledTokenRelease}
    (h : validateTokenReleaseSchedule tokenReleaseSchedule = .ok ()) :
    ∀ r ∈ tokenReleaseSchedule, r.startDate ≤ r.endDate := by
  unfold validateTokenReleaseSchedule at h
  cases hfold : (sortTokenReleaseCalendar tokenReleaseSchedule).foldlM validateScheduledRelease
      zeroDate with
  | error e =>
    rw [hfold] at h
    cases h
  | ok end' =>
    -- sorting keeps the releases
    intro r hr
    exact startDate_le_endDate_of_foldlM hfold r (List.mem_mergeSort.2 hr)

section Runs

variable {tokenReleaseSchedule : List ScheduledTokenRelease}

theorem afterEpochEnds_cons {m : Minter} {epoch : Epoch} {epochs : List Epoch}
    {trace : List (Epoch × Minter × UInt64)}
    (h : afterEpochEnds tokenReleaseSchedule m (epoch :: epochs) = some trace) :
    ∃ m' minted trace', afterEpochEnd tokenReleaseSchedule m epoch = some (m', minted) ∧
      afterEpochEnds tokenReleaseSchedule m' epochs = some trace' ∧
      trace = (epoch, m', minted) :: trace' := by
  simp only [afterEpochEnds, Option.bind_eq_bind, Option.bind_eq_some_iff] at h
  obtain ⟨⟨m', minted⟩, hstep, trace', hrest, htrace⟩ := h
  exact ⟨m', minted, trace', hstep, hrest, (Option.some.inj htrace).symm⟩

theorem formatDate_le_of_pairwise {epoch : Epoch} {epochs : List Epoch}
    (hmono : (epoch :: epochs).Pairwise fun a b => a.currentEpochStartTime ≤ b.currentEpochStartTime) :
    ∀ e ∈ epochs, formatDate epoch.currentEpochStartTime ≤ formatDate e.currentEpochStartTime :=
  fun e he => formatDate_mono ((List.pairwise_cons.1 hmono).1 e he)

-- The run rule: an invariant of the stored minter that each epoch keeps, given the date of the
-- epoch before, holds along a run, with whatever each epoch establishes.
theorem afterEpochEnds_induction (Inv : Minter → Int → Prop) (R : Epoch → Minter → UInt64 → Prop)
    (hstep : ∀ m d epoch m' minted, Inv m d → d ≤ formatDate epoch.currentEpochStartTime →
      afterEpochEnd tokenReleaseSchedule m epoch = some (m', minted) →
      Inv m' (formatDate epoch.currentEpochStartTime) ∧ R epoch m' minted)
    {m : Minter} {d : Int} {epochs : List Epoch} {trace : List (Epoch × Minter × UInt64)}
    (h : afterEpochEnds tokenReleaseSchedule m epochs = some trace) (hm : Inv m d)
    (hd : ∀ epoch ∈ epochs, d ≤ formatDate epoch.currentEpochStartTime)
    (hmono : epochs.Pairwise fun a b => a.currentEpochStartTime ≤ b.currentEpochStartTime) :
    ∀ x ∈ trace, R x.1 x.2.1 x.2.2 := by
  induction epochs generalizing m d trace with
  | nil =>
    cases h
    exact fun _ hx => absurd hx List.not_mem_nil
  | cons epoch epochs ih =>
    obtain ⟨m', minted, trace', hfirst, hrest, rfl⟩ := afterEpochEnds_cons h
    obtain ⟨hinv, hR⟩ := hstep m d epoch m' minted hm (hd epoch List.mem_cons_self) hfirst
    intro x hx
    rcases List.mem_cons.1 hx with rfl | hx
    · exact hR
    · exact ih hrest hinv (formatDate_le_of_pairwise hmono) (List.pairwise_cons.1 hmono).2 x hx

theorem afterEpochEnd_isSome
    (hsmall : ∀ r ∈ tokenReleaseSchedule, r.tokenReleaseAmount.toNat < 2 ^ 63) {m : Minter}
    (hm : m.remainingMintAmount.toNat < 2 ^ 63) (epoch : Epoch) :
    ∃ m' minted, afterEpochEnd tokenReleaseSchedule m epoch = some (m', minted) ∧
      m'.remainingMintAmount.toNat < 2 ^ 63 := by
  -- the minter that mints has less than 2^63 left, so its daily amount is a coin
  have hlatest : (getOrUpdateLatestMinter tokenReleaseSchedule m epoch).remainingMintAmount.toNat
      < 2 ^ 63 := by
    rcases getOrUpdateLatestMinter_cases tokenReleaseSchedule m epoch with hkeep | ⟨r, hr, hnew⟩
    · rw [hkeep]
      exact hm
    · rw [hnew, remainingMintAmount_newMinter]
      exact hsmall r hr.mem
  have hrelease := UInt64.le_iff_toNat_le.1
    ((getOrUpdateLatestMinter tokenReleaseSchedule m epoch).getReleaseAmountToday_le
      epoch.currentEpochStartTime)
  unfold afterEpochEnd releaseCoins
  dsimp only
  rw [if_pos (by omega)]
  simp only [Option.bind_eq_bind, Option.bind_some]
  split_ifs
  · exact ⟨m, 0, rfl, hm⟩
  · refine ⟨_, _, rfl, ?_⟩
    rw [remainingMintAmount_recordSuccessfulMint, remainingMintAmount_sub_toNat]
    omega

theorem afterEpochEnds_isSome
    (hsmall : ∀ r ∈ tokenReleaseSchedule, r.tokenReleaseAmount.toNat < 2 ^ 63) {m : Minter}
    (hm : m.remainingMintAmount.toNat < 2 ^ 63) (epochs : List Epoch) :
    ∃ trace, afterEpochEnds tokenReleaseSchedule m epochs = some trace := by
  induction epochs generalizing m with
  | nil => exact ⟨[], rfl⟩
  | cons epoch epochs ih =>
    obtain ⟨m', minted, hfirst, hm'⟩ := afterEpochEnd_isSome hsmall hm epoch
    obtain ⟨trace, hrest⟩ := ih hm'
    refine ⟨(epoch, m', minted) :: trace, ?_⟩
    simp only [afterEpochEnds, hfirst, hrest, Option.bind_eq_bind, Option.bind_some]
    rfl

theorem afterEpochEnd_eq_none_iff (m : Minter) (epoch : Epoch) :
    afterEpochEnd tokenReleaseSchedule m epoch = none ↔
      2 ^ 63 ≤ ((getOrUpdateLatestMinter tokenReleaseSchedule m epoch).getReleaseAmountToday
        epoch.currentEpochStartTime).toNat := by
  unfold afterEpochEnd releaseCoins
  dsimp only
  split_ifs with hsmall
  · simp only [Option.bind_eq_bind, Option.bind_some, Option.pure_def]
    constructor
    · intro h
      split_ifs at h
    · intro h
      omega
  · simp only [Option.bind_eq_bind, Option.bind_none, true_iff]
    omega

def oneDayRelease : List ScheduledTokenRelease := [⟨19448, 19448, 9223372036854775808⟩]

theorem accepted_schedule_mint_panics :
    validateTokenReleaseSchedule oneDayRelease = .ok () ∧
      afterEpochEnd oneDayRelease initialMinter ⟨midnight 19448 + 36000000000000, 1⟩ = none := by
  have hsorted : sortTokenReleaseCalendar oneDayRelease = oneDayRelease :=
    List.mergeSort_of_pairwise (by decide)
  refine ⟨by simp only [validateTokenReleaseSchedule, hsorted]; decide,
    (afterEpochEnd_eq_none_iff initialMinter _).2 ?_⟩
  decide

def finalMinter (minter : Minter) (trace : List (Epoch × Minter × UInt64)) : Minter :=
  (trace.map fun x => x.2.1).getLastD minter

def mintedUnder (trace : List (Epoch × Minter × UInt64)) (startDate : Int) : Nat :=
  ((trace.filter fun x => x.2.1.startDate = startDate).map fun x => x.2.2.toNat).sum

def mintDates (trace : List (Epoch × Minter × UInt64)) : List (Int × Int) :=
  (trace.filter fun x => x.2.2 ≠ 0).map fun x =>
    (x.2.1.startDate, formatDate x.1.currentEpochStartTime)

@[simp] theorem finalMinter_nil (minter : Minter) : finalMinter minter [] = minter := rfl

@[simp] theorem finalMinter_cons (minter : Minter) (x : Epoch × Minter × UInt64)
    (trace : List (Epoch × Minter × UInt64)) :
    finalMinter minter (x :: trace) = finalMinter x.2.1 trace := by
  rw [finalMinter, finalMinter, List.map_cons, List.getLastD_cons]

@[simp] theorem mintedUnder_nil (startDate : Int) : mintedUnder [] startDate = 0 := rfl

theorem mintedUnder_cons (x : Epoch × Minter × UInt64) (trace : List (Epoch × Minter × UInt64))
    (startDate : Int) :
    mintedUnder (x :: trace) startDate =
      (if x.2.1.startDate = startDate then x.2.2.toNat else 0) + mintedUnder trace startDate := by
  unfold mintedUnder
  by_cases hx : x.2.1.startDate = startDate
  · simp [hx]
  · simp [hx]

theorem mintDates_cons (x : Epoch × Minter × UInt64) (trace : List (Epoch × Minter × UInt64)) :
    mintDates (x :: trace) =
      (if x.2.2 ≠ 0 then [(x.2.1.startDate, formatDate x.1.currentEpochStartTime)] else []) ++
        mintDates trace := by
  unfold mintDates
  by_cases hx : x.2.2 = 0
  · simp [hx]
  · simp [hx]

section Valid

variable (hvalid : ∀ r ∈ tokenReleaseSchedule, r.startDate ≤ r.endDate)
include hvalid

-- Start dates only grow along a run, so the minters with the final one's start date are the final
-- one, and what they minted is what it released.
theorem mintedUnder_finalMinter {m : Minter} {d : Int} {epochs : List Epoch}
    {trace : List (Epoch × Minter × UInt64)} (h : afterEpochEnds tokenReleaseSchedule m epochs = some trace)
    (hm : Steady m d) (hd : ∀ epoch ∈ epochs, d ≤ formatDate epoch.currentEpochStartTime)
    (hmono : epochs.Pairwise fun a b => a.currentEpochStartTime ≤ b.currentEpochStartTime) :
    m.startDate ≤ (finalMinter m trace).startDate ∧
      ((finalMinter m trace).startDate = m.startDate →
        (finalMinter m trace).totalMintAmount = m.totalMintAmount) ∧
      mintedUnder trace (finalMinter m trace).startDate +
          (finalMinter m trace).remainingMintAmount.toNat =
        if (finalMinter m trace).startDate = m.startDate then m.remainingMintAmount.toNat
        else (finalMinter m trace).totalMintAmount.toNat := by
  induction epochs generalizing m d trace with
  | nil =>
    cases h
    simp
  | cons epoch epochs ih =>
    obtain ⟨m', minted, trace', hfirst, hrest, rfl⟩ := afterEpochEnds_cons h
    obtain ⟨hle', htotal', hsum'⟩ := ih hrest (hm.afterEpochEnd hvalid (hd epoch List.mem_cons_self) hfirst)
      (formatDate_le_of_pairwise hmono) (List.pairwise_cons.1 hmono).2
    rw [finalMinter_cons, mintedUnder_cons]
    dsimp only at hle' htotal' hsum' ⊢
    generalize finalMinter m' trace' = f at hle' htotal' hsum' ⊢
    rcases afterEpochEnd_same_or_new hm.start_le_end hfirst with ⟨hstart, htotal, hrem⟩ | ⟨hlt, hrem⟩
    · -- the same minter: its mint comes out of its remaining amount
      refine ⟨hstart ▸ hle', fun hf => (htotal' (hf.trans hstart.symm)).trans htotal, ?_⟩
      by_cases hf : f.startDate = m.startDate
      · rw [if_pos (hstart.trans hf.symm), if_pos hf]
        rw [if_pos (hf.trans hstart.symm)] at hsum'
        omega
      · rw [if_neg (fun h' => hf (h'.symm.trans hstart)), if_neg hf]
        rw [if_neg (fun h' => hf (h'.trans hstart))] at hsum'
        omega
    · -- a new minter: its mint comes out of its total, and its start date is a new one
      have hne : f.startDate ≠ m.startDate := by omega
      refine ⟨by omega, fun hf => absurd hf hne, ?_⟩
      rw [if_neg hne]
      by_cases hf : f.startDate = m'.startDate
      · rw [if_pos hf.symm]
        rw [if_pos hf] at hsum'
        rw [htotal' hf]
        omega
      · rw [if_neg (fun h' => hf h'.symm)]
        rw [if_neg hf] at hsum'
        omega

-- The mints of a run under the minter it started with, or a later one with the same start
-- date, fall after that minter's last mint; no minter's start date is earlier than its.
theorem mintDates_after_lastMint {m : Minter} {d : Int} {epochs : List Epoch}
    {trace : List (Epoch × Minter × UInt64)} (h : afterEpochEnds tokenReleaseSchedule m epochs = some trace)
    (hm : Steady m d) (hd : ∀ epoch ∈ epochs, d ≤ formatDate epoch.currentEpochStartTime)
    (hmono : epochs.Pairwise fun a b => a.currentEpochStartTime ≤ b.currentEpochStartTime) :
    ∀ x ∈ mintDates trace, m.startDate ≤ x.1 ∧ (x.1 = m.startDate → m.lastMintDate < x.2) := by
  induction epochs generalizing m d trace with
  | nil =>
    cases h
    exact fun _ hx => absurd hx List.not_mem_nil
  | cons epoch epochs ih =>
    obtain ⟨m', minted, trace', hfirst, hrest, rfl⟩ := afterEpochEnds_cons h
    have hd₀ := hd epoch List.mem_cons_self
    have hrest' := ih hrest (hm.afterEpochEnd hvalid hd₀ hfirst) (formatDate_le_of_pairwise hmono)
      (List.pairwise_cons.1 hmono).2
    rw [mintDates_cons]
    intro x hx
    rcases afterEpochEnd_mint_cases hfirst with ⟨rfl, rfl⟩ | ⟨hmint, rfl⟩ | ⟨r, hr, hmint, rfl⟩
    · -- nothing minted: the stored minter is unchanged
      simp only [ne_eq, not_true_eq_false, if_false, List.nil_append] at hx
      exact hrest' x hx
    · -- a mint by the same minter, on a date after its last mint, which it records
      have hlast := hm.lastMint_le
      simp only [ne_eq, hmint.pos, not_false_eq_true, if_true, List.singleton_append,
        List.mem_cons] at hx
      rcases hx with rfl | hx
      · have := hmint.fresh
        exact ⟨le_refl _, fun _ => by simp only [startDate_recordSuccessfulMint] at *; omega⟩
      · obtain ⟨hle, hafter⟩ := hrest' x hx
        simp only [startDate_recordSuccessfulMint, lastMintDate_recordSuccessfulMint] at hle hafter
        exact ⟨hle, fun hx₁ => by have := hafter hx₁; omega⟩
    · -- a mint by a new minter, whose start date is later
      have hlt : m.startDate < r.startDate := by
        have := hr.after_end
        have := hr.new_start
        have := hm.start_le_end
        omega
      simp only [ne_eq, hmint.pos, not_false_eq_true, if_true, List.singleton_append,
        List.mem_cons] at hx
      rcases hx with rfl | hx
      · exact ⟨by simp only [startDate_recordSuccessfulMint, startDate_newMinter]; omega,
          fun hx₁ => by simp only [startDate_recordSuccessfulMint, startDate_newMinter] at hx₁; omega⟩
      · obtain ⟨hle, -⟩ := hrest' x hx
        simp only [startDate_recordSuccessfulMint, startDate_newMinter] at hle
        exact ⟨by omega, fun hx₁ => by omega⟩

theorem mintDates_pairwise {m : Minter} {d : Int} {epochs : List Epoch}
    {trace : List (Epoch × Minter × UInt64)} (h : afterEpochEnds tokenReleaseSchedule m epochs = some trace)
    (hm : Steady m d) (hd : ∀ epoch ∈ epochs, d ≤ formatDate epoch.currentEpochStartTime)
    (hmono : epochs.Pairwise fun a b => a.currentEpochStartTime ≤ b.currentEpochStartTime) :
    (mintDates trace).Pairwise fun a b => a.1 = b.1 → a.2 < b.2 := by
  induction epochs generalizing m d trace with
  | nil =>
    cases h
    exact List.Pairwise.nil
  | cons epoch epochs ih =>
    obtain ⟨m', minted, trace', hfirst, hrest, rfl⟩ := afterEpochEnds_cons h
    have hd₀ := hd epoch List.mem_cons_self
    have hm' := hm.afterEpochEnd hvalid hd₀ hfirst
    have htail := ih hrest hm' (formatDate_le_of_pairwise hmono) (List.pairwise_cons.1 hmono).2
    rw [mintDates_cons]
    split_ifs with hpos
    · -- the mint records its date, and later mints by the same minter come after it
      have hlast : m'.lastMintDate = formatDate epoch.currentEpochStartTime := by
        rcases afterEpochEnd_mint_cases hfirst with ⟨-, rfl⟩ | ⟨-, rfl⟩ | ⟨r, -, -, rfl⟩
        · exact absurd rfl hpos
        · rfl
        · rfl
      refine List.pairwise_cons.2 ⟨fun b hb hsame => ?_, htail⟩
      have := (mintDates_after_lastMint hvalid hrest hm' (formatDate_le_of_pairwise hmono)
        (List.pairwise_cons.1 hmono).2 b hb).2 hsame.symm
      rw [hlast] at this
      exact this
    · exact htail

end Valid

end Runs

-- The stored minter never has more left than its total, mints nothing before its start or after
-- its end; no minter mints twice on one date; the final minter's mints are what it released.
structure ReleaseKept (minter : Minter) (trace : List (Epoch × Minter × UInt64)) : Prop where
  per_epoch : ∀ x ∈ trace, x.2.1.remainingMintAmount ≤ x.2.1.totalMintAmount ∧
    (x.2.2 ≠ 0 → x.2.1.startDate ≤ formatDate x.1.currentEpochStartTime) ∧
    (midnight x.2.1.startDate ≤ x.1.currentEpochStartTime →
      x.2.1.endDate ≤ formatDate x.1.currentEpochStartTime + 1 → x.2.1.remainingMintAmount = 0)
  one_mint_per_date : (mintDates trace).Pairwise fun a b => a.1 = b.1 → a.2 < b.2
  minted_under_final : mintedUnder trace (finalMinter minter trace).startDate +
      (finalMinter minter trace).remainingMintAmount.toNat =
    if (finalMinter minter trace).startDate = minter.startDate then minter.remainingMintAmount.toNat
    else (finalMinter minter trace).totalMintAmount.toNat

-- Before the first epoch the minter's last mint is on a day the run does not reach, and no
-- amount reaches 2^63.
theorem token_release_per_minter (tokenReleaseSchedule : List ScheduledTokenRelease)
    (hschedule : validateTokenReleaseSchedule tokenReleaseSchedule = .ok ())
    (minter : Minter) (hminter : validateMinter minter = .ok ()) (epochs : List Epoch)
    (hmono : epochs.Pairwise fun a b => a.currentEpochStartTime ≤ b.currentEpochStartTime)
    (hlast : ∀ epoch ∈ epochs, minter.lastMintDate < formatDate epoch.currentEpochStartTime)
    (hsmall : minter.remainingMintAmount.toNat < 2 ^ 63 ∧
      ∀ r ∈ tokenReleaseSchedule, r.tokenReleaseAmount.toNat < 2 ^ 63) :
    ∃ trace, afterEpochEnds tokenReleaseSchedule minter epochs = some trace ∧
      ReleaseKept minter trace := by
  have hvalid := validateTokenReleaseSchedule_ok hschedule
  obtain ⟨hle, hdates⟩ := validateMinter_ok hminter
  -- the day after the last mint stands for the epoch before the first
  have hsteady : Steady minter (minter.lastMintDate + 1) :=
    ⟨hle, hdates, by omega, fun h => absurd h (by omega)⟩
  have hd : ∀ epoch ∈ epochs, minter.lastMintDate + 1 ≤ formatDate epoch.currentEpochStartTime :=
    fun epoch he => hlast epoch he
  obtain ⟨trace, htrace⟩ := afterEpochEnds_isSome hsmall.2 hsmall.1 epochs
  refine ⟨trace, htrace, ⟨?_, mintDates_pairwise hvalid htrace hsteady hd hmono,
    (mintedUnder_finalMinter hvalid htrace hsteady hd hmono).2.2⟩⟩
  refine afterEpochEnds_induction Steady (fun epoch m' minted =>
      m'.remainingMintAmount ≤ m'.totalMintAmount ∧
      (minted ≠ 0 → m'.startDate ≤ formatDate epoch.currentEpochStartTime) ∧
      (midnight m'.startDate ≤ epoch.currentEpochStartTime →
        m'.endDate ≤ formatDate epoch.currentEpochStartTime + 1 → m'.remainingMintAmount = 0))
    ?_ htrace hsteady hd hmono
  intro m d epoch m' minted hm hd' hstep
  have hm' := hm.afterEpochEnd hvalid hd' hstep
  refine ⟨hm', UInt64.le_iff_toNat_le.2 hm'.remaining_le, fun hpos => ?_,
    remainingMintAmount_eq_zero_of_lastDay hvalid hm hd' hstep⟩
  -- a mint happens only from the start date of the minter that makes it
  rcases afterEpochEnd_mint_cases hstep with ⟨-, rfl⟩ | ⟨hmint, rfl⟩ | ⟨r, -, hmint, rfl⟩
  · exact absurd rfl hpos
  · exact midnight_le_iff.1 hmint.started
  · exact midnight_le_iff.1 hmint.started

def backToBackReleases : List ScheduledTokenRelease :=
  [⟨19447, 19448, 100⟩, ⟨19448, 19458, 100⟩]

def sameDayEpochs : List Epoch :=
  [⟨midnight 19448 + 36000000000000, 1⟩, ⟨midnight 19448 + 39600000000000, 2⟩]

theorem validateTokenReleaseSchedule_backToBackReleases :
    validateTokenReleaseSchedule backToBackReleases = .ok () := by
  have hsorted : sortTokenReleaseCalendar backToBackReleases = backToBackReleases :=
    List.mergeSort_of_pairwise (by decide)
  simp only [validateTokenReleaseSchedule, hsorted]
  decide

theorem token_release_per_minter_back_to_back :
    ∃ trace, afterEpochEnds backToBackReleases initialMinter sameDayEpochs = some trace ∧
      ReleaseKept initialMinter trace :=
  token_release_per_minter backToBackReleases validateTokenReleaseSchedule_backToBackReleases
    initialMinter (by decide) sameDayEpochs (by decide) (by decide) (by decide)

def exportedMinter : Minter := ⟨19443, 19448, 100, 50, 19447, 0, 0⟩

-- A release installed on the day the previous one ended mints again on that date; a last mint the
-- day before the end keeps the remaining amount; a release of 2^63 panics.
theorem two_mints_one_date_stale_last_mint_overflow_panic :
    ((afterEpochEnds backToBackReleases initialMinter sameDayEpochs).map fun trace =>
        trace.map fun x => (x.2.1.startDate, formatDate x.1.currentEpochStartTime, x.2.2)) =
      some [(19447, 19448, 100), (19448, 19448, 10)] ∧
    validateTokenReleaseSchedule backToBackReleases = .ok () ∧
    validateMinter exportedMinter = .ok () ∧
    (afterEpochEnd [] exportedMinter ⟨midnight 19447 + 43200000000000, 1⟩).map
        (fun r => r.1.remainingMintAmount) = some 50 ∧
    afterEpochEnd [] (newMinter 19448 19448 9223372036854775808) ⟨midnight 19448 + 36000000000000, 1⟩ =
      none :=
  ⟨by decide, validateTokenReleaseSchedule_backToBackReleases, by decide, by decide, by decide⟩

end SeiChain.Mint
