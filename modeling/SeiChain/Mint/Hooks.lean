import Mathlib
import SeiChain.Mint.Epochs
import SeiChain.Epoch.Module

namespace SeiChain.Mint

def toMintEpoch (e : SeiChain.Epoch.Epoch) : Epoch := ⟨e.currentEpochStartTime, e.currentEpochHeight⟩

-- `Hooks`: `AfterEpochEnd` mints, a panic being `none`; `BeforeEpochStart` does nothing.
def hooks (tokenReleaseSchedule : List ScheduledTokenRelease) : SeiChain.Epoch.EpochHooks Minter where
  afterEpochEnd minter epoch := (afterEpochEnd tokenReleaseSchedule minter (toMintEpoch epoch)).map Prod.fst
  beforeEpochStart minter _ := some minter

def appEpochHooks (tokenReleaseSchedule : List ScheduledTokenRelease) : List (SeiChain.Epoch.EpochHooks Minter) :=
  [hooks tokenReleaseSchedule]

section Chain

variable {tokenReleaseSchedule : List ScheduledTokenRelease}

-- Along epochs whose ends the mint runs through without a panic, the hooks leave the minter the
-- run leaves. The induction follows `hookRun`, one ended epoch at a time.
theorem hookRun_appEpochHooks {minter : Minter} {epochs : List SeiChain.Epoch.Epoch}
    {trace : List (Epoch × Minter × UInt64)}
    (h : afterEpochEnds tokenReleaseSchedule minter (epochs.dropLast.map toMintEpoch) = some trace) :
    SeiChain.Epoch.hookRun (appEpochHooks tokenReleaseSchedule) minter epochs = finalMinter minter trace := by
  induction epochs generalizing minter trace with
  | nil =>
    cases h
    rfl
  | cons a rest ih =>
    cases rest with
    | nil =>
      cases h
      rfl
    | cons b rest =>
      rw [List.dropLast_cons_cons, List.map_cons] at h
      obtain ⟨m', minted, trace', hfirst, hrest, rfl⟩ := afterEpochEnds_cons h
      -- the epoch's end stores the new minter, and the next start leaves it
      have hstep : SeiChain.Epoch.multiBeforeEpochStart (appEpochHooks tokenReleaseSchedule)
          (SeiChain.Epoch.multiAfterEpochEnd (appEpochHooks tokenReleaseSchedule) minter a) b = m' := by
        simp [SeiChain.Epoch.multiBeforeEpochStart, SeiChain.Epoch.multiAfterEpochEnd, appEpochHooks,
          SeiChain.Epoch.panicCatchingEpochHook, hooks, hfirst]
      rw [SeiChain.Epoch.hookRun, hstep, ih hrest, finalMinter_cons]

-- Below 2^63 the hook never panics over blocks in time order: it stores the minter the run of
-- `AfterEpochEnd` over the ended epochs leaves, and no minter mints twice on one date.
theorem chain_mints_once_per_date (hschedule : validateTokenReleaseSchedule tokenReleaseSchedule = .ok ())
    {minter : Minter} (hminter : validateMinter minter = .ok ())
    (hsmall : minter.remainingMintAmount.toNat < 2 ^ 63 ∧
      ∀ r ∈ tokenReleaseSchedule, r.tokenReleaseAmount.toNat < 2 ^ 63)
    {epoch : SeiChain.Epoch.Epoch} {blocks : List SeiChain.Epoch.Block}
    (hmono : blocks.Pairwise fun a b => a.time ≤ b.time)
    (hstart : ∀ block ∈ blocks, epoch.currentEpochStartTime ≤ block.time)
    (hlast : minter.lastMintDate < formatDate epoch.currentEpochStartTime) :
    ∃ trace, afterEpochEnds tokenReleaseSchedule minter
        ((SeiChain.Epoch.epochsOf epoch blocks).dropLast.map toMintEpoch) = some trace ∧
      (SeiChain.Epoch.runBlocks (appEpochHooks tokenReleaseSchedule) ⟨epoch, minter⟩ blocks).hooks =
        finalMinter minter trace ∧
      (mintDates trace).Pairwise fun a b => a.1 = b.1 → a.2 < b.2 := by
  have hvalid := validateTokenReleaseSchedule_ok hschedule
  obtain ⟨hle, hdates⟩ := validateMinter_ok hminter
  obtain ⟨trace, htrace⟩ := afterEpochEnds_isSome hsmall.2 hsmall.1
    ((SeiChain.Epoch.epochsOf epoch blocks).dropLast.map toMintEpoch)
  refine ⟨trace, htrace, ?_, ?_⟩
  · rw [SeiChain.Epoch.runBlocks_eq]
    exact hookRun_appEpochHooks htrace
  · -- the ended epochs start in order, none before the epoch the chain starts from
    have hordered := (SeiChain.Epoch.epochsOf_pairwise_start hmono hstart).sublist
      (List.dropLast_sublist _)
    have hmono' : ((SeiChain.Epoch.epochsOf epoch blocks).dropLast.map toMintEpoch).Pairwise
        fun a b => a.currentEpochStartTime ≤ b.currentEpochStartTime :=
      List.pairwise_map.2 hordered
    have hd : ∀ e ∈ (SeiChain.Epoch.epochsOf epoch blocks).dropLast.map toMintEpoch,
        minter.lastMintDate + 1 ≤ formatDate e.currentEpochStartTime := by
      intro e he
      obtain ⟨x, hx, rfl⟩ := List.mem_map.1 he
      have hlater : epoch.currentEpochStartTime ≤ x.currentEpochStartTime := by
        rcases (SeiChain.Epoch.mem_epochsOf (List.dropLast_subset _ hx)).2.2 with rfl | ⟨b, hb, htime, -⟩
        · exact le_rfl
        · exact htime ▸ hstart b hb
      have := formatDate_mono hlater
      simp only [toMintEpoch]
      omega
    -- the day after the last mint stands for the epoch before the first
    have hsteady : Steady minter (minter.lastMintDate + 1) :=
      ⟨hle, hdates, by omega, fun h => absurd h (by omega)⟩
    exact mintDates_pairwise hvalid htrace hsteady hd hmono'

def threeDayRelease : List ScheduledTokenRelease := [⟨19448, 19450, 300⟩]

def dailyEpoch : SeiChain.Epoch.Epoch := ⟨midnight 19448, nanosPerDay, 0, midnight 19448, 0⟩

def dailyBlocks : List SeiChain.Epoch.Block :=
  [⟨midnight 19448 + 36000000000000, 1⟩, ⟨midnight 19449 + 39600000000000, 2⟩,
    ⟨midnight 19450 + 36000000000000, 3⟩]

theorem chain_mints_once_per_date_daily :
    ∃ trace, afterEpochEnds threeDayRelease initialMinter
        ((SeiChain.Epoch.epochsOf dailyEpoch dailyBlocks).dropLast.map toMintEpoch) = some trace ∧
      (SeiChain.Epoch.runBlocks (appEpochHooks threeDayRelease) ⟨dailyEpoch, initialMinter⟩ dailyBlocks).hooks =
        finalMinter initialMinter trace ∧
      (mintDates trace).Pairwise fun a b => a.1 = b.1 → a.2 < b.2 := by
  have hschedule : validateTokenReleaseSchedule threeDayRelease = .ok () := by
    have hsorted : sortTokenReleaseCalendar threeDayRelease = threeDayRelease :=
      List.mergeSort_of_pairwise (by decide)
    simp only [validateTokenReleaseSchedule, hsorted]
    decide
  exact chain_mints_once_per_date hschedule (by decide) (by decide) (by decide) (by decide) (by decide)

end Chain

end SeiChain.Mint
