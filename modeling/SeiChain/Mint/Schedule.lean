import SeiChain.Mint.Epochs
import SeiChain.Lib.List

namespace SeiChain.Mint

-- The releases a run installs, in order: the minter stored after an epoch is a new one when
-- its start date is not the start date of the minter stored before.
def installs : Minter → List (Epoch × Minter × UInt64) → List ScheduledTokenRelease
  | _, [] => []
  | m, (_, m', _) :: trace =>
    (if m'.startDate ≠ m.startDate then [⟨m'.startDate, m'.endDate, m'.totalMintAmount⟩] else []) ++
      installs m' trace

def totalMinted (trace : List (Epoch × Minter × UInt64)) : Nat :=
  (trace.map fun x => x.2.2.toNat).sum

-- The releases that may still follow `m`: they start no earlier than it ends, not on its start
-- date, and before `latest`.
def pending (tokenReleaseSchedule : List ScheduledTokenRelease) (m : Minter) (latest : Int) :
    List ScheduledTokenRelease :=
  tokenReleaseSchedule.filter fun r =>
    decide (m.endDate ≤ r.startDate ∧ r.startDate ≠ m.startDate ∧ midnight r.startDate < latest)

def releaseAmount (releases : List ScheduledTokenRelease) : Nat :=
  (releases.map fun r => r.tokenReleaseAmount.toNat).sum

@[simp] theorem totalMinted_cons (x : Epoch × Minter × UInt64) (trace : List (Epoch × Minter × UInt64)) :
    totalMinted (x :: trace) = x.2.2.toNat + totalMinted trace := by
  simp [totalMinted]

theorem remainingMintAmount_eq_zero_of_replaced {tokenReleaseSchedule : List ScheduledTokenRelease}
    {m : Minter} {epoch : Epoch} (h : getOrUpdateLatestMinter tokenReleaseSchedule m epoch ≠ m) :
    m.remainingMintAmount = 0 := by
  rcases getOrUpdateLatestMinter_cases tokenReleaseSchedule m epoch with hkeep | ⟨r, hr, -⟩
  · exact absurd hkeep h
  · exact hr.finished

section Valid

variable {tokenReleaseSchedule : List ScheduledTokenRelease}
  (hvalid : ∀ r ∈ tokenReleaseSchedule, r.startDate ≤ r.endDate)
include hvalid

theorem releaseAmount_pending_replaced {m : Minter} {epoch : Epoch} {r : ScheduledTokenRelease}
    (hr : Replaces tokenReleaseSchedule m epoch r) (hm : m.startDate ≤ m.endDate) {latest : Int}
    (hlatest : epoch.currentEpochStartTime ≤ latest) :
    releaseAmount (pending tokenReleaseSchedule (newMinter r.startDate r.endDate r.tokenReleaseAmount)
        latest) + r.tokenReleaseAmount.toNat ≤
      releaseAmount (pending tokenReleaseSchedule m latest) := by
  have hend := hvalid r hr.mem
  have hafter := hr.after_end
  have hnew := hr.new_start
  have hstarted := hr.started
  apply List.sum_map_filter_add_le _ _ hr.mem
  · simp only [decide_eq_true_eq]
    exact ⟨hafter, hnew, by omega⟩
  · simp
  · -- a release after the new minter is after the one it replaces
    intro x hx
    obtain ⟨hx₁, hx₂, hx₃⟩ := of_decide_eq_true hx
    simp only [endDate_newMinter, startDate_newMinter] at hx₁ hx₂
    exact decide_eq_true ⟨by omega, by omega, hx₃⟩

-- Every install is a started release, later than the first minter, in growing start-date order;
-- what was minted is at most what the first minter had left and what was pending for it.
theorem installs_spec {m : Minter} {epochs : List Epoch} {trace : List (Epoch × Minter × UInt64)}
    (h : afterEpochEnds tokenReleaseSchedule m epochs = some trace) (hm : m.startDate ≤ m.endDate)
    {latest : Int} (hlatest : ∀ epoch ∈ epochs, epoch.currentEpochStartTime ≤ latest) :
    (∀ r ∈ installs m trace, r ∈ tokenReleaseSchedule ∧ m.startDate < r.startDate ∧
      midnight r.startDate < latest) ∧
    (installs m trace).Pairwise (fun a b => a.startDate < b.startDate) ∧
    totalMinted trace ≤ m.remainingMintAmount.toNat + releaseAmount (pending tokenReleaseSchedule m latest) := by
  induction epochs generalizing m trace with
  | nil =>
    cases h
    exact ⟨fun _ hr => absurd hr List.not_mem_nil, List.Pairwise.nil, Nat.zero_le _⟩
  | cons epoch epochs ih =>
    obtain ⟨m', minted, trace', hfirst, hrest, rfl⟩ := afterEpochEnds_cons h
    have hlatest' : ∀ e ∈ epochs, e.currentEpochStartTime ≤ latest :=
      fun e he => hlatest e (List.mem_cons_of_mem _ he)
    have htime := hlatest epoch List.mem_cons_self
    rcases afterEpochEnd_mint_cases hfirst with ⟨rfl, rfl⟩ | ⟨hmint, rfl⟩ | ⟨r, hr, hmint, rfl⟩
    · -- nothing minted, nothing installed
      obtain ⟨hmem, hpair, htotal⟩ := ih hrest hm hlatest'
      simp only [installs, ne_eq, not_true_eq_false, if_false, List.nil_append, totalMinted_cons]
      exact ⟨hmem, hpair, by simpa using htotal⟩
    · -- a mint by the same minter comes out of its remaining amount
      obtain ⟨hmem, hpair, htotal⟩ := ih hrest hm hlatest'
      have hrem := remainingMintAmount_recordSuccessfulMint_toNat hmint
      have hsame : pending tokenReleaseSchedule (m.recordSuccessfulMint epoch minted) latest =
          pending tokenReleaseSchedule m latest := rfl
      simp only [installs, startDate_recordSuccessfulMint, ne_eq, not_true_eq_false, if_false,
        List.nil_append, totalMinted_cons] at hmem hpair htotal ⊢
      rw [hsame] at htotal
      exact ⟨hmem, hpair, by omega⟩
    · -- a new minter: its release is installed, and its total comes out of what was pending
      have hrange := hvalid r hr.mem
      have hlt : m.startDate < r.startDate := by
        have := hr.after_end
        have := hr.new_start
        omega
      obtain ⟨hmem, hpair, htotal⟩ := ih hrest (by simpa using hrange) hlatest'
      have hrem := remainingMintAmount_recordSuccessfulMint_toNat hmint
      have hpending := releaseAmount_pending_replaced hvalid hr hm htime
      have hfinished := hr.finished
      have hstarted := hr.started
      simp only [installs, startDate_recordSuccessfulMint, startDate_newMinter,
        endDate_recordSuccessfulMint, endDate_newMinter, totalMintAmount_recordSuccessfulMint,
        totalMintAmount_newMinter, remainingMintAmount_newMinter, ne_eq, hr.new_start,
        not_false_eq_true, if_true, List.singleton_append, totalMinted_cons] at hmem hpair htotal hrem ⊢
      have hpend_eq : pending tokenReleaseSchedule ((newMinter r.startDate r.endDate
          r.tokenReleaseAmount).recordSuccessfulMint epoch minted) latest =
          pending tokenReleaseSchedule (newMinter r.startDate r.endDate r.tokenReleaseAmount) latest := rfl
      rw [hpend_eq] at htotal
      rw [hfinished, UInt64.toNat_zero]
      refine ⟨fun x hx => ?_, List.pairwise_cons.2 ⟨fun x hx => (hmem x hx).2.1, hpair⟩, by omega⟩
      rcases List.mem_cons.1 hx with rfl | hx
      · exact ⟨hr.mem, hlt, show midnight r.startDate < latest by omega⟩
      · obtain ⟨hx₁, hx₂, hx₃⟩ := hmem x hx
        exact ⟨hx₁, by omega, hx₃⟩

end Valid

-- Each release is installed at most once, in start-date order, once the minter before it is spent;
-- a run mints at most what the first minter had left and the releases started before the end.
theorem scheduled_releases_installed_once (tokenReleaseSchedule : List ScheduledTokenRelease)
    (hschedule : validateTokenReleaseSchedule tokenReleaseSchedule = .ok ())
    (minter : Minter) (hminter : validateMinter minter = .ok ()) (epochs : List Epoch)
    (trace : List (Epoch × Minter × UInt64))
    (h : afterEpochEnds tokenReleaseSchedule minter epochs = some trace) (latest : Int)
    (hlatest : ∀ epoch ∈ epochs, epoch.currentEpochStartTime ≤ latest) :
    (∀ m epoch, getOrUpdateLatestMinter tokenReleaseSchedule m epoch ≠ m →
      m.remainingMintAmount = 0) ∧
    (∀ r ∈ installs minter trace, r ∈ tokenReleaseSchedule ∧ midnight r.startDate < latest) ∧
    (installs minter trace).Pairwise (fun a b => a.startDate < b.startDate) ∧
    totalMinted trace ≤ minter.remainingMintAmount.toNat +
      releaseAmount (tokenReleaseSchedule.filter fun r => decide (midnight r.startDate < latest)) := by
  have hvalid := validateTokenReleaseSchedule_ok hschedule
  obtain ⟨hmem, hpair, htotal⟩ := installs_spec hvalid h (validateMinter_ok hminter).2 hlatest
  refine ⟨fun m epoch => remainingMintAmount_eq_zero_of_replaced, fun r hr => ⟨(hmem r hr).1,
    (hmem r hr).2.2⟩, hpair, ?_⟩
  -- what is pending for the first minter has started before `latest`
  have hsub : releaseAmount (pending tokenReleaseSchedule minter latest) ≤
      releaseAmount (tokenReleaseSchedule.filter fun r => decide (midnight r.startDate < latest)) :=
    List.sum_map_filter_le _ (fun _ hx => decide_eq_true (of_decide_eq_true hx).2.2) _
  omega

def backToBackTrace : List (Epoch × Minter × UInt64) :=
  [(⟨midnight 19448 + 36000000000000, 1⟩, ⟨19447, 19448, 100, 0, 19448, 1, 100⟩, 100),
   (⟨midnight 19448 + 39600000000000, 2⟩, ⟨19448, 19458, 100, 90, 19448, 2, 10⟩, 10)]

theorem scheduled_releases_installed_once_back_to_back :
    (∀ m epoch, getOrUpdateLatestMinter backToBackReleases m epoch ≠ m →
      m.remainingMintAmount = 0) ∧
    (∀ r ∈ installs initialMinter backToBackTrace, r ∈ backToBackReleases ∧
      midnight r.startDate < midnight 19448 + 39600000000000) ∧
    (installs initialMinter backToBackTrace).Pairwise (fun a b => a.startDate < b.startDate) ∧
    totalMinted backToBackTrace ≤ initialMinter.remainingMintAmount.toNat +
      releaseAmount (backToBackReleases.filter fun r =>
        decide (midnight r.startDate < midnight 19448 + 39600000000000)) :=
  scheduled_releases_installed_once backToBackReleases validateTokenReleaseSchedule_backToBackReleases
    initialMinter (by decide) sameDayEpochs backToBackTrace rfl (midnight 19448 + 39600000000000)
    (by decide)

-- `ValidateGenesis` accepts a minter with any remaining amount. With no release scheduled,
-- such a minter for 2023-04-01 mints its 100 at 10:00 that day.
theorem genesis_minter_mints_beyond_schedule :
    validateTokenReleaseSchedule [] = .ok () ∧ validateMinter (newMinter 19448 19448 100) = .ok () ∧
    (afterEpochEnds [] (newMinter 19448 19448 100) [⟨midnight 19448 + 36000000000000, 1⟩]).map
      totalMinted = some 100 :=
  ⟨by simp [validateTokenReleaseSchedule, sortTokenReleaseCalendar]; rfl, by decide, by decide⟩

end SeiChain.Mint
