import SeiChain.Mint.Minter

namespace SeiChain.Mint

theorem midnight_le_iff {d : Int} {t : Int} : midnight d ≤ t ↔ d ≤ formatDate t := by
  unfold midnight formatDate nanosPerDay
  omega

theorem midnight_le_midnight {a b : Int} : midnight a ≤ midnight b ↔ a ≤ b := by
  unfold midnight nanosPerDay
  omega

@[simp] theorem formatDate_midnight (d : Int) : formatDate (midnight d) = d := by
  unfold formatDate midnight nanosPerDay
  omega

theorem formatDate_mono {s t : Int} (h : s ≤ t) : formatDate s ≤ formatDate t := by
  unfold formatDate nanosPerDay
  omega

theorem daysBetween_eq (a b : Int) :
    daysBetween a b = min (formatDate a - formatDate b).natAbs 106751 := by
  unfold daysBetween
  dsimp only
  generalize (formatDate a - formatDate b).natAbs = n
  omega

theorem daysBetween_midnight_of_le {t e : Int} (hle : t ≤ midnight e)
    (hclose : e - formatDate t ≤ 106751) : (daysBetween t (midnight e) : Int) = e - formatDate t := by
  have hend := formatDate_mono hle
  rw [formatDate_midnight] at hend
  rw [daysBetween_eq, formatDate_midnight]
  omega

theorem div_le_sub_div {R n k : Nat} (hk : 0 < k) (hkn : k < n) : R / n ≤ (R - R / n) / k := by
  rw [Nat.le_div_iff_mul_le hk]
  have hself : R / n * n ≤ R := Nat.div_mul_le_self R n
  have hmore : R / n * (k + 1) ≤ R / n * n := Nat.mul_le_mul_left _ hkn
  rw [Nat.mul_add, Nat.mul_one] at hmore
  omega

namespace Minter

variable (m : Minter) (t : Int)

theorem getReleaseAmountToday_le : m.getReleaseAmountToday t ≤ m.remainingMintAmount := by
  unfold getReleaseAmountToday
  dsimp only
  split_ifs
  · exact UInt64.le_iff_toNat_le.2 (Nat.zero_le _)
  · exact UInt64.le_iff_toNat_le.2 (Nat.le_refl _)
  · rw [UInt64.le_iff_toNat_le, UInt64.toNat_div]
    exact Nat.div_le_self _ _

theorem getReleaseAmountToday_ne_zero (h : m.getReleaseAmountToday t ≠ 0) :
    midnight m.startDate ≤ t ∧ formatDate t ≠ m.lastMintDate := by
  unfold getReleaseAmountToday at h
  split_ifs at h with hskip
  · exact absurd rfl h
  · rw [not_or, not_lt] at hskip
    exact hskip

theorem getReleaseAmountToday_cases (hstart : midnight m.startDate ≤ t)
    (hfresh : formatDate t ≠ m.lastMintDate) :
    m.getReleaseAmountToday t = m.remainingMintAmount ∨
      (t ≤ midnight m.endDate ∧ 0 < daysBetween t (midnight m.endDate) ∧
        (m.getReleaseAmountToday t).toNat =
          m.remainingMintAmount.toNat / daysBetween t (midnight m.endDate)) := by
  unfold getReleaseAmountToday
  rw [if_neg (by rw [not_or, not_lt]; exact ⟨hstart, hfresh⟩)]
  dsimp only
  split_ifs with hpast
  · exact .inl rfl
  · rw [not_or, not_lt] at hpast
    -- the days left are at most 106751, so they fit in a `uint64`
    have hdays : daysBetween t (midnight m.endDate) < 2 ^ 64 := by
      rw [daysBetween_eq]
      omega
    refine .inr ⟨hpast.1, Nat.pos_of_ne_zero hpast.2, ?_⟩
    rw [UInt64.toNat_div, UInt64.toNat_ofNat_of_lt' hdays]

theorem getReleaseAmountToday_eq_remaining (hstart : midnight m.startDate ≤ t)
    (hfresh : formatDate t ≠ m.lastMintDate) (hend : m.endDate ≤ formatDate t + 1) :
    m.getReleaseAmountToday t = m.remainingMintAmount := by
  unfold getReleaseAmountToday
  rw [if_neg (by rw [not_or, not_lt]; exact ⟨hstart, hfresh⟩)]
  dsimp only
  split_ifs with hpast
  · rfl
  · -- not past the end and not on it: the day before it, with one day left
    rw [not_or, not_lt] at hpast
    have hle : formatDate t ≤ m.endDate := by
      simpa using formatDate_mono hpast.1
    have hdays : daysBetween t (midnight m.endDate) = 1 := by
      have h0 := hpast.2
      rw [daysBetween_eq, formatDate_midnight] at h0 ⊢
      omega
    rw [hdays]
    exact UInt64.div_one

end Minter

section Fields

variable (m : Minter) (epoch : Epoch) (a : UInt64) (s e : Int) (total : UInt64)

@[simp] theorem startDate_recordSuccessfulMint : (m.recordSuccessfulMint epoch a).startDate = m.startDate := rfl

@[simp] theorem endDate_recordSuccessfulMint : (m.recordSuccessfulMint epoch a).endDate = m.endDate := rfl

@[simp] theorem totalMintAmount_recordSuccessfulMint :
    (m.recordSuccessfulMint epoch a).totalMintAmount = m.totalMintAmount := rfl

@[simp] theorem remainingMintAmount_recordSuccessfulMint :
    (m.recordSuccessfulMint epoch a).remainingMintAmount = m.remainingMintAmount - a := rfl

@[simp] theorem lastMintDate_recordSuccessfulMint :
    (m.recordSuccessfulMint epoch a).lastMintDate = formatDate epoch.currentEpochStartTime := rfl

@[simp] theorem startDate_newMinter : (newMinter s e total).startDate = s := rfl

@[simp] theorem endDate_newMinter : (newMinter s e total).endDate = e := rfl

@[simp] theorem totalMintAmount_newMinter : (newMinter s e total).totalMintAmount = total := rfl

@[simp] theorem remainingMintAmount_newMinter : (newMinter s e total).remainingMintAmount = total := rfl

end Fields

theorem remainingMintAmount_sub_toNat {m : Minter} {t : Int} :
    (m.remainingMintAmount - m.getReleaseAmountToday t).toNat =
      m.remainingMintAmount.toNat - (m.getReleaseAmountToday t).toNat :=
  UInt64.toNat_sub_of_le _ _ (m.getReleaseAmountToday_le t)

-- What a new minter needs: a release of the schedule that has started, starts no earlier than
-- the current minter ends and on another date, and a current minter with nothing left.
structure Replaces (tokenReleaseSchedule : List ScheduledTokenRelease) (m : Minter) (epoch : Epoch)
    (r : ScheduledTokenRelease) : Prop where
  mem : r ∈ tokenReleaseSchedule
  started : midnight r.startDate < epoch.currentEpochStartTime
  after_end : m.endDate ≤ r.startDate
  new_start : r.startDate ≠ m.startDate
  finished : m.remainingMintAmount = 0

theorem getOrUpdateLatestMinter_cases (tokenReleaseSchedule : List ScheduledTokenRelease)
    (m : Minter) (epoch : Epoch) :
    getOrUpdateLatestMinter tokenReleaseSchedule m epoch = m ∨
      ∃ r, Replaces tokenReleaseSchedule m epoch r ∧
        getOrUpdateLatestMinter tokenReleaseSchedule m epoch =
          newMinter r.startDate r.endDate r.tokenReleaseAmount := by
  unfold getOrUpdateLatestMinter
  cases hnext : getNextScheduledTokenRelease epoch tokenReleaseSchedule m with
  | none => exact .inl rfl
  | some r =>
    dsimp only
    split_ifs with hkeep
    · exact .inl rfl
    · rw [not_or] at hkeep
      have hfound := List.find?_some hnext
      simp only [Bool.and_eq_true, decide_eq_true_eq] at hfound
      refine .inr ⟨r, ⟨List.mem_of_find?_eq_some hnext, hfound.1,
        midnight_le_midnight.1 hfound.2, hkeep.2, ?_⟩, rfl⟩
      simpa [Minter.ongoingRelease] using hkeep.1

theorem releaseCoins_eq_some {amount coins : UInt64} (h : releaseCoins amount = some coins) :
    coins = amount ∧ amount.toNat < 2 ^ 63 := by
  unfold releaseCoins at h
  split_ifs at h with hsmall
  · cases h
    exact ⟨rfl, hsmall⟩

-- An epoch mints nothing and keeps its minter when the minter it would mint with releases nothing
-- today, or mints that minter's daily amount and stores it.
theorem afterEpochEnd_cases {tokenReleaseSchedule : List ScheduledTokenRelease} {m m' : Minter}
    {epoch : Epoch} {minted : UInt64}
    (h : afterEpochEnd tokenReleaseSchedule m epoch = some (m', minted)) :
    (m' = m ∧ minted = 0 ∧
      ((getOrUpdateLatestMinter tokenReleaseSchedule m epoch).getReleaseAmountToday
          epoch.currentEpochStartTime = 0 ∨
        (getOrUpdateLatestMinter tokenReleaseSchedule m epoch).remainingMintAmount = 0)) ∨
    (minted ≠ 0 ∧ minted.toNat < 2 ^ 63 ∧
      (getOrUpdateLatestMinter tokenReleaseSchedule m epoch).getReleaseAmountToday
        epoch.currentEpochStartTime = minted ∧
      m' = (getOrUpdateLatestMinter tokenReleaseSchedule m epoch).recordSuccessfulMint epoch minted) := by
  unfold afterEpochEnd at h
  dsimp only at h
  cases hcoins : releaseCoins ((getOrUpdateLatestMinter tokenReleaseSchedule m epoch).getReleaseAmountToday
      epoch.currentEpochStartTime) with
  | none =>
    rw [hcoins] at h
    cases h
  | some coins =>
    rw [hcoins] at h
    obtain ⟨rfl, hsmall⟩ := releaseCoins_eq_some hcoins
    simp only [Option.bind_eq_bind, Option.bind_some] at h
    split_ifs at h with hnone
    · cases h
      exact .inl ⟨rfl, rfl, hnone⟩
    · cases h
      rw [not_or] at hnone
      exact .inr ⟨hnone.1, hsmall, rfl, rfl⟩

-- A mint by `minter`: its daily amount, nonzero and below 2^63, on a date it has not minted on.
structure MintsWith (minter : Minter) (epoch : Epoch) (minted : UInt64) : Prop where
  started : midnight minter.startDate ≤ epoch.currentEpochStartTime
  fresh : formatDate epoch.currentEpochStartTime ≠ minter.lastMintDate
  amount : minter.getReleaseAmountToday epoch.currentEpochStartTime = minted
  pos : minted ≠ 0
  small : minted.toNat < 2 ^ 63

theorem MintsWith.le_remaining {minter : Minter} {epoch : Epoch} {minted : UInt64}
    (h : MintsWith minter epoch minted) : minted.toNat ≤ minter.remainingMintAmount.toNat := by
  rw [← h.amount, ← UInt64.le_iff_toNat_le]
  exact minter.getReleaseAmountToday_le _

theorem afterEpochEnd_mint_cases {tokenReleaseSchedule : List ScheduledTokenRelease}
    {m m' : Minter} {epoch : Epoch} {minted : UInt64}
    (h : afterEpochEnd tokenReleaseSchedule m epoch = some (m', minted)) :
    (m' = m ∧ minted = 0) ∨
    (MintsWith m epoch minted ∧ m' = m.recordSuccessfulMint epoch minted) ∨
    (∃ r, Replaces tokenReleaseSchedule m epoch r ∧
      MintsWith (newMinter r.startDate r.endDate r.tokenReleaseAmount) epoch minted ∧
      m' = (newMinter r.startDate r.endDate r.tokenReleaseAmount).recordSuccessfulMint epoch minted) := by
  rcases afterEpochEnd_cases h with ⟨rfl, rfl, -⟩ | ⟨hpos, hsmall, hamount, rfl⟩
  · exact .inl ⟨rfl, rfl⟩
  · -- the minter that minted is the current one or a new one
    have hrel := (getOrUpdateLatestMinter tokenReleaseSchedule m epoch).getReleaseAmountToday_ne_zero
      epoch.currentEpochStartTime (hamount ▸ hpos)
    have hmint : MintsWith (getOrUpdateLatestMinter tokenReleaseSchedule m epoch) epoch minted :=
      ⟨hrel.1, hrel.2, hamount, hpos, hsmall⟩
    rcases getOrUpdateLatestMinter_cases tokenReleaseSchedule m epoch with hkeep | ⟨r, hr, hnew⟩
    · rw [hkeep] at hmint ⊢
      exact .inr (.inl ⟨hmint, rfl⟩)
    · rw [hnew] at hmint ⊢
      exact .inr (.inr ⟨r, hr, hmint, rfl⟩)

theorem remainingMintAmount_recordSuccessfulMint_toNat {minter : Minter} {epoch : Epoch}
    {minted : UInt64} (h : MintsWith minter epoch minted) :
    (minter.recordSuccessfulMint epoch minted).remainingMintAmount.toNat + minted.toNat =
      minter.remainingMintAmount.toNat := by
  have hle := h.le_remaining
  rw [remainingMintAmount_recordSuccessfulMint, UInt64.toNat_sub_of_le _ _
    (UInt64.le_iff_toNat_le.2 hle)]
  omega

theorem afterEpochEnd_same_or_new {tokenReleaseSchedule : List ScheduledTokenRelease}
    {m m' : Minter} {epoch : Epoch} {minted : UInt64} (hm : m.startDate ≤ m.endDate)
    (h : afterEpochEnd tokenReleaseSchedule m epoch = some (m', minted)) :
    (m'.startDate = m.startDate ∧ m'.totalMintAmount = m.totalMintAmount ∧
      m'.remainingMintAmount.toNat + minted.toNat = m.remainingMintAmount.toNat) ∨
    (m.startDate < m'.startDate ∧
      m'.remainingMintAmount.toNat + minted.toNat = m'.totalMintAmount.toNat) := by
  rcases afterEpochEnd_mint_cases h with ⟨rfl, rfl⟩ | ⟨hmint, rfl⟩ | ⟨r, hr, hmint, rfl⟩
  · exact .inl ⟨rfl, rfl, by simp⟩
  · exact .inl ⟨rfl, rfl, remainingMintAmount_recordSuccessfulMint_toNat hmint⟩
  · -- the release starts no earlier than the minter ends, and not on its start date
    have hlt : m.startDate < r.startDate := by
      have := hr.after_end
      have := hr.new_start
      omega
    exact .inr ⟨hlt, remainingMintAmount_recordSuccessfulMint_toNat hmint⟩

structure Steady (m : Minter) (d : Int) : Prop where
  remaining_le : m.remainingMintAmount.toNat ≤ m.totalMintAmount.toNat
  start_le_end : m.startDate ≤ m.endDate
  lastMint_le : m.lastMintDate ≤ d
  finished : m.lastMintDate = d → m.startDate ≤ d → m.endDate ≤ d + 1 → m.remainingMintAmount = 0

theorem steady_recordSuccessfulMint {minter : Minter} {epoch : Epoch} {minted : UInt64}
    (hle : minter.remainingMintAmount.toNat ≤ minter.totalMintAmount.toNat)
    (hdates : minter.startDate ≤ minter.endDate) (h : MintsWith minter epoch minted) :
    Steady (minter.recordSuccessfulMint epoch minted) (formatDate epoch.currentEpochStartTime) where
  remaining_le := by
    have := remainingMintAmount_recordSuccessfulMint_toNat h
    rw [totalMintAmount_recordSuccessfulMint]
    omega
  start_le_end := hdates
  lastMint_le := le_refl _
  finished _ _ hend := by
    -- on the last days the first release of the day is everything left
    have hall := minter.getReleaseAmountToday_eq_remaining epoch.currentEpochStartTime h.started
      h.fresh hend
    rw [remainingMintAmount_recordSuccessfulMint, ← h.amount, hall, UInt64.sub_self]

section Schedule

variable {tokenReleaseSchedule : List ScheduledTokenRelease}
  (hvalid : ∀ r ∈ tokenReleaseSchedule, r.startDate ≤ r.endDate)
include hvalid

theorem Steady.afterEpochEnd {m m' : Minter} {d : Int} {epoch : Epoch} {minted : UInt64}
    (hm : Steady m d) (hd : d ≤ formatDate epoch.currentEpochStartTime)
    (h : afterEpochEnd tokenReleaseSchedule m epoch = some (m', minted)) :
    Steady m' (formatDate epoch.currentEpochStartTime) := by
  rcases afterEpochEnd_mint_cases h with ⟨rfl, rfl⟩ | ⟨hmint, rfl⟩ | ⟨r, hr, hmint, rfl⟩
  · refine ⟨hm.remaining_le, hm.start_le_end, le_trans hm.lastMint_le hd, fun hlast => ?_⟩
    -- the last mint was on `d` at the latest, so a mint on the epoch's date was on `d`
    have hd' : d = formatDate epoch.currentEpochStartTime := by
      have := hm.lastMint_le
      omega
    subst hd'
    exact hm.finished hlast
  · exact steady_recordSuccessfulMint hm.remaining_le hm.start_le_end hmint
  · exact steady_recordSuccessfulMint (by simp) (hvalid r hr.mem) hmint

theorem remainingMintAmount_eq_zero_of_lastDay {m m' : Minter} {d : Int} {epoch : Epoch}
    {minted : UInt64} (hm : Steady m d) (hd : d ≤ formatDate epoch.currentEpochStartTime)
    (h : afterEpochEnd tokenReleaseSchedule m epoch = some (m', minted))
    (hstart : midnight m'.startDate ≤ epoch.currentEpochStartTime)
    (hend : m'.endDate ≤ formatDate epoch.currentEpochStartTime + 1) :
    m'.remainingMintAmount = 0 := by
  have hsteady := hm.afterEpochEnd hvalid hd h
  rcases afterEpochEnd_cases h with ⟨hkept, -, hnone⟩ | ⟨-, -, -, rfl⟩
  · -- nothing minted: the minter it would have minted with is the stored one or replaced it
    rw [hkept] at hstart hend hsteady ⊢
    rcases getOrUpdateLatestMinter_cases tokenReleaseSchedule m epoch with hkeep | ⟨r, hr, -⟩
    · rw [hkeep] at hnone
      rcases hnone with hzero | hzero
      · by_cases hfresh : formatDate epoch.currentEpochStartTime = m.lastMintDate
        · exact hsteady.finished hfresh.symm (midnight_le_iff.1 hstart) hend
        · rw [m.getReleaseAmountToday_eq_remaining _ hstart hfresh hend] at hzero
          exact hzero
      · exact hzero
    · exact hr.finished
  · exact hsteady.finished rfl (midnight_le_iff.1 hstart) hend

end Schedule

end SeiChain.Mint
