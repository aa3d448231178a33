import SeiChain.Mint.Epochs

namespace SeiChain.Mint

theorem MintsWith.le_getReleaseAmountToday {m : Minter} {epoch : Epoch} {q : UInt64}
    (hmint : MintsWith m epoch q) (hspan : m.endDate - m.startDate ≤ 106751) {t : Int}
    (ht : formatDate epoch.currentEpochStartTime ≤ formatDate t)
    (hnext : (m.recordSuccessfulMint epoch q).getReleaseAmountToday t ≠ 0) :
    q.toNat ≤ ((m.recordSuccessfulMint epoch q).getReleaseAmountToday t).toNat := by
  set m' := m.recordSuccessfulMint epoch q
  have hE : m'.endDate = m.endDate := rfl
  have hrem : m'.remainingMintAmount.toNat + q.toNat = m.remainingMintAmount.toNat :=
    remainingMintAmount_recordSuccessfulMint_toNat hmint
  have hpos : 0 < (m'.getReleaseAmountToday t).toNat := by
    apply Nat.pos_of_ne_zero
    intro h0
    exact hnext (UInt64.toNat_inj.1 (by rw [h0]; rfl))
  have hle' := UInt64.le_iff_toNat_le.1 (m'.getReleaseAmountToday_le t)
  obtain ⟨hstart', hfresh'⟩ := m'.getReleaseAmountToday_ne_zero t hnext
  have hlater : formatDate epoch.currentEpochStartTime < formatDate t :=
    lt_of_le_of_ne ht (Ne.symm hfresh')
  have hstart := midnight_le_iff.1 hmint.started
  rcases m.getReleaseAmountToday_cases _ hmint.started hmint.fresh with hall | ⟨hnotpast, hdays, hshare⟩
  · -- everything was released, so nothing is left to release later
    rw [hmint.amount] at hall
    rw [hall] at hrem
    omega
  · -- the days left at the mint, `n`, are counted exactly
    have hn := daysBetween_midnight_of_le hnotpast (by omega)
    rw [hmint.amount] at hshare
    -- the next release is what is left over one day, or over the fewer days left then
    obtain ⟨k, hk, hkn, hnextShare⟩ : ∃ k, 0 < k ∧ k < daysBetween epoch.currentEpochStartTime
        (midnight m.endDate) ∧ (m'.getReleaseAmountToday t).toNat =
          m'.remainingMintAmount.toNat / k := by
      rcases m'.getReleaseAmountToday_cases t hstart' hfresh' with hall' | ⟨hnotpast', hdays', hshare'⟩
      · -- with one day left at the mint nothing would be left
        refine ⟨1, Nat.one_pos, ?_, by rw [hall', Nat.div_one]⟩
        by_contra hone
        have hn1 : daysBetween epoch.currentEpochStartTime (midnight m.endDate) = 1 := by omega
        rw [hn1, Nat.div_one] at hshare
        rw [hall'] at hpos
        omega
      · have hn' := daysBetween_midnight_of_le hnotpast' (by omega)
        exact ⟨_, hdays', by omega, hshare'⟩
    rw [hshare, hnextShare]
    have hR' : m'.remainingMintAmount.toNat = m.remainingMintAmount.toNat -
        m.remainingMintAmount.toNat / daysBetween epoch.currentEpochStartTime (midnight m.endDate) := by
      omega
    rw [hR']
    exact div_le_sub_div hk hkn

def mintsUnder (trace : List (Epoch × Minter × UInt64)) (startDate : Int) : List Nat :=
  (trace.filter fun x => x.2.2 ≠ 0 ∧ x.2.1.startDate = startDate).map fun x => x.2.2.toNat

theorem mintsUnder_cons (x : Epoch × Minter × UInt64) (trace : List (Epoch × Minter × UInt64))
    (startDate : Int) :
    mintsUnder (x :: trace) startDate =
      (if x.2.2 ≠ 0 ∧ x.2.1.startDate = startDate then [x.2.2.toNat] else []) ++
        mintsUnder trace startDate := by
  unfold mintsUnder
  by_cases hx : x.2.2 ≠ 0 ∧ x.2.1.startDate = startDate
  · simp [hx]
  · simp [hx]

theorem mintsUnder_eq_nil {trace : List (Epoch × Minter × UInt64)} {startDate : Int}
    (h : ∀ x ∈ trace, x.2.1.startDate ≠ startDate) : mintsUnder trace startDate = [] := by
  unfold mintsUnder
  rw [List.map_eq_nil_iff, List.filter_eq_nil_iff]
  intro x hx
  simpa using fun _ => h x hx

-- What a run keeps of the stored minter, with `a` the last amount minted under it in the run
-- (zero before the first) and `d` the date of the last epoch: its dates are in order, its days
-- left are counted exactly, and on no later date does it release less than `a`.
structure NoShrink (m : Minter) (a : Nat) (d : Int) : Prop where
  start_le_end : m.startDate ≤ m.endDate
  span : m.endDate - m.startDate ≤ 106751
  floor : ∀ t, d ≤ formatDate t → m.getReleaseAmountToday t ≠ 0 →
    a ≤ (m.getReleaseAmountToday t).toNat

section Schedule

variable {tokenReleaseSchedule : List ScheduledTokenRelease}
  (hvalid : ∀ r ∈ tokenReleaseSchedule, r.startDate ≤ r.endDate)
  (hspans : ∀ r ∈ tokenReleaseSchedule, r.endDate - r.startDate ≤ 106751)
include hvalid hspans

theorem NoShrink.afterEpochEnd {m m' : Minter} {a : Nat} {d : Int} {epoch : Epoch} {q : UInt64}
    (hm : NoShrink m a d) (hd : d ≤ formatDate epoch.currentEpochStartTime)
    (h : afterEpochEnd tokenReleaseSchedule m epoch = some (m', q)) :
    NoShrink m' (if q = 0 then a else q.toNat) (formatDate epoch.currentEpochStartTime) ∧
      (q ≠ 0 → m'.startDate = m.startDate → a ≤ q.toNat) := by
  rcases afterEpochEnd_mint_cases h with ⟨rfl, rfl⟩ | ⟨hmint, rfl⟩ | ⟨r, hr, hmint, rfl⟩
  · -- nothing minted: the same minter, and a later date
    rw [if_pos rfl]
    exact ⟨⟨hm.start_le_end, hm.span, fun t ht => hm.floor t (le_trans hd ht)⟩,
      fun hq => absurd rfl hq⟩
  · -- the same minter mints its amount of the day, which the bound covers
    rw [if_neg hmint.pos]
    refine ⟨⟨hm.start_le_end, hm.span, fun t ht => hmint.le_getReleaseAmountToday hm.span ht⟩,
      fun _ _ => ?_⟩
    have hfloor := hm.floor _ hd (by rw [hmint.amount]; exact hmint.pos)
    rwa [hmint.amount] at hfloor
  · -- a new minter, with a start date of its own
    rw [if_neg hmint.pos]
    have hspan := hspans r hr.mem
    exact ⟨⟨hvalid r hr.mem, hspan, fun t ht => hmint.le_getReleaseAmountToday hspan ht⟩,
      fun _ hsame => absurd hsame hr.new_start⟩

theorem startDate_le_of_run {m : Minter} {a : Nat} {d : Int} {epochs : List Epoch}
    {trace : List (Epoch × Minter × UInt64)}
    (h : afterEpochEnds tokenReleaseSchedule m epochs = some trace) (hm : NoShrink m a d)
    (hd : ∀ epoch ∈ epochs, d ≤ formatDate epoch.currentEpochStartTime)
    (hmono : epochs.Pairwise fun a b => a.currentEpochStartTime ≤ b.currentEpochStartTime) :
    ∀ x ∈ trace, m.startDate ≤ x.2.1.startDate := by
  refine afterEpochEnds_induction (fun m' d' => ∃ a', NoShrink m' a' d' ∧ m.startDate ≤ m'.startDate)
    (fun _ m' _ => m.startDate ≤ m'.startDate) ?_ h ⟨a, hm, le_rfl⟩ hd hmono
  rintro m₁ d₁ epoch m₂ q ⟨a₁, hm₁, hle⟩ hd₁ hstep
  have hm₂ := (hm₁.afterEpochEnd hvalid hspans hd₁ hstep).1
  -- start dates only grow from minter to minter
  have hgrow : m₁.startDate ≤ m₂.startDate := by
    rcases afterEpochEnd_same_or_new hm₁.start_le_end hstep with ⟨hsame, -⟩ | ⟨hlt, -⟩
    · exact hsame.ge
    · exact hlt.le
  exact ⟨⟨_, hm₂, le_trans hle hgrow⟩, le_trans hle hgrow⟩

theorem le_of_mem_mintsUnder {m : Minter} {a : Nat} {d : Int} {epochs : List Epoch}
    {trace : List (Epoch × Minter × UInt64)}
    (h : afterEpochEnds tokenReleaseSchedule m epochs = some trace) (hm : NoShrink m a d)
    (hd : ∀ epoch ∈ epochs, d ≤ formatDate epoch.currentEpochStartTime)
    (hmono : epochs.Pairwise fun a b => a.currentEpochStartTime ≤ b.currentEpochStartTime) :
    ∀ b ∈ mintsUnder trace m.startDate, a ≤ b := by
  induction epochs generalizing m a d trace with
  | nil =>
    cases h
    exact fun _ hb => absurd hb List.not_mem_nil
  | cons epoch epochs ih =>
    obtain ⟨m', q, trace', hfirst, hrest, rfl⟩ := afterEpochEnds_cons h
    have hd₀ := hd epoch List.mem_cons_self
    obtain ⟨hm', hge⟩ := hm.afterEpochEnd hvalid hspans hd₀ hfirst
    have hd' := formatDate_le_of_pairwise hmono
    have hmono' := (List.pairwise_cons.1 hmono).2
    intro b hb
    rw [mintsUnder_cons] at hb
    rcases afterEpochEnd_same_or_new hm.start_le_end hfirst with ⟨hsame, -⟩ | ⟨hlt, -⟩
    · -- the same minter: its mints from here on are at least this one, or the bound if none
      have htail := ih hrest hm' hd' hmono'
      rw [hsame] at htail
      by_cases hq : q = 0
      · rw [if_pos hq] at htail
        simp only [hq, ne_eq, not_true_eq_false, false_and, if_false, List.nil_append] at hb
        exact htail b hb
      · rw [if_neg hq] at htail
        have haq := hge hq hsame
        simp only [ne_eq, hq, not_false_eq_true, hsame, and_self, if_true,
          List.singleton_append, List.mem_cons] at hb
        rcases hb with rfl | hb
        · exact haq
        · exact le_trans haq (htail b hb)
    · -- a new minter: no later minter has the old start date
      have hlater := startDate_le_of_run hvalid hspans hrest hm' hd' hmono'
      rw [if_neg (fun hx => hlt.ne' hx.2), List.nil_append,
        mintsUnder_eq_nil fun x hx => (lt_of_lt_of_le hlt (hlater x hx)).ne'] at hb
      exact absurd hb List.not_mem_nil

theorem pairwise_mintsUnder {m : Minter} {a : Nat} {d : Int} {epochs : List Epoch}
    {trace : List (Epoch × Minter × UInt64)}
    (h : afterEpochEnds tokenReleaseSchedule m epochs = some trace) (hm : NoShrink m a d)
    (hd : ∀ epoch ∈ epochs, d ≤ formatDate epoch.currentEpochStartTime)
    (hmono : epochs.Pairwise fun a b => a.currentEpochStartTime ≤ b.currentEpochStartTime)
    (startDate : Int) : (mintsUnder trace startDate).Pairwise (· ≤ ·) := by
  induction epochs generalizing m a d trace with
  | nil =>
    cases h
    exact List.Pairwise.nil
  | cons epoch epochs ih =>
    obtain ⟨m', q, trace', hfirst, hrest, rfl⟩ := afterEpochEnds_cons h
    have hd₀ := hd epoch List.mem_cons_self
    have hm' := (hm.afterEpochEnd hvalid hspans hd₀ hfirst).1
    have hd' := formatDate_le_of_pairwise hmono
    have hmono' := (List.pairwise_cons.1 hmono).2
    have htail := ih hrest hm' hd' hmono'
    rw [mintsUnder_cons]
    split_ifs with hx
    · -- this mint starts the bound on the later mints under its minter
      obtain ⟨hq, rfl⟩ := hx
      have hlater := le_of_mem_mintsUnder hvalid hspans hrest hm' hd' hmono'
      rw [if_neg hq] at hlater
      exact List.pairwise_cons.2 ⟨hlater, htail⟩
    · exact htail

end Schedule

-- For an accepted schedule and minter, each lasting at most 106751 days, every run that does
-- not panic mints non-decreasing amounts under each minter.
theorem daily_releases_never_shrink (tokenReleaseSchedule : List ScheduledTokenRelease)
    (hschedule : validateTokenReleaseSchedule tokenReleaseSchedule = .ok ())
    (hspans : ∀ r ∈ tokenReleaseSchedule, r.endDate - r.startDate ≤ 106751)
    (minter : Minter) (hminter : validateMinter minter = .ok ())
    (hspan : minter.endDate - minter.startDate ≤ 106751) (epochs : List Epoch)
    (hmono : epochs.Pairwise fun a b => a.currentEpochStartTime ≤ b.currentEpochStartTime)
    (trace : List (Epoch × Minter × UInt64))
    (htrace : afterEpochEnds tokenReleaseSchedule minter epochs = some trace) :
    ∀ startDate, (mintsUnder trace startDate).Pairwise (· ≤ ·) := by
  have hvalid := validateTokenReleaseSchedule_ok hschedule
  cases epochs with
  | nil =>
    cases htrace
    exact fun _ => List.Pairwise.nil
  | cons epoch epochs =>
    -- before the first epoch no amount bounds the next: the date of the first epoch will do
    have hm : NoShrink minter 0 (formatDate epoch.currentEpochStartTime) :=
      ⟨(validateMinter_ok hminter).2, hspan, fun _ _ _ => Nat.zero_le _⟩
    have hd : ∀ e ∈ epoch :: epochs,
        formatDate epoch.currentEpochStartTime ≤ formatDate e.currentEpochStartTime := by
      intro e he
      rcases List.mem_cons.1 he with rfl | he
      · exact le_rfl
      · exact formatDate_le_of_pairwise hmono e he
    exact pairwise_mintsUnder hvalid hspans htrace hm hd hmono

def threeDayMinter : Minter := newMinter 19448 19451 100

def fourDailyEpochs : List Epoch :=
  [⟨midnight 19448 + 36000000000000, 1⟩, ⟨midnight 19449 + 36000000000000, 2⟩,
    ⟨midnight 19450 + 36000000000000, 3⟩, ⟨midnight 19451 + 36000000000000, 4⟩]

theorem daily_releases_grow_over_three_days :
    ∃ trace, afterEpochEnds [] threeDayMinter fourDailyEpochs = some trace ∧
      mintsUnder trace 19448 = [33, 33, 34] ∧
      ∀ startDate, (mintsUnder trace startDate).Pairwise (· ≤ ·) := by
  obtain ⟨trace, htrace⟩ : ∃ trace, afterEpochEnds [] threeDayMinter fourDailyEpochs = some trace :=
    Option.isSome_iff_exists.1 (by decide)
  have hamounts : (afterEpochEnds [] threeDayMinter fourDailyEpochs).map (mintsUnder · 19448) =
      some [33, 33, 34] := by decide
  rw [htrace, Option.map_some, Option.some.injEq] at hamounts
  have hschedule : validateTokenReleaseSchedule [] = .ok () := by
    simp [validateTokenReleaseSchedule, sortTokenReleaseCalendar]
    rfl
  exact ⟨trace, htrace, hamounts,
    daily_releases_never_shrink [] hschedule (by simp) threeDayMinter (by decide) (by decide)
      fourDailyEpochs (by decide) trace htrace⟩

-- A minter that ends 200000 days after it starts: on its first two days `DaysBetween` counts
-- 106751 days left both times, and the second share is the smaller.
def farEndMinter : Minter := newMinter 19448 219448 213502

theorem releases_shrink_past_max_duration :
    validateMinter farEndMinter = .ok () ∧
      (afterEpochEnds [] farEndMinter (fourDailyEpochs.take 2)).map (mintsUnder · 19448) =
        some [2, 1] := by
  decide

end SeiChain.Mint
