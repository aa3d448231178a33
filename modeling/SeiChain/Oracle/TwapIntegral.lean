import Mathlib
import SeiChain.Oracle.Pruning
import SeiChain.Math.DecOrder

namespace SeiChain.Oracle

open Sdk

def twapWindow (cutoff : Int) : List PriceSnapshot → List PriceSnapshot
  | [] => []
  | s :: rest => if s.snapshotTimestamp < cutoff then [s] else s :: twapWindow cutoff rest

def PriceSnapshot.rate (s : PriceSnapshot) (denom : String) : Option Dec :=
  (s.priceSnapshotItems.find? (·.denom == denom)).map (·.exchangeRate)

def rateAt (window : List PriceSnapshot) (denom : String) (t : Int) : Option Dec :=
  (window.find? fun s => decide (s.snapshotTimestamp ≤ t) && (s.rate denom).isSome).bind
    (·.rate denom)

-- The integral of the step function over `[a, b)`, a second at a time, in units of `10^-18`.
-- Mathlib orders the integers through a conditionally complete order, which is noncomputable,
-- so the integral and what uses it evaluate in the kernel only.
noncomputable def stepIntegral (window : List PriceSnapshot) (denom : String) (a b : Int) : Int :=
  ∑ t ∈ Finset.Ico a b, ((rateAt window denom t).map Dec.i).getD 0

noncomputable def coveredSeconds (window : List PriceSnapshot) (denom : String) (now : Int)
    (lookbackSeconds : Nat) : Nat :=
  ((Finset.Ico (now - lookbackSeconds) now).filter fun t => (rateAt window denom t).isSome).card

-- The entry of a denom: the integral over the window divided by the seconds covered, truncated
-- to 18 decimals as `QuoInt64` does, and zero when no second is covered.
noncomputable def expectedTwap (window : List PriceSnapshot) (now : Int) (lookbackSeconds : Nat)
    (denom : String) : OracleTwap :=
  let covered : Int := coveredSeconds window denom now lookbackSeconds
  ⟨denom, if covered = 0 then Dec.zero
    else ⟨(stepIntegral window denom (now - lookbackSeconds) now).tdiv covered⟩, covered⟩

theorem rate_eq_some {s : PriceSnapshot} {denom : String} {r : Dec} (h : s.rate denom = some r) :
    ∃ item ∈ s.priceSnapshotItems, item.exchangeRate = r := by
  obtain ⟨item, hfind, rfl⟩ := Option.map_eq_some_iff.1 h
  exact ⟨item, List.mem_of_find?_eq_some hfind, rfl⟩

theorem rate_append_item (ts : Int) (items : List PriceSnapshotItem) (item : PriceSnapshotItem)
    (denom : String) :
    (⟨ts, items ++ [item]⟩ : PriceSnapshot).rate denom =
      ((⟨ts, items⟩ : PriceSnapshot).rate denom).or
        (if item.denom = denom then some item.exchangeRate else none) := by
  unfold PriceSnapshot.rate
  rw [List.find?_append]
  cases items.find? (·.denom == denom) with
  | some _ => rfl
  | none => by_cases h : item.denom = denom <;> simp [h]

theorem rate_append_item_of_ne {ts : Int} {items : List PriceSnapshotItem}
    {item : PriceSnapshotItem} {denom : String} (h : item.denom ≠ denom) :
    (⟨ts, items ++ [item]⟩ : PriceSnapshot).rate denom = (⟨ts, items⟩ : PriceSnapshot).rate denom := by
  rw [rate_append_item, if_neg h, Option.or_none]

theorem rate_append_item_of_isSome {ts : Int} {items : List PriceSnapshotItem}
    {item : PriceSnapshotItem} {denom : String}
    (h : ((⟨ts, items⟩ : PriceSnapshot).rate denom).isSome) :
    (⟨ts, items ++ [item]⟩ : PriceSnapshot).rate denom = (⟨ts, items⟩ : PriceSnapshot).rate denom := by
  obtain ⟨r, hr⟩ := Option.isSome_iff_exists.1 h
  rw [rate_append_item, hr, Option.some_or]

@[simp] theorem rate_nil (ts : Int) (denom : String) :
    (⟨ts, []⟩ : PriceSnapshot).rate denom = none := rfl

theorem rateAt_eq_some {window : List PriceSnapshot} {denom : String} {t : Int} {r : Dec}
    (h : rateAt window denom t = some r) :
    ∃ s ∈ window, s.snapshotTimestamp ≤ t ∧ s.rate denom = some r := by
  obtain ⟨s, hfind, hr⟩ := Option.bind_eq_some_iff.1 h
  have hs := List.find?_some hfind
  simp only [Bool.and_eq_true, decide_eq_true_eq] at hs
  exact ⟨s, List.mem_of_find?_eq_some hfind, hs.1, hr⟩

theorem rateAt_eq_none {window : List PriceSnapshot} {denom : String}
    (h : ∀ s ∈ window, s.rate denom = none) (t : Int) : rateAt window denom t = none := by
  cases hr : rateAt window denom t with
  | none => rfl
  | some r =>
    obtain ⟨s, hs, -, hrate⟩ := rateAt_eq_some hr
    rw [h s hs] at hrate
    cases hrate

theorem rateAt_append_singleton (window : List PriceSnapshot) (x : PriceSnapshot) (denom : String)
    (t : Int) :
    rateAt (window ++ [x]) denom t =
      (rateAt window denom t).or (if x.snapshotTimestamp ≤ t then x.rate denom else none) := by
  unfold rateAt
  rw [List.find?_append]
  cases hfind : window.find? fun s => decide (s.snapshotTimestamp ≤ t) && (s.rate denom).isSome with
  | some s =>
    have hs := List.find?_some hfind
    simp only [Bool.and_eq_true, decide_eq_true_eq] at hs
    obtain ⟨r, hr⟩ := Option.isSome_iff_exists.1 hs.2
    simp [hr]
  | none =>
    by_cases hx : x.snapshotTimestamp ≤ t
    · cases hr : x.rate denom <;> simp [List.find?, hx, hr]
    · simp [List.find?, hx]

section Integral

variable {window window' : List PriceSnapshot} {denom : String}

theorem stepIntegral_self (a : Int) : stepIntegral window denom a a = 0 := by
  simp [stepIntegral]

theorem stepIntegral_add {a b c : Int} (hab : a ≤ b) (hbc : b ≤ c) :
    stepIntegral window denom a b + stepIntegral window denom b c = stepIntegral window denom a c := by
  unfold stepIntegral
  rw [← Finset.sum_union (Finset.Ico_disjoint_Ico_consecutive a b c),
    Finset.Ico_union_Ico_eq_Ico hab hbc]

theorem stepIntegral_congr {a b : Int}
    (h : ∀ t, a ≤ t → t < b → rateAt window' denom t = rateAt window denom t) :
    stepIntegral window' denom a b = stepIntegral window denom a b := by
  apply Finset.sum_congr rfl
  intro t ht
  rw [Finset.mem_Ico] at ht
  rw [h t ht.1 ht.2]

theorem stepIntegral_const {a b : Int} {r : Dec} (hab : a ≤ b)
    (h : ∀ t, a ≤ t → t < b → rateAt window denom t = some r) :
    stepIntegral window denom a b = (b - a) * r.i := by
  have hsum : stepIntegral window denom a b = ∑ _t ∈ Finset.Ico a b, r.i := by
    apply Finset.sum_congr rfl
    intro t ht
    rw [Finset.mem_Ico] at ht
    rw [h t ht.1 ht.2]
    rfl
  rw [hsum, Finset.sum_const, Int.card_Ico, nsmul_eq_mul, Int.toNat_of_nonneg (by omega)]

theorem stepIntegral_of_none {a b : Int} (hab : a ≤ b)
    (h : ∀ t, a ≤ t → t < b → rateAt window denom t = none) (c : Int) (hbc : b ≤ c) :
    stepIntegral window denom a c = stepIntegral window denom b c := by
  have hnone : stepIntegral window denom a b = 0 := by
    apply Finset.sum_eq_zero
    intro t ht
    rw [Finset.mem_Ico] at ht
    rw [h t ht.1 ht.2]
    rfl
  rw [← stepIntegral_add hab hbc, hnone, Int.zero_add]

end Integral

def RatesBounded (bound : Nat) (window : List PriceSnapshot) : Prop :=
  ∀ s ∈ window, ∀ item ∈ s.priceSnapshotItems, item.exchangeRate.i.natAbs * bound < 2 ^ 315

-- Up to `bound` seconds of rates, each of which stays within `M` over `bound` seconds, stay
-- within `M`: each second adds at most a `bound`-th of it.
theorem natAbs_stepIntegral_le {bound M : Nat} {window : List PriceSnapshot} {denom : String}
    (hw : ∀ s ∈ window, ∀ item ∈ s.priceSnapshotItems, item.exchangeRate.i.natAbs * bound ≤ M)
    {a b : Int} (hab : b - a ≤ bound) : (stepIntegral window denom a b).natAbs ≤ M := by
  by_cases hempty : b ≤ a
  · have hzero : (stepIntegral window denom a b).natAbs = 0 := by
      rw [stepIntegral, Finset.Ico_eq_empty_of_le hempty, Finset.sum_empty, Int.natAbs_zero]
    omega
  have hpos : 0 < bound := by omega
  have hterm : ∀ t ∈ Finset.Ico a b,
      (((rateAt window denom t).map Dec.i).getD 0).natAbs ≤ M / bound := by
    intro t _
    rw [Nat.le_div_iff_mul_le hpos]
    cases hr : rateAt window denom t with
    | none => simp
    | some r =>
      obtain ⟨s, hs, -, hrate⟩ := rateAt_eq_some hr
      obtain ⟨item, hitem, rfl⟩ := rate_eq_some hrate
      exact hw s hs item hitem
  have hcard : (Finset.Ico a b).card ≤ bound := by
    rw [Int.card_Ico]
    omega
  calc (stepIntegral window denom a b).natAbs
      ≤ ∑ t ∈ Finset.Ico a b, (((rateAt window denom t).map Dec.i).getD 0).natAbs :=
        Int.natAbs_sum_le _ _
    _ ≤ (Finset.Ico a b).card * (M / bound) := Finset.sum_le_card_nsmul _ _ _ hterm
    _ ≤ bound * (M / bound) := Nat.mul_le_mul_right _ hcard
    _ ≤ M := Nat.mul_div_le _ _

theorem twapItem_of_not_mem {targets : List String} {T : Int} {acc : TwapAcc}
    {item : PriceSnapshotItem} (h : item.denom ∉ targets) : twapItem targets T acc item = some acc := by
  simp [twapItem, h]

theorem twapItem_of_mem {targets : List String} {T : Int} {acc : TwapAcc} {item : PriceSnapshotItem}
    {sum : Dec} {duration : Int} (hd : item.denom ∈ targets)
    (hget : (acc.lookup item.denom).getD (Dec.zero, 0) = (sum, duration))
    (hwrap : wrapInt64 (T - duration) = T - duration)
    (hmul : Dec.fits (item.exchangeRate.i * (T - duration)) = true)
    (hadd : Dec.fits (sum.i + item.exchangeRate.i * (T - duration)) = true) :
    twapItem targets T acc item =
      some ((item.denom, ⟨sum.i + item.exchangeRate.i * (T - duration)⟩, T) ::
        acc.filter fun p => p.1 != item.denom) := by
  unfold twapItem
  rw [if_neg (not_not.2 hd), hget]
  simp only [hwrap, Dec.mulInt64, Dec.checked_of_fits hmul, Option.bind_eq_bind, Option.bind_some,
    Dec.add, Dec.checked_of_fits hadd]
  rfl

def traversed (now : Int) (lookbackSeconds : Nat) (ts : Int) : Int :=
  now - max ts (now - lookbackSeconds)

section Scan

variable (targets : List String) (now : Int) (L : Nat)

-- What the accumulator holds once the snapshots `P` are read: the target denoms with a rate in
-- `P`, each with the integral of its step function over the part of the window it covers,
-- which is the part from `now - duration` on.
structure ScanInv (P : List PriceSnapshot) (acc : TwapAcc) : Prop where
  nodup : (acc.map Prod.fst).Nodup
  isSome_lookup : ∀ denom, (acc.lookup denom).isSome ↔
    denom ∈ targets ∧ ∃ s ∈ P, (s.rate denom).isSome
  covered : ∀ denom sum duration, acc.lookup denom = some (sum, duration) →
    0 ≤ duration ∧ duration ≤ L ∧
      (∀ t, now - L ≤ t → t < now → ((rateAt P denom t).isSome ↔ now - duration ≤ t)) ∧
      sum.i = stepIntegral P denom (now - duration) now

-- Inside a snapshot read `timeTraversed` back: the prices read so far make the snapshot `x`, and
-- each target denom with a price among them has `timeTraversed` as its duration.
structure ItemsInv (P : List PriceSnapshot) (x : PriceSnapshot) (timeTraversed : Int)
    (acc : TwapAcc) : Prop where
  scan : ScanInv targets now L (P ++ [x]) acc
  current : ∀ denom ∈ targets, (x.rate denom).isSome →
    ∃ sum, acc.lookup denom = some (sum, timeTraversed)

variable {targets now L}

theorem scanInv_nil : ScanInv targets now L [] [] :=
  ⟨List.nodup_nil, fun _ => by simp, fun _ _ _ h => by cases h⟩

theorem ScanInv.getD {P : List PriceSnapshot} {acc : TwapAcc} (h : ScanInv targets now L P acc)
    {denom : String} (hd : denom ∈ targets) {sum : Dec} {duration : Int}
    (hget : (acc.lookup denom).getD (Dec.zero, 0) = (sum, duration)) :
    0 ≤ duration ∧ duration ≤ L ∧
      (∀ t, now - L ≤ t → t < now → ((rateAt P denom t).isSome ↔ now - duration ≤ t)) ∧
      sum.i = stepIntegral P denom (now - duration) now := by
  cases hl : acc.lookup denom with
  | some v =>
    rw [hl, Option.getD_some] at hget
    exact h.covered denom sum duration (hget ▸ hl)
  | none =>
    rw [hl, Option.getD_none, Prod.mk.injEq] at hget
    obtain ⟨rfl, rfl⟩ := hget
    have hnone : ∀ s ∈ P, s.rate denom = none := by
      intro s hs
      cases hrate : s.rate denom with
      | none => rfl
      | some r =>
        have := (h.isSome_lookup denom).2 ⟨hd, s, hs, by rw [hrate]; rfl⟩
        rw [hl] at this
        cases this
    refine ⟨le_rfl, by omega, fun t _ ht => ?_, ?_⟩
    · rw [rateAt_eq_none hnone]
      simp only [Option.isSome_none, Bool.false_eq_true, false_iff]
      omega
    · rw [Int.sub_zero, stepIntegral_self]
      rfl

theorem rateAt_append_congr {P : List PriceSnapshot} {x x' : PriceSnapshot} {denom : String}
    (hts : x'.snapshotTimestamp = x.snapshotTimestamp) (hrate : x'.rate denom = x.rate denom)
    (t : Int) : rateAt (P ++ [x']) denom t = rateAt (P ++ [x]) denom t := by
  rw [rateAt_append_singleton, rateAt_append_singleton, hts, hrate]

theorem exists_rate_append_congr {P : List PriceSnapshot} {x x' : PriceSnapshot} {denom : String}
    (hrate : x'.rate denom = x.rate denom) :
    (∃ s ∈ P ++ [x'], (s.rate denom).isSome) ↔ ∃ s ∈ P ++ [x], (s.rate denom).isSome := by
  simp [or_and_right, exists_or, hrate]

theorem ScanInv.congr_last {P : List PriceSnapshot} {x x' : PriceSnapshot} {acc : TwapAcc}
    (h : ScanInv targets now L (P ++ [x]) acc) (hts : x'.snapshotTimestamp = x.snapshotTimestamp)
    (hrate : ∀ denom ∈ targets, x'.rate denom = x.rate denom) :
    ScanInv targets now L (P ++ [x']) acc where
  nodup := h.nodup
  isSome_lookup denom := by
    rw [h.isSome_lookup denom]
    exact and_congr_right fun hd => (exists_rate_append_congr (hrate denom hd)).symm
  covered denom sum duration hl := by
    have hd := ((h.isSome_lookup denom).1 (by rw [hl]; rfl)).1
    simp only [rateAt_append_congr hts (hrate denom hd)]
    rw [stepIntegral_congr fun t _ _ => rateAt_append_congr hts (hrate denom hd) t]
    exact h.covered denom sum duration hl

-- The code's update of one denom: the new sum and duration go in front.
theorem ScanInv.update {P : List PriceSnapshot} {x x' : PriceSnapshot} {acc : TwapAcc}
    {denom : String} {sum : Dec} {duration : Int} (h : ScanInv targets now L (P ++ [x]) acc)
    (hd : denom ∈ targets) (hts : x'.snapshotTimestamp = x.snapshotTimestamp)
    (hrate : ∀ e ∈ targets, e ≠ denom → x'.rate e = x.rate e)
    (hmem : ∃ s ∈ P ++ [x'], (s.rate denom).isSome) (hdur : 0 ≤ duration ∧ duration ≤ L)
    (hcov : ∀ t, now - L ≤ t → t < now → ((rateAt (P ++ [x']) denom t).isSome ↔ now - duration ≤ t))
    (hsum : sum.i = stepIntegral (P ++ [x']) denom (now - duration) now) :
    ScanInv targets now L (P ++ [x'])
      ((denom, sum, duration) :: acc.filter fun p => p.1 != denom) where
  nodup := by
    rw [List.map_cons, List.nodup_cons]
    constructor
    · intro hin
      obtain ⟨p, hp, hpd⟩ := List.mem_map.1 hin
      have := (List.mem_filter.1 hp).2
      rw [hpd] at this
      simp at this
    · exact h.nodup.sublist ((List.filter_sublist).map _)
  isSome_lookup e := by
    by_cases he : e = denom
    · subst he
      rw [List.lookup_cons_filter_self]
      exact ⟨fun _ => ⟨hd, hmem⟩, fun _ => rfl⟩
    · rw [List.lookup_cons_filter_of_ne he, h.isSome_lookup e]
      exact and_congr_right fun het => (exists_rate_append_congr (hrate e het he)).symm
  covered e sum' duration' hl := by
    by_cases he : e = denom
    · subst he
      rw [List.lookup_cons_filter_self, Option.some_inj, Prod.mk.injEq] at hl
      obtain ⟨rfl, rfl⟩ := hl
      exact ⟨hdur.1, hdur.2, hcov, hsum⟩
    · rw [List.lookup_cons_filter_of_ne he] at hl
      have het := ((h.isSome_lookup e).1 (by rw [hl]; rfl)).1
      simp only [rateAt_append_congr hts (hrate e het he)]
      rw [stepIntegral_congr fun t _ _ => rateAt_append_congr hts (hrate e het he) t]
      exact h.covered e sum' duration' hl

theorem rateAt_append_empty (P : List PriceSnapshot) (ts : Int) (denom : String) (t : Int) :
    rateAt (P ++ [⟨ts, []⟩]) denom t = rateAt P denom t := by
  rw [rateAt_append_singleton, rate_nil, ite_self, Option.or_none]

theorem ScanInv.append_empty {P : List PriceSnapshot} {acc : TwapAcc}
    (h : ScanInv targets now L P acc) (ts : Int) : ScanInv targets now L (P ++ [⟨ts, []⟩]) acc where
  nodup := h.nodup
  isSome_lookup denom := by
    rw [h.isSome_lookup denom]
    simp [or_and_right, exists_or]
  covered denom sum duration hl := by
    simp only [rateAt_append_empty]
    rw [stepIntegral_congr fun t _ _ => rateAt_append_empty P ts denom t]
    exact h.covered denom sum duration hl

-- Extending the covered part downwards from `now - duration` to `now - T`, at rate `r`: the
-- integral grows by `r` for each new second.
theorem covered_extend {P₀ P₁ : List PriceSnapshot} {denom : String} {duration T : Int} {r : Dec}
    (hdur : 0 ≤ duration) (hle : duration ≤ T) (hT : T ≤ L)
    (hcov : ∀ t, now - L ≤ t → t < now → ((rateAt P₀ denom t).isSome ↔ now - duration ≤ t))
    (hP₁ : ∀ t, now - L ≤ t → t < now →
      rateAt P₁ denom t = (rateAt P₀ denom t).or (if now - T ≤ t then some r else none)) :
    (∀ t, now - L ≤ t → t < now → ((rateAt P₁ denom t).isSome ↔ now - T ≤ t)) ∧
      stepIntegral P₁ denom (now - T) now =
        r.i * (T - duration) + stepIntegral P₀ denom (now - duration) now := by
  constructor
  · intro t hlo hhi
    rw [hP₁ t hlo hhi]
    cases h₀ : rateAt P₀ denom t with
    | some r₀ =>
      have := (hcov t hlo hhi).1 (by rw [h₀]; rfl)
      simp only [Option.some_or, Option.isSome_some, true_iff]
      omega
    | none =>
      have hlt : ¬ now - duration ≤ t := fun h => by simpa [h₀] using (hcov t hlo hhi).2 h
      by_cases ht : now - T ≤ t
      · simp [ht]
      · simp [ht]
  · -- the new seconds carry `r`; the old ones keep what newer snapshots set
    have hnew : stepIntegral P₁ denom (now - T) (now - duration) =
        (now - duration - (now - T)) * r.i := by
      apply stepIntegral_const (by omega)
      intro t hlo hhi
      have h₀ : rateAt P₀ denom t = none := by
        cases h : rateAt P₀ denom t with
        | none => rfl
        | some _ =>
          have := (hcov t (by omega) (by omega)).1 (by rw [h]; rfl)
          omega
      rw [hP₁ t (by omega) (by omega), h₀, Option.none_or, if_pos hlo]
    have hold : stepIntegral P₁ denom (now - duration) now =
        stepIntegral P₀ denom (now - duration) now := by
      apply stepIntegral_congr
      intro t hlo hhi
      obtain ⟨r₀, h₀⟩ := Option.isSome_iff_exists.1 ((hcov t (by omega) hhi).2 hlo)
      rw [hP₁ t (by omega) hhi, h₀, Option.some_or]
    have hwidth : now - duration - (now - T) = T - duration := by omega
    rw [← @stepIntegral_add P₁ denom (now - T) (now - duration) now (by omega) (by omega), hnew, hold,
      hwidth, Int.mul_comm]

-- The first price of a denom in the snapshot: its rate covers the seconds from the snapshot,
-- cut at the window, up to the part newer snapshots cover.
theorem extend_of_first {P : List PriceSnapshot} {ts : Int} {items : List PriceSnapshotItem}
    {item : PriceSnapshotItem} {duration : Int}
    (hP : ∀ s ∈ P, ts < s.snapshotTimestamp) (hts : ts ≤ now)
    (hnone : (⟨ts, items⟩ : PriceSnapshot).rate item.denom = none)
    (hdur : 0 ≤ duration ∧ duration ≤ L)
    (hcov : ∀ t, now - L ≤ t → t < now →
      ((rateAt (P ++ [⟨ts, items⟩]) item.denom t).isSome ↔ now - duration ≤ t)) :
    duration ≤ traversed now L ts ∧ ∀ t, now - L ≤ t → t < now →
      rateAt (P ++ [⟨ts, items ++ [item]⟩]) item.denom t =
        (rateAt (P ++ [⟨ts, items⟩]) item.denom t).or
          (if now - traversed now L ts ≤ t then some item.exchangeRate else none) := by
  have hx : (⟨ts, items ++ [item]⟩ : PriceSnapshot).rate item.denom = some item.exchangeRate := by
    rw [rate_append_item, hnone, if_pos rfl, Option.none_or]
  constructor
  · -- the oldest covered second has a newer snapshot with the denom at or before it
    by_cases hzero : duration = 0
    · unfold traversed
      omega
    obtain ⟨r₀, h₀⟩ :=
      Option.isSome_iff_exists.1 ((hcov (now - duration) (by omega) (by omega)).2 le_rfl)
    obtain ⟨s, hs, hsts, hrate⟩ := rateAt_eq_some h₀
    rcases List.mem_append.1 hs with hs | hs
    · have := hP s hs
      unfold traversed
      omega
    · rw [List.mem_singleton.1 hs, hnone] at hrate
      cases hrate
  · intro t hlo _
    have hiff : ts ≤ t ↔ now - traversed now L ts ≤ t := by
      unfold traversed
      omega
    rw [rateAt_append_singleton, rateAt_append_singleton, hnone, hx, ite_self, Option.or_none]
    exact congrArg _ (if_congr hiff rfl rfl)

theorem extend_of_repeat {P : List PriceSnapshot} {ts : Int} {items : List PriceSnapshotItem}
    {item : PriceSnapshotItem} {T : Int}
    (hsome : ((⟨ts, items⟩ : PriceSnapshot).rate item.denom).isSome)
    (hcov : ∀ t, now - L ≤ t → t < now →
      ((rateAt (P ++ [⟨ts, items⟩]) item.denom t).isSome ↔ now - T ≤ t)) :
    ∀ t, now - L ≤ t → t < now →
      rateAt (P ++ [⟨ts, items ++ [item]⟩]) item.denom t =
        (rateAt (P ++ [⟨ts, items⟩]) item.denom t).or
          (if now - T ≤ t then some item.exchangeRate else none) := by
  intro t hlo hhi
  rw [@rateAt_append_congr P ⟨ts, items⟩ ⟨ts, items ++ [item]⟩ item.denom rfl
    (rate_append_item_of_isSome hsome)]
  cases h₀ : rateAt (P ++ [⟨ts, items⟩]) item.denom t with
  | some _ => rfl
  | none =>
    have hlt : ¬ now - T ≤ t := fun h => by simpa [h₀] using (hcov t hlo hhi).2 h
    rw [if_neg hlt]
    rfl

theorem RatesBounded.of_subset_last {bound : Nat} {P : List PriceSnapshot} {ts : Int}
    {items items' : List PriceSnapshotItem} (h : RatesBounded bound (P ++ [⟨ts, items⟩]))
    (hsub : items' ⊆ items) : RatesBounded bound (P ++ [⟨ts, items'⟩]) := by
  intro s hs item hitem
  rcases List.mem_append.1 hs with hs | hs
  · exact h s (List.mem_append_left _ hs) item hitem
  · rw [List.mem_singleton.1 hs] at hitem
    exact h _ (List.mem_append_right _ (List.mem_singleton_self _)) item (hsub hitem)

theorem ItemsInv.step {P : List PriceSnapshot} {ts : Int} {items : List PriceSnapshotItem}
    {item : PriceSnapshotItem} {acc : TwapAcc}
    (hP : ∀ s ∈ P, ts < s.snapshotTimestamp) (hts : ts ≤ now) (hL : L < 2 ^ 63)
    (hrates : RatesBounded L (P ++ [⟨ts, items ++ [item]⟩]))
    (h : ItemsInv targets now L P ⟨ts, items⟩ (traversed now L ts) acc) :
    ∃ acc', twapItem targets (traversed now L ts) acc item = some acc' ∧
      ItemsInv targets now L P ⟨ts, items ++ [item]⟩ (traversed now L ts) acc' := by
  have hT : 0 ≤ traversed now L ts ∧ traversed now L ts ≤ L := by
    unfold traversed
    omega
  by_cases hd : item.denom ∈ targets
  swap
  · -- not a target: the price is skipped
    have hrate : ∀ e ∈ targets, (⟨ts, items ++ [item]⟩ : PriceSnapshot).rate e =
        (⟨ts, items⟩ : PriceSnapshot).rate e :=
      fun e he => rate_append_item_of_ne fun hde => hd (hde ▸ he)
    refine ⟨acc, twapItem_of_not_mem hd, h.scan.congr_last rfl hrate, fun e he hsome => ?_⟩
    rw [hrate e he] at hsome
    exact h.current e he hsome
  obtain ⟨sum, duration, hget⟩ :
      ∃ sum duration, (acc.lookup item.denom).getD (Dec.zero, 0) = (sum, duration) := ⟨_, _, rfl⟩
  obtain ⟨hdur₀, hdurL, hcov₀, hsum₀⟩ := h.scan.getD hd hget
  -- the rate of the denom after this price, over the window
  have hext : duration ≤ traversed now L ts ∧ ∀ t, now - L ≤ t → t < now →
      rateAt (P ++ [⟨ts, items ++ [item]⟩]) item.denom t =
        (rateAt (P ++ [⟨ts, items⟩]) item.denom t).or
          (if now - traversed now L ts ≤ t then some item.exchangeRate else none) := by
    cases hx : (⟨ts, items⟩ : PriceSnapshot).rate item.denom with
    | none => exact extend_of_first hP hts hx ⟨hdur₀, hdurL⟩ hcov₀
    | some r₀ =>
      -- a repeated price: the denom already has this snapshot's duration
      obtain ⟨sum', hl⟩ := h.current item.denom hd (by rw [hx]; rfl)
      rw [hl, Option.getD_some, Prod.mk.injEq] at hget
      obtain ⟨rfl, rfl⟩ := hget
      exact ⟨le_rfl, extend_of_repeat (by rw [hx]; rfl) hcov₀⟩
  obtain ⟨hcov₁, hsum₁⟩ := covered_extend hdur₀ hext.1 hT.2 hcov₀ hext.2
  have hsum : sum.i + item.exchangeRate.i * (traversed now L ts - duration) =
      stepIntegral (P ++ [⟨ts, items ++ [item]⟩]) item.denom (now - traversed now L ts) now := by
    rw [hsum₁, hsum₀, Int.add_comm]
  have hitem : item.exchangeRate.i.natAbs * L < 2 ^ 315 :=
    hrates _ (List.mem_append_right _ (List.mem_singleton_self _)) item
      (List.mem_append_right _ (List.mem_singleton_self _))
  have hmul : Dec.fits (item.exchangeRate.i * (traversed now L ts - duration)) = true := by
    rw [Dec.fits_iff, maxDecBitLen, Int.natAbs_mul]
    calc item.exchangeRate.i.natAbs * (traversed now L ts - duration).natAbs
        ≤ item.exchangeRate.i.natAbs * L := Nat.mul_le_mul_left _ (by omega)
      _ < 2 ^ 315 := hitem
  have hadd : Dec.fits (sum.i + item.exchangeRate.i * (traversed now L ts - duration)) = true := by
    have hbound : (stepIntegral (P ++ [⟨ts, items ++ [item]⟩]) item.denom
        (now - traversed now L ts) now).natAbs ≤ 2 ^ 315 - 1 :=
      natAbs_stepIntegral_le (fun s hs item hitem => Nat.le_sub_one_of_lt (hrates s hs item hitem))
        (by omega)
    rw [Dec.fits_iff, maxDecBitLen, hsum]
    omega
  have hmem : ∃ s ∈ P ++ [⟨ts, items ++ [item]⟩], (s.rate item.denom).isSome := by
    refine ⟨_, List.mem_append_right _ (List.mem_singleton_self _), ?_⟩
    rw [rate_append_item, if_pos rfl]
    cases (⟨ts, items⟩ : PriceSnapshot).rate item.denom <;> rfl
  refine ⟨_, twapItem_of_mem hd hget (wrapInt64_of_range (by omega) (by omega)) hmul hadd,
    h.scan.update hd rfl (fun e _ he => rate_append_item_of_ne (Ne.symm he)) hmem hT hcov₁ hsum,
    fun e he hsome => ?_⟩
  by_cases hed : e = item.denom
  · subst hed
    exact ⟨_, List.lookup_cons_filter_self _ _ _⟩
  · rw [rate_append_item_of_ne (Ne.symm hed)] at hsome
    rw [List.lookup_cons_filter_of_ne hed]
    exact h.current e he hsome

-- The prices of a snapshot, by induction over those not read yet.
theorem ItemsInv.run {P : List PriceSnapshot} {ts : Int}
    (hP : ∀ s ∈ P, ts < s.snapshotTimestamp) (hts : ts ≤ now) (hL : L < 2 ^ 63) :
    ∀ (rest items : List PriceSnapshotItem) (acc : TwapAcc),
      RatesBounded L (P ++ [⟨ts, items ++ rest⟩]) →
      ItemsInv targets now L P ⟨ts, items⟩ (traversed now L ts) acc →
      ∃ acc', rest.foldlM (twapItem targets (traversed now L ts)) acc = some acc' ∧
        ItemsInv targets now L P ⟨ts, items ++ rest⟩ (traversed now L ts) acc'
  | [], items, acc, _, h => ⟨acc, rfl, by rw [List.append_nil]; exact h⟩
  | item :: rest, items, acc, hrates, h => by
    have hsub : items ++ [item] ⊆ items ++ item :: rest := by
      intro x hx
      simp only [List.mem_append, List.mem_cons] at hx ⊢
      tauto
    obtain ⟨acc₁, hstep, h₁⟩ := h.step hP hts hL (hrates.of_subset_last hsub)
    obtain ⟨acc', hrun, h'⟩ := ItemsInv.run hP hts hL rest (items ++ [item]) acc₁
      (by rwa [List.append_assoc, List.singleton_append]) h₁
    refine ⟨acc', ?_, by rwa [List.append_assoc, List.singleton_append] at h'⟩
    rw [List.foldlM_cons, hstep]
    exact hrun

theorem ScanInv.snapshot {P : List PriceSnapshot} {acc : TwapAcc} {s : PriceSnapshot}
    (h : ScanInv targets now L P acc) (hP : ∀ p ∈ P, s.snapshotTimestamp < p.snapshotTimestamp)
    (hts : s.snapshotTimestamp ≤ now) (hL : L < 2 ^ 63) (hrates : RatesBounded L (P ++ [s])) :
    ∃ acc', s.priceSnapshotItems.foldlM (twapItem targets (traversed now L s.snapshotTimestamp))
        acc = some acc' ∧ ScanInv targets now L (P ++ [s]) acc' := by
  obtain ⟨ts, items⟩ := s
  have h₀ : ItemsInv targets now L P ⟨ts, []⟩ (traversed now L ts) acc :=
    ⟨h.append_empty ts, fun _ _ hs => by simp at hs⟩
  obtain ⟨acc', hrun, h'⟩ := ItemsInv.run hP hts hL items [] acc (by rwa [List.nil_append]) h₀
  exact ⟨acc', hrun, by simpa using h'.scan⟩

theorem timeTraversed_eq {ts : Int} (hts : ts ≤ now) (hL : L < 2 ^ 63) :
    wrapInt64 (now - if decide (ts < now - L) = true then now - L else ts) =
      traversed now L ts := by
  unfold traversed
  by_cases hstop : ts < now - L
  · rw [if_pos (decide_eq_true hstop), wrapInt64_of_range (by omega) (by omega)]
    omega
  · rw [if_neg (by simpa using hstop), wrapInt64_of_range (by omega) (by omega)]
    omega

-- The scan, by induction over the snapshots not read yet, newest first: each is older than
-- those read, and the one before the window is the last.
theorem ScanInv.run (hL : L < 2 ^ 63) :
    ∀ (R P : List PriceSnapshot) (acc : TwapAcc), ScanInv targets now L P acc →
      RatesBounded L (P ++ R) → R.Pairwise (fun a b => b.snapshotTimestamp < a.snapshotTimestamp) →
      (∀ p ∈ P, ∀ s ∈ R, s.snapshotTimestamp < p.snapshotTimestamp) →
      (∀ s ∈ R, s.snapshotTimestamp ≤ now) →
      ∃ acc', twapScan (now - L) now targets R acc = some acc' ∧
        ScanInv targets now L (P ++ twapWindow (now - L) R) acc'
  | [], P, acc, h, _, _, _, _ => ⟨acc, rfl, by rw [twapWindow, List.append_nil]; exact h⟩
  | s :: rest, P, acc, h, hrates, hsorted, hnewer, hnow => by
    have hts := hnow s List.mem_cons_self
    have hrates₁ : RatesBounded L (P ++ [s]) := fun p hp =>
      hrates p (by simp only [List.mem_append, List.mem_cons] at hp ⊢; tauto)
    obtain ⟨acc₁, hitems, h₁⟩ :=
      h.snapshot (fun p hp => hnewer p hp s List.mem_cons_self) hts hL hrates₁
    simp only [twapScan, timeTraversed_eq hts hL, hitems]
    by_cases hstop : s.snapshotTimestamp < now - L
    · -- the snapshot before the window: cut to its start, and the last one read
      refine ⟨acc₁, by simp [hstop], ?_⟩
      rw [twapWindow, if_pos hstop]
      exact h₁
    · obtain ⟨acc', hrun, h'⟩ := ScanInv.run hL rest (P ++ [s]) acc₁ h₁
        (by rwa [List.append_assoc, List.singleton_append]) (List.pairwise_cons.1 hsorted).2
        (fun p hp q hq => by
          rcases List.mem_append.1 hp with hp | hp
          · exact hnewer p hp q (List.mem_cons_of_mem _ hq)
          · rw [List.mem_singleton.1 hp]
            exact (List.pairwise_cons.1 hsorted).1 q hq)
        (fun q hq => hnow q (List.mem_cons_of_mem _ hq))
      refine ⟨acc', by simpa [hstop] using hrun, ?_⟩
      rw [twapWindow, if_neg hstop]
      simpa using h'

@[simp] theorem expectedTwap_denom (window : List PriceSnapshot) (denom : String) :
    (expectedTwap window now L denom).denom = denom := rfl

theorem ScanInv.oracleTwap_eq {W : List PriceSnapshot} {acc : TwapAcc}
    (h : ScanInv targets now L W acc) {denom : String} (hd : denom ∈ acc.map Prod.fst) :
    oracleTwap acc denom = some (expectedTwap W now L denom) := by
  obtain ⟨⟨sum, duration⟩, hl⟩ :=
    Option.isSome_iff_exists.1 (List.mem_map_fst_iff_isSome_lookup.1 hd)
  obtain ⟨hdur₀, hdurL, hcov, hsum⟩ := h.covered denom sum duration hl
  -- the covered seconds are those from `now - duration` on
  have hset : (Finset.Ico (now - L) now).filter (fun t => (rateAt W denom t).isSome) =
      Finset.Ico (now - duration) now := by
    ext t
    simp only [Finset.mem_filter, Finset.mem_Ico]
    constructor
    · rintro ⟨⟨hlo, hhi⟩, hs⟩
      exact ⟨(hcov t hlo hhi).1 hs, hhi⟩
    · rintro ⟨hlo, hhi⟩
      exact ⟨⟨by omega, hhi⟩, (hcov t (by omega) hhi).2 hlo⟩
  have hcovered : (coveredSeconds W denom now L : Int) = duration := by
    unfold coveredSeconds
    rw [hset, Int.card_Ico, Int.toNat_of_nonneg (by omega)]
    omega
  have hintegral : stepIntegral W denom (now - L) now = sum.i := by
    rw [hsum]
    apply stepIntegral_of_none (by omega) _ now (by omega)
    intro t hlo hhi
    cases hr : rateAt W denom t with
    | none => rfl
    | some _ =>
      have := (hcov t hlo (by omega)).1 (by rw [hr]; rfl)
      omega
  unfold oracleTwap expectedTwap
  simp only [hl, Option.getD_some, hcovered, hintegral]
  by_cases hzero : duration = 0
  · simp [hzero]
  · simp [hzero, Dec.quoInt64]

end Scan

theorem twaps_are_time_weighted_averages (lookbackDuration : Nat) (targets : List String)
    (now : Int) (lookbackSeconds : Nat) (store : SnapshotStore) (hstore : Bounded now store.snapshots)
    (hnow : now < 2 ^ 63) (hvalid : 0 < lookbackSeconds ∧ lookbackSeconds ≤ lookbackDuration)
    (hlookback : lookbackSeconds < 2 ^ 63) (hrates : RatesBounded lookbackSeconds store.snapshots) :
    ∃ twaps : List OracleTwap,
      calculateTwaps lookbackDuration targets now lookbackSeconds store =
        some (if twaps = [] then .error errNoTwapData else .ok twaps) ∧
      (twaps.map (·.denom)).Pairwise (· < ·) ∧
      (∀ denom, denom ∈ twaps.map (·.denom) ↔ denom ∈ targets ∧
        ∃ s ∈ twapWindow (now - lookbackSeconds) store.snapshots.reverse, (s.rate denom).isSome) ∧
      ∀ e ∈ twaps, e = expectedTwap (twapWindow (now - lookbackSeconds) store.snapshots.reverse)
        now lookbackSeconds e.denom := by
  -- the scan reads the store newest first
  obtain ⟨acc, hscan, hinv⟩ : ∃ acc,
      twapScan (wrapInt64 (now - wrapInt64 lookbackSeconds)) now targets store.snapshots.reverse [] =
        some acc ∧ ScanInv targets now lookbackSeconds
          (twapWindow (now - lookbackSeconds) store.snapshots.reverse) acc := by
    by_cases hempty : store.snapshots = []
    · rw [hempty]
      exact ⟨[], rfl, scanInv_nil⟩
    obtain ⟨s, hs⟩ := List.exists_mem_of_ne_nil _ hempty
    have hnow₀ : 0 ≤ now := le_trans (hstore s hs).1 (hstore s hs).2
    have hcut : wrapInt64 (now - wrapInt64 lookbackSeconds) = now - lookbackSeconds := by
      rw [wrapInt64_of_range (x := lookbackSeconds) (by omega) (by omega)]
      exact wrapInt64_of_range (by omega) (by omega)
    have hsorted := KeySorted.tsSorted store.keySorted hstore (by omega)
    rw [hcut]
    simpa using ScanInv.run hlookback store.snapshots.reverse [] [] scanInv_nil
      (fun p hp => hrates p (by simpa using hp)) (List.pairwise_reverse.2 hsorted)
      (fun _ hp => absurd hp List.not_mem_nil)
      (fun p hp => (hstore p (List.mem_reverse.1 hp)).2)
  set W := twapWindow (now - lookbackSeconds) store.snapshots.reverse
  have hkeys : ∀ denom, denom ∈ sortStrings (acc.map Prod.fst) ↔
      denom ∈ targets ∧ ∃ s ∈ W, (s.rate denom).isSome := fun denom => by
    rw [(sortStrings_perm _).mem_iff, List.mem_map_fst_iff_isSome_lookup, hinv.isSome_lookup]
  refine ⟨(sortStrings (acc.map Prod.fst)).map (expectedTwap W now lookbackSeconds), ?_, ?_, ?_, ?_⟩
  · have hmapM := List.mapM_eq_some_map (f := oracleTwap acc) (g := expectedTwap W now lookbackSeconds)
      (l := sortStrings (acc.map Prod.fst))
      fun denom hd => hinv.oracleTwap_eq ((sortStrings_perm _).mem_iff.1 hd)
    unfold calculateTwaps
    rw [if_neg (by omega)]
    simp only [hscan, hmapM, Option.bind_eq_bind, Option.bind_some]
    rfl
  · rw [List.map_map]
    simpa [Function.comp_def] using pairwise_sortStrings hinv.nodup
  · intro denom
    simpa [List.map_map, Function.comp_def] using hkeys denom
  · intro e he
    obtain ⟨denom, -, rfl⟩ := List.mem_map.1 he
    rfl

def twapTestCalls : List (Int × PriceSnapshot) :=
  [(1200, ⟨1200, [⟨"uatom", Dec.ofInt 40⟩]⟩),
    (3600, ⟨3600, [⟨"ueth", Dec.ofInt 10⟩, ⟨"uatom", Dec.ofInt 20⟩]⟩),
    (4500, ⟨4500, [⟨"ueth", Dec.ofInt 20⟩, ⟨"uatom", Dec.ofInt 40⟩]⟩)]

theorem twaps_time_weighted_on_keeper_test :
    ∃ twaps : List OracleTwap,
      calculateTwaps 3600 ["uatom", "ueth"] 5400 3600 (keepAll twapTestCalls) =
        some (if twaps = [] then .error errNoTwapData else .ok twaps) ∧
      (twaps.map (·.denom)).Pairwise (· < ·) ∧
      (∀ denom, denom ∈ twaps.map (·.denom) ↔ denom ∈ ["uatom", "ueth"] ∧
        ∃ s ∈ twapWindow (5400 - (3600 : Nat)) (keepAll twapTestCalls).snapshots.reverse,
          (s.rate denom).isSome) ∧
      ∀ e ∈ twaps, e = expectedTwap (twapWindow (5400 - (3600 : Nat))
        (keepAll twapTestCalls).snapshots.reverse) 5400 3600 e.denom :=
  twaps_are_time_weighted_averages 3600 ["uatom", "ueth"] 5400 3600 (keepAll twapTestCalls)
    (by unfold Bounded; decide) (by decide) (by decide) (by decide)
    (by unfold RatesBounded; decide +kernel)

-- The keeper's test: uatom holds 40 for 2400 seconds and 20 and 40 for the rest of the hour;
-- ueth is seen for the last half hour only.
example : calculateTwaps 3600 ["uatom", "ueth"] 5400 3600 (keepAll twapTestCalls) =
    some (.ok [⟨"uatom", Dec.ofInt 35, 3600⟩, ⟨"ueth", Dec.ofInt 15, 1800⟩]) := by
  decide

-- Outside those ranges: a lookback of `2^64 - 1` is `-1` as an `int64`, a negative timestamp
-- sorts last as a `uint64` key and gets a negative weight, and a rate of `2^314` held for two
-- seconds overflows the `Dec` range.
theorem twaps_wrong_on_wrap_negative_time_or_overflow :
    calculateTwaps (2 ^ 64 - 1) ["uatom"] 3 (2 ^ 64 - 1)
        (keepAll [(1, ⟨1, [⟨"uatom", Dec.one⟩]⟩)]) = some (.ok [⟨"uatom", Dec.one, -1⟩]) ∧
      calculateTwaps 10 ["uatom"] 2 10
          (keepAll [(-1, ⟨-1, [⟨"uatom", Dec.ofInt 1⟩]⟩), (1, ⟨1, [⟨"uatom", Dec.ofInt 2⟩]⟩)]) =
        some (.ok [⟨"uatom", Dec.ofInt (-1), 1⟩]) ∧
      coveredSeconds [⟨1, [⟨"uatom", Dec.ofInt 2⟩]⟩, ⟨-1, [⟨"uatom", Dec.ofInt 1⟩]⟩] "uatom" 2 10 = 3 ∧
      calculateTwaps 2 ["uatom"] 2 2 (keepAll [(0, ⟨0, [⟨"uatom", ⟨2 ^ 314⟩⟩]⟩)]) = none := by
  decide +kernel

end SeiChain.Oracle
