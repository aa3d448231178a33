import SeiChain.Oracle.Twap
import SeiChain.Lib.List

namespace SeiChain.Oracle

open Sdk

theorem wrapInt64_of_range {x : Int} (h₀ : -2 ^ 63 ≤ x) (h₁ : x < 2 ^ 63) : wrapInt64 x = x := by
  unfold wrapInt64
  rw [Int.emod_eq_of_lt (by omega) (by omega)]
  omega

theorem snapshotKey_eq {t : Int} (h₀ : 0 ≤ t) (h₁ : t < 2 ^ 64) : (snapshotKey t : Int) = t := by
  unfold snapshotKey
  rw [Int.emod_eq_of_lt h₀ h₁, Int.toNat_of_nonneg h₀]

def Bounded (t : Int) (l : List PriceSnapshot) : Prop :=
  ∀ s ∈ l, 0 ≤ s.snapshotTimestamp ∧ s.snapshotTimestamp ≤ t

def TsSorted (l : List PriceSnapshot) : Prop :=
  l.Pairwise fun a b => a.snapshotTimestamp < b.snapshotTimestamp

theorem KeySorted.tsSorted {l : List PriceSnapshot} {t : Int} (h : KeySorted l) (hb : Bounded t l)
    (ht : t < 2 ^ 64) : TsSorted l := by
  apply h.imp_of_mem
  intro a b ha hb' hab
  have hka := snapshotKey_eq (hb a ha).1 (by have := (hb a ha).2; omega)
  have hkb := snapshotKey_eq (hb b hb').1 (by have := (hb b hb').2; omega)
  omega

theorem insertSnapshot_eq_append {snapshot : PriceSnapshot} {l : List PriceSnapshot}
    (hl : KeySorted l)
    (hle : ∀ s ∈ l, snapshotKey s.snapshotTimestamp ≤ snapshotKey snapshot.snapshotTimestamp) :
    insertSnapshot snapshot l =
      l.filter (fun s => snapshotKey s.snapshotTimestamp != snapshotKey snapshot.snapshotTimestamp) ++
        [snapshot] := by
  induction l with
  | nil => rfl
  | cons s rest ih =>
    rw [KeySorted, List.pairwise_cons] at hl
    have hs := hle s List.mem_cons_self
    unfold insertSnapshot
    rw [if_neg (by omega)]
    by_cases heq : snapshotKey snapshot.snapshotTimestamp = snapshotKey s.snapshotTimestamp
    · -- `s` is the last snapshot, since every later key would lie above the new one
      have hrest : rest = [] := by
        apply List.eq_nil_iff_forall_not_mem.2
        intro r hr
        have := hl.1 r hr
        have := hle r (List.mem_cons_of_mem _ hr)
        omega
      subst hrest
      simp [heq]
    · rw [if_neg heq, ih hl.2 (fun r hr => hle r (List.mem_cons_of_mem _ hr))]
      simp [Ne.symm heq]

theorem snapshots_foldl_deletePriceSnapshot (ds : List Int) (store : SnapshotStore) :
    (ds.foldl deletePriceSnapshot store).snapshots =
      store.snapshots.filter fun s => ds.all fun d => snapshotKey s.snapshotTimestamp != snapshotKey d := by
  induction ds generalizing store with
  | nil => simp
  | cons d ds ih =>
    rw [List.foldl_cons, ih, deletePriceSnapshot, List.filter_filter]
    apply List.filter_congr
    intro s _
    simp [Bool.and_comm]

theorem reverse_insertSnapshot {snapshot : PriceSnapshot} {l : List PriceSnapshot} {t : Int}
    (hl : KeySorted l) (hb : Bounded t l) (ht : t ≤ snapshot.snapshotTimestamp)
    (hsnap₀ : 0 ≤ snapshot.snapshotTimestamp) (hsnap : snapshot.snapshotTimestamp < 2 ^ 64) :
    (insertSnapshot snapshot l).reverse =
      snapshot :: l.reverse.filter fun s => s.snapshotTimestamp != snapshot.snapshotTimestamp := by
  have hkey : ∀ s ∈ l, (snapshotKey s.snapshotTimestamp : Int) = s.snapshotTimestamp := fun s hs =>
    snapshotKey_eq (hb s hs).1 (by have := (hb s hs).2; omega)
  have hkeySnap := snapshotKey_eq hsnap₀ hsnap
  have hle : ∀ s ∈ l, snapshotKey s.snapshotTimestamp ≤ snapshotKey snapshot.snapshotTimestamp := by
    intro s hs
    have := hkey s hs
    have := (hb s hs).2
    omega
  rw [insertSnapshot_eq_append hl hle, List.reverse_append, List.reverse_singleton,
    List.singleton_append, List.filter_reverse]
  congr 2
  apply List.filter_congr
  intro s hs
  -- on timestamps in range, keys differ exactly when timestamps do
  have := hkey s hs
  rw [Bool.eq_iff_iff, bne_iff_ne, bne_iff_ne]
  omega

theorem bounded_insertSnapshot {t t' : Int} {l : List PriceSnapshot} {snapshot : PriceSnapshot}
    (hb : Bounded t l) (ht : t ≤ t') (hts : snapshot.snapshotTimestamp = t') (h₀ : 0 ≤ t') :
    Bounded t' (insertSnapshot snapshot l) := by
  intro s hs
  rcases mem_insertSnapshot hs with rfl | hs
  · omega
  · have := hb s hs
    omega

theorem Bounded.filter {t : Int} {l : List PriceSnapshot} (hb : Bounded t l) (p : PriceSnapshot → Bool) :
    Bounded t (l.filter p) :=
  fun s hs => hb s (List.mem_filter.1 hs).1

theorem evictionScan_spec {L t last : Int} {l : List PriceSnapshot} (hsorted : TsSorted l)
    (hlast : ∀ s ∈ l, last < s.snapshotTimestamp)
    (hwrap : ∀ s ∈ l, wrapInt64 (s.snapshotTimestamp + L) = s.snapshotTimestamp + L) :
    ∀ d ∈ evictionScan L t last l,
      0 ≤ d ∧ ∃ y ∈ l, d < y.snapshotTimestamp ∧ y.snapshotTimestamp + L < t := by
  induction l generalizing last with
  | nil =>
    intro d hd
    simp [evictionScan] at hd
  | cons s rest ih =>
    rw [TsSorted, List.pairwise_cons] at hsorted
    have hrest := ih hsorted.2 hsorted.1 (fun r hr => hwrap r (List.mem_cons_of_mem _ hr))
    intro d hd
    unfold evictionScan at hd
    rw [hwrap s List.mem_cons_self] at hd
    split_ifs at hd with hin hlast₀
    · simp at hd
    · rcases List.mem_append.1 hd with hd | hd
      · -- the previous snapshot out of the window, evicted by `s`
        rw [List.mem_singleton] at hd
        subst hd
        exact ⟨hlast₀, s, List.mem_cons_self, hlast s List.mem_cons_self, by omega⟩
      · obtain ⟨hd₀, y, hy, hdy, hyout⟩ := hrest d hd
        exact ⟨hd₀, y, List.mem_cons_of_mem _ hy, hdy, hyout⟩
    · rw [List.nil_append] at hd
      obtain ⟨hd₀, y, hy, hdy, hyout⟩ := hrest d hd
      exact ⟨hd₀, y, List.mem_cons_of_mem _ hy, hdy, hyout⟩

theorem all_snapshotKey_ne {a : Int} {ds : List Int} (ha : a < 2 ^ 64)
    (hds : ∀ d ∈ ds, 0 ≤ d ∧ d < a) :
    (ds.all fun d => snapshotKey a != snapshotKey d) = true := by
  rw [List.all_eq_true]
  intro d hd
  obtain ⟨hd₀, hlt⟩ := hds d hd
  have hka := snapshotKey_eq (le_trans hd₀ hlt.le) ha
  have hkd := snapshotKey_eq hd₀ (lt_trans hlt ha)
  rw [bne_iff_ne]
  omega

-- Newest first, the full store and the kept one share a leading part; past it they differ
-- only when it holds a snapshot out of the window of time `t`.
def Shared (L t : Int) (full pruned : List PriceSnapshot) : Prop :=
  ∃ P R₁ R₂, full.reverse = P ++ R₁ ∧ pruned.reverse = P ++ R₂ ∧
    (R₁ = [] ∧ R₂ = [] ∨ ∃ x ∈ P, x.snapshotTimestamp + L < t)

theorem shared_nil (L t : Int) : Shared L t [] [] := ⟨[], [], [], rfl, rfl, .inl ⟨rfl, rfl⟩⟩

theorem Shared.insertSnapshot {L t : Int} {full pruned : List PriceSnapshot}
    {snapshot : PriceSnapshot} (h : Shared L t full pruned) (hL : 0 ≤ L) (hfull : KeySorted full)
    (hpruned : KeySorted pruned) (hbf : Bounded t full) (hbp : Bounded t pruned)
    (ht : t ≤ snapshot.snapshotTimestamp) (h₀ : 0 ≤ snapshot.snapshotTimestamp)
    (h₁ : snapshot.snapshotTimestamp < 2 ^ 64) :
    Shared L snapshot.snapshotTimestamp (SeiChain.Oracle.insertSnapshot snapshot full)
      (SeiChain.Oracle.insertSnapshot snapshot pruned) := by
  obtain ⟨P, R₁, R₂, hF, hG, hR⟩ := h
  let p := fun s : PriceSnapshot => s.snapshotTimestamp != snapshot.snapshotTimestamp
  refine ⟨snapshot :: P.filter p, R₁.filter p, R₂.filter p, ?_, ?_, ?_⟩
  · rw [reverse_insertSnapshot hfull hbf ht h₀ h₁, hF, List.filter_append, List.cons_append]
  · rw [reverse_insertSnapshot hpruned hbp ht h₀ h₁, hG, List.filter_append, List.cons_append]
  · rcases hR with ⟨rfl, rfl⟩ | ⟨x, hx, hxout⟩
    · exact .inl ⟨rfl, rfl⟩
    · -- the old witness is older than the new snapshot, so it stays and is still out
      have hpx : p x = true := by
        simp only [p, bne_iff_ne, ne_eq]
        omega
      exact .inr ⟨x, List.mem_cons_of_mem _ (List.mem_filter.2 ⟨hx, hpx⟩), by omega⟩

-- Eviction keeps the shared part: it removes only snapshots older than the newest one out
-- of the window, which the shared part ends with.
theorem Shared.evict {L t : Int} {full l₀ : List PriceSnapshot} (h : Shared L t full l₀)
    (hsorted : TsSorted l₀) (hb : Bounded t l₀) (ht : t < 2 ^ 64)
    (hwrap : ∀ s ∈ l₀, wrapInt64 (s.snapshotTimestamp + L) = s.snapshotTimestamp + L) :
    Shared L t full (l₀.filter fun s =>
      (evictionScan L t (-1) l₀).all fun d => snapshotKey s.snapshotTimestamp != snapshotKey d) := by
  obtain ⟨P, R₁, R₂, hF, hG, hR⟩ := h
  let keep : PriceSnapshot → Bool := fun s =>
    (evictionScan L t (-1) l₀).all fun d => snapshotKey s.snapshotTimestamp != snapshotKey d
  show Shared L t full (l₀.filter keep)
  have hD : ∀ d ∈ evictionScan L t (-1) l₀,
      0 ≤ d ∧ ∃ y ∈ l₀, d < y.snapshotTimestamp ∧ y.snapshotTimestamp + L < t :=
    evictionScan_spec hsorted (fun s hs => by have := (hb s hs).1; omega) hwrap
  by_cases hout : ∃ x ∈ P, x.snapshotTimestamp + L < t
  · obtain ⟨A, x', B, rfl, hx'out, hA⟩ :=
      List.exists_split_first (fun x : PriceSnapshot => x.snapshotTimestamp + L < t) hout
    -- newest first, the kept store is ordered by decreasing timestamp
    have hdesc : (A ++ x' :: (B ++ R₂)).Pairwise
        (fun a b : PriceSnapshot => b.snapshotTimestamp < a.snapshotTimestamp) := by
      have := List.pairwise_reverse.2 hsorted
      rwa [hG, List.append_assoc, List.cons_append] at this
    have hAx' : ∀ a ∈ A, x'.snapshotTimestamp < a.snapshotTimestamp := fun a ha =>
      (List.pairwise_append.1 hdesc).2.2 a ha x' List.mem_cons_self
    have hx'rest : ∀ b ∈ B ++ R₂, b.snapshotTimestamp < x'.snapshotTimestamp :=
      (List.pairwise_cons.1 (List.pairwise_append.1 hdesc).2.1).1
    have hmem : ∀ y, y ∈ l₀ ↔ y ∈ A ++ x' :: (B ++ R₂) := by
      intro y
      rw [← List.mem_reverse, hG, List.append_assoc, List.cons_append]
    -- every evicted timestamp lies below `x'`
    have hDx : ∀ d ∈ evictionScan L t (-1) l₀, d < x'.snapshotTimestamp := by
      intro d hd
      obtain ⟨-, y, hy, hdy, hyout⟩ := hD d hd
      rcases List.mem_append.1 ((hmem y).1 hy) with hyA | hy
      · exact absurd hyout (hA y hyA)
      · rcases List.mem_cons.1 hy with rfl | hy
        · exact hdy
        · have := hx'rest y hy
          omega
    -- so everything up to `x'` is newer than every evicted timestamp, and kept
    have hkept : ∀ a ∈ A ++ [x'], keep a = true := by
      intro a ha
      have ha₀ : a ∈ l₀ := (hmem a).2 (by simp only [List.mem_append, List.mem_cons] at ha ⊢; tauto)
      refine all_snapshotKey_ne (by have := (hb a ha₀).2; omega) fun d hd => ⟨(hD d hd).1, ?_⟩
      have := hDx d hd
      rcases List.mem_append.1 ha with ha | ha
      · have := hAx' a ha
        omega
      · rw [List.mem_singleton] at ha
        subst ha
        omega
    refine ⟨A ++ [x'], B ++ R₁, (B ++ R₂).filter keep, ?_, ?_, .inr ⟨x', by simp, hx'out⟩⟩
    · rw [hF]
      simp
    · rw [← List.filter_reverse, hG, show A ++ x' :: B ++ R₂ = (A ++ [x']) ++ (B ++ R₂) by simp,
        List.filter_append, List.filter_eq_self.2 hkept]
  · -- nothing is out of the window, so nothing is evicted
    have hR' := hR.resolve_right hout
    have hnil : evictionScan L t (-1) l₀ = [] := by
      apply List.eq_nil_iff_forall_not_mem.2
      intro d hd
      obtain ⟨-, y, hy, -, hyout⟩ := hD d hd
      rw [← List.mem_reverse, hG, hR'.2, List.append_nil] at hy
      exact hout ⟨y, hy, hyout⟩
    have hall : ∀ a ∈ l₀, keep a = true := fun a _ => by simp [keep, hnil]
    exact ⟨P, R₁, R₂, hF, by rw [List.filter_eq_self.2 hall, hG], .inl hR'⟩

theorem shared_addPriceSnapshot {L : Nat} {t t' : Int} {full pruned : SnapshotStore}
    {snapshot : PriceSnapshot} (h : Shared L t full.snapshots pruned.snapshots)
    (hbf : Bounded t full.snapshots) (hbp : Bounded t pruned.snapshots) (htt' : t ≤ t')
    (hts : snapshot.snapshotTimestamp = t') (h₀ : 0 ≤ t') (hover : t' + L < 2 ^ 63) :
    ∃ pruned', addPriceSnapshot L t' pruned snapshot = some pruned' ∧
      Shared L t' (setPriceSnapshot full snapshot).snapshots pruned'.snapshots ∧
      Bounded t' (setPriceSnapshot full snapshot).snapshots ∧ Bounded t' pruned'.snapshots := by
  have hL : ¬ L > 2 ^ 63 - 1 := by omega
  have hbf' : Bounded t' (insertSnapshot snapshot full.snapshots) :=
    bounded_insertSnapshot hbf htt' hts h₀
  have hbp' : Bounded t' (insertSnapshot snapshot pruned.snapshots) :=
    bounded_insertSnapshot hbp htt' hts h₀
  have hinsert : Shared L t' (insertSnapshot snapshot full.snapshots)
      (insertSnapshot snapshot pruned.snapshots) := by
    rw [← hts]
    exact h.insertSnapshot (by omega) full.keySorted pruned.keySorted hbf hbp (by omega) (by omega)
      (by omega)
  refine ⟨_, by rw [addPriceSnapshot, if_neg hL], ?_, hbf', ?_⟩
  · rw [snapshots_foldl_deletePriceSnapshot]
    -- no timestamp in the store overflows when the lookback duration is added
    refine hinsert.evict ((setPriceSnapshot pruned snapshot).keySorted.tsSorted hbp' (by omega))
      hbp' (by omega) fun s hs => wrapInt64_of_range (by have := (hbp' s hs).1; omega)
        (by have := (hbp' s hs).2; omega)
  · rw [snapshots_foldl_deletePriceSnapshot]
    exact hbp'.filter _

theorem twapScan_append_of_stop {cutoff currentTime : Int} {targets : List String}
    {P : List PriceSnapshot} (hP : ∃ x ∈ P, x.snapshotTimestamp < cutoff) (R R' : List PriceSnapshot)
    (acc : TwapAcc) :
    twapScan cutoff currentTime targets (P ++ R) acc = twapScan cutoff currentTime targets (P ++ R') acc := by
  induction P generalizing acc with
  | nil =>
    obtain ⟨x, hx, _⟩ := hP
    exact absurd hx List.not_mem_nil
  | cons x P ih =>
    simp only [List.cons_append, twapScan]
    by_cases hx : x.snapshotTimestamp < cutoff
    · simp only [hx, decide_true, if_true]
    · -- `x` is in the window, so the older snapshot lies further on
      have hP' : ∃ y ∈ P, y.snapshotTimestamp < cutoff := by
        obtain ⟨y, hy, hlt⟩ := hP
        rcases List.mem_cons.1 hy with rfl | hy
        · exact absurd hlt hx
        · exact ⟨y, hy, hlt⟩
      simp only [hx, decide_false, Bool.false_eq_true, if_false]
      split
      · rfl
      · exact ih hP' _

theorem twapScan_shared {L t cutoff currentTime : Int} {targets : List String}
    {full pruned : List PriceSnapshot} (h : Shared L t full pruned) (hcut : t - L ≤ cutoff)
    (acc : TwapAcc) :
    twapScan cutoff currentTime targets pruned.reverse acc =
      twapScan cutoff currentTime targets full.reverse acc := by
  obtain ⟨P, R₁, R₂, hF, hG, ⟨rfl, rfl⟩ | ⟨x, hx, hxout⟩⟩ := h
  · rw [hF, hG]
  · rw [hF, hG]
    exact twapScan_append_of_stop ⟨x, hx, by omega⟩ R₂ R₁ acc

theorem calculateTwaps_shared {L : Nat} {t currentTime : Int} {full pruned : SnapshotStore}
    (h : Shared L t full.snapshots pruned.snapshots) (hL : L < 2 ^ 63) (ht : t ≤ currentTime)
    (hcur₀ : 0 ≤ currentTime) (hcur : currentTime < 2 ^ 63) (targets : List String)
    (lookbackSeconds : Nat) :
    calculateTwaps L targets currentTime lookbackSeconds pruned =
      calculateTwaps L targets currentTime lookbackSeconds full := by
  unfold calculateTwaps
  split_ifs with hlb
  · rfl
  · -- in range, the cutoff is `currentTime - lookbackSeconds`, past the eviction's window start
    have hlb' : wrapInt64 lookbackSeconds = lookbackSeconds := wrapInt64_of_range (by omega) (by omega)
    have hcut : wrapInt64 (currentTime - wrapInt64 lookbackSeconds) = currentTime - lookbackSeconds := by
      rw [hlb']
      exact wrapInt64_of_range (by omega) (by omega)
    have hwindow : t - L ≤ wrapInt64 (currentTime - wrapInt64 lookbackSeconds) := by
      rw [hcut]
      omega
    dsimp only
    rw [twapScan_shared h hwindow]

-- The calls the claim is about: each snapshot stamped with its block time, block times in
-- order, and no `int64` overflow when the lookback duration is added to one.
structure Chronological (lookbackDuration : Nat) (calls : List (Int × PriceSnapshot)) : Prop where
  timestamp_eq : ∀ c ∈ calls, c.2.snapshotTimestamp = c.1
  nonneg : ∀ c ∈ calls, 0 ≤ c.1
  noOverflow : ∀ c ∈ calls, c.1 + lookbackDuration < 2 ^ 63
  nondecreasing : calls.Pairwise fun a b => a.1 ≤ b.1

theorem Chronological.tail {L : Nat} {c : Int × PriceSnapshot} {calls : List (Int × PriceSnapshot)}
    (h : Chronological L (c :: calls)) : Chronological L calls :=
  ⟨fun d hd => h.timestamp_eq d (List.mem_cons_of_mem _ hd),
    fun d hd => h.nonneg d (List.mem_cons_of_mem _ hd),
    fun d hd => h.noOverflow d (List.mem_cons_of_mem _ hd), h.nondecreasing.of_cons⟩

-- Induction over the calls: the invariant holds after them, at a time no earlier than the
-- start and no earlier than any call, and that is the start or a call's time.
theorem shared_run {L : Nat} : ∀ (calls : List (Int × PriceSnapshot)) (t : Int)
    (full pruned : SnapshotStore), Chronological L calls → (∀ c ∈ calls, t ≤ c.1) → 0 ≤ t →
    Shared L t full.snapshots pruned.snapshots → Bounded t full.snapshots →
    Bounded t pruned.snapshots →
    ∃ pruned' t', calls.foldlM (fun store call => addPriceSnapshot L call.1 store call.2) pruned =
        some pruned' ∧
      Shared L t' (calls.foldl (fun store call => setPriceSnapshot store call.2) full).snapshots
        pruned'.snapshots ∧ (t' = t ∨ ∃ c ∈ calls, t' = c.1)
  | [], t, full, pruned, _, _, _, h, _, _ => ⟨pruned, t, rfl, h, .inl rfl⟩
  | c :: calls, t, full, pruned, hc, ht, ht₀, h, hbf, hbp => by
    have htc := ht c List.mem_cons_self
    obtain ⟨pruned₁, hadd, h₁, hbf₁, hbp₁⟩ := shared_addPriceSnapshot h hbf hbp htc
      (hc.timestamp_eq c List.mem_cons_self) (by omega) (hc.noOverflow c List.mem_cons_self)
    obtain ⟨pruned', t', hrun, h', ht'⟩ := shared_run calls c.1 _ pruned₁ hc.tail
      (fun d hd => List.rel_of_pairwise_cons hc.nondecreasing hd) (by omega) h₁ hbf₁ hbp₁
    refine ⟨pruned', t', ?_, h', ?_⟩
    · rw [List.foldlM_cons, hadd]
      exact hrun
    · rcases ht' with rfl | ⟨d, hd, rfl⟩
      · exact .inr ⟨c, List.mem_cons_self, rfl⟩
      · exact .inr ⟨d, List.mem_cons_of_mem _ hd, rfl⟩

def hourlyCalls : List (Int × PriceSnapshot) :=
  [0, 3600, 7200].map fun t => (t, ⟨t, [⟨"uatom", Dec.one⟩]⟩)

-- A lookback duration of `2^63 - 1`, which validation accepts, overflows the window test for every
-- positive timestamp: all but the newest snapshot are evicted, though `CalculateTwaps` reads them.
def overflowCalls : List (Int × PriceSnapshot) :=
  [1, 2, 3].map fun t => (t, ⟨t, [⟨"uatom", Dec.one⟩]⟩)

end SeiChain.Oracle
