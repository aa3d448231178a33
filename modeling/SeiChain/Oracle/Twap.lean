import SeiChain.Oracle.Tally

namespace SeiChain.Oracle

open Sdk

-- The signed 64-bit arithmetic of the source wraps.
def wrapInt64 (x : Int) : Int := (x + 2 ^ 63) % 2 ^ 64 - 2 ^ 63

structure PriceSnapshotItem where
  denom : String
  exchangeRate : Dec
  deriving DecidableEq

structure PriceSnapshot where
  snapshotTimestamp : Int
  priceSnapshotItems : List PriceSnapshotItem
  deriving DecidableEq

-- `GetPriceSnapshotKey(uint64(timestamp))`: big-endian, so keys sort as the unsigned value.
def snapshotKey (timestamp : Int) : Nat := (timestamp % 2 ^ 64).toNat

-- `store.Set` of a snapshot into the snapshots in key order; one at the same key is replaced.
def insertSnapshot (snapshot : PriceSnapshot) : List PriceSnapshot → List PriceSnapshot
  | [] => [snapshot]
  | s :: rest =>
    if snapshotKey snapshot.snapshotTimestamp < snapshotKey s.snapshotTimestamp then
      snapshot :: s :: rest
    else if snapshotKey snapshot.snapshotTimestamp = snapshotKey s.snapshotTimestamp then
      snapshot :: rest
    else s :: insertSnapshot snapshot rest

def KeySorted (snapshots : List PriceSnapshot) : Prop :=
  snapshots.Pairwise fun a b => snapshotKey a.snapshotTimestamp < snapshotKey b.snapshotTimestamp

theorem mem_insertSnapshot {snapshot x : PriceSnapshot} {l : List PriceSnapshot}
    (hx : x ∈ insertSnapshot snapshot l) : x = snapshot ∨ x ∈ l := by
  induction l with
  | nil => simpa [insertSnapshot] using hx
  | cons s rest ih =>
    unfold insertSnapshot at hx
    split_ifs at hx
    · simpa using hx
    · rcases List.mem_cons.1 hx with rfl | hx
      · exact .inl rfl
      · exact .inr (List.mem_cons_of_mem _ hx)
    · rcases List.mem_cons.1 hx with rfl | hx
      · exact .inr List.mem_cons_self
      · exact (ih hx).imp_right (List.mem_cons_of_mem _)

theorem keySorted_insertSnapshot (snapshot : PriceSnapshot) {l : List PriceSnapshot}
    (h : KeySorted l) : KeySorted (insertSnapshot snapshot l) := by
  induction l with
  | nil => exact List.pairwise_singleton _ _
  | cons s rest ih =>
    rw [KeySorted, List.pairwise_cons] at h
    obtain ⟨hs, hrest⟩ := h
    unfold insertSnapshot
    split_ifs with h₁ h₂
    · refine List.Pairwise.cons (fun y hy => ?_) (List.Pairwise.cons hs hrest)
      rcases List.mem_cons.1 hy with rfl | hy
      · exact h₁
      · exact h₁.trans (hs y hy)
    · exact List.Pairwise.cons (fun y hy => h₂ ▸ hs y hy) hrest
    · -- the new snapshot goes after `s`, among keys all above it
      refine List.Pairwise.cons (fun y hy => ?_) (ih hrest)
      rcases mem_insertSnapshot hy with rfl | hy
      · omega
      · exact hs y hy

structure SnapshotStore where
  snapshots : List PriceSnapshot
  keySorted : KeySorted snapshots

def SnapshotStore.empty : SnapshotStore := ⟨[], List.Pairwise.nil⟩

def setPriceSnapshot (store : SnapshotStore) (snapshot : PriceSnapshot) : SnapshotStore :=
  ⟨insertSnapshot snapshot store.snapshots, keySorted_insertSnapshot snapshot store.keySorted⟩

def deletePriceSnapshot (store : SnapshotStore) (timestamp : Int) : SnapshotStore :=
  ⟨store.snapshots.filter fun s => snapshotKey s.snapshotTimestamp != snapshotKey timestamp,
    store.keySorted.filter _⟩

-- The ascending scan: it stops at the first snapshot still in the window, and each snapshot
-- out of it evicts the one out of it before.
def evictionScan (lookbackDuration blockTime : Int) : Int → List PriceSnapshot → List Int
  | _, [] => []
  | lastOutOfRange, s :: rest =>
    if wrapInt64 (s.snapshotTimestamp + lookbackDuration) ≥ blockTime then []
    else (if lastOutOfRange ≥ 0 then [lastOutOfRange] else []) ++
      evictionScan lookbackDuration blockTime s.snapshotTimestamp rest

-- `none` is the panic on a lookback duration beyond `int64`.
def addPriceSnapshot (lookbackDuration : Nat) (blockTime : Int) (store : SnapshotStore)
    (snapshot : PriceSnapshot) : Option SnapshotStore :=
  if lookbackDuration > 2 ^ 63 - 1 then none
  else
    let store := setPriceSnapshot store snapshot
    let timestampsToDelete := evictionScan lookbackDuration blockTime (-1) store.snapshots
    some (timestampsToDelete.foldl deletePriceSnapshot store)

def addPriceSnapshots (lookbackDuration : Nat) (calls : List (Int × PriceSnapshot)) :
    Option SnapshotStore :=
  calls.foldlM (fun store call => addPriceSnapshot lookbackDuration call.1 store call.2)
    SnapshotStore.empty

def keepAll (calls : List (Int × PriceSnapshot)) : SnapshotStore :=
  calls.foldl (fun store call => setPriceSnapshot store call.2) SnapshotStore.empty

structure OracleTwap where
  denom : String
  twap : Dec
  lookbackSeconds : Int
  deriving DecidableEq

def errInvalidTwapLookback : String :=
  "Twap lookback seconds is greater than max lookback duration or less than or equal to 0"

def errNoTwapData : String := "No data for the twap calculation"

abbrev TwapAcc := List (String × Dec × Int)

-- One price of a snapshot that covers the time back to `timeTraversed`: its rate weighs the
-- part of that time the denom's sum does not cover yet.
def twapItem (targets : List String) (timeTraversed : Int) (acc : TwapAcc)
    (item : PriceSnapshotItem) : Option TwapAcc :=
  if item.denom ∉ targets then some acc
  else do
    let (sum, duration) := (acc.lookup item.denom).getD (Dec.zero, 0)
    let durationDifference := wrapInt64 (timeTraversed - duration)
    let sum ← sum.add (← item.exchangeRate.mulInt64 durationDifference)
    pure ((item.denom, sum, timeTraversed) :: acc.filter (·.1 != item.denom))

-- The reverse scan, newest first: a snapshot older than the window is cut at its start and
-- is the last one read.
def twapScan (cutoff currentTime : Int) (targets : List String) :
    List PriceSnapshot → TwapAcc → Option TwapAcc
  | [], acc => some acc
  | s :: rest, acc =>
    let stop := decide (s.snapshotTimestamp < cutoff)
    let timeTraversed := wrapInt64 (currentTime - if stop then cutoff else s.snapshotTimestamp)
    match s.priceSnapshotItems.foldlM (twapItem targets timeTraversed) acc with
    | none => none
    | some acc => if stop then some acc else twapScan cutoff currentTime targets rest acc

def oracleTwap (acc : TwapAcc) (denom : String) : Option OracleTwap := do
  let (sum, duration) := (acc.lookup denom).getD (Dec.zero, 0)
  let twap ← if duration = 0 then some Dec.zero else sum.quoInt64 duration
  pure ⟨denom, twap, duration⟩

-- `none` is a panic of the decimal arithmetic.
def calculateTwaps (lookbackDuration : Nat) (targets : List String) (currentTime : Int)
    (lookbackSeconds : Nat) (store : SnapshotStore) : Option (Except String (List OracleTwap)) :=
  if lookbackSeconds > lookbackDuration ∨ lookbackSeconds = 0 then some (.error errInvalidTwapLookback)
  else do
    let cutoff := wrapInt64 (currentTime - wrapInt64 lookbackSeconds)
    let acc ← twapScan cutoff currentTime targets store.snapshots.reverse []
    let twaps ← (sortStrings (acc.map Prod.fst)).mapM (oracleTwap acc)
    pure (if twaps = [] then .error errNoTwapData else .ok twaps)

end SeiChain.Oracle
