import Mathlib

namespace SeiChain.Mint

-- A `time.Time` in UTC is its nanoseconds since 1970-01-01; a date in `TokenReleaseDateFormat`
-- is its days since then, and parses to its midnight.
def nanosPerDay : Int := 86400000000000

def midnight (d : Int) : Int := d * nanosPerDay

-- `t.Format(TokenReleaseDateFormat)`: the date `t` falls on. `Int` division by a positive
-- number rounds down.
def formatDate (t : Int) : Int := t / nanosPerDay

def zeroDate : Int := -719162

-- `DaysBetween`: both times cut to their date, then the whole days from the earlier to the
-- later. `Sub` saturates at `math.MaxInt64` nanoseconds; `Hours() / 24` of a whole number of
-- days is exact in `float64`, and of the saturated duration truncates to 106751.
def daysBetween (a b : Int) : Nat :=
  let duration := min ((formatDate a - formatDate b).natAbs * 86400000000000) 9223372036854775807
  duration / 86400000000000

-- `Minter`, without its denom: `ValidateMinter` and the mint denom parameter both require the
-- bond denom, so every coin below is in it.
structure Minter where
  startDate : Int
  endDate : Int
  totalMintAmount : UInt64
  remainingMintAmount : UInt64
  lastMintDate : Int
  lastMintHeight : UInt64
  lastMintAmount : UInt64
  deriving DecidableEq

def newMinter (startDate endDate : Int) (totalMintAmount : UInt64) : Minter where
  startDate := startDate
  endDate := endDate
  totalMintAmount := totalMintAmount
  remainingMintAmount := totalMintAmount
  lastMintDate := zeroDate
  lastMintHeight := 0
  lastMintAmount := 0

def initialMinter : Minter := newMinter zeroDate zeroDate 0

-- `ValidateMinter`, up to the dates the second message prints and the denom check.
def validateMinter (minter : Minter) : Except String Unit :=
  if minter.totalMintAmount < minter.remainingMintAmount then
    .error "total mint amount cannot be less than remaining mint amount"
  else if midnight minter.endDate < midnight minter.startDate then
    .error "end date must be after start date"
  else .ok ()

namespace Minter

-- `getReleaseAmountToday`: nothing before the start or a second time on one date; everything
-- left once past the end or on its date; otherwise an equal share of what is left over the
-- days to the end.
def getReleaseAmountToday (m : Minter) (currentTime : Int) : UInt64 :=
  if currentTime < midnight m.startDate ∨ formatDate currentTime = m.lastMintDate then 0
  else
    let numberOfDaysLeft := daysBetween currentTime (midnight m.endDate)
    if midnight m.endDate < currentTime ∨ numberOfDaysLeft = 0 then m.remainingMintAmount
    else m.remainingMintAmount / numberOfDaysLeft.toUInt64

def ongoingRelease (m : Minter) : Bool := m.remainingMintAmount != 0

end Minter

-- The epoch that has just ended.
structure Epoch where
  currentEpochStartTime : Int
  currentEpochHeight : Int

-- `RecordSuccessfulMint`; `uint64(epoch.CurrentEpochHeight)` reinterprets the `int64`.
def Minter.recordSuccessfulMint (m : Minter) (epoch : Epoch) (mintedAmount : UInt64) : Minter :=
  { m with
    remainingMintAmount := m.remainingMintAmount - mintedAmount
    lastMintDate := formatDate epoch.currentEpochStartTime
    lastMintHeight := (epoch.currentEpochHeight % 2 ^ 64).toNat.toUInt64
    lastMintAmount := mintedAmount }

-- The amount of `sdk.NewCoins(sdk.NewCoin(denom, sdk.NewInt(int64(amount))))`, zero when
-- `NewCoins` drops a zero coin. From 2^63 on `int64` gives a negative amount, and `NewCoin`
-- panics.
def releaseCoins (amount : UInt64) : Option UInt64 :=
  if amount.toNat < 2 ^ 63 then some amount else none

structure ScheduledTokenRelease where
  startDate : Int
  endDate : Int
  tokenReleaseAmount : UInt64
  deriving DecidableEq

-- `GetNextScheduledTokenRelease`: the first release in the schedule that has started by the
-- epoch and starts no earlier than the current minter ends.
def getNextScheduledTokenRelease (epoch : Epoch) (tokenReleaseSchedule : List ScheduledTokenRelease)
    (currentMinter : Minter) : Option ScheduledTokenRelease :=
  tokenReleaseSchedule.find? fun scheduledRelease =>
    decide (midnight scheduledRelease.startDate < epoch.currentEpochStartTime) &&
      decide (midnight currentMinter.endDate ≤ midnight scheduledRelease.startDate)

-- `GetOrUpdateLatestMinter`: the current minter while it has something left, or when the next
-- release starts on its start date; otherwise a new minter for the next release.
def getOrUpdateLatestMinter (tokenReleaseSchedule : List ScheduledTokenRelease)
    (currentReleaseMinter : Minter) (epoch : Epoch) : Minter :=
  match getNextScheduledTokenRelease epoch tokenReleaseSchedule currentReleaseMinter with
  | none => currentReleaseMinter
  | some nextScheduledRelease =>
    if currentReleaseMinter.ongoingRelease ∨
        nextScheduledRelease.startDate = currentReleaseMinter.startDate then currentReleaseMinter
    else
      newMinter nextScheduledRelease.startDate nextScheduledRelease.endDate
        nextScheduledRelease.tokenReleaseAmount

-- `SortTokenReleaseCalendar` orders by start date; `sort.Slice` is not stable, the model's
-- merge sort is.
def sortTokenReleaseCalendar (tokenReleaseSchedule : List ScheduledTokenRelease) :
    List ScheduledTokenRelease :=
  tokenReleaseSchedule.mergeSort fun a b => decide (a.startDate ≤ b.startDate)

def validateScheduledRelease (prevReleaseEndDate : Int) (scheduledTokenRelease : ScheduledTokenRelease) :
    Except String Int :=
  if midnight scheduledTokenRelease.endDate < midnight scheduledTokenRelease.startDate then
    .error "error: start date must be before end date"
  else if midnight scheduledTokenRelease.startDate < midnight prevReleaseEndDate then
    .error "error: overlapping release period detected"
  else .ok scheduledTokenRelease.endDate

-- `validateTokenReleaseSchedule`, up to the dates its messages print.
def validateTokenReleaseSchedule (tokenReleaseSchedule : List ScheduledTokenRelease) :
    Except String Unit := do
  let _ ← (sortTokenReleaseCalendar tokenReleaseSchedule).foldlM validateScheduledRelease zeroDate
  pure ()

-- The minter stored after the epoch and the amount minted, zero when nothing is; `none` is a
-- panic. When nothing is minted the minter is not stored, so a new minter
-- `GetOrUpdateLatestMinter` made is dropped.
def afterEpochEnd (tokenReleaseSchedule : List ScheduledTokenRelease) (minter : Minter)
    (epoch : Epoch) : Option (Minter × UInt64) := do
  let latestMinter := getOrUpdateLatestMinter tokenReleaseSchedule minter epoch
  let coinsToMint ← releaseCoins (latestMinter.getReleaseAmountToday epoch.currentEpochStartTime)
  if coinsToMint = 0 ∨ latestMinter.remainingMintAmount = 0 then pure (minter, 0)
  else pure (latestMinter.recordSuccessfulMint epoch coinsToMint, coinsToMint)

def afterEpochEnds (tokenReleaseSchedule : List ScheduledTokenRelease) (minter : Minter) :
    List Epoch → Option (List (Epoch × Minter × UInt64))
  | [] => some []
  | epoch :: epochs => do
    let (minter', minted) ← afterEpochEnd tokenReleaseSchedule minter epoch
    let trace ← afterEpochEnds tokenReleaseSchedule minter' epochs
    pure ((epoch, minter', minted) :: trace)

end SeiChain.Mint
