import Mathlib
import SeiChain.Rpc.Bloom
import SeiChain.Rpc.Block
import SeiChain.Lib.GoSort

namespace SeiChain.Rpc

open Evm

-- `filters.FilterCriteria`, with the block numbers as `BlockNumber.Int64()`: the tags are
-- negative.
structure FilterCriteria where
  blockHash : Option Hash
  fromBlock : Option Int
  toBlock : Option Int
  addresses : List Address
  topics : List (List Hash)

-- `FilterConfig`, without the filters' timeout.
structure FilterConfig where
  maxLog : Int
  maxBlock : Int

def safeBlockNumber : Int := -4
def finalizedBlockNumber : Int := -3
def latestBlockNumber : Int := -2
def pendingBlockNumber : Int := -1

-- `getHeightFromBigIntBlockNumber`: the tags are the latest height.
def getHeightFromBigIntBlockNumber (latest blockNumber : Int) : Int :=
  if blockNumber ∈ [finalizedBlockNumber, latestBlockNumber, safeBlockNumber, pendingBlockNumber] then
    latest
  else blockNumber

def matchTopics : List (List Hash) → List Hash → Bool
  | [], _ => true
  | topicList :: topics, eventTopics =>
    (topicList.isEmpty ||
        match eventTopics with
        | [] => false
        | eventTopic :: _ => topicList.contains eventTopic) &&
      matchTopics topics eventTopics.tail

def isLogExactMatch (log : EthLog) (crit : FilterCriteria) : Bool :=
  (crit.addresses.isEmpty || crit.addresses.any (fun addrFilter => log.address == addrFilter)) &&
    matchTopics crit.topics log.topics

-- `LogFetcher` at one moment: its Tendermint client's `blockByNumberWithRetry` at an `int64`
-- height and `blockByHashWithRetry`, `GetBlockBloom` at each height, the latest height, the
-- node's receipts, and its configuration.
structure LogFetcher where
  node : Node
  blockByHeight : Int → Except String Block
  blockByHash : Hash → Except String Block
  getBlockBloom : Int → Bytes
  latest : Int
  filterConfig : FilterConfig
  includeSyntheticReceipts : Bool

def bloomMatches (filters : List (List (List Nat))) (receipt : Receipt) : Bool :=
  !receipt.logsBloom.isEmpty && matchFilters receipt.logsBloom filters

def LogFetcher.getLogsForBlock (f : LogFetcher) (block : Block) (crit : FilterCriteria)
    (filters : List (List (List Nat))) : List EthLog :=
  (findLogsByBloom f.node f.includeSyntheticReceipts (bloomMatches filters) block).filter
    (isLogExactMatch · crit)

def LogFetcher.applyOpenEndedLogLimit (f : LogFetcher) (crit : FilterCriteria) : Bool :=
  0 < f.filterConfig.maxLog && (crit.fromBlock.isNone || crit.toBlock.isNone)

-- The `begin` and `end` heights of `GetLogsByFilters`: the criteria's range, from the latest
-- height when it has no bounds, begun no earlier than `lastToHeight`, and cut to `maxBlock`
-- heights unless the open-ended log limit applies.
def LogFetcher.logRange (f : LogFetcher) (crit : FilterCriteria) (lastToHeight : Int) : Int × Int :=
  let latest := f.latest
  let begin := match crit.fromBlock with
    | some fromBlock => getHeightFromBigIntBlockNumber latest fromBlock
    | none => latest
  let (begin, endHeight) := match crit.toBlock with
    | some toBlock =>
      let endHeight := getHeightFromBigIntBlockNumber latest toBlock
      -- only if fromBlock is not specified, default it to end block
      (if crit.fromBlock.isNone && endHeight < begin then endHeight else begin, endHeight)
    | none => (begin, latest)
  let begin := if begin < lastToHeight then lastToHeight else begin
  let endHeight :=
    if !f.applyOpenEndedLogLimit crit && 0 < f.filterConfig.maxBlock &&
        begin + f.filterConfig.maxBlock ≤ endHeight then
      begin + f.filterConfig.maxBlock - 1
    else endHeight
  (begin, endHeight)

-- A worker's answer for one height: nothing when the block bloom rules the height out, else
-- the matching logs of the block, or the error fetching it.
def LogFetcher.logsAtHeight (f : LogFetcher) (crit : FilterCriteria)
    (bloomIndexes : List (List (List Nat))) (height : Int) : Except String (List EthLog) :=
  if (!crit.addresses.isEmpty || !crit.topics.isEmpty) &&
      !matchFilters (f.getBlockBloom height) bloomIndexes then
    .ok []
  else (fun block => f.getLogsForBlock block crit bloomIndexes) <$> f.blockByHeight height

-- The heights from `begin` to `endHeight` that the tasks channel carries: genesis is skipped.
def taskHeights (begin endHeight : Int) : List Int :=
  ((List.range (endHeight - begin + 1).toNat).map (begin + ·)).filter (· ≠ 0)

-- `GetLogsByFilters`. The workers' logs reach the results channel in an order the scheduler
-- picks: `deliver` merges the per-height lists, given in the order of the heights, into that
-- order. The block fetch errors are joined in the order of the heights.
def LogFetcher.getLogsByFilters (f : LogFetcher) (keccak256 : Bytes → Hash) (crit : FilterCriteria)
    (lastToHeight : Int) (deliver : List (List EthLog) → List EthLog) :
    Except String (List EthLog × Int) :=
  let bloomIndexes := encodeFilters keccak256 crit.addresses crit.topics
  match crit.blockHash with
  | some blockHash =>
    (fun block => (f.getLogsForBlock block crit bloomIndexes, (block.height : Int))) <$>
      f.blockByHash blockHash
  | none =>
    let (begin, endHeight) := f.logRange crit lastToHeight
    if endHeight < begin then
      .error ("fromBlock " ++ toString begin ++ " is after toBlock " ++ toString endHeight)
    else
      let results := (taskHeights begin endHeight).map (f.logsAtHeight crit bloomIndexes)
      let errorsList := results.filterMap fun r => match r with
        | .error e => some e
        | .ok _ => none
      if errorsList ≠ [] then .error (String.intercalate "\n" errorsList)
      else
        let res := deliver (results.filterMap fun r => match r with
          | .ok logs => some logs
          | .error _ => none)
        -- sorted by block number alone
        let res := (GoSort.sortSlice (fun a b => decide (a.blockNumber < b.blockNumber)) res.toArray).toList
        let res :=
          if f.applyOpenEndedLogLimit crit && f.filterConfig.maxLog ≤ res.length then
            res.take f.filterConfig.maxLog.toNat
          else res
        .ok (res, endHeight)

-- A log filter of `NewFilter`: its criteria and the height its next poll starts from.
structure LogFilter where
  fc : FilterCriteria
  lastToHeight : Int

abbrev Filters := String → Option LogFilter

def newFilter (filters : Filters) (id : String) (crit : FilterCriteria) : Filters :=
  Function.update filters id (some ⟨crit, 0⟩)

-- `GetFilterChanges` of a log filter; a `nil` result is the empty list.
def getFilterChanges (f : LogFetcher) (keccak256 : Bytes → Hash)
    (deliver : List (List EthLog) → List EthLog) (filters : Filters) (filterID : String) :
    Except String (List EthLog) × Filters :=
  match filters filterID with
  | none => (.error "filter does not exist", filters)
  | some filter =>
    -- filter by hash would have no updates if it has previously queried for this crit
    if filter.fc.blockHash.isSome && 0 < filter.lastToHeight then (.ok [], filters)
    -- filter with a ToBlock would have no updates if it has previously queried for this crit
    else if (filter.fc.toBlock.map fun toBlock => decide (toBlock ≤ filter.lastToHeight)).getD false then
      (.ok [], filters)
    else
      match f.getLogsByFilters keccak256 filter.fc filter.lastToHeight deliver with
      | .error e => (.error e, filters)
      | .ok (logs, lastToHeight) =>
        (.ok logs, Function.update filters filterID (some { filter with lastToHeight := lastToHeight + 1 }))

def getFilterLogs (f : LogFetcher) (keccak256 : Bytes → Hash)
    (deliver : List (List EthLog) → List EthLog) (filters : Filters) (filterID : String) :
    Except String (List EthLog) × Filters :=
  match filters filterID with
  | none => (.error "filter does not exist", filters)
  | some filter =>
    match f.getLogsByFilters keccak256 filter.fc 0 deliver with
    | .error e => (.error e, filters)
    | .ok (logs, lastToHeight) =>
      (.ok logs, Function.update filters filterID (some { filter with lastToHeight := lastToHeight }))

def uninstallFilter (filters : Filters) (filterID : String) : Bool × Filters :=
  match filters filterID with
  | none => (false, filters)
  | some _ => (true, Function.update filters filterID none)

theorem exists_mem_of_matchTopics {topics : List (List Hash)} {eventTopics : List Hash}
    (h : matchTopics topics eventTopics = true) :
    ∀ topicList ∈ topics, topicList ≠ [] → ∃ t ∈ topicList, t ∈ eventTopics := by
  induction topics generalizing eventTopics with
  | nil => exact fun _ hmem => absurd hmem List.not_mem_nil
  | cons topicList topics ih =>
    simp only [matchTopics, Bool.and_eq_true, Bool.or_eq_true, List.isEmpty_iff] at h
    obtain ⟨hhead, htail⟩ := h
    intro topicList' hmem hne
    rcases List.mem_cons.1 hmem with rfl | hmem
    · -- the position is this one: the event's topic here is in the list
      rcases hhead with hempty | hhead
      · exact absurd hempty hne
      · cases eventTopics with
        | nil => simp at hhead
        | cons eventTopic _ =>
          exact ⟨eventTopic, List.elem_iff.1 hhead, List.mem_cons_self⟩
    · obtain ⟨t, ht, hmem'⟩ := ih htail topicList' hmem hne
      exact ⟨t, ht, List.mem_of_mem_tail hmem'⟩

theorem matchFilters_of_isLogExactMatch {keccak256 : Bytes → Hash} {bloom : Bytes} {l : EthLog}
    {crit : FilterCriteria}
    (hbits : ∀ d, (d = l.address.bytes ∨ ∃ t ∈ l.topics, d = t.bytes) → BloomHas keccak256 bloom d)
    (h : isLogExactMatch l crit = true) :
    matchFilters bloom (encodeFilters keccak256 crit.addresses crit.topics) = true := by
  simp only [isLogExactMatch, Bool.and_eq_true, Bool.or_eq_true, List.isEmpty_iff,
    List.any_eq_true, beq_iff_eq] at h
  obtain ⟨haddr, htopics⟩ := h
  apply matchFilters_encodeFilters
  · intro hne
    obtain ⟨a, ha, rfl⟩ := haddr.resolve_left hne
    exact ⟨l.address, ha, hbits _ (.inl rfl)⟩
  · intro topicList hmem hne
    obtain ⟨t, ht, hlog⟩ := exists_mem_of_matchTopics htopics topicList hmem hne
    exact ⟨t, ht, hbits _ (.inr ⟨t, hlog, rfl⟩)⟩

theorem bloomHas_createBloom {keccak256 : Bytes → Hash} {r : Receipt} {t : Nat} {l : EthLog}
    (hl : l ∈ getLogsForTx r t) :
    ∀ d, (d = l.address.bytes ∨ ∃ topic ∈ l.topics, d = topic.bytes) →
      BloomHas keccak256 (createBloom keccak256 r.logs) d := by
  obtain ⟨l₀, hl₀, rfl⟩ := List.mem_map.1 hl
  exact fun d hd => bloomTestBit_createBloom hl₀ hd

theorem filter_findLogsByBloomFrom {getReceipt : Hash → Option Receipt} {inc : Bool}
    {matchBloom : Receipt → Bool} {p : EthLog → Bool}
    (hdrop : ∀ hash r, getReceipt hash = some r → matchBloom r = false →
      ∀ t, ∀ l ∈ getLogsForTx r t, p l = false)
    (hashes : List Hash) (totalLogs : Nat) :
    (findLogsByBloomFrom getReceipt inc matchBloom hashes totalLogs).filter p =
      (findLogsByBloomFrom getReceipt inc (fun _ => true) hashes totalLogs).filter p := by
  induction hashes generalizing totalLogs with
  | nil => rfl
  | cons hash hashes ih =>
    unfold findLogsByBloomFrom
    cases hr : getReceipt hash with
    | none => exact ih totalLogs
    | some r =>
      dsimp only
      split_ifs with hskip hm
      · exact ih totalLogs
      · rw [List.filter_append, List.filter_append, ih]
      · exact absurd rfl ‹¬true = true›
      · -- a dropped receipt's logs are all filtered out anyway
        have hnone : (getLogsForTx r totalLogs).filter p = [] :=
          List.filter_eq_nil_iff.2 fun l hl => by
            simp [hdrop hash r hr (by simpa using hm) totalLogs l hl]
        rw [List.filter_append, List.filter_append, ih, hnone, List.filter_nil]
      · exact absurd rfl ‹¬true = true›

def txHashAt (h : Nat) : Hash := bytesToHash [h.toUInt8]

def receiptAt (logCount : Nat → Nat) (h : Nat) : Receipt :=
  ⟨0, txHashAt h, h, 0, 1, (List.range (logCount h)).map fun i => ⟨bytesToAddress [], [], [], i⟩,
    List.replicate 256 255⟩

def blockAt (h : Nat) : Block := ⟨h, [⟨some [.evmTransaction (txHashAt h) false], Hash.zero⟩]⟩

def chainAt (logCount : Nat → Nat) (latest : Nat) : LogFetcher where
  node :=
    ⟨fun hash => ((List.range (latest + 1)).find? fun h => decide (txHashAt h = hash)).map (receiptAt logCount),
      fun h => .ok (blockAt h), []⟩
  blockByHeight h :=
    if 0 < h ∧ h ≤ latest then .ok (blockAt h.toNat)
    else .error ("could not find block for height " ++ toString h)
  blockByHash _ := .error "not found"
  getBlockBloom _ := []
  latest := latest
  filterConfig := ⟨0, 0⟩
  includeSyntheticReceipts := false

def anyLogs : FilterCriteria := ⟨none, none, none, [], []⟩

theorem filter_poll_errors_then_skips :
    let keccak256 : Bytes → Hash := fun _ => Hash.zero
    let filters := newFilter (fun _ => none) "0x1" anyLogs
    let poll₁ := getFilterChanges (chainAt (fun _ => 1) 5) keccak256 List.flatten filters "0x1"
    let poll₂ := getFilterChanges (chainAt (fun _ => 1) 5) keccak256 List.flatten poll₁.2 "0x1"
    let poll₃ := getFilterChanges (chainAt (fun _ => 1) 7) keccak256 List.flatten poll₂.2 "0x1"
    poll₁.1.map (·.map EthLog.blockNumber) = .ok [5] ∧
      poll₂.1 = .error "fromBlock 6 is after toBlock 5" ∧
      poll₃.1.map (·.map EthLog.blockNumber) = .ok [7] := by
  refine ⟨?_, ?_, ?_⟩
  · rfl
  · rfl
  · rfl

theorem get_logs_sorts_by_block_number_only :
    ((chainAt (fun h => if h = 2 then 12 else 1) 2).getLogsByFilters (fun _ => Hash.zero)
        ⟨none, some 1, some 2, [], []⟩ 0 (fun perHeight => perHeight.reverse.flatten)).map
        (fun r => r.1.map fun l => (l.blockNumber, l.index)) =
      .ok [(1, 0), (2, 6), (2, 2), (2, 3), (2, 4), (2, 5), (2, 0), (2, 7), (2, 8), (2, 9), (2, 10),
        (2, 11), (2, 1)] := by
  rfl

end SeiChain.Rpc
