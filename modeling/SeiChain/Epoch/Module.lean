import Mathlib

namespace SeiChain.Epoch

-- The module's own type of epochs lives in the module's namespace, as `types.Epoch` does.
set_option linter.dupNamespace false

def maxDuration : Int := 2 ^ 63 - 1

def minDuration : Int := -2 ^ 63

def timeSub (t u : Int) : Int := max minDuration (min maxDuration (t - u))

def zeroTime : Int := -62135596800 * 1000000000

structure Epoch where
  genesisTime : Int
  epochDuration : Int
  currentEpoch : UInt64
  currentEpochStartTime : Int
  currentEpochHeight : Int
  deriving DecidableEq

-- `Epoch.Validate`. `EpochDuration.Seconds()` is zero only for the zero duration.
def Epoch.validate (e : Epoch) : Except String Unit :=
  if e.genesisTime = zeroTime then .error "epoch genesis time cannot be zero"
  else if e.epochDuration = 0 then .error "epoch duration cannot be zero"
  else if e.currentEpochStartTime < e.genesisTime then
    .error "epoch genesis time cannot be after epoch start time"
  else if e.currentEpochHeight < 0 then .error "epoch current epoch height cannot be negative"
  else .ok ()

-- `ctx.BlockTime()` and `ctx.BlockHeight()` of a block.
structure Block where
  time : Int
  height : Int
  deriving DecidableEq

-- `types.EpochHooks`, over the state the hooks write; `none` is a panic.
structure EpochHooks (H : Type) where
  afterEpochEnd : H → Epoch → Option H
  beforeEpochStart : H → Epoch → Option H

-- `panicCatchingEpochHook`: the hook runs on a cache of the state, written back only when it
-- does not panic.
def panicCatchingEpochHook {H : Type} (hookFn : H → Epoch → Option H) (h : H) (epoch : Epoch) : H :=
  (hookFn h epoch).getD h

def multiAfterEpochEnd {H : Type} (hooks : List (EpochHooks H)) (h : H) (epoch : Epoch) : H :=
  hooks.foldl (fun h hook => panicCatchingEpochHook hook.afterEpochEnd h epoch) h

def multiBeforeEpochStart {H : Type} (hooks : List (EpochHooks H)) (h : H) (epoch : Epoch) : H :=
  hooks.foldl (fun h hook => panicCatchingEpochHook hook.beforeEpochStart h epoch) h

-- The epoch the keeper stores, and the state of the hooks.
structure State (H : Type) where
  epoch : Epoch
  hooks : H

def newEpoch (lastEpoch : Epoch) (block : Block) : Epoch where
  genesisTime := lastEpoch.genesisTime
  epochDuration := lastEpoch.epochDuration
  currentEpoch := lastEpoch.currentEpoch + 1
  currentEpochStartTime := block.time
  currentEpochHeight := block.height

def beginBlock {H : Type} (hooks : List (EpochHooks H)) (s : State H) (block : Block) : State H :=
  let lastEpoch := s.epoch
  if timeSub block.time lastEpoch.currentEpochStartTime > lastEpoch.epochDuration then
    let h := multiAfterEpochEnd hooks s.hooks lastEpoch
    let epoch := newEpoch lastEpoch block
    ⟨epoch, multiBeforeEpochStart hooks h epoch⟩
  else s

def runBlocks {H : Type} (hooks : List (EpochHooks H)) (s : State H) (blocks : List Block) : State H :=
  blocks.foldl (beginBlock hooks) s

def EndsAt (lastEpoch : Epoch) (block : Block) : Prop :=
  timeSub block.time lastEpoch.currentEpochStartTime > lastEpoch.epochDuration

instance (lastEpoch : Epoch) (block : Block) : Decidable (EndsAt lastEpoch block) :=
  inferInstanceAs (Decidable (_ > _))

def epochsOf (e : Epoch) : List Block → List Epoch
  | [] => [e]
  | block :: blocks =>
    if EndsAt e block then e :: epochsOf (newEpoch e block) blocks else epochsOf e blocks

def hookRun {H : Type} (hooks : List (EpochHooks H)) (h : H) : List Epoch → H
  | a :: b :: rest => hookRun hooks (multiBeforeEpochStart hooks (multiAfterEpochEnd hooks h a) b) (b :: rest)
  | _ => h

section Runs

variable {H : Type} (hooks : List (EpochHooks H))

theorem beginBlock_of_endsAt {s : State H} {block : Block} (h : EndsAt s.epoch block) :
    beginBlock hooks s block = ⟨newEpoch s.epoch block,
      multiBeforeEpochStart hooks (multiAfterEpochEnd hooks s.hooks s.epoch) (newEpoch s.epoch block)⟩ := by
  unfold beginBlock
  exact if_pos h

theorem beginBlock_of_not_endsAt {s : State H} {block : Block} (h : ¬EndsAt s.epoch block) :
    beginBlock hooks s block = s := by
  unfold beginBlock
  exact if_neg h

omit hooks in
theorem epochsOf_eq_cons (e : Epoch) (blocks : List Block) : ∃ rest, epochsOf e blocks = e :: rest := by
  induction blocks generalizing e with
  | nil => exact ⟨[], rfl⟩
  | cons block blocks ih =>
    unfold epochsOf
    split_ifs
    · exact ⟨_, rfl⟩
    · exact ih e

omit hooks in
theorem epochsOf_ne_nil (e : Epoch) (blocks : List Block) : epochsOf e blocks ≠ [] := by
  obtain ⟨rest, h⟩ := epochsOf_eq_cons e blocks
  rw [h]
  exact List.cons_ne_nil e rest

-- A run stores the last of its epochs, and the hooks have heard of every end and start along
-- them. The induction is on the blocks, from any state.
theorem runBlocks_eq (s : State H) (blocks : List Block) :
    runBlocks hooks s blocks =
      ⟨(epochsOf s.epoch blocks).getLast (epochsOf_ne_nil _ _), hookRun hooks s.hooks (epochsOf s.epoch blocks)⟩ := by
  induction blocks generalizing s with
  | nil => rfl
  | cons block blocks ih =>
    rw [runBlocks, List.foldl_cons, ← runBlocks]
    by_cases hend : EndsAt s.epoch block
    · rw [beginBlock_of_endsAt hooks hend, ih]
      -- the next epoch heads the rest, so the hooks hear of the end and the start once
      obtain ⟨rest, hrest⟩ := epochsOf_eq_cons (newEpoch s.epoch block) blocks
      simp only [epochsOf, if_pos hend, hrest, hookRun, List.getLast_cons_cons]
    · rw [beginBlock_of_not_endsAt hooks hend, ih]
      simp only [epochsOf, if_neg hend]

end Runs

-- One epoch follows another at a block of a run: the next number, the same genesis time and
-- duration, after the other has lasted more than the duration, at the time and height of the
-- block.
structure Follows (blocks : List Block) (a b : Epoch) : Prop where
  number : b.currentEpoch = a.currentEpoch + 1
  genesisTime : b.genesisTime = a.genesisTime
  duration : b.epochDuration = a.epochDuration
  lasted : a.epochDuration < timeSub b.currentEpochStartTime a.currentEpochStartTime
  started : ∃ block ∈ blocks, b.currentEpochStartTime = block.time ∧ b.currentEpochHeight = block.height

theorem Follows.mono {blocks blocks' : List Block} (hsub : ∀ block ∈ blocks, block ∈ blocks')
    {a b : Epoch} (h : Follows blocks a b) : Follows blocks' a b := by
  obtain ⟨block, hblock, htime, hheight⟩ := h.started
  exact ⟨h.number, h.genesisTime, h.duration, h.lasted, block, hsub block hblock, htime, hheight⟩

theorem follows_newEpoch {blocks : List Block} {e : Epoch} {block : Block} (hblock : block ∈ blocks)
    (hend : EndsAt e block) : Follows blocks e (newEpoch e block) :=
  ⟨rfl, rfl, rfl, hend, block, hblock, rfl, rfl⟩

theorem epochsOf_isChain (e : Epoch) (blocks : List Block) : (epochsOf e blocks).IsChain (Follows blocks) := by
  induction blocks generalizing e with
  | nil => exact List.isChain_singleton e
  | cons block blocks ih =>
    have hmono : ∀ ⦃a b⦄, Follows blocks a b → Follows (block :: blocks) a b :=
      fun a b => Follows.mono fun _ hb => List.mem_cons_of_mem _ hb
    unfold epochsOf
    split_ifs with hend
    · -- the epoch that ends is followed by the one the block starts, which heads the rest
      obtain ⟨rest, hrest⟩ := epochsOf_eq_cons (newEpoch e block) blocks
      have htail := ih (newEpoch e block)
      rw [hrest] at htail ⊢
      exact List.isChain_cons_cons.2
        ⟨follows_newEpoch List.mem_cons_self hend, htail.imp hmono⟩
    · exact (ih e).imp hmono

-- Every epoch of a run keeps the genesis time and the duration, and is the first or starts at a
-- block of the run.
theorem mem_epochsOf {e x : Epoch} {blocks : List Block} (hx : x ∈ epochsOf e blocks) :
    x.genesisTime = e.genesisTime ∧ x.epochDuration = e.epochDuration ∧
      (x = e ∨ ∃ block ∈ blocks, x.currentEpochStartTime = block.time ∧
        x.currentEpochHeight = block.height) := by
  induction blocks generalizing e with
  | nil =>
    rw [epochsOf, List.mem_singleton] at hx
    exact ⟨hx ▸ rfl, hx ▸ rfl, Or.inl hx⟩
  | cons block blocks ih =>
    unfold epochsOf at hx
    split_ifs at hx with hend
    · rcases List.mem_cons.1 hx with rfl | hx
      · exact ⟨rfl, rfl, Or.inl rfl⟩
      · -- a later epoch: the block starts the next one, or a later block a later one
        obtain ⟨hgenesis, hduration, hstart⟩ := ih hx
        refine ⟨hgenesis, hduration, Or.inr ?_⟩
        rcases hstart with rfl | ⟨b, hb, htime, hheight⟩
        · exact ⟨block, List.mem_cons_self, rfl, rfl⟩
        · exact ⟨b, List.mem_cons_of_mem _ hb, htime, hheight⟩
    · obtain ⟨hgenesis, hduration, hstart⟩ := ih hx
      refine ⟨hgenesis, hduration, ?_⟩
      rcases hstart with rfl | ⟨b, hb, htime, hheight⟩
      · exact Or.inl rfl
      · exact Or.inr ⟨b, List.mem_cons_of_mem _ hb, htime, hheight⟩

theorem getLast_epochsOf_mem (e : Epoch) (blocks : List Block) :
    (epochsOf e blocks).getLast (epochsOf_ne_nil e blocks) ∈ epochsOf e blocks :=
  List.getLast_mem _

theorem epochsOf_pairwise_start {e : Epoch} {blocks : List Block}
    (hmono : blocks.Pairwise fun a b => a.time ≤ b.time)
    (hstart : ∀ block ∈ blocks, e.currentEpochStartTime ≤ block.time) :
    (epochsOf e blocks).Pairwise fun a b => a.currentEpochStartTime ≤ b.currentEpochStartTime := by
  induction blocks generalizing e with
  | nil => exact List.pairwise_singleton _ e
  | cons block blocks ih =>
    obtain ⟨hhead, htail⟩ := List.pairwise_cons.1 hmono
    have hlater : ∀ b ∈ blocks, e.currentEpochStartTime ≤ b.time :=
      fun b hb => hstart b (List.mem_cons_of_mem _ hb)
    unfold epochsOf
    split_ifs with hend
    · refine List.pairwise_cons.2 ⟨fun x hx => ?_, ih htail hhead⟩
      -- every later epoch starts at this block or a later one
      rcases (mem_epochsOf hx).2.2 with rfl | ⟨b, hb, htime, -⟩
      · exact hstart block List.mem_cons_self
      · exact htime ▸ hlater b hb
    · exact ih htail hlater

theorem Epoch.validate_eq_ok_iff {e : Epoch} :
    e.validate = .ok () ↔ e.genesisTime ≠ zeroTime ∧ e.epochDuration ≠ 0 ∧
      e.genesisTime ≤ e.currentEpochStartTime ∧ 0 ≤ e.currentEpochHeight := by
  unfold Epoch.validate
  split_ifs <;> simp_all

section Extras

variable {H : Type} (hooks : List (EpochHooks H))

theorem epoch_sequence (s : State H) (blocks : List Block) :
    ∃ epochs : List Epoch, epochs.head? = some s.epoch ∧
      epochs.getLast? = some (runBlocks hooks s blocks).epoch ∧ epochs.IsChain (Follows blocks) := by
  obtain ⟨rest, hrest⟩ := epochsOf_eq_cons s.epoch blocks
  refine ⟨epochsOf s.epoch blocks, by rw [hrest]; rfl, ?_, epochsOf_isChain s.epoch blocks⟩
  rw [runBlocks_eq, List.getLast?_eq_some_getLast (epochsOf_ne_nil _ _)]

-- A valid epoch stays valid over a run whose blocks come no earlier than it started and have no
-- negative height.
theorem epoch_stays_valid {s : State H} (hvalid : s.epoch.validate = .ok ()) (blocks : List Block)
    (hblocks : ∀ block ∈ blocks, s.epoch.currentEpochStartTime ≤ block.time ∧ 0 ≤ block.height) :
    (runBlocks hooks s blocks).epoch.validate = .ok () := by
  obtain ⟨hzero, hduration, hgenesis, hheight⟩ := Epoch.validate_eq_ok_iff.1 hvalid
  rw [runBlocks_eq]
  obtain ⟨hgenesis', hduration', hstart⟩ := mem_epochsOf (getLast_epochsOf_mem s.epoch blocks)
  refine Epoch.validate_eq_ok_iff.2 ⟨hgenesis' ▸ hzero, hduration' ▸ hduration, ?_, ?_⟩
  · rcases hstart with heq | ⟨block, hblock, htime, -⟩
    · rw [heq]
      exact hgenesis
    · rw [hgenesis', htime]
      exact hgenesis.trans (hblocks block hblock).1
  · rcases hstart with heq | ⟨block, hblock, -, hheight'⟩
    · rw [heq]
      exact hheight
    · rw [hheight']
      exact (hblocks block hblock).2

def minuteEpoch : Epoch := ⟨1680307200000000000, 60000000000, 0, 1680307200000000000, 0⟩

def halfMinuteBlocks : List Block :=
  [⟨1680307230000000000, 1⟩, ⟨1680307260000000000, 2⟩, ⟨1680307290000000000, 3⟩]

theorem minute_epoch_stays_valid :
    (runBlocks ([] : List (EpochHooks Unit)) ⟨minuteEpoch, ()⟩ halfMinuteBlocks).epoch.validate = .ok () :=
  epoch_stays_valid [] (by decide) _ (by decide)

end Extras

end SeiChain.Epoch
