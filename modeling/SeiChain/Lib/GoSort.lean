import Mathlib

namespace GoSort

variable {α : Type} (less : α → α → Bool)

def lessAt (data : Array α) (i j : Nat) : Bool :=
  match data[i]?, data[j]? with
  | some x, some y => less x y
  | _, _ => false

def swapAt (data : Array α) (i j : Nat) : Array α :=
  data.swapIfInBounds i j

-- `for i <= j && p(i) { i++ }`, with `n` the steps up to `j`.
def scanUp (p : Nat → Bool) : Nat → Nat → Nat
  | 0, i => i
  | n + 1, i => if p i then scanUp p n (i + 1) else i

-- `for i <= j && p(j) { j-- }`, with `n` the steps down to `i`.
def scanDown (p : Nat → Bool) : Nat → Nat → Nat
  | 0, j => j
  | n + 1, j => if p j then scanDown p n (j - 1) else j

-- `for j := i; j > a && data.Less(j, j-1); j--`.
def insertionShift (a : Nat) (data : Array α) : Nat → Array α
  | 0 => data
  | j + 1 =>
    if a < j + 1 && lessAt less data (j + 1) j then insertionShift a (swapAt data (j + 1) j) j
    else data

def insertionSort (data : Array α) (a b : Nat) : Array α :=
  (List.range' (a + 1) (b - (a + 1))).foldl (insertionShift less a) data

-- `siftDown_func` from `root`; each round moves `root` down, so `n = hi` rounds are enough.
def siftDown (hi first : Nat) : Nat → Array α → Nat → Array α
  | 0, data, _ => data
  | n + 1, data, root =>
    let child := 2 * root + 1
    if hi ≤ child then data
    else
      let child :=
        if child + 1 < hi && lessAt less data (first + child) (first + child + 1) then child + 1
        else child
      if !lessAt less data (first + root) (first + child) then data
      else siftDown hi first n (swapAt data (first + root) (first + child)) child

-- `heapSort_func`: build the heap from `(hi - 1) / 2` down to 0, then pop from `hi - 1` down.
def heapSort (data : Array α) (a b : Nat) : Array α :=
  let first := a
  let hi := b - a
  let data := (List.range ((hi - 1) / 2 + 1)).reverse.foldl
    (fun data i => siftDown less hi first hi data i) data
  (List.range hi).reverse.foldl
    (fun data i => siftDown less i first i (swapAt data first (first + i)) 0) data

def xorshiftNext (r : UInt64) : UInt64 :=
  let r := r ^^^ (r <<< 13)
  let r := r ^^^ (r >>> 7)
  r ^^^ (r <<< 17)

def bitsLen (n : Nat) : Nat :=
  if n = 0 then 0 else n.log2 + 1

def nextPowerOfTwo (length : Nat) : Nat :=
  2 ^ bitsLen length

-- `breakPatterns_func`: three swaps around the middle with pseudo-random partners, seeded
-- by the length.
def breakPatterns (data : Array α) (a b : Nat) : Array α :=
  let length := b - a
  if 8 ≤ length then
    let modulus := nextPowerOfTwo length
    let idx := a + (length / 4) * 2 - 1
    let step := fun (state : UInt64 × Array α) (i : Nat) =>
      let random := xorshiftNext state.1
      let other := random.toNat &&& (modulus - 1)
      let other := if length ≤ other then other - length else other
      (random, swapAt state.2 (idx - 1 + i) (a + other))
    ([0, 1, 2].foldl step (length.toUInt64, data)).2
  else data

-- `sortedHint`.
inductive SortedHint where
  | unknownHint
  | increasingHint
  | decreasingHint
  deriving DecidableEq

def order2 (data : Array α) (a b swaps : Nat) : Nat × Nat × Nat :=
  if lessAt less data b a then (b, a, swaps + 1) else (a, b, swaps)

def median (data : Array α) (a b c swaps : Nat) : Nat × Nat :=
  let (a, b, swaps) := order2 less data a b swaps
  let (b, _c, swaps) := order2 less data b c swaps
  let (_a, b, swaps) := order2 less data a b swaps
  (b, swaps)

def medianAdjacent (data : Array α) (a swaps : Nat) : Nat × Nat :=
  median less data (a - 1) a (a + 1) swaps

-- `choosePivot_func`: the middle of three quarter points from 8 elements on, of three
-- adjacent medians from 50 on; no swap hints an increasing range and all 12 a decreasing one.
def choosePivot (data : Array α) (a b : Nat) : Nat × SortedHint :=
  let l := b - a
  let i := a + l / 4 * 1
  let j := a + l / 4 * 2
  let k := a + l / 4 * 3
  let (j, swaps) :=
    if 8 ≤ l then
      let (i, j, k, swaps) :=
        if 50 ≤ l then
          let (i, swaps) := medianAdjacent less data i 0
          let (j, swaps) := medianAdjacent less data j swaps
          let (k, swaps) := medianAdjacent less data k swaps
          (i, j, k, swaps)
        else (i, j, k, 0)
      median less data i j k swaps
    else (j, 0)
  (j, if swaps = 0 then .increasingHint else if swaps = 12 then .decreasingHint else .unknownHint)

-- `for i < j { data.Swap(i, j); i++; j-- }`, with `n` enough rounds.
def reverseFrom : Nat → Array α → Nat → Nat → Array α
  | 0, data, _, _ => data
  | n + 1, data, i, j => if i < j then reverseFrom n (swapAt data i j) (i + 1) (j - 1) else data

def reverseRange (data : Array α) (a b : Nat) : Array α :=
  reverseFrom (b - a) data a (b - 1)

-- Shift the smaller one to the left: `for j := i - 1; j >= 1; j--` up to the first pair in
-- order.
def shiftSmaller (data : Array α) : Nat → Array α
  | 0 => data
  | j + 1 => if lessAt less data (j + 1) j then shiftSmaller (swapAt data (j + 1) j) j else data

-- Shift the greater one to the right: `for j := i + 1; j < b; j++` up to the first pair in
-- order, with `n` the steps up to `b`.
def shiftGreater (data : Array α) : Nat → Nat → Array α
  | 0, _ => data
  | n + 1, j =>
    if lessAt less data j (j - 1) then shiftGreater (swapAt data j (j - 1)) n (j + 1) else data

-- The rounds of `partialInsertionSort_func` left of its `maxSteps = 5`, from `i`: find the
-- next pair out of order, give up on ranges shorter than `shortestShifting = 50`, else
-- swap the pair and shift both elements into place.
def partialInsertionSortFrom (a b : Nat) : Nat → Array α → Nat → Bool × Array α
  | 0, data, _ => (false, data)
  | steps + 1, data, i =>
    let i := scanUp (fun i => !lessAt less data i (i - 1)) (b - i) i
    if i = b then (true, data)
    else if b - a < 50 then (false, data)
    else
      let data := swapAt data i (i - 1)
      let data := if 2 ≤ i - a then shiftSmaller less data (i - 1) else data
      let data := if 2 ≤ b - i then shiftGreater less data (b - (i + 1)) (i + 1) else data
      partialInsertionSortFrom a b steps data i

def partialInsertionSort (data : Array α) (a b : Nat) : Bool × Array α :=
  partialInsertionSortFrom less a b 5 data (a + 1)

-- The loop of `partitionEqual_func`, with the pivot at `a`: at most `n` rounds.
def partitionEqualFrom (a : Nat) : Nat → Array α → Nat → Nat → Array α × Nat
  | 0, data, i, _ => (data, i)
  | n + 1, data, i, j =>
    let i := scanUp (fun i => !lessAt less data a i) (j + 1 - i) i
    let j := scanDown (fun j => lessAt less data a j) (j + 1 - i) j
    if j < i then (data, i)
    else partitionEqualFrom a n (swapAt data i j) (i + 1) (j - 1)

def partitionEqual (data : Array α) (a b pivot : Nat) : Array α × Nat :=
  partitionEqualFrom less a (b - a) (swapAt data a pivot) (a + 1) (b - 1)

-- The loop of `partition_func`, with the pivot at `a`: at most `n` rounds; the `j` it
-- stops at.
def partitionFrom (a : Nat) : Nat → Array α → Nat → Nat → Array α × Nat
  | 0, data, _, j => (data, j)
  | n + 1, data, i, j =>
    let i := scanUp (fun i => lessAt less data i a) (j + 1 - i) i
    let j := scanDown (fun j => !lessAt less data j a) (j + 1 - i) j
    if j < i then (data, j)
    else partitionFrom a n (swapAt data i j) (i + 1) (j - 1)

-- `partition_func`: the pivot's new place, and whether no element had to move.
def partition (data : Array α) (a b pivot : Nat) : Array α × Nat × Bool :=
  let data := swapAt data a pivot
  let i := scanUp (fun i => lessAt less data i a) (b - (a + 1)) (a + 1)
  let j := scanDown (fun j => !lessAt less data j a) (b - i) (b - 1)
  if j < i then (swapAt data j a, j, true)
  else
    let (data, j) := partitionFrom less a (b - a) (swapAt data i j) (i + 1) (j - 1)
    (swapAt data j a, j, false)

-- `pdqsort_func` on `data[a:b]` with its `limit`, `wasBalanced` and `wasPartitioned`. Each
-- recursive call and each round of its loop works on a shorter range, so `b - a + 1` calls
-- are enough.
def pdqsort : Nat → Array α → Nat → Nat → Nat → Bool → Bool → Array α
  | 0, data, _, _, _, _, _ => data
  | fuel + 1, data, a, b, limit, wasBalanced, wasPartitioned =>
    let length := b - a
    if length ≤ 12 then insertionSort less data a b
    else if limit = 0 then heapSort less data a b
    else
      -- after an unbalanced round, break patterns and lower the limit
      let data := if wasBalanced then data else breakPatterns data a b
      let limit := if wasBalanced then limit else limit - 1
      let chosen := choosePivot less data a b
      -- a range that looks decreasing is reversed, and the pivot's place with it
      let decreasing := chosen.2 = .decreasingHint
      let data := if decreasing then reverseRange data a b else data
      let pivot := if decreasing then (b - 1) - (chosen.1 - a) else chosen.1
      let hint := if decreasing then SortedHint.increasingHint else chosen.2
      let tried :=
        if wasBalanced && wasPartitioned && hint = .increasingHint then
          partialInsertionSort less data a b
        else (false, data)
      let data := tried.2
      if tried.1 then data
      else if 0 < a && !lessAt less data (a - 1) pivot then
        -- many elements equal to the one before the range: skip past them
        let equal := partitionEqual less data a b pivot
        pdqsort fuel equal.1 equal.2 b limit wasBalanced wasPartitioned
      else
        let parted := partition less data a b pivot
        let mid := parted.2.1
        let balanceThreshold := length / 8
        -- recurse into the shorter side, loop on the longer one
        if mid - a < b - mid then
          let data := pdqsort fuel parted.1 a mid limit true true
          pdqsort fuel data (mid + 1) b limit (balanceThreshold ≤ mid - a) parted.2.2
        else
          let data := pdqsort fuel parted.1 (mid + 1) b limit true true
          pdqsort fuel data a mid limit (balanceThreshold ≤ b - mid) parted.2.2

-- `sort.Slice`, with `limit := bits.Len(uint(length))`.
def sortSlice (data : Array α) : Array α :=
  pdqsort less (data.size + 1) data 0 data.size (bitsLen data.size) true true

example : (sortSlice (fun x y : Nat => decide (x < y)) #[3, 1, 2]).toList = [1, 2, 3] := by decide

theorem swapAt_perm (data : Array α) (i j : Nat) : (swapAt data i j).Perm data := by
  unfold swapAt
  rw [Array.swapIfInBounds_def]
  split_ifs with hi hj
  · exact Array.swap_perm hi hj
  · exact .rfl
  · exact .rfl

theorem ite_perm {c : Prop} [Decidable c] {x y z : Array α} (hx : x.Perm z) (hy : y.Perm z) :
    (if c then x else y).Perm z := by
  split
  · exact hx
  · exact hy

theorem foldl_perm {β : Type} {f : Array α → β → Array α} (hf : ∀ data x, (f data x).Perm data)
    (l : List β) (data : Array α) : (l.foldl f data).Perm data := by
  induction l generalizing data with
  | nil => exact .rfl
  | cons x l ih => exact (ih (f data x)).trans (hf data x)

theorem insertionShift_perm (a : Nat) (data : Array α) (j : Nat) :
    (insertionShift less a data j).Perm data := by
  induction j generalizing data with
  | zero => exact .rfl
  | succ j ih =>
    unfold insertionShift
    split
    · exact (ih _).trans (swapAt_perm _ _ _)
    · exact .rfl

theorem insertionSort_perm (data : Array α) (a b : Nat) : (insertionSort less data a b).Perm data :=
  foldl_perm (insertionShift_perm less a) _ _

theorem siftDown_perm (hi first n : Nat) (data : Array α) (root : Nat) :
    (siftDown less hi first n data root).Perm data := by
  induction n generalizing data root with
  | zero => exact .rfl
  | succ n ih =>
    unfold siftDown
    dsimp only
    split_ifs
    all_goals first | exact .rfl | exact (ih _ _).trans (swapAt_perm _ _ _)

theorem heapSort_perm (data : Array α) (a b : Nat) : (heapSort less data a b).Perm data := by
  unfold heapSort
  refine (foldl_perm ?_ _ _).trans (foldl_perm ?_ _ _)
  · exact fun data i => (siftDown_perm less _ _ _ _ _).trans (swapAt_perm _ _ _)
  · exact fun data i => siftDown_perm less _ _ _ _ _

theorem breakPatterns_perm (data : Array α) (a b : Nat) : (breakPatterns data a b).Perm data := by
  unfold breakPatterns
  dsimp only
  split_ifs
  · -- the three swaps carry the random state along with the slice
    have hsteps : ∀ (l : List Nat) (state : UInt64 × Array α) (step : UInt64 × Array α → Nat → UInt64 × Array α),
        (∀ state i, (step state i).2.Perm state.2) → (l.foldl step state).2.Perm state.2 := by
      intro l
      induction l with
      | nil => exact fun _ _ _ => .rfl
      | cons i l ih => exact fun state step hstep => (ih _ step hstep).trans (hstep state i)
    exact hsteps _ _ _ fun state i => swapAt_perm _ _ _
  · exact .rfl

theorem reverseFrom_perm (n : Nat) (data : Array α) (i j : Nat) : (reverseFrom n data i j).Perm data := by
  induction n generalizing data i j with
  | zero => exact .rfl
  | succ n ih =>
    unfold reverseFrom
    split
    · exact (ih _ _ _).trans (swapAt_perm _ _ _)
    · exact .rfl

theorem reverseRange_perm (data : Array α) (a b : Nat) : (reverseRange data a b).Perm data :=
  reverseFrom_perm _ _ _ _

theorem shiftSmaller_perm (data : Array α) (j : Nat) : (shiftSmaller less data j).Perm data := by
  induction j generalizing data with
  | zero => exact .rfl
  | succ j ih =>
    unfold shiftSmaller
    split
    · exact (ih _).trans (swapAt_perm _ _ _)
    · exact .rfl

theorem shiftGreater_perm (data : Array α) (n j : Nat) : (shiftGreater less data n j).Perm data := by
  induction n generalizing data j with
  | zero => exact .rfl
  | succ n ih =>
    unfold shiftGreater
    split
    · exact (ih _ _).trans (swapAt_perm _ _ _)
    · exact .rfl

theorem partialInsertionSortFrom_perm (a b steps : Nat) (data : Array α) (i : Nat) :
    (partialInsertionSortFrom less a b steps data i).2.Perm data := by
  induction steps generalizing data i with
  | zero => exact .rfl
  | succ steps ih =>
    unfold partialInsertionSortFrom
    dsimp only
    split_ifs
    · exact .rfl
    · exact .rfl
    all_goals
      refine (ih _ _).trans ?_
      first
      | exact ((shiftGreater_perm less _ _ _).trans (shiftSmaller_perm less _ _)).trans (swapAt_perm _ _ _)
      | exact (shiftGreater_perm less _ _ _).trans (swapAt_perm _ _ _)
      | exact (shiftSmaller_perm less _ _).trans (swapAt_perm _ _ _)
      | exact swapAt_perm _ _ _

theorem partialInsertionSort_perm (data : Array α) (a b : Nat) :
    (partialInsertionSort less data a b).2.Perm data :=
  partialInsertionSortFrom_perm less _ _ _ _ _

theorem partitionEqualFrom_perm (a n : Nat) (data : Array α) (i j : Nat) :
    (partitionEqualFrom less a n data i j).1.Perm data := by
  induction n generalizing data i j with
  | zero => exact .rfl
  | succ n ih =>
    unfold partitionEqualFrom
    dsimp only
    split
    · exact .rfl
    · exact (ih _ _ _).trans (swapAt_perm _ _ _)

theorem partitionEqual_perm (data : Array α) (a b pivot : Nat) :
    (partitionEqual less data a b pivot).1.Perm data :=
  (partitionEqualFrom_perm less _ _ _ _ _).trans (swapAt_perm _ _ _)

theorem partitionFrom_perm (a n : Nat) (data : Array α) (i j : Nat) :
    (partitionFrom less a n data i j).1.Perm data := by
  induction n generalizing data i j with
  | zero => exact .rfl
  | succ n ih =>
    unfold partitionFrom
    dsimp only
    split
    · exact .rfl
    · exact (ih _ _ _).trans (swapAt_perm _ _ _)

theorem partition_perm (data : Array α) (a b pivot : Nat) : (partition less data a b pivot).1.Perm data := by
  unfold partition
  dsimp only
  split
  · exact (swapAt_perm _ _ _).trans (swapAt_perm _ _ _)
  · exact ((swapAt_perm _ _ _).trans ((partitionFrom_perm less _ _ _ _ _).trans
      (swapAt_perm _ _ _))).trans (swapAt_perm _ _ _)

theorem pdqsort_perm (fuel : Nat) (data : Array α) (a b limit : Nat) (wasBalanced wasPartitioned : Bool) :
    (pdqsort less fuel data a b limit wasBalanced wasPartitioned).Perm data := by
  induction fuel generalizing data a b limit wasBalanced wasPartitioned with
  | zero => exact .rfl
  | succ fuel ih =>
    unfold pdqsort
    extract_lets length broken limit' chosen decreasing reversed pivot hint tried data' equal parted
      mid balanceThreshold left right
    -- the slice each step of a round leaves is a permutation of the one before
    have hbroken : broken.Perm data := ite_perm .rfl (breakPatterns_perm _ _ _)
    have hreversed : reversed.Perm broken := ite_perm (reverseRange_perm _ _ _) .rfl
    have htried : data'.Perm reversed := by
      simp only [data', tried]
      split
      · exact partialInsertionSort_perm less _ _ _
      · exact .rfl
    have hround : data'.Perm data := htried.trans (hreversed.trans hbroken)
    split_ifs
    · exact insertionSort_perm less _ _ _
    · exact heapSort_perm less _ _ _
    · exact hround
    · exact (ih _ _ _ _ _ _).trans ((partitionEqual_perm less _ _ _ _).trans hround)
    all_goals
      -- the shorter side is sorted first, then the longer one
      exact (ih _ _ _ _ _ _).trans ((ih _ _ _ _ _ _).trans ((partition_perm less _ _ _ _).trans hround))

theorem sortSlice_perm (data : Array α) : (sortSlice less data).Perm data :=
  pdqsort_perm less _ _ _ _ _ _ _

end GoSort
