import Mathlib

namespace GoSearch

-- The loop of `sort.Find` over `[i, j)`; every round shrinks the range, so `j - i` rounds are
-- enough.
def findFrom (cmp : Nat → Int) : Nat → Nat → Nat → Nat
  | 0, i, _ => i
  | rounds + 1, i, j =>
    if i < j then
      let h := (i + j) / 2
      if 0 < cmp h then findFrom cmp rounds (h + 1) j else findFrom cmp rounds i h
    else i

-- `sort.Find(n, cmp)`: the first index in `[0, n)` at which `cmp` is not positive (or `n`),
-- and whether `cmp` is zero there.
def find (n : Nat) (cmp : Nat → Int) : Nat × Bool :=
  let i := findFrom cmp (n + 1) 0 n
  (i, decide (i < n) && cmp i == 0)

section Find

variable {n : Nat} {cmp : Nat → Int}

-- The invariant of the loop: `cmp` is positive below `i` and not positive at `j` unless
-- `j = n`. It holds of the result once the range is empty.
theorem findFrom_spec (hmono : ∀ a b, a ≤ b → b < n → 0 < cmp b → 0 < cmp a) :
    ∀ rounds i j, i ≤ j → j ≤ n → j - i ≤ rounds → (∀ x < i, 0 < cmp x) → (j < n → cmp j ≤ 0) →
      (∀ x < findFrom cmp rounds i j, 0 < cmp x) ∧
        (findFrom cmp rounds i j < n → cmp (findFrom cmp rounds i j) ≤ 0) ∧
        findFrom cmp rounds i j ≤ n := by
  intro rounds
  induction rounds with
  | zero =>
    intro i j hij hjn hrounds hbelow hat
    have hi : i = j := by omega
    subst hi
    exact ⟨hbelow, hat, hjn⟩
  | succ rounds ih =>
    intro i j hij hjn hrounds hbelow hat
    unfold findFrom
    dsimp only
    split_ifs with hlt hpos
    · -- the middle is still positive: so is everything before it
      apply ih _ _ (by omega) hjn (by omega) _ hat
      intro x hx
      exact hmono x _ (by omega) (by omega) hpos
    · apply ih _ _ (by omega) (by omega) (by omega) hbelow
      intro _
      omega
    · have hi : i = j := by omega
      subst hi
      exact ⟨hbelow, hat, hjn⟩

theorem find_spec (hmono : ∀ a b, a ≤ b → b < n → 0 < cmp b → 0 < cmp a) :
    (∀ x < (find n cmp).1, 0 < cmp x) ∧ ((find n cmp).1 < n → cmp (find n cmp).1 ≤ 0) ∧
      (find n cmp).1 ≤ n :=
  findFrom_spec hmono (n + 1) 0 n (Nat.zero_le n) (Nat.le_refl n) (by omega)
    (fun _ hx => absurd hx (Nat.not_lt_zero _)) (fun h => absurd h (Nat.lt_irrefl n))

theorem cmp_find_eq_zero (h : (find n cmp).2 = true) : (find n cmp).1 < n ∧ cmp (find n cmp).1 = 0 := by
  simpa [find] using h

theorem find_eq_of_cmp_eq_zero (hmono : ∀ a b, a ≤ b → b < n → 0 < cmp b → 0 < cmp a) {x : Nat}
    (hx : x < n) (hzero : cmp x = 0) (hbefore : ∀ y < x, 0 < cmp y) : find n cmp = (x, true) := by
  obtain ⟨hbelow, hat, -⟩ := find_spec hmono
  have hle : (find n cmp).1 ≤ x := by
    by_contra hgt
    have := hbelow x (by omega)
    omega
  have hge : x ≤ (find n cmp).1 := by
    by_contra hlt
    have hpos := hbefore (find n cmp).1 (by omega)
    have hnonpos := hat (by omega)
    omega
  have heq : (find n cmp).1 = x := by omega
  have hfound : (find n cmp).2 = true := by
    simp only [find] at heq ⊢
    simp [heq, hx, hzero]
  exact Prod.ext heq hfound

end Find

variable {α : Type}

-- One round of the insertion sort: the element goes before the first one it precedes, so after
-- every element it does not precede.
def insertStable (cmp : α → α → Int) (x : α) : List α → List α
  | [] => [x]
  | y :: ys => if cmp x y < 0 then x :: y :: ys else y :: insertStable cmp x ys

-- A stable sort has one result; this is the insertion sort `slices.SortStableFunc` runs on
-- short slices.
def sortStableFunc (cmp : α → α → Int) (l : List α) : List α :=
  l.foldl (fun sorted x => insertStable cmp x sorted) []

theorem insertStable_perm (cmp : α → α → Int) (x : α) :
    ∀ l : List α, (insertStable cmp x l).Perm (x :: l)
  | [] => List.Perm.refl _
  | y :: ys => by
    unfold insertStable
    split_ifs
    · exact List.Perm.refl _
    · exact ((insertStable_perm cmp x ys).cons y).trans (List.Perm.swap x y ys)

theorem mem_insertStable {cmp : α → α → Int} {x z : α} {l : List α} :
    z ∈ insertStable cmp x l ↔ z = x ∨ z ∈ l := by
  rw [(insertStable_perm cmp x l).mem_iff, List.mem_cons]

section Key

variable {cmp : α → α → Int} {key : α → Nat}

theorem pairwise_insertStable (hcmp : ∀ a b, cmp a b < 0 ↔ key a < key b) {x : α} :
    ∀ {l : List α}, l.Pairwise (fun a b => key a < key b) → (∀ y ∈ l, key y ≠ key x) →
      (insertStable cmp x l).Pairwise (fun a b => key a < key b)
  | [], _, _ => List.pairwise_singleton _ _
  | y :: ys, hl, hnew => by
    rw [List.pairwise_cons] at hl
    unfold insertStable
    split_ifs with hxy
    · have hxy' := (hcmp x y).1 hxy
      refine List.Pairwise.cons (fun z hz => ?_) (List.Pairwise.cons hl.1 hl.2)
      rcases List.mem_cons.1 hz with rfl | hz
      · exact hxy'
      · exact Nat.lt_trans hxy' (hl.1 z hz)
    · have hyx : key y < key x := by
        have := (not_congr (hcmp x y)).1 hxy
        have := hnew y List.mem_cons_self
        omega
      refine List.Pairwise.cons (fun z hz => ?_)
        (pairwise_insertStable hcmp hl.2 (fun z hz => hnew z (List.mem_cons_of_mem y hz)))
      rcases mem_insertStable.1 hz with rfl | hz
      · exact hyx
      · exact hl.1 z hz

theorem insertStable_of_lt (hcmp : ∀ a b, cmp a b < 0 ↔ key a < key b) {x : α} :
    ∀ {l : List α}, (∀ y ∈ l, key y < key x) → insertStable cmp x l = l ++ [x]
  | [], _ => rfl
  | y :: ys, hlt => by
    have hnot : ¬ cmp x y < 0 := by
      rw [hcmp]
      have := hlt y List.mem_cons_self
      omega
    rw [insertStable, if_neg hnot, insertStable_of_lt hcmp (fun z hz => hlt z (List.mem_cons_of_mem y hz))]
    rfl

theorem foldl_insertStable_of_pairwise (hcmp : ∀ a b, cmp a b < 0 ↔ key a < key b) :
    ∀ {sorted l : List α}, (sorted ++ l).Pairwise (fun a b => key a < key b) →
      l.foldl (fun sorted x => insertStable cmp x sorted) sorted = sorted ++ l
  | sorted, [], _ => by simp
  | sorted, x :: xs, hl => by
    have hlast : ∀ y ∈ sorted, key y < key x :=
      fun y hy => (List.pairwise_append.1 hl).2.2 y hy x List.mem_cons_self
    rw [List.foldl_cons, insertStable_of_lt hcmp hlast,
      foldl_insertStable_of_pairwise hcmp (by simpa using hl)]
    simp

theorem sortStableFunc_append (hcmp : ∀ a b, cmp a b < 0 ↔ key a < key b) {l : List α}
    (hl : l.Pairwise (fun a b => key a < key b)) (x : α) :
    sortStableFunc cmp (l ++ [x]) = insertStable cmp x l := by
  have hsorted : l.foldl (fun sorted x => insertStable cmp x sorted) [] = [] ++ l :=
    @foldl_insertStable_of_pairwise α cmp key hcmp [] l (by simpa using hl)
  rw [sortStableFunc, List.foldl_append, hsorted, List.nil_append]
  rfl

end Key

end GoSearch
