import Mathlib
import SeiChain.Lib.GoSearch

namespace SeiChain.Evm

open GoSearch

variable {K A : Type}

structure PendingTx (K : Type) where
  key : K
  nonce : Nat
  priority : Int
  deriving DecidableEq

structure NonceTracker (K A : Type) where
  pendingTxs : A → Option (List (PendingTx K))
  keyToNonce : K → Option (A × Nat)

section Tracker

variable [DecidableEq K] [DecidableEq A]

namespace NonceTracker

def empty : NonceTracker K A := ⟨fun _ => none, fun _ => none⟩

-- `k.pendingTxs[addr]`, which is nil for an address without a list.
def pending (t : NonceTracker K A) (addr : A) : List (PendingTx K) := (t.pendingTxs addr).getD []

end NonceTracker

def uint64Cmp (a b : Nat) : Int := if a < b then -1 else if a = b then 0 else 1

-- `func(i int) int { return uint64Cmp(nonce, pending[i].Nonce) }`; `sort.Find` only calls it
-- below the length.
def nonceCmpAt (pending : List (PendingTx K)) (nonce i : Nat) : Int :=
  match pending[i]? with
  | some p => uint64Cmp nonce p.nonce
  | none => 0

def findPendingNonce (pending : List (PendingTx K)) (nonce : Nat) : Nat × Bool :=
  find pending.length (nonceCmpAt pending nonce)

def pendingTxCmp (a b : PendingTx K) : Int :=
  if a.nonce < b.nonce then -1 else if b.nonce < a.nonce then 1 else 0

-- The loop of `AddPendingNonce`: the first transaction with the nonce takes the new key and
-- priority when that is higher; the key replaced, if any, and `none` when no transaction has it.
def replacePendingTx (key : K) (nonce : Nat) (priority : Int) :
    List (PendingTx K) → Option (List (PendingTx K) × Option K)
  | [] => none
  | p :: ps =>
    if p.nonce = nonce then
      if p.priority < priority then some (⟨key, p.nonce, priority⟩ :: ps, some p.key)
      else some (p :: ps, none)
    else (replacePendingTx key nonce priority ps).map fun r => (p :: r.1, r.2)

namespace NonceTracker

-- `AddPendingNonce`. A key already tracked is left alone whatever it is paired with (the source
-- only prints when the pair differs).
def addPendingNonce (t : NonceTracker K A) (key : K) (addr : A) (nonce : Nat) (priority : Int) :
    NonceTracker K A :=
  match t.keyToNonce key with
  | some _ => t
  | none =>
    match replacePendingTx key nonce priority (t.pending addr) with
    | some (pending, some replaced) =>
      { pendingTxs := Function.update t.pendingTxs addr (some pending)
        keyToNonce := Function.update (Function.update t.keyToNonce replaced none) key
          (some (addr, nonce)) }
    | some (_, none) => t
    | none =>
      { pendingTxs := Function.update t.pendingTxs addr
          (some (sortStableFunc pendingTxCmp (t.pending addr ++ [⟨key, nonce, priority⟩])))
        keyToNonce := Function.update t.keyToNonce key (some (addr, nonce)) }

-- `RemovePendingNonce`: the key is dropped, and the transaction at its nonce leaves the
-- address's list, which goes once it is empty.
def removePendingNonce (t : NonceTracker K A) (key : K) : NonceTracker K A :=
  match t.keyToNonce key with
  | none => t
  | some (addr, nonce) =>
    let keyToNonce := Function.update t.keyToNonce key none
    let pendings := t.pending addr
    let firstMatch := findPendingNonce pendings nonce
    if !firstMatch.2 then { t with keyToNonce }
    else
      let rest := pendings.eraseIdx firstMatch.1
      { pendingTxs := Function.update t.pendingTxs addr (if rest.isEmpty then none else some rest)
        keyToNonce }

end NonceTracker

-- `for ; ; nextNonce++` of `CalculateNextNonce`: the first nonce from `nextNonce` on that
-- `sort.Find` does not find among the pending ones. The counter is a `uint64`, so it wraps, and
-- after `2 ^ 64` rounds it has tried every value: `none` is a loop that never ends.
def nextNonceFrom (pending : List (PendingTx K)) : Nat → Nat → Option Nat
  | 0, _ => none
  | rounds + 1, nextNonce =>
    if (findPendingNonce pending nextNonce).2 then
      nextNonceFrom pending rounds ((nextNonce + 1) % 2 ^ 64)
    else some nextNonce

namespace NonceTracker

def calculateNextNonce (t : NonceTracker K A) (getNonce : A → Nat) (addr : A)
    (includePending : Bool) : Option Nat :=
  let nextNonce := getNonce addr
  if !includePending then some nextNonce
  else nextNonceFrom (t.pending addr) (2 ^ 64) nextNonce

end NonceTracker

-- The calls the mempool makes on the tracker.
inductive NonceOp (K A : Type)
  | addPendingNonce (key : K) (addr : A) (nonce : Nat) (priority : Int)
  | removePendingNonce (key : K)

namespace NonceTracker

def apply (t : NonceTracker K A) : NonceOp K A → NonceTracker K A
  | .addPendingNonce key addr nonce priority => t.addPendingNonce key addr nonce priority
  | .removePendingNonce key => t.removePendingNonce key

def run (t : NonceTracker K A) (ops : List (NonceOp K A)) : NonceTracker K A :=
  ops.foldl apply t

end NonceTracker

end Tracker

section Lists

theorem eq_of_nonce_eq {l : List (PendingTx K)} (hs : l.Pairwise fun a b => a.nonce < b.nonce)
    {p q : PendingTx K} (hp : p ∈ l) (hq : q ∈ l) (h : p.nonce = q.nonce) : p = q := by
  have hnodup : (l.map PendingTx.nonce).Nodup := (List.pairwise_map.2 hs).nodup
  exact List.inj_on_of_nodup_map hnodup hp hq h

theorem nonce_ne_of_split {front back : List (PendingTx K)} {p : PendingTx K}
    (hs : (front ++ p :: back).Pairwise fun a b => a.nonce < b.nonce) {q : PendingTx K}
    (hq : q ∈ front ++ back) : q.nonce ≠ p.nonce := by
  intro h
  rw [List.pairwise_append, List.pairwise_cons] at hs
  rcases List.mem_append.1 hq with hq | hq
  · have := hs.2.2 q hq p List.mem_cons_self
    omega
  · have := hs.2.1.1 q hq
    omega

theorem mem_split_iff {front back : List (PendingTx K)} {p : PendingTx K}
    (hs : (front ++ p :: back).Pairwise fun a b => a.nonce < b.nonce) {q : PendingTx K} :
    q ∈ front ++ back ↔ q ∈ front ++ p :: back ∧ q.nonce ≠ p.nonce := by
  constructor
  · intro hq
    refine ⟨?_, nonce_ne_of_split hs hq⟩
    rcases List.mem_append.1 hq with hq | hq
    · exact List.mem_append_left _ hq
    · exact List.mem_append_right _ (List.mem_cons_of_mem _ hq)
  · rintro ⟨hq, hne⟩
    rcases List.mem_append.1 hq with hq | hq
    · exact List.mem_append_left _ hq
    · rcases List.mem_cons.1 hq with rfl | hq
      · exact absurd rfl hne
      · exact List.mem_append_right _ hq

theorem pendingTxCmp_neg_iff (a b : PendingTx K) : pendingTxCmp a b < 0 ↔ a.nonce < b.nonce := by
  unfold pendingTxCmp
  split_ifs <;> simp <;> omega

theorem mem_append_cons_iff {front back : List (PendingTx K)} {x q : PendingTx K} :
    q ∈ front ++ x :: back ↔ q = x ∨ q ∈ front ++ back := by
  simp only [List.mem_append, List.mem_cons]
  tauto

theorem replacePendingTx_eq_none {key : K} {nonce : Nat} {priority : Int} :
    ∀ {l : List (PendingTx K)}, replacePendingTx key nonce priority l = none ↔ ∀ p ∈ l, p.nonce ≠ nonce
  | [] => by simp [replacePendingTx]
  | p :: ps => by
    unfold replacePendingTx
    split_ifs with hnonce hprio
    · simp [hnonce]
    · simp [hnonce]
    · simp [Option.map_eq_none_iff, replacePendingTx_eq_none, hnonce]

theorem replacePendingTx_eq_some {key : K} {nonce : Nat} {priority : Int} :
    ∀ {l l' : List (PendingTx K)} {replaced : K},
      replacePendingTx key nonce priority l = some (l', some replaced) →
        ∃ front p back, l = front ++ p :: back ∧ p.nonce = nonce ∧ p.key = replaced ∧
          l' = front ++ ⟨key, nonce, priority⟩ :: back
  | [], _, _, h => by cases h
  | p :: ps, l', replaced, h => by
    unfold replacePendingTx at h
    split_ifs at h with hnonce hprio
    · cases h
      exact ⟨[], p, ps, rfl, hnonce, rfl, by rw [hnonce]; rfl⟩
    · cases h
    · obtain ⟨⟨l'', r⟩, hrest, heq⟩ := Option.map_eq_some_iff.1 h
      cases heq
      obtain ⟨front, q, back, rfl, hq, hkey, rfl⟩ := replacePendingTx_eq_some hrest
      exact ⟨p :: front, q, back, rfl, hq, hkey, rfl⟩

@[simp] theorem uint64Cmp_pos_iff (a b : Nat) : 0 < uint64Cmp a b ↔ b < a := by
  unfold uint64Cmp
  split_ifs <;> omega

@[simp] theorem uint64Cmp_eq_zero_iff (a b : Nat) : uint64Cmp a b = 0 ↔ a = b := by
  unfold uint64Cmp
  split_ifs <;> simp <;> omega

theorem nonceCmpAt_mono {l : List (PendingTx K)} (hs : l.Pairwise fun a b => a.nonce < b.nonce)
    (nonce : Nat) :
    ∀ a b, a ≤ b → b < l.length → 0 < nonceCmpAt l nonce b → 0 < nonceCmpAt l nonce a := by
  intro a b hab hb hpos
  have ha : a < l.length := by omega
  simp only [nonceCmpAt, List.getElem?_eq_getElem ha, List.getElem?_eq_getElem hb,
    uint64Cmp_pos_iff] at hpos ⊢
  rcases Nat.eq_or_lt_of_le hab with rfl | hlt
  · exact hpos
  · exact Nat.lt_trans (List.pairwise_iff_getElem.1 hs a b ha hb hlt) hpos

theorem findPendingNonce_split {front back : List (PendingTx K)} {p : PendingTx K}
    (hs : (front ++ p :: back).Pairwise fun a b => a.nonce < b.nonce) :
    findPendingNonce (front ++ p :: back) p.nonce = (front.length, true) := by
  apply find_eq_of_cmp_eq_zero (nonceCmpAt_mono hs p.nonce)
  · simp
  · simp [nonceCmpAt]
  · intro y hy
    have hfront : (front ++ p :: back)[y]? = front[y]? := List.getElem?_append_left hy
    have hlt := (List.pairwise_append.1 hs).2.2 front[y] (List.getElem_mem hy) p List.mem_cons_self
    simp [nonceCmpAt, hfront, List.getElem?_eq_getElem hy, hlt]

theorem findPendingNonce_snd_iff {l : List (PendingTx K)}
    (hs : l.Pairwise fun a b => a.nonce < b.nonce) (nonce : Nat) :
    (findPendingNonce l nonce).2 = true ↔ ∃ p ∈ l, p.nonce = nonce := by
  constructor
  · intro h
    obtain ⟨hlt, hzero⟩ := cmp_find_eq_zero h
    simp only [nonceCmpAt, List.getElem?_eq_getElem hlt, uint64Cmp_eq_zero_iff] at hzero
    exact ⟨_, List.getElem_mem hlt, hzero.symm⟩
  · rintro ⟨p, hp, rfl⟩
    obtain ⟨front, back, rfl⟩ := List.append_of_mem hp
    rw [findPendingNonce_split hs]

end Lists

section Invariant

namespace NonceTracker

def Holds (t : NonceTracker K A) (addr : A) (key : K) (nonce : Nat) : Prop :=
  ∃ p ∈ t.pending addr, p.key = key ∧ p.nonce = nonce

-- Every list present is non-empty and strictly increasing in nonce, and the key index is
-- exactly what the lists hold.
structure WellFormed (t : NonceTracker K A) : Prop where
  nonempty : ∀ addr pending, t.pendingTxs addr = some pending → pending ≠ []
  sorted : ∀ addr, (t.pending addr).Pairwise fun a b => a.nonce < b.nonce
  keyToNonce_iff : ∀ key addr nonce, t.keyToNonce key = some (addr, nonce) ↔ t.Holds addr key nonce

theorem wellFormed_empty : (empty : NonceTracker K A).WellFormed where
  nonempty := by simp [empty]
  sorted := by simp [empty, pending]
  keyToNonce_iff := by simp [empty, Holds, pending]

@[simp] theorem pending_update [DecidableEq A] (t : NonceTracker K A) (addr a : A)
    (l : Option (List (PendingTx K))) (keyToNonce : K → Option (A × Nat)) :
    ({ pendingTxs := Function.update t.pendingTxs addr l, keyToNonce } : NonceTracker K A).pending a =
      if a = addr then l.getD [] else t.pending a := by
  by_cases h : a = addr
  · subst h
    simp [pending]
  · simp [pending, h]

theorem WellFormed.holds_unique {t : NonceTracker K A} (ht : t.WellFormed) {a b : A} {key : K}
    {n m : Nat} (h₁ : t.Holds a key n) (h₂ : t.Holds b key m) : a = b ∧ n = m := by
  have e₁ := (ht.keyToNonce_iff key a n).2 h₁
  have e₂ := (ht.keyToNonce_iff key b m).2 h₂
  rw [e₁, Option.some.injEq, Prod.mk.injEq] at e₂
  exact e₂

theorem WellFormed.not_holds {t : NonceTracker K A} (ht : t.WellFormed) {key : K}
    (h : t.keyToNonce key = none) (addr : A) (nonce : Nat) : ¬ t.Holds addr key nonce := by
  intro hh
  rw [(ht.keyToNonce_iff key addr nonce).2 hh] at h
  cases h

theorem WellFormed.key_unique {t : NonceTracker K A} (ht : t.WellFormed) {addr : A} {k k' : K}
    {nonce : Nat} (h₁ : t.Holds addr k nonce) (h₂ : t.Holds addr k' nonce) : k = k' := by
  obtain ⟨p, hp, rfl, hpn⟩ := h₁
  obtain ⟨q, hq, rfl, hqn⟩ := h₂
  rw [eq_of_nonce_eq (ht.sorted addr) hp hq (hpn.trans hqn.symm)]

end NonceTracker

end Invariant

section Steps

variable [DecidableEq A]

namespace NonceTracker

theorem holds_replace {t : NonceTracker K A} (ht : t.WellFormed) {addr : A}
    {front back : List (PendingTx K)} {p : PendingTx K} (hsplit : t.pending addr = front ++ p :: back)
    (new : PendingTx K) (keyToNonce : K → Option (A × Nat)) {a : A} {k : K} {n : Nat} :
    ({ pendingTxs := Function.update t.pendingTxs addr (some (front ++ new :: back)), keyToNonce } :
        NonceTracker K A).Holds a k n ↔
      (a = addr ∧ new.key = k ∧ new.nonce = n) ∨ (t.Holds a k n ∧ ¬(a = addr ∧ n = p.nonce)) := by
  have hs : (front ++ p :: back).Pairwise fun a b => a.nonce < b.nonce := hsplit ▸ ht.sorted addr
  unfold Holds
  rw [pending_update]
  by_cases ha : a = addr
  · subst ha
    simp only [if_true, Option.getD_some, hsplit, true_and]
    constructor
    · rintro ⟨q, hq, rfl, rfl⟩
      rcases mem_append_cons_iff.1 hq with rfl | hq
      · exact .inl ⟨rfl, rfl⟩
      · obtain ⟨hq, hne⟩ := (mem_split_iff hs).1 hq
        exact .inr ⟨⟨q, hq, rfl, rfl⟩, hne⟩
    · rintro (⟨rfl, rfl⟩ | ⟨⟨q, hq, rfl, rfl⟩, hne⟩)
      · exact ⟨new, mem_append_cons_iff.2 (.inl rfl), rfl, rfl⟩
      · exact ⟨q, mem_append_cons_iff.2 (.inr ((mem_split_iff hs).2 ⟨hq, hne⟩)), rfl, rfl⟩
  · simp [ha]

theorem holds_insert {t : NonceTracker K A} {addr : A} (new : PendingTx K)
    (keyToNonce : K → Option (A × Nat)) {a : A} {k : K} {n : Nat} :
    ({ pendingTxs := Function.update t.pendingTxs addr
          (some (insertStable pendingTxCmp new (t.pending addr))), keyToNonce } :
        NonceTracker K A).Holds a k n ↔
      (a = addr ∧ new.key = k ∧ new.nonce = n) ∨ t.Holds a k n := by
  unfold Holds
  rw [pending_update]
  by_cases ha : a = addr
  · subst ha
    simp only [if_true, Option.getD_some, mem_insertStable, true_and]
    constructor
    · rintro ⟨q, hq | hq, rfl, rfl⟩
      · subst hq
        exact .inl ⟨rfl, rfl⟩
      · exact .inr ⟨q, hq, rfl, rfl⟩
    · rintro (⟨rfl, rfl⟩ | ⟨q, hq, rfl, rfl⟩)
      · exact ⟨new, .inl rfl, rfl, rfl⟩
      · exact ⟨q, .inr hq, rfl, rfl⟩
  · simp [ha]

theorem holds_remove {t : NonceTracker K A} (ht : t.WellFormed) {addr : A}
    {front back : List (PendingTx K)} {p : PendingTx K} (hsplit : t.pending addr = front ++ p :: back)
    (keyToNonce : K → Option (A × Nat)) {a : A} {k : K} {n : Nat} :
    ({ pendingTxs := Function.update t.pendingTxs addr
          (if (front ++ back).isEmpty then none else some (front ++ back)), keyToNonce } :
        NonceTracker K A).Holds a k n ↔
      t.Holds a k n ∧ ¬(a = addr ∧ n = p.nonce) := by
  have hs : (front ++ p :: back).Pairwise fun a b => a.nonce < b.nonce := hsplit ▸ ht.sorted addr
  have hrest : (if (front ++ back).isEmpty then none else some (front ++ back)).getD [] = front ++ back := by
    split_ifs with hempty
    · simpa using hempty
    · rfl
  unfold Holds
  rw [pending_update]
  by_cases ha : a = addr
  · subst ha
    simp only [if_true, hrest, hsplit, true_and]
    constructor
    · rintro ⟨q, hq, rfl, rfl⟩
      obtain ⟨hq, hne⟩ := (mem_split_iff hs).1 hq
      exact ⟨⟨q, hq, rfl, rfl⟩, hne⟩
    · rintro ⟨⟨q, hq, rfl, rfl⟩, hne⟩
      exact ⟨q, (mem_split_iff hs).2 ⟨hq, hne⟩, rfl, rfl⟩
  · simp [ha]

theorem nonempty_update {t : NonceTracker K A} (ht : t.WellFormed) {addr : A}
    {l : Option (List (PendingTx K))} (hl : ∀ l', l = some l' → l' ≠ []) :
    ∀ a l', Function.update t.pendingTxs addr l a = some l' → l' ≠ [] := by
  intro a l' h
  by_cases ha : a = addr
  · subst ha
    rw [Function.update_self] at h
    exact hl l' h
  · rw [Function.update_of_ne ha] at h
    exact ht.nonempty a l' h

theorem sorted_update {t : NonceTracker K A} (ht : t.WellFormed) {addr : A}
    {l : Option (List (PendingTx K))} (hl : (l.getD []).Pairwise fun a b => a.nonce < b.nonce)
    (keyToNonce : K → Option (A × Nat)) (a : A) :
    (({ pendingTxs := Function.update t.pendingTxs addr l, keyToNonce } :
        NonceTracker K A).pending a).Pairwise fun a b => a.nonce < b.nonce := by
  rw [pending_update]
  split_ifs
  · exact hl
  · exact ht.sorted a

variable [DecidableEq K]

omit [DecidableEq A] in
theorem keyToNonce_update_new_iff {t : NonceTracker K A} (ht : t.WellFormed) {key : K}
    (hkey : t.keyToNonce key = none) (keyToNonce : K → Option (A × Nat)) {addr a : A}
    {nonce n : Nat} {other : Prop} (hother : other → t.Holds a key n) :
    Function.update keyToNonce key (some (addr, nonce)) key = some (a, n) ↔
      (a = addr ∧ key = key ∧ nonce = n) ∨ other := by
  rw [Function.update_self, Option.some.injEq, Prod.mk.injEq]
  constructor
  · rintro ⟨rfl, rfl⟩
    exact .inl ⟨rfl, rfl, rfl⟩
  · rintro (⟨rfl, -, rfl⟩ | hh)
    · exact ⟨rfl, rfl⟩
    · exact absurd (hother hh) (ht.not_holds hkey a n)

omit [DecidableEq A] in
theorem keyToNonce_update_gone_iff {t : NonceTracker K A} (ht : t.WellFormed) {old : K}
    {addr : A} {m : Nat} (hold : t.Holds addr old m) (keyToNonce : K → Option (A × Nat))
    {a : A} {n : Nat} :
    Function.update keyToNonce old none old = some (a, n) ↔
      t.Holds a old n ∧ ¬(a = addr ∧ n = m) := by
  rw [Function.update_self]
  constructor
  · intro h
    cases h
  · rintro ⟨hh, hnot⟩
    obtain ⟨rfl, rfl⟩ := ht.holds_unique hh hold
    exact absurd ⟨rfl, rfl⟩ hnot

omit [DecidableEq A] [DecidableEq K] in
theorem holds_iff_of_ne {t : NonceTracker K A} (ht : t.WellFormed) {old k : K} {addr : A}
    {m : Nat} (hold : t.Holds addr old m) (hk : k ≠ old) {a : A} {n : Nat} :
    t.Holds a k n ↔ t.Holds a k n ∧ ¬(a = addr ∧ n = m) := by
  constructor
  · intro hh
    refine ⟨hh, ?_⟩
    rintro ⟨rfl, rfl⟩
    exact hk (ht.key_unique hh hold)
  · exact And.left

theorem WellFormed.add {t : NonceTracker K A} (ht : t.WellFormed) (key : K) (addr : A)
    (nonce : Nat) (priority : Int) : (t.addPendingNonce key addr nonce priority).WellFormed := by
  unfold addPendingNonce
  cases hkey : t.keyToNonce key with
  | some _ => exact ht
  | none =>
    dsimp only
    cases hrep : replacePendingTx key nonce priority (t.pending addr) with
    | none =>
      -- no transaction at the nonce: the new one goes in order into the list
      have hfree := replacePendingTx_eq_none.1 hrep
      rw [sortStableFunc_append pendingTxCmp_neg_iff (ht.sorted addr)]
      refine ⟨nonempty_update ht ?_, sorted_update ht ?_ _, ?_⟩
      · rintro l' ⟨⟩
        exact List.ne_nil_of_mem (mem_insertStable.2 (.inl rfl))
      · exact pairwise_insertStable pendingTxCmp_neg_iff (ht.sorted addr) hfree
      · intro k a n
        dsimp only
        rw [holds_insert]
        by_cases hk : k = key
        · subst hk
          exact keyToNonce_update_new_iff ht hkey _ id
        · rw [Function.update_of_ne hk, ht.keyToNonce_iff, or_iff_right fun h => hk h.2.1.symm]
    | some r =>
      obtain ⟨l', replaced⟩ := r
      cases replaced with
      | none => exact ht
      | some old =>
        -- the transaction at the nonce takes the new key; the old key leaves the index
        obtain ⟨front, p, back, hsplit, hpn, hpk, rfl⟩ := replacePendingTx_eq_some hrep
        dsimp only
        have hs : (front ++ p :: back).Pairwise fun a b => a.nonce < b.nonce :=
          hsplit ▸ ht.sorted addr
        have hold : t.Holds addr old p.nonce :=
          ⟨p, by rw [hsplit]; exact mem_append_cons_iff.2 (.inl rfl), hpk, rfl⟩
        refine ⟨nonempty_update ht ?_, sorted_update ht ?_ _, ?_⟩
        · rintro l' ⟨⟩
          exact List.ne_nil_of_mem (mem_append_cons_iff.2 (.inl rfl))
        · -- the nonces are those of the list before
          have hnonces : (front ++ ⟨key, nonce, priority⟩ :: back).map PendingTx.nonce =
              (front ++ p :: back).map PendingTx.nonce := by
            simp [hpn]
          rw [Option.getD_some, ← List.pairwise_map, hnonces, List.pairwise_map]
          exact hs
        · intro k a n
          dsimp only
          rw [holds_replace ht hsplit]
          by_cases hk : k = key
          · subst hk
            exact keyToNonce_update_new_iff ht hkey _ And.left
          · rw [Function.update_of_ne hk, or_iff_right fun h => hk h.2.1.symm]
            by_cases hko : k = old
            · subst hko
              exact keyToNonce_update_gone_iff ht hold _
            · rw [Function.update_of_ne hko, ht.keyToNonce_iff]
              exact holds_iff_of_ne ht hold hko

theorem WellFormed.remove {t : NonceTracker K A} (ht : t.WellFormed) (key : K) :
    (t.removePendingNonce key).WellFormed := by
  unfold NonceTracker.removePendingNonce
  cases hkey : t.keyToNonce key with
  | none => exact ht
  | some entry =>
    obtain ⟨addr, nonce⟩ := entry
    dsimp only
    obtain ⟨p, hp, hpk, hpn⟩ := (ht.keyToNonce_iff key addr nonce).1 hkey
    obtain ⟨front, back, hsplit⟩ := List.append_of_mem hp
    have hs : (front ++ p :: back).Pairwise fun a b => a.nonce < b.nonce :=
      hsplit ▸ ht.sorted addr
    -- the search finds the transaction of the key, so the branch that only drops the key is
    -- never taken
    have hfind : findPendingNonce (t.pending addr) nonce = (front.length, true) := by
      rw [hsplit, ← hpn]
      exact findPendingNonce_split hs
    have herase : (front ++ p :: back).eraseIdx front.length = front ++ back := by
      rw [List.eraseIdx_append_of_length_le (Nat.le_refl _), Nat.sub_self, List.eraseIdx_cons_zero]
    rw [hfind]
    dsimp only
    rw [if_neg (by decide), hsplit, herase]
    refine ⟨nonempty_update ht ?_, sorted_update ht ?_ _, ?_⟩
    · -- an emptied list is deleted, so a list that is present is the rest, not empty
      intro l' hl
      split_ifs at hl with hempty
      cases hl
      simpa using hempty
    · split_ifs
      · simp
      · rw [Option.getD_some]
        exact hs.sublist ((List.Sublist.refl front).append (List.sublist_cons_self p back))
    · intro k a n
      dsimp only
      rw [holds_remove ht hsplit]
      by_cases hk : k = key
      · subst hk
        exact keyToNonce_update_gone_iff ht ⟨p, hp, hpk, rfl⟩ _
      · rw [Function.update_of_ne hk, ht.keyToNonce_iff]
        exact holds_iff_of_ne ht ⟨p, hp, hpk, rfl⟩ hk

theorem WellFormed.apply {t : NonceTracker K A} (ht : t.WellFormed) :
    ∀ op : NonceOp K A, (t.apply op).WellFormed
  | .addPendingNonce key addr nonce priority => ht.add key addr nonce priority
  | .removePendingNonce key => ht.remove key

-- The run: by induction on the calls, from the two steps.
theorem WellFormed.run {t : NonceTracker K A} (ht : t.WellFormed) :
    ∀ ops : List (NonceOp K A), (t.run ops).WellFormed
  | [] => ht
  | op :: ops => (ht.apply op).run ops

end NonceTracker

end Steps

-- From `nextNonce`, the loop passes the pending nonces and stops at the first free one, when
-- that one is below `2 ^ 64` and there are rounds enough to reach it.
theorem nextNonceFrom_eq {pending : List (PendingTx K)}
    (hs : pending.Pairwise fun a b => a.nonce < b.nonce) {m : Nat} (hm : m < 2 ^ 64)
    (hfree : ∀ p ∈ pending, p.nonce ≠ m) :
    ∀ rounds nextNonce, nextNonce ≤ m → m - nextNonce < rounds →
      (∀ k, nextNonce ≤ k → k < m → ∃ p ∈ pending, p.nonce = k) →
      nextNonceFrom pending rounds nextNonce = some m := by
  intro rounds
  induction rounds with
  | zero =>
    intro nextNonce _ hrounds _
    omega
  | succ rounds ih =>
    intro nextNonce hle hrounds hpending
    unfold nextNonceFrom
    rcases Nat.eq_or_lt_of_le hle with rfl | hlt
    · -- the free nonce itself: the search does not find it
      have hnot : (findPendingNonce pending nextNonce).2 = false := by
        rw [Bool.eq_false_iff, ne_eq, findPendingNonce_snd_iff hs]
        rintro ⟨p, hp, hpn⟩
        exact hfree p hp hpn
      rw [if_neg (by rw [hnot]; decide)]
    · -- a pending nonce below it: the search finds it and the counter moves on, without wrapping
      have hfound : (findPendingNonce pending nextNonce).2 = true :=
        (findPendingNonce_snd_iff hs nextNonce).2 (hpending nextNonce (Nat.le_refl _) hlt)
      have hnext : (nextNonce + 1) % 2 ^ 64 = nextNonce + 1 := Nat.mod_eq_of_lt (by omega)
      rw [if_pos hfound, hnext]
      exact ih (nextNonce + 1) hlt (by omega) (fun k hk hkm => hpending k (by omega) hkm)

theorem pending_nonce_tracker_invariant [DecidableEq K] [DecidableEq A] (ops : List (NonceOp K A)) :
    (NonceTracker.empty.run ops).WellFormed ∧
      ∀ (getNonce : A → Nat) (addr : A) (m : Nat), getNonce addr ≤ m → m < 2 ^ 64 →
        (∀ p ∈ (NonceTracker.empty.run ops).pending addr, p.nonce ≠ m) →
        (∀ k, getNonce addr ≤ k → k < m → ∃ p ∈ (NonceTracker.empty.run ops).pending addr, p.nonce = k) →
        (NonceTracker.empty.run ops).calculateNextNonce getNonce addr true = some m := by
  have ht := NonceTracker.wellFormed_empty.run ops
  refine ⟨ht, ?_⟩
  intro getNonce addr m hle hm hfree hpending
  exact nextNonceFrom_eq (ht.sorted addr) hm hfree (2 ^ 64) (getNonce addr) hle (by omega) hpending

theorem pending_nonce_tracker_next_after_pending :
    (NonceTracker.empty.run [.addPendingNonce 1 0 5 0] : NonceTracker Nat Nat).calculateNextNonce
      (fun _ => 5) 0 true = some 6 :=
  (pending_nonce_tracker_invariant [.addPendingNonce 1 0 5 0]).2 (fun _ => 5) 0 6 (by decide)
    (by decide) (by decide) (fun k hk hkm => by
      obtain rfl : k = 5 := by omega
      decide)

-- The account nonce is the largest `uint64` and a transaction waits at it: the counter wraps
-- and the next nonce returned is 0, below the account's.
theorem next_nonce_wraps_past_max_uint64 :
    (NonceTracker.empty.run [.addPendingNonce 1 0 (2 ^ 64 - 1) 0] :
        NonceTracker Nat Nat).calculateNextNonce (fun _ => 2 ^ 64 - 1) 0 true = some 0 := by
  decide

example : (NonceTracker.empty.run [.addPendingNonce 1 0 5 0, .addPendingNonce 2 0 6 0,
    .addPendingNonce 3 0 8 0, .removePendingNonce 2] : NonceTracker Nat Nat).calculateNextNonce
    (fun _ => 5) 0 true = some 6 := by decide

end SeiChain.Evm
