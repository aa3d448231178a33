import Mathlib

namespace KVStore

-- The writes a cache layer holds and has not yet written to its parent:
-- `some (some v)` is a set, `some none` a delete, `none` a key the layer has not touched.
abbrev Writes (K V : Type) := K → Option (Option V)

variable {K V : Type}

def Writes.empty : Writes K V := fun _ => none

def Writes.applyTo (w : Writes K V) (base : K → Option V) : K → Option V :=
  fun k => (w k).getD (base k)

def Writes.over (w u : Writes K V) : Writes K V :=
  fun k => (w k).or (u k)

@[simp] theorem Writes.empty_apply (k : K) : (Writes.empty : Writes K V) k = none := rfl

@[simp] theorem Writes.applyTo_apply (w : Writes K V) (base : K → Option V) (k : K) :
    w.applyTo base k = (w k).getD (base k) := rfl

@[simp] theorem Writes.over_apply (w u : Writes K V) (k : K) :
    w.over u k = (w k).or (u k) := rfl

-- The persistent store at the bottom, the cache layers allocated so far, indexed in
-- order of allocation, and the next free index.
structure MultiStore (K V : Type) where
  root : K → Option V
  layers : Nat → Writes K V
  fresh : Nat

-- A context reaches the store through a chain of cache layers, innermost first;
-- the empty chain is the root store itself.
abbrev Chain := List Nat

namespace MultiStore

def get (ms : MultiStore K V) : Chain → K → Option V
  | [], k => ms.root k
  | i :: rest, k => (ms.layers i k).getD (ms.get rest k)

def update (ms : MultiStore K V) (c : Chain) (w : Writes K V) : MultiStore K V :=
  match c with
  | [] => { ms with root := w.applyTo ms.root }
  | i :: _ => { ms with layers := Function.update ms.layers i (w.over (ms.layers i)) }

def cacheMultiStore (ms : MultiStore K V) (c : Chain) : MultiStore K V × Chain :=
  ({ ms with layers := Function.update ms.layers ms.fresh Writes.empty, fresh := ms.fresh + 1 },
    ms.fresh :: c)

-- `Write()`: copy the innermost layer into its parent, then empty it.
def write (ms : MultiStore K V) : Chain → MultiStore K V
  | [] => ms
  | i :: rest =>
    let copied := ms.update rest (ms.layers i)
    { copied with layers := Function.update copied.layers i Writes.empty }

def WellFormed (ms : MultiStore K V) (c : Chain) : Prop :=
  c.Pairwise (· > ·) ∧ ∀ i ∈ c, i < ms.fresh

def AgreeOn (ms ms' : MultiStore K V) (c : Chain) : Prop :=
  ms'.root = ms.root ∧ ∀ i ∈ c, ms'.layers i = ms.layers i

@[simp] theorem get_nil (ms : MultiStore K V) (k : K) : ms.get [] k = ms.root k := rfl

@[simp] theorem get_cons (ms : MultiStore K V) (i : Nat) (rest : Chain) (k : K) :
    ms.get (i :: rest) k = (ms.layers i k).getD (ms.get rest k) := rfl

@[simp] theorem cacheMultiStore_fresh (ms : MultiStore K V) (c : Chain) :
    (ms.cacheMultiStore c).1.fresh = ms.fresh + 1 := rfl

@[simp] theorem cacheMultiStore_chain (ms : MultiStore K V) (c : Chain) :
    (ms.cacheMultiStore c).2 = ms.fresh :: c := rfl

@[simp] theorem cacheMultiStore_root (ms : MultiStore K V) (c : Chain) :
    (ms.cacheMultiStore c).1.root = ms.root := rfl

@[simp] theorem update_fresh (ms : MultiStore K V) (c : Chain) (w : Writes K V) :
    (ms.update c w).fresh = ms.fresh := by
  cases c <;> rfl

@[simp] theorem update_cons_root (ms : MultiStore K V) (i : Nat) (rest : Chain)
    (w : Writes K V) : (ms.update (i :: rest) w).root = ms.root := rfl

theorem update_cons_layers (ms : MultiStore K V) (i : Nat) (rest : Chain) (w : Writes K V)
    (j : Nat) :
    (ms.update (i :: rest) w).layers j = if j = i then w.over (ms.layers i) else ms.layers j := by
  simp only [update, Function.update_apply]

theorem AgreeOn.refl (ms : MultiStore K V) (c : Chain) : ms.AgreeOn ms c :=
  ⟨rfl, fun _ _ => rfl⟩

theorem AgreeOn.trans {ms₁ ms₂ ms₃ : MultiStore K V} {c : Chain} (h₁ : ms₁.AgreeOn ms₂ c)
    (h₂ : ms₂.AgreeOn ms₃ c) : ms₁.AgreeOn ms₃ c :=
  ⟨h₂.1.trans h₁.1, fun i hi => (h₂.2 i hi).trans (h₁.2 i hi)⟩

theorem AgreeOn.mono {ms ms' : MultiStore K V} {c c' : Chain} (h : ms.AgreeOn ms' c)
    (hsub : ∀ i ∈ c', i ∈ c) : ms.AgreeOn ms' c' :=
  ⟨h.1, fun i hi => h.2 i (hsub i hi)⟩

theorem get_congr {ms ms' : MultiStore K V} {c : Chain} (h : ms.AgreeOn ms' c) (k : K) :
    ms'.get c k = ms.get c k := by
  induction c with
  | nil => simp [h.1]
  | cons i rest ih =>
    have hrest : ms.AgreeOn ms' rest := h.mono (fun j hj => List.mem_cons_of_mem i hj)
    simp only [get_cons, h.2 i List.mem_cons_self, ih hrest]

theorem agreeOn_update_of_not_mem (ms : MultiStore K V) {i : Nat} {rest c : Chain}
    (w : Writes K V) (hi : i ∉ c) : ms.AgreeOn (ms.update (i :: rest) w) c := by
  refine ⟨rfl, fun j hj => ?_⟩
  have hji : j ≠ i := fun h => hi (h ▸ hj)
  simp [update_cons_layers, hji]

theorem get_update (ms : MultiStore K V) {c : Chain} (hc : c.Nodup) (w : Writes K V) (k : K) :
    (ms.update c w).get c k = (w k).getD (ms.get c k) := by
  cases c with
  | nil => rfl
  | cons i rest =>
    have hi : i ∉ rest := (List.nodup_cons.mp hc).1
    rw [get_cons, get_congr (agreeOn_update_of_not_mem ms w hi) k, update_cons_layers, if_pos rfl,
      Writes.over_apply, get_cons]
    cases w k <;> rfl

-- The new layer is empty and was never part of a chain, so nothing reads differently.
theorem agreeOn_cacheMultiStore (ms : MultiStore K V) (c c' : Chain)
    (hc' : ∀ i ∈ c', i < ms.fresh) : ms.AgreeOn (ms.cacheMultiStore c).1 c' := by
  refine ⟨rfl, fun j hj => ?_⟩
  have hne : j ≠ ms.fresh := Nat.ne_of_lt (hc' j hj)
  simp [cacheMultiStore, hne]

theorem get_cacheMultiStore (ms : MultiStore K V) (c : Chain)
    (hc : ∀ i ∈ c, i < ms.fresh) (k : K) :
    (ms.cacheMultiStore c).1.get (ms.cacheMultiStore c).2 k = ms.get c k := by
  rw [cacheMultiStore_chain, get_cons, get_congr (agreeOn_cacheMultiStore ms c c hc) k]
  simp [cacheMultiStore]

theorem wellFormed_cacheMultiStore {ms : MultiStore K V} {c : Chain} (h : ms.WellFormed c) :
    (ms.cacheMultiStore c).1.WellFormed (ms.cacheMultiStore c).2 := by
  obtain ⟨hdesc, hlt⟩ := h
  refine ⟨List.pairwise_cons.mpr ⟨fun j hj => hlt j hj, hdesc⟩, fun j hj => ?_⟩
  rcases List.mem_cons.mp hj with rfl | hj
  · simp
  · simp only [cacheMultiStore_fresh]
    exact Nat.lt_succ_of_lt (hlt j hj)

theorem WellFormed.head_not_mem {ms : MultiStore K V} {i : Nat} {rest : Chain}
    (h : ms.WellFormed (i :: rest)) : i ∉ rest := by
  intro hi
  have := (List.pairwise_cons.mp h.1).1 i hi
  omega

theorem WellFormed.nodup {ms : MultiStore K V} {c : Chain} (h : ms.WellFormed c) : c.Nodup :=
  h.1.imp Nat.ne_of_gt

theorem get_write (ms : MultiStore K V) {i : Nat} {rest : Chain} (hc : (i :: rest).Nodup) (k : K) :
    (ms.write (i :: rest)).get rest k = ms.get (i :: rest) k := by
  have hi : i ∉ rest := (List.nodup_cons.mp hc).1
  have hagree : (ms.update rest (ms.layers i)).AgreeOn (ms.write (i :: rest)) rest := by
    refine ⟨rfl, fun j hj => ?_⟩
    have hji : j ≠ i := fun h => hi (h ▸ hj)
    simp only [write, Function.update_apply, hji, if_false]
  rw [get_congr hagree, get_update ms (List.nodup_cons.mp hc).2, get_cons]

def flushTop (ms : MultiStore K V) (c : Chain) : Nat → MultiStore K V
  | 0 => ms
  | k + 1 => (ms.write c).flushTop c.tail k

theorem get_flushTop (ms : MultiStore K V) {c : Chain} (hc : c.Nodup) (k : Nat) (key : K) :
    (ms.flushTop c k).get (c.drop k) key = ms.get c key := by
  induction k generalizing ms c with
  | zero => rfl
  | succ k ih =>
    cases c with
    | nil =>
      have h := ih (ms.write []) hc
      rw [List.drop_nil] at h
      exact h
    | cons i rest =>
      rw [flushTop, List.drop_succ_cons, List.tail_cons, ih _ (List.nodup_cons.mp hc).2,
        get_write ms hc]

theorem foldl_write_eq_flushTop (ms : MultiStore K V) (c : Chain) (k : Nat) :
    ((List.range k).map c.drop).foldl write ms = ms.flushTop c k := by
  induction k generalizing ms c with
  | zero => rfl
  | succ k ih =>
    have hmap : (List.range (k + 1)).map c.drop = c :: (List.range k).map c.tail.drop := by
      rw [List.range_succ_eq_map, List.map_cons, List.map_map, List.drop_zero]
      simp [Function.comp_def, List.drop_tail]
    rw [hmap, List.foldl_cons, ih, flushTop]

end MultiStore

end KVStore
