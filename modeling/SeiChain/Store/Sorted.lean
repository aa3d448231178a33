import Mathlib

namespace KVStore

variable {K V : Type} [DecidableEq K] [LT K] [DecidableRel (α := K) (· < ·)]

def insertByKey (k : K) (v : V) : List (K × V) → List (K × V)
  | [] => [(k, v)]
  | e :: rest => if k < e.1 then (k, v) :: e :: rest else e :: insertByKey k v rest

def set (k : K) (v : V) (l : List (K × V)) : List (K × V) :=
  if k ∈ l.map Prod.fst then l.map fun e => if e.1 = k then (k, v) else e
  else insertByKey k v l

omit [DecidableEq K] in
theorem perm_insertByKey (k : K) (v : V) (l : List (K × V)) :
    (insertByKey k v l).Perm ((k, v) :: l) := by
  induction l with
  | nil => exact List.Perm.refl _
  | cons e rest ih =>
    unfold insertByKey
    split_ifs
    · exact List.Perm.refl _
    · exact (List.Perm.cons e ih).trans (List.Perm.swap _ _ _)

theorem set_perm_of_not_mem {k : K} (v : V) {l : List (K × V)} (hk : k ∉ l.map Prod.fst) :
    (set k v l).Perm ((k, v) :: l) := by
  rw [set, if_neg hk]
  exact perm_insertByKey k v l

omit [LT K] [DecidableRel (α := K) (· < ·)] in
theorem keys_map_replace (k : K) (v : V) (l : List (K × V)) :
    (l.map fun e => if e.1 = k then (k, v) else e).map Prod.fst = l.map Prod.fst := by
  induction l with
  | nil => rfl
  | cons e rest ih =>
    by_cases he : e.1 = k <;> simp [he, ih]

theorem nodup_keys_set {l : List (K × V)} (hl : (l.map Prod.fst).Nodup) (k : K) (v : V) :
    ((set k v l).map Prod.fst).Nodup := by
  unfold set
  split_ifs with hk
  · rwa [keys_map_replace]
  · rw [((perm_insertByKey k v l).map Prod.fst).nodup_iff, List.map_cons, List.nodup_cons]
    exact ⟨hk, hl⟩

theorem set_eq_self {k : K} {v : V} {l : List (K × V)} (hk : k ∈ l.map Prod.fst)
    (hv : ∀ e ∈ l, e.1 = k → e.2 = v) : set k v l = l := by
  rw [set, if_pos hk]
  conv => rhs; rw [← List.map_id l]
  refine List.map_congr_left fun e he => ?_
  by_cases hek : e.1 = k
  · rw [if_pos hek, id]
    exact Prod.ext hek.symm (hv e he hek).symm
  · rw [if_neg hek, id]

theorem mem_set_iff {k : K} {v : V} {l : List (K × V)} (hv : ∀ e ∈ l, e.1 = k → e.2 = v)
    {e : K × V} : e ∈ set k v l ↔ e = (k, v) ∨ e ∈ l := by
  by_cases hk : k ∈ l.map Prod.fst
  · rw [set_eq_self hk hv]
    -- the key is there, so the entry written is one of those that were there
    obtain ⟨e', he', hek⟩ := List.mem_map.1 hk
    have hkv : (k, v) ∈ l := by
      rw [← hek, ← hv e' he' hek]
      exact he'
    constructor
    · exact Or.inr
    · rintro (rfl | he)
      · exact hkv
      · exact he
  · rw [(set_perm_of_not_mem v hk).mem_iff, List.mem_cons]

omit [DecidableEq K] [LT K] [DecidableRel (α := K) (· < ·)] in
theorem nodup_values {l : List (K × V)} (hl : (l.map Prod.fst).Nodup)
    (hkey : ∀ e ∈ l, ∀ e' ∈ l, e.2 = e'.2 → e.1 = e'.1) : (l.map Prod.snd).Nodup := by
  induction l with
  | nil => exact List.nodup_nil
  | cons e rest ih =>
    rw [List.map_cons, List.nodup_cons] at hl ⊢
    refine ⟨fun hmem => ?_, ih hl.2 fun a ha b hb => hkey a (List.mem_cons_of_mem _ ha) b
      (List.mem_cons_of_mem _ hb)⟩
    -- a later entry with the value of the first would have its key too
    obtain ⟨e', he', hval⟩ := List.mem_map.1 hmem
    have := hkey e List.mem_cons_self e' (List.mem_cons_of_mem _ he') hval.symm
    exact hl.1 (this ▸ List.mem_map_of_mem he')

omit [LT K] [DecidableRel (α := K) (· < ·)] in
def delete (k : K) (l : List (K × V)) : List (K × V) := l.filter fun e => e.1 != k

omit [LT K] [DecidableRel (α := K) (· < ·)] in
theorem foldl_delete (ks : List K) (l : List (K × V)) :
    ks.foldl (fun l k => delete k l) l = l.filter fun e => e.1 ∉ ks := by
  induction ks generalizing l with
  | nil => simp
  | cons k ks ih =>
    rw [List.foldl_cons, ih, delete, List.filter_filter]
    refine List.filter_congr fun e _ => ?_
    by_cases hk : e.1 = k <;> simp [hk]

section Ordered

variable {K V : Type} [LinearOrder K]

theorem insertByKey_of_lt {k : K} (v : V) {l : List (K × V)} (h : ∀ e ∈ l, e.1 < k) :
    insertByKey k v l = l ++ [(k, v)] := by
  induction l with
  | nil => rfl
  | cons e rest ih =>
    have hek : ¬k < e.1 := not_lt.2 (h e List.mem_cons_self).le
    rw [insertByKey, if_neg hek, ih fun x hx => h x (List.mem_cons_of_mem _ hx), List.cons_append]

theorem set_of_lt {k : K} (v : V) {l : List (K × V)} (h : ∀ e ∈ l, e.1 < k) :
    set k v l = l ++ [(k, v)] := by
  have hk : k ∉ l.map Prod.fst := by
    intro hk
    obtain ⟨e, he, hek⟩ := List.mem_map.1 hk
    exact (h e he).ne hek
  rw [set, if_neg hk, insertByKey_of_lt v h]

theorem foldl_set_of_sorted {acc l : List (K × V)} (hl : (l.map Prod.fst).Pairwise (· < ·))
    (hacc : ∀ a ∈ acc, ∀ e ∈ l, a.1 < e.1) :
    l.foldl (fun s e => set e.1 e.2 s) acc = acc ++ l := by
  induction l generalizing acc with
  | nil => simp
  | cons e rest ih =>
    rw [List.map_cons, List.pairwise_cons] at hl
    have hrest : ∀ x ∈ rest, e.1 < x.1 := fun x hx => hl.1 x.1 (List.mem_map_of_mem hx)
    rw [List.foldl_cons, set_of_lt e.2 fun a ha => hacc a ha e List.mem_cons_self]
    rw [ih hl.2 ?_, List.append_assoc, List.singleton_append]
    -- the keys loaded so far, the new one included, are below those still to come
    intro a ha x hx
    rcases List.mem_append.1 ha with ha | ha
    · exact (hacc a ha e List.mem_cons_self).trans (hrest x hx)
    · rw [List.mem_singleton.1 ha]
      exact hrest x hx

end Ordered

end KVStore
