import Mathlib

namespace List

variable {α : Type}

theorem exists_split_first (p : α → Prop) [DecidablePred p] {l : List α} (h : ∃ x ∈ l, p x) :
    ∃ A x B, l = A ++ x :: B ∧ p x ∧ ∀ a ∈ A, ¬ p a := by
  induction l with
  | nil =>
    obtain ⟨x, hx, _⟩ := h
    exact absurd hx not_mem_nil
  | cons y l ih =>
    by_cases hy : p y
    · exact ⟨[], y, l, rfl, hy, fun _ ha => absurd ha not_mem_nil⟩
    · -- the first element does not satisfy `p`, so the witness lies further on
      obtain ⟨x, hx, hpx⟩ := h
      have hxl : x ∈ l := by
        rcases mem_cons.1 hx with rfl | hx
        · exact absurd hpx hy
        · exact hx
      obtain ⟨A, z, B, rfl, hz, hA⟩ := ih ⟨x, hxl, hpx⟩
      refine ⟨y :: A, z, B, rfl, hz, fun a ha => ?_⟩
      rcases mem_cons.1 ha with rfl | ha
      · exact hy
      · exact hA a ha

section Lookup

variable {β : Type} [BEq α] [LawfulBEq α]

theorem lookup_filter_ne {a k : α} (h : a ≠ k) :
    ∀ l : List (α × β), (l.filter fun p => p.1 != k).lookup a = l.lookup a
  | [] => rfl
  | (k', v) :: l => by
    by_cases hk : k' = k
    · subst hk
      simp [lookup_cons, beq_false_of_ne h, lookup_filter_ne h l]
    · simp [lookup_cons, hk, lookup_filter_ne h l]

theorem lookup_cons_filter_self (k : α) (v : β) (l : List (α × β)) :
    ((k, v) :: l.filter fun p => p.1 != k).lookup k = some v := by
  simp

theorem lookup_cons_filter_of_ne {a k : α} (h : a ≠ k) (v : β) (l : List (α × β)) :
    ((k, v) :: l.filter fun p => p.1 != k).lookup a = l.lookup a := by
  rw [lookup_cons, beq_false_of_ne h]
  exact lookup_filter_ne h l

theorem mem_map_fst_iff_isSome_lookup {k : α} {l : List (α × β)} :
    k ∈ l.map Prod.fst ↔ (l.lookup k).isSome := by
  rw [lookup_isSome_iff, mem_map]
  constructor
  · rintro ⟨p, hp, rfl⟩
    exact ⟨p, hp, beq_self_eq_true _⟩
  · rintro ⟨p, hp, hk⟩
    exact ⟨p, hp, (beq_iff_eq.1 hk).symm⟩

end Lookup

theorem mapM_eq_some_map {β : Type} {f : α → Option β} {g : α → β} :
    ∀ {l : List α}, (∀ x ∈ l, f x = some (g x)) → l.mapM f = some (l.map g)
  | [], _ => rfl
  | x :: xs, h => by
    simp [mapM_cons, h x mem_cons_self, mapM_eq_some_map fun y hy => h y (mem_cons_of_mem _ hy)]

theorem mapM_eq_none_iff {β : Type} {f : α → Option β} :
    ∀ {l : List α}, l.mapM f = none ↔ ∃ x ∈ l, f x = none
  | [] => by simp
  | x :: xs => by
    have ih : xs.mapM f = none ↔ ∃ y ∈ xs, f y = none := mapM_eq_none_iff
    cases hx : f x with
    | none => simp [mapM_cons, hx]
    | some b =>
      cases hxs : xs.mapM f with
      | none => simpa [mapM_cons, hx, hxs] using ih.1 hxs
      | some bs =>
        have hall : ∀ y ∈ xs, f y ≠ none := fun y hy hy' => by
          rw [ih.2 ⟨y, hy, hy'⟩] at hxs
          cases hxs
        simp only [mapM_cons, hx, hxs, Option.bind_eq_bind, Option.bind_some, Option.pure_def,
          reduceCtorEq, mem_cons, exists_eq_or_imp, false_or, false_iff, not_exists, not_and]
        exact hall

section Filter

variable {p q : α → Bool} (f : α → Nat)

theorem sum_map_filter_le (hqp : ∀ x, q x = true → p x = true) (l : List α) :
    ((l.filter q).map f).sum ≤ ((l.filter p).map f).sum :=
  ((monotone_filter_right l hqp).map f).sum_le_sum fun _ _ => Nat.zero_le _

theorem sum_map_filter_add_le (hqp : ∀ x, q x = true → p x = true) {l : List α} {a : α}
    (ha : a ∈ l) (hpa : p a = true) (hqa : q a = false) :
    ((l.filter q).map f).sum + f a ≤ ((l.filter p).map f).sum := by
  induction l with
  | nil => exact absurd ha not_mem_nil
  | cons b l ih =>
    rcases mem_cons.1 ha with rfl | ha
    · -- `a` itself: the larger filter keeps it, the smaller one does not
      have := sum_map_filter_le f hqp l
      simp only [filter_cons, hqa, hpa, if_true, map_cons, sum_cons, Bool.false_eq_true, if_false]
      omega
    · have := ih ha
      by_cases hqb : q b = true
      · simp only [filter_cons, hqb, hqp b hqb, if_true, map_cons, sum_cons]
        omega
      · rw [Bool.not_eq_true] at hqb
        by_cases hpb : p b = true
        · simp only [filter_cons, hqb, hpb, Bool.false_eq_true, if_true, if_false, map_cons,
            sum_cons]
          omega
        · rw [Bool.not_eq_true] at hpb
          simp only [filter_cons, hqb, hpb, Bool.false_eq_true, if_false]
          exact this

end Filter

section SplitOn

variable [BEq α] [LawfulBEq α]

-- No piece of a split holds the element split at. By induction on the list: the first element
-- either is the separator, and starts an empty piece, or joins the first piece.
theorem not_mem_of_mem_splitOn {a : α} {xs w : List α} (h : w ∈ xs.splitOn a) : a ∉ w := by
  induction xs generalizing w with
  | nil =>
    rw [splitOn_nil, mem_singleton] at h
    simp [h]
  | cons x xs ih =>
    rw [splitOn_cons_eq_if_modifyHead] at h
    split_ifs at h with hx
    · rcases mem_cons.1 h with rfl | h
      · exact not_mem_nil
      · exact ih h
    · obtain ⟨w₀, ws, hws⟩ := exists_cons_of_ne_nil (splitOn_ne_nil a xs)
      rw [hws, modifyHead_cons, mem_cons] at h
      rcases h with rfl | h
      · have hxa : x ≠ a := fun hxa => hx (beq_iff_eq.2 hxa)
        have hw₀ : a ∉ w₀ := ih (hws ▸ mem_cons_self)
        simp [Ne.symm hxa, hw₀]
      · exact ih (hws ▸ mem_cons_of_mem w₀ h)

end SplitOn

end List
