import Mathlib

namespace Except

def commitOr {ε σ : Type} (s : σ) : Except ε σ → σ
  | .ok s' => s'
  | .error _ => s

@[simp]
theorem ok_bind {ε α β : Type} (a : α) (f : α → Except ε β) : (Except.ok a >>= f) = f a := rfl

@[simp]
theorem error_bind {ε α β : Type} (e : ε) (f : α → Except ε β) :
    (Except.error e >>= f) = .error e := rfl

@[simp]
theorem throw_bind {ε α β : Type} (e : ε) (f : α → Except ε β) : (throw e >>= f) = .error e := rfl

theorem exists_eq_ok_of_isOk {ε α : Type} {x : Except ε α} (h : x.isOk) : ∃ a, x = .ok a := by
  cases x with
  | error e => cases h
  | ok a => exact ⟨a, rfl⟩

theorem bind_eq_ok {ε α β : Type} {x : Except ε α} {f : α → Except ε β} {b : β} :
    x >>= f = .ok b ↔ ∃ a, x = .ok a ∧ f a = .ok b := by
  cases x with
  | error e => simp [bind, Except.bind]
  | ok a => simp [bind, Except.bind]

theorem ite_throw_bind_eq_ok {ε α : Type} {c : Prop} [Decidable c] {e : ε} {k : Unit → Except ε α}
    {r : α} : (if c then throw e >>= k else k ()) = .ok r ↔ ¬c ∧ k () = .ok r := by
  by_cases hc : c
  · simp [hc, throw, throwThe, MonadExceptOf.throw, bind, Except.bind]
  · simp [hc]

theorem ite_else_throw_eq_ok {ε α : Type} {c : Prop} [Decidable c] {a : Except ε α} {e : ε} {r : α} :
    (if c then a else throw e) = .ok r ↔ c ∧ a = .ok r := by
  by_cases hc : c
  · simp [hc]
  · simp [hc, throw, throwThe, MonadExceptOf.throw]

end Except

namespace List

variable {α β κ : Type}

-- An invariant of every state a loop in `Option` can reach, carried step by step.
theorem foldlM_option_induction {f : β → α → Option β} (P : β → Prop) {l : List α} {b b' : β}
    (hb : P b) (hstep : ∀ x a y, a ∈ l → P x → f x a = some y → P y)
    (h : l.foldlM f b = some b') : P b' := by
  induction l generalizing b with
  | nil =>
    cases h
    exact hb
  | cons a l ih =>
    rw [List.foldlM_cons] at h
    cases hx : f b a with
    | none => simp [hx] at h
    | some x =>
      simp only [hx, Option.bind_eq_bind, Option.bind_some] at h
      exact ih (hstep b a x mem_cons_self hb hx)
        (fun y a z ha => hstep y a z (mem_cons_of_mem _ ha)) h

-- The same for a loop in `Except`.
theorem foldlM_except_induction {ε : Type} {f : β → α → Except ε β} (P : β → Prop) {l : List α}
    {b b' : β} (hb : P b) (hstep : ∀ x a y, a ∈ l → P x → f x a = .ok y → P y)
    (h : l.foldlM f b = .ok b') : P b' := by
  induction l generalizing b with
  | nil =>
    cases h
    exact hb
  | cons a l ih =>
    rw [List.foldlM_cons] at h
    cases hx : f b a with
    | error e =>
      rw [hx] at h
      cases h
    | ok x =>
      rw [hx] at h
      exact ih (hstep b a x mem_cons_self hb hx)
        (fun y a z ha => hstep y a z (mem_cons_of_mem _ ha)) h

theorem exists_of_mem_mapM_except {ε : Type} {f : α → Except ε β} {l : List α} {ys : List β}
    (h : l.mapM f = .ok ys) {y : β} (hy : y ∈ ys) : ∃ a ∈ l, f a = .ok y := by
  induction l generalizing ys with
  | nil =>
    cases h
    exact absurd hy not_mem_nil
  | cons a l ih =>
    rw [List.mapM_cons] at h
    cases ha : f a with
    | error e =>
      rw [ha] at h
      cases h
    | ok b =>
      rw [ha] at h
      cases hl : l.mapM f with
      | error e =>
        rw [hl] at h
        cases h
      | ok bs =>
        rw [hl] at h
        cases h
        rcases mem_cons.1 hy with rfl | hy
        · exact ⟨a, mem_cons_self, ha⟩
        · obtain ⟨x, hx, hfx⟩ := ih hl hy
          exact ⟨x, mem_cons_of_mem _ hx, hfx⟩

theorem forM_except_eq_ok_iff {ε : Type} {f : α → Except ε Unit} {l : List α} :
    forM l f = .ok () ↔ ∀ a ∈ l, f a = .ok () := by
  induction l with
  | nil =>
    simp only [List.forM_nil, not_mem_nil, false_implies, implies_true, iff_true]
    rfl
  | cons a l ih =>
    rw [List.forM_cons, forall_mem_cons]
    cases ha : f a with
    | error e =>
      -- the loop stops at the first failing step
      constructor
      · intro h
        cases h
      · rintro ⟨h, -⟩
        cases h
    | ok u =>
      -- a step in `Unit` that succeeds is the step that succeeds
      simp only [bind, Except.bind, true_and]
      exact ih

-- An invariant that every successful transaction keeps holds after a run of transactions in
-- which the failed ones leave the state as it was.
theorem foldl_commitOr_induction {ε σ : Type} {f : σ → α → Except ε σ} (P : σ → Prop)
    {l : List α} {s : σ} (hs : P s) (hstep : ∀ s a s', a ∈ l → P s → f s a = .ok s' → P s') :
    P (l.foldl (fun s a => Except.commitOr s (f s a)) s) := by
  induction l generalizing s with
  | nil => exact hs
  | cons a l ih =>
    rw [List.foldl_cons]
    refine ih ?_ (fun s' a' s'' ha => hstep s' a' s'' (mem_cons_of_mem _ ha))
    -- the first transaction either fails and changes nothing, or keeps the invariant
    cases hf : f s a with
    | error e => exact hs
    | ok s' => exact hstep s a s' mem_cons_self hs hf

section Sum

variable {M : Type} [AddCommMonoid M]

theorem foldlM_except_sum {ε : Type} {f : β → α → Except ε β} (μ : β → M) (δ : α → M)
    {l : List α} {b b' : β} (hstep : ∀ x a y, a ∈ l → f x a = .ok y → μ y = μ x + δ a)
    (h : l.foldlM f b = .ok b') : μ b' = μ b + (l.map δ).sum := by
  induction l generalizing b with
  | nil =>
    cases h
    rw [map_nil, sum_nil, add_zero]
  | cons a l ih =>
    rw [List.foldlM_cons] at h
    obtain ⟨x, hx, h⟩ := Except.bind_eq_ok.1 h
    rw [ih (fun y a z ha => hstep y a z (mem_cons_of_mem _ ha)) h, hstep b a x mem_cons_self hx,
      map_cons, sum_cons, add_assoc]

-- Over a run of transactions in which a failed one leaves the state as it was, such a measure
-- is moved by the sum over the transactions that went through, a sublist of the run.
theorem foldl_commitOr_sum {ε σ : Type} {f : σ → α → Except ε σ} (μ : σ → M) (δ : α → M)
    {l : List α} (s : σ) (hstep : ∀ s a s', a ∈ l → f s a = .ok s' → μ s' = μ s + δ a) :
    ∃ l' : List α, l'.Sublist l ∧ μ (l.foldl (fun s a => Except.commitOr s (f s a)) s) = μ s + (l'.map δ).sum := by
  induction l generalizing s with
  | nil => exact ⟨[], Sublist.slnil, by rw [foldl_nil, map_nil, sum_nil, add_zero]⟩
  | cons a l ih =>
    rw [List.foldl_cons]
    have hrest : ∀ s a' s', a' ∈ l → f s a' = .ok s' → μ s' = μ s + δ a' :=
      fun s a' s' ha => hstep s a' s' (mem_cons_of_mem _ ha)
    -- the first transaction is dropped, or counted
    cases hf : f s a with
    | error e =>
      obtain ⟨l', hl', hμ⟩ := ih s hrest
      exact ⟨l', hl'.cons a, hμ⟩
    | ok s' =>
      obtain ⟨l', hl', hμ⟩ := ih s' hrest
      refine ⟨a :: l', hl'.cons_cons a, ?_⟩
      rw [Except.commitOr, hμ, hstep s a s' mem_cons_self hf, map_cons, sum_cons, add_assoc]

end Sum

section Seen

variable [DecidableEq κ]

-- A loop that rejects an element whose key it has seen, checks the element, and adds its key to
-- those seen, goes through exactly when the keys are distinct and new, and every check passes.
theorem foldlM_seen_eq_ok_iff {ε : Type} (key : α → κ) (err : α → ε) (check : α → Except ε Unit)
    (l : List α) (seen : List κ) :
    (∃ r, l.foldlM (fun seen a => do
        if key a ∈ seen then throw (err a)
        check a
        pure (key a :: seen)) seen = .ok r) ↔
      (l.map key).Nodup ∧ ∀ a ∈ l, key a ∉ seen ∧ check a = .ok () := by
  induction l generalizing seen with
  | nil => simp only [foldlM_nil, map_nil, nodup_nil, not_mem_nil, false_implies, implies_true,
      and_self, iff_true]; exact ⟨seen, rfl⟩
  | cons a l ih =>
    rw [foldlM_cons, map_cons, nodup_cons, forall_mem_cons]
    by_cases hseen : key a ∈ seen
    · -- a key seen before stops the loop
      simp [hseen, throw, throwThe, MonadExceptOf.throw, bind, Except.bind]
    · cases hcheck : check a with
      | error e => simp [hseen, bind, Except.bind]
      | ok u =>
        -- the first step passes and adds its key; the rest is the loop from there
        simp only [hseen, if_false, Except.ok_bind, pure_bind] at ih ⊢
        rw [ih]
        simp only [mem_cons, not_or, mem_map, not_exists, not_and, not_false_eq_true, and_true,
          true_and]
        constructor
        · rintro ⟨hnodup, hl⟩
          exact ⟨⟨fun b hb hba => (hl b hb).1.1 hba, hnodup⟩, fun b hb => ⟨(hl b hb).1.2, (hl b hb).2⟩⟩
        · rintro ⟨⟨hnew, hnodup⟩, hl⟩
          exact ⟨hnodup, fun b hb => ⟨⟨hnew b hb, (hl b hb).1⟩, (hl b hb).2⟩⟩

end Seen

section Pair

theorem foldlM_option_pair {σ τ : Type} (f : σ → α → Option σ) (g : τ → α → τ) (l : List α)
    (s : σ) (t : τ) :
    l.foldlM (fun acc a => (f acc.1 a).map fun s' => (s', g acc.2 a)) (s, t) =
      (l.foldlM f s).map fun s' => (s', l.foldl g t) := by
  induction l generalizing s t with
  | nil => rfl
  | cons a l ih =>
    rw [foldlM_cons, foldlM_cons, foldl_cons]
    cases f s a with
    | none => rfl
    | some s' => exact ih s' (g t a)

end Pair

section Update

variable [DecidableEq κ] (w : α → κ) (g : α → β → β)

theorem foldl_update_apply_of_forall_ne {l : List α} {k : κ} (hk : ∀ a ∈ l, w a ≠ k)
    (y : κ → β) : l.foldl (fun y a => Function.update y (w a) (g a (y (w a)))) y k = y k := by
  induction l generalizing y with
  | nil => rfl
  | cons a l ih =>
    rw [foldl_cons, ih (fun b hb => hk b (mem_cons_of_mem a hb)),
      Function.update_of_ne (hk a mem_cons_self).symm]

theorem foldl_update_apply_of_nodup {l : List α} (hl : (l.map w).Nodup) {a : α} (ha : a ∈ l)
    (y : κ → β) :
    l.foldl (fun y a => Function.update y (w a) (g a (y (w a)))) y (w a) = g a (y (w a)) := by
  induction l generalizing y with
  | nil => exact absurd ha not_mem_nil
  | cons b l ih =>
    rw [map_cons, nodup_cons] at hl
    obtain ⟨hb, hl⟩ := hl
    rw [foldl_cons]
    rcases mem_cons.1 ha with rfl | ha
    · have hne : ∀ c ∈ l, w c ≠ w a := fun c hc h => hb (h ▸ mem_map_of_mem hc)
      rw [foldl_update_apply_of_forall_ne w g hne, Function.update_self]
    · have hne : w b ≠ w a := fun h => hb (h ▸ mem_map_of_mem ha)
      rw [ih hl ha, Function.update_of_ne hne.symm]

end Update

end List
