import Mathlib

namespace PEquiv

variable {α β : Type} [DecidableEq α]

def insert [DecidableEq β] (f : α ≃. β) (a : α) (b : β) (ha : f a = none)
    (hb : f.symm b = none) : α ≃. β where
  toFun := Function.update f a (some b)
  invFun := Function.update f.symm b (some a)
  inv x y := by
    simp only [Function.update_apply]
    by_cases hx : x = a <;> by_cases hy : y = b
    · simp [hx, hy]
    · -- `a` had no partner, so no `y` maps back to it
      subst hx
      simp only [hy, if_false, if_true, Option.some.injEq]
      rw [f.eq_some_iff, ha]
      simp [Ne.symm hy]
    · subst hy
      simp only [hx, if_false, if_true, Option.some.injEq]
      rw [← f.eq_some_iff, hb]
      simp [Ne.symm hx]
    · simp only [hx, hy, if_false]
      exact f.mem_iff_mem

def erase (f : α ≃. β) (a : α) : α ≃. β where
  toFun := Function.update f a none
  invFun y := (f.symm y).filter (· != a)
  inv x y := by
    simp only [Function.update_apply, Option.filter_eq_some_iff, bne_iff_ne]
    by_cases hx : x = a
    · simp [hx]
    · simp only [hx, if_false, ne_eq, not_false_eq_true, and_true]
      exact f.eq_some_iff

section

variable (f : α ≃. β) (a x : α) (b y : β)

@[simp] theorem insert_apply [DecidableEq β] (ha hb) :
    f.insert a b ha hb x = Function.update f a (some b) x := rfl

@[simp] theorem symm_insert_apply [DecidableEq β] (ha hb) :
    (f.insert a b ha hb).symm y = Function.update f.symm b (some a) y := rfl

@[simp] theorem erase_apply : f.erase a x = Function.update f a none x := rfl

@[simp] theorem symm_erase_apply : (f.erase a).symm y = (f.symm y).filter (· != a) := rfl

end

theorem symm_erase_apply_of_eq [DecidableEq β] {f : α ≃. β} {a : α} {b : β} (h : f a = some b)
    (y : β) : (f.erase a).symm y = Function.update f.symm b none y := by
  rw [symm_erase_apply, Function.update_apply]
  by_cases hy : y = b
  · subst hy
    simp [f.eq_some_iff.2 h]
  · -- another `y` cannot map back to `a`, whose partner is `b`
    have hya : f.symm y ≠ some a := fun h' =>
      hy (Option.some.inj ((f.eq_some_iff.1 h').symm.trans h))
    rw [if_neg hy]
    cases hfy : f.symm y with
    | none => rfl
    | some x =>
      have hxa : x ≠ a := fun hx => hya (hx ▸ hfy)
      simp [hxa]

end PEquiv
