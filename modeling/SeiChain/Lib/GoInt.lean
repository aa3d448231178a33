import Mathlib

namespace GoInt

def maxInt64 : Int := 2 ^ 63 - 1

-- `int64(x)` of a `uint64`: the same bits read in two's complement.
def toInt64 (x : Nat) : Int :=
  if x % 2 ^ 64 < 2 ^ 63 then ((x % 2 ^ 64 : Nat) : Int) else ((x % 2 ^ 64 : Nat) : Int) - 2 ^ 64

def toUint64 (x : Int) : Nat := (x % 2 ^ 64).toNat

def addUint64 (a b : Nat) : Nat := (a + b) % 2 ^ 64

@[simp] theorem toInt64_of_lt {x : Nat} (h : x < 2 ^ 63) : toInt64 x = x := by
  have hx : x % 2 ^ 64 = x := Nat.mod_eq_of_lt (by omega)
  unfold toInt64
  rw [hx, if_pos h]

theorem toInt64_neg_iff {x : Nat} (h : x < 2 ^ 64) : toInt64 x < 0 ↔ 2 ^ 63 ≤ x := by
  have hx : x % 2 ^ 64 = x := Nat.mod_eq_of_lt h
  unfold toInt64
  rw [hx]
  split_ifs <;> omega

@[simp] theorem toUint64_of_nonneg {x : Int} (h : 0 ≤ x) (hx : x < 2 ^ 64) : (toUint64 x : Int) = x := by
  have hmod : x % 2 ^ 64 = x := Int.emod_eq_of_lt h hx
  rw [toUint64, hmod, Int.toNat_of_nonneg h]

theorem toInt64_ne_zero {x : Nat} (h : x < 2 ^ 64) (hx : x ≠ 0) : toInt64 x ≠ 0 := by
  have hmod : x % 2 ^ 64 = x := Nat.mod_eq_of_lt h
  unfold toInt64
  rw [hmod]
  split_ifs <;> omega

theorem addUint64_of_lt {a b : Nat} (h : a + b < 2 ^ 64) : addUint64 a b = a + b :=
  Nat.mod_eq_of_lt h

theorem addUint64_lt (a b : Nat) : addUint64 a b < 2 ^ 64 :=
  Nat.mod_lt _ (by decide)

end GoInt
