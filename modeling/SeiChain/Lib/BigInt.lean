import Mathlib

namespace BigInt

-- `x.BitLen()`: the bit length of the absolute value.
def bitLen (x : Int) : Nat := x.natAbs.size

theorem bitLen_le_iff {x : Int} {n : Nat} : bitLen x ≤ n ↔ x.natAbs < 2 ^ n := Nat.size_le

def bytes (x : Int) : List UInt8 := ((Nat.digits 256 x.natAbs).map Nat.toUInt8).reverse

def setBytes (b : List UInt8) : Nat := b.foldl (fun acc byte => acc * 256 + byte.toNat) 0

@[simp] theorem setBytes_nil : setBytes [] = 0 := rfl

theorem foldr_digits_eq_ofDigits :
    ∀ {l : List Nat}, (∀ d ∈ l, d < 256) →
      (l.map Nat.toUInt8).foldr (fun byte acc => acc * 256 + byte.toNat) 0 = Nat.ofDigits 256 l
  | [], _ => rfl
  | d :: l, h => by
    have hd : (Nat.toUInt8 d).toNat = d := by
      have := h d List.mem_cons_self
      simp
      omega
    rw [List.map_cons, List.foldr_cons, Nat.ofDigits_cons,
      foldr_digits_eq_ofDigits fun e he => h e (List.mem_cons_of_mem d he), hd]
    ring

theorem setBytes_bytes (x : Int) : setBytes (bytes x) = x.natAbs := by
  unfold setBytes bytes
  rw [List.foldl_reverse,
    foldr_digits_eq_ofDigits fun d hd => Nat.digits_lt_base (by decide) hd, Nat.ofDigits_digits]

end BigInt
