import Mathlib

namespace Sdk

-- The SDK's fixed-point decimal: an integer scaled by 10^18. Every operation that can leave
-- the 315-bit range panics; here that is `none`.
structure Dec where
  i : Int
  deriving DecidableEq

def precisionReuse : Int := 1000000000000000000

-- `maxDecBitLen`, which is `MaxBitLen + decimalTruncateBits`: 256 bits and the 59 a truncation
-- always removes.
def maxDecBitLen : Nat := 315

namespace Dec

def zero : Dec := ⟨0⟩

def one : Dec := ⟨precisionReuse⟩

def ofInt (n : Int) : Dec := ⟨n * precisionReuse⟩

-- `NewDecWithPrec(n, prec)`: n · 10^-prec, for `prec ≤ 18`.
def withPrec (n : Int) (prec : Nat) : Dec := ⟨n * 10 ^ (18 - prec)⟩

instance : LT Dec := ⟨fun a b => a.i < b.i⟩
instance : LE Dec := ⟨fun a b => a.i ≤ b.i⟩

instance (a b : Dec) : Decidable (a < b) := inferInstanceAs (Decidable (a.i < b.i))
instance (a b : Dec) : Decidable (a ≤ b) := inferInstanceAs (Decidable (a.i ≤ b.i))

def isPositive (d : Dec) : Bool := decide (0 < d.i)

def isZero (d : Dec) : Bool := d.i == 0

def isNegative (d : Dec) : Bool := decide (d.i < 0)

-- `String`, which `fmt` also uses for `%d` and `%s`: the digits of the magnitude with a point
-- eighteen places from the right, padded to `0.` and zeros when there are no more digits than that.
def toString (d : Dec) : String :=
  let digits := (Nat.repr d.i.natAbs).toList
  let body :=
    if digits.length ≤ 18 then
      "0." ++ String.ofList (List.replicate (18 - digits.length) '0' ++ digits)
    else
      String.ofList (digits.take (digits.length - 18)) ++ "." ++
        String.ofList (digits.drop (digits.length - 18))
  if d.isNegative then "-" ++ body else body

example : (withPrec 189 4).toString = "0.018900000000000000" := by decide

-- A result the SDK accepts: its bit length is at most `maxDecBitLen`, that is, nothing is left
-- of it once shifted right by that many bits.
def fits (n : Int) : Bool := n.natAbs >>> maxDecBitLen == 0

def checked (n : Int) : Option Dec := if fits n then some ⟨n⟩ else none

-- `chopPrecisionAndRound`: divide by 10^18 and round half to even, symmetrically in the sign.
def chopNat (n : Nat) : Nat :=
  let q := n / 1000000000000000000
  let r := n % 1000000000000000000
  if r < 500000000000000000 then q
  else if 500000000000000000 < r then q + 1
  else if q % 2 = 0 then q else q + 1

def chopPrecisionAndRound (d : Int) : Int :=
  if d < 0 then -((chopNat d.natAbs : Nat) : Int) else (chopNat d.natAbs : Int)

def add (a b : Dec) : Option Dec := checked (a.i + b.i)

def sub (a b : Dec) : Option Dec := checked (a.i - b.i)

def mul (a b : Dec) : Option Dec := checked (chopPrecisionAndRound (a.i * b.i))

-- `Quo`: scale twice, divide with big.Int truncation, then round away one scale.
def quo (a b : Dec) : Option Dec :=
  if b.i = 0 then none
  else checked (chopPrecisionAndRound ((a.i * precisionReuse * precisionReuse).tdiv b.i))

def mulInt64 (a : Dec) (n : Int) : Option Dec := checked (a.i * n)

-- `QuoInt64`: big.Int truncation, which never grows the value.
def quoInt64 (a : Dec) (n : Int) : Option Dec :=
  if n = 0 then none else some ⟨a.i.tdiv n⟩

def roundInt (a : Dec) : Int := chopPrecisionAndRound a.i

@[simp] theorem lt_iff (a b : Dec) : a < b ↔ a.i < b.i := Iff.rfl

@[simp] theorem le_iff (a b : Dec) : a ≤ b ↔ a.i ≤ b.i := Iff.rfl

@[simp] theorem isPositive_iff (d : Dec) : d.isPositive = true ↔ 0 < d.i := by
  simp [isPositive]

@[simp] theorem isNegative_iff (d : Dec) : d.isNegative = true ↔ d.i < 0 := by
  simp [isNegative]

theorem checked_eq_some {n : Int} {d : Dec} (h : checked n = some d) : d.i = n := by
  unfold checked at h
  split at h
  · cases h
    rfl
  · cases h

theorem chopNat_mul_scale (n : Nat) : chopNat (n * 1000000000000000000) = n := by
  simp [chopNat]

end Dec

end Sdk
