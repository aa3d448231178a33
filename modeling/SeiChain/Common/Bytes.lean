import Mathlib

namespace SeiChain

abbrev Bytes := List UInt8

-- `b` cropped from the left or padded with zeros on the left to exactly `n` bytes, as
-- go-ethereum's `SetBytes` fills a fixed-size array.
def fixedBytes (n : Nat) (b : Bytes) : Bytes :=
  (List.replicate (n - b.length) 0 ++ b).drop (b.length - n)

theorem length_fixedBytes (n : Nat) (b : Bytes) : (fixedBytes n b).length = n := by
  simp only [fixedBytes, List.length_drop, List.length_append, List.length_replicate]
  omega

-- `common.Address`: twenty bytes.
structure Address where
  bytes : Bytes
  length_bytes : bytes.length = 20
  deriving DecidableEq

-- `common.Hash`: thirty-two bytes.
structure Hash where
  bytes : Bytes
  length_bytes : bytes.length = 32
  deriving DecidableEq

-- `sdk.AccAddress` is a plain byte slice (twenty bytes for keys, thirty-two for contracts).
abbrev AccAddress := Bytes

def bytesToAddress (b : Bytes) : Address := ⟨fixedBytes 20 b, length_fixedBytes 20 b⟩

def bytesToHash (b : Bytes) : Hash := ⟨fixedBytes 32 b, length_fixedBytes 32 b⟩

theorem fixedBytes_of_length {n : Nat} {b : Bytes} (h : b.length = n) : fixedBytes n b = b := by
  simp [fixedBytes, h]

@[simp] theorem bytesToAddress_bytes (a : Address) : bytesToAddress a.bytes = a := by
  cases a with
  | mk bytes h => simp [bytesToAddress, fixedBytes_of_length h]

theorem Address.bytes_injective : Function.Injective Address.bytes := by
  rintro ⟨a, _⟩ ⟨b, _⟩ h
  cases h
  rfl

def Hash.zero : Hash := ⟨List.replicate 32 0, by simp⟩

def putUint64 (n : UInt64) : Bytes :=
  (List.range 8).reverse.map fun i => (n >>> (8 * i).toUInt64).toUInt8

-- `binary.BigEndian.Uint64`, which reads the first eight bytes.
def getUint64 (b : Bytes) : UInt64 :=
  (b.take 8).foldl (fun acc byte => acc * 256 + byte.toUInt64) 0

end SeiChain
