import SeiChain.Evm.Bloom

namespace SeiChain.Rpc

open Evm

def bitMasks : List UInt8 := [1, 2, 4, 8, 16, 32, 64, 128]

-- `calcBloomIndexes`: for `i` in 0, 1, 2, `(uint(b[2*i])<<8)&2047 + uint(b[2*i+1])` of the
-- Keccak-256 hash.
def calcBloomIndexes (keccak256 : Bytes → Hash) (b : Bytes) : List Nat :=
  let b := (keccak256 b).bytes
  [0, 1, 2].map fun i => (((b.getD (2 * i) 0).toNat <<< 8) &&& 2047) + (b.getD (2 * i + 1) 0).toNat

-- `EncodeFilters`: one rule for the addresses when there are any, then one per topic position;
-- the `1 + len(topics)` empty rules it starts with and the wildcard positions are left out.
-- No clause is nil: an address or a hash always gives its bytes.
def encodeFilters (keccak256 : Bytes → Hash) (addresses : List Address) (topics : List (List Hash)) :
    List (List (List Nat)) :=
  let filters : List (List Bytes) :=
    List.replicate (1 + topics.length) [] ++
      (if addresses.isEmpty then [] else [addresses.map Address.bytes]) ++
      topics.map (·.map Hash.bytes)
  filters.filterMap fun filter =>
    if filter.isEmpty then none else some (filter.map (calcBloomIndexes keccak256))

-- `matchBloomIndexes`: every bit's byte `bloom[BloomByteLength-1-bit/8]` has `BitMasks[bit%8]`.
def matchBloomIndexes (bloom : Bytes) (idx : List Nat) : Bool :=
  idx.all fun bit => (bloom.getD (bloomByteLength - 1 - bit / 8) 0 &&& bitMasks.getD (bit % 8) 0) != 0

def matchFilter (bloom : Bytes) (filter : List (List Nat)) : Bool :=
  filter.any (matchBloomIndexes bloom)

def matchFilters (bloom : Bytes) (filters : List (List (List Nat))) : Bool :=
  filters.all (matchFilter bloom)

theorem toNat_bitMasks {j : Nat} (hj : j < 8) : (bitMasks.getD j 0).toNat = 2 ^ j := by
  have hmasks : ∀ j < 8, (bitMasks.getD j 0).toNat = 2 ^ j := by decide
  exact hmasks j hj

theorem and_two_pow_ne_zero_iff (n i : Nat) : n &&& 2 ^ i ≠ 0 ↔ n.testBit i = true := by
  constructor
  · intro h
    by_contra hbit
    apply h
    apply Nat.eq_of_testBit_eq
    intro j
    rw [Nat.testBit_and, Nat.testBit_two_pow, Nat.zero_testBit]
    by_cases hij : i = j
    · subst hij
      simpa using hbit
    · simp [hij]
  · intro hbit h
    have hi := congrArg (Nat.testBit · i) h
    simp [Nat.testBit_and, Nat.testBit_two_pow_self, hbit] at hi

theorem calcBloomIndexes_eq (keccak256 : Bytes → Hash) (b : Bytes) :
    calcBloomIndexes keccak256 b = bloomBits (keccak256 b) := by
  have hpair : ∀ hi lo : UInt8, ((hi.toNat <<< 8) &&& 2047) + lo.toNat = (hi.toNat * 256 + lo.toNat) % 2048 := by
    intro hi lo
    have hlo := lo.toNat_lt
    rw [Nat.shiftLeft_eq, show (2047 : Nat) = 2 ^ 11 - 1 from rfl, Nat.and_two_pow_sub_one_eq_mod]
    omega
  simp only [calcBloomIndexes, bloomBits, List.map_cons, List.map_nil, hpair]

theorem matchBloomIndexes_iff (bloom : Bytes) (idx : List Nat) :
    matchBloomIndexes bloom idx = true ↔ ∀ bit ∈ idx, bloomTestBit bloom bit = true := by
  unfold matchBloomIndexes bloomTestBit
  simp only [List.all_eq_true, bne_iff_ne, ne_eq]
  refine forall₂_congr fun bit _ => ?_
  have hj : bit % 8 < 8 := Nat.mod_lt _ (by decide)
  rw [← UInt8.toNat_inj, UInt8.toNat_and, toNat_bitMasks hj, UInt8.toNat_zero]
  exact and_two_pow_ne_zero_iff _ _

def BloomHas (keccak256 : Bytes → Hash) (bloom : Bytes) (d : Bytes) : Prop :=
  ∀ bit ∈ bloomBits (keccak256 d), bloomTestBit bloom bit = true

-- The filters of criteria match a bloom that has some address, when there are any, and some
-- value of every non-empty topic position.
theorem matchFilters_encodeFilters {keccak256 : Bytes → Hash} {bloom : Bytes}
    {addresses : List Address} {topics : List (List Hash)}
    (haddr : addresses ≠ [] → ∃ a ∈ addresses, BloomHas keccak256 bloom a.bytes)
    (htopics : ∀ topicList ∈ topics, topicList ≠ [] → ∃ t ∈ topicList, BloomHas keccak256 bloom t.bytes) :
    matchFilters bloom (encodeFilters keccak256 addresses topics) = true := by
  -- a rule of values matches when one of its values' bits are all set
  have hrule : ∀ values : List Bytes, (∃ d ∈ values, BloomHas keccak256 bloom d) →
      matchFilter bloom (values.map (calcBloomIndexes keccak256)) = true := by
    rintro values ⟨d, hd, hbits⟩
    simp only [matchFilter, List.any_map, List.any_eq_true, Function.comp_apply]
    exact ⟨d, hd, (matchBloomIndexes_iff _ _).2 (by rw [calcBloomIndexes_eq]; exact hbits)⟩
  simp only [matchFilters, encodeFilters, List.all_eq_true, List.mem_filterMap]
  rintro filter ⟨values, hvalues, hfilter⟩
  split_ifs at hfilter with hempty
  cases hfilter
  simp only [List.mem_append, List.mem_replicate, List.mem_map] at hvalues
  rcases hvalues with ((⟨-, rfl⟩ | hvalues) | ⟨topicList, htopic, rfl⟩)
  · simp at hempty
  · -- the address rule, present only when there are addresses
    split_ifs at hvalues with haddrs
    · cases hvalues
    · rw [List.mem_singleton] at hvalues
      subst hvalues
      obtain ⟨a, ha, hbits⟩ := haddr (by simpa using haddrs)
      exact hrule _ ⟨a.bytes, List.mem_map_of_mem ha, hbits⟩
  · obtain ⟨t, ht, hbits⟩ := htopics topicList htopic (by simpa using hempty)
    exact hrule _ ⟨t.bytes, List.mem_map_of_mem ht, hbits⟩

end SeiChain.Rpc
