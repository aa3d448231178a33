import SeiChain.Evm.State.Temporary

namespace SeiChain.Evm

open State

def bloomByteLength : Nat := 256

-- `bloomValues`: for the byte pairs at 0, 2 and 4 of the hash, the byte
-- `BloomByteLength - (BigEndian.Uint16(pair) & 0x7ff) >> 3 - 1` and the mask
-- `1 << (second byte & 0x7)`.
def bloomValues (hashbuf : Hash) : List (Nat × UInt8) :=
  [0, 2, 4].map fun k =>
    let hi := hashbuf.bytes.getD k 0
    let lo := hashbuf.bytes.getD (k + 1) 0
    (bloomByteLength - (hi.toNat * 256 + lo.toNat) % 2048 / 8 - 1, (1 : UInt8) <<< (lo &&& 7))

def orMasks (bloom : Bytes) (ivs : List (Nat × UInt8)) : Bytes :=
  ivs.foldl (fun bloom iv => bloom.modify iv.1 (· ||| iv.2)) bloom

def Bloom.add (keccak256 : Bytes → Hash) (bloom : Bytes) (d : Bytes) : Bytes :=
  orMasks bloom (bloomValues (keccak256 d))

def Bloom.addLog (keccak256 : Bytes → Hash) (bloom : Bytes) (l : Log) : Bytes :=
  l.topics.foldl (fun bloom t => Bloom.add keccak256 bloom t.bytes)
    (Bloom.add keccak256 bloom l.address.bytes)

def createBloom (keccak256 : Bytes → Hash) (logs : List Log) : Bytes :=
  logs.foldl (Bloom.addLog keccak256) (List.replicate bloomByteLength 0)

def bloomBits (hashbuf : Hash) : List Nat :=
  [0, 2, 4].map fun k => ((hashbuf.bytes.getD k 0).toNat * 256 + (hashbuf.bytes.getD (k + 1) 0).toNat) % 2048

def bloomTestBit (bloom : Bytes) (bit : Nat) : Bool :=
  (bloom.getD (bloomByteLength - 1 - bit / 8) 0).toNat.testBit (bit % 8)

theorem toNat_one_shiftLeft (s : UInt8) : ((1 : UInt8) <<< (s &&& 7)).toNat = 2 ^ (s.toNat % 8) := by
  have hs : (s &&& 7).toNat = s.toNat % 8 := by
    rw [UInt8.toNat_and, show (7 : UInt8).toNat = 2 ^ 3 - 1 from rfl, Nat.and_two_pow_sub_one_eq_mod]
  have hlt : s.toNat % 8 < 8 := Nat.mod_lt _ (by decide)
  rw [UInt8.toNat_shiftLeft, hs, Nat.mod_eq_of_lt hlt, Nat.shiftLeft_eq, UInt8.toNat_one, Nat.one_mul]
  exact Nat.mod_eq_of_lt (Nat.pow_lt_pow_right (by decide) hlt)

theorem bloomBits_subset_bloomValues {hashbuf : Hash} {bit : Nat} (h : bit ∈ bloomBits hashbuf) :
    ∃ iv ∈ bloomValues hashbuf, iv.1 = bloomByteLength - 1 - bit / 8 ∧ iv.2.toNat = 2 ^ (bit % 8) := by
  simp only [bloomBits, List.mem_map] at h
  obtain ⟨k, hk, rfl⟩ := h
  refine ⟨_, List.mem_map_of_mem hk, by simp only [bloomByteLength]; omega, ?_⟩
  rw [toNat_one_shiftLeft]
  congr 1
  omega

section Bits

variable {bloom : Bytes}

theorem bloomTestBit_modify_or {bit : Nat} (h : bloomTestBit bloom bit = true) (i : Nat) (v : UInt8) :
    bloomTestBit (bloom.modify i (· ||| v)) bit = true := by
  unfold bloomTestBit at h ⊢
  rw [List.getD_eq_getElem?_getD, List.getElem?_modify]
  rw [List.getD_eq_getElem?_getD] at h
  cases hb : bloom[bloomByteLength - 1 - bit / 8]? with
  | none => simp [hb] at h
  | some b =>
    simp only [hb, Option.getD_some, Option.map_eq_map, Option.map_some] at h ⊢
    split_ifs
    · rw [UInt8.toNat_or, Nat.testBit_or, h, Bool.true_or]
    · exact h

theorem bloomTestBit_modify_or_self {bit : Nat} (hlen : bloomByteLength - 1 - bit / 8 < bloom.length)
    (v : UInt8) (hv : v.toNat = 2 ^ (bit % 8)) :
    bloomTestBit (bloom.modify (bloomByteLength - 1 - bit / 8) (· ||| v)) bit = true := by
  unfold bloomTestBit
  rw [List.getD_eq_getElem?_getD, List.getElem?_modify, List.getElem?_eq_getElem hlen]
  simp only [Option.map_eq_map, Option.map_some, if_true, Option.getD_some]
  rw [UInt8.toNat_or, Nat.testBit_or, hv, Nat.testBit_two_pow_self, Bool.or_true]

end Bits

theorem length_orMasks (bloom : Bytes) (ivs : List (Nat × UInt8)) :
    (orMasks bloom ivs).length = bloom.length := by
  induction ivs generalizing bloom with
  | nil => rfl
  | cons iv ivs ih => rw [orMasks, List.foldl_cons, ← orMasks, ih, List.length_modify]

theorem bloomTestBit_orMasks {bloom : Bytes} {bit : Nat} (h : bloomTestBit bloom bit = true)
    (ivs : List (Nat × UInt8)) : bloomTestBit (orMasks bloom ivs) bit = true := by
  induction ivs generalizing bloom with
  | nil => exact h
  | cons iv ivs ih =>
    rw [orMasks, List.foldl_cons, ← orMasks]
    exact ih (bloomTestBit_modify_or h iv.1 iv.2)

theorem length_bloomAdd (keccak256 : Bytes → Hash) (bloom d : Bytes) :
    (Bloom.add keccak256 bloom d).length = bloom.length :=
  length_orMasks _ _

theorem bloomTestBit_bloomAdd_of_bloomTestBit {keccak256 : Bytes → Hash} {bloom : Bytes} {bit : Nat}
    (h : bloomTestBit bloom bit = true) (d : Bytes) :
    bloomTestBit (Bloom.add keccak256 bloom d) bit = true :=
  bloomTestBit_orMasks h _

theorem bloomTestBit_bloomAdd_self {keccak256 : Bytes → Hash} {bloom : Bytes}
    (hlen : bloom.length = bloomByteLength) (d : Bytes) :
    ∀ bit ∈ bloomBits (keccak256 d), bloomTestBit (Bloom.add keccak256 bloom d) bit = true := by
  intro bit hbit
  obtain ⟨iv, hiv, hbyte, hmask⟩ := bloomBits_subset_bloomValues hbit
  -- the masks before the bit's keep the length, its own sets the bit, the ones after keep it
  obtain ⟨front, back, hsplit⟩ := List.append_of_mem hiv
  have hfront : (orMasks bloom front).length = bloomByteLength := by
    rw [length_orMasks, hlen]
  have hset : bloomTestBit ((orMasks bloom front).modify iv.1 (· ||| iv.2)) bit = true := by
    rw [hbyte]
    exact bloomTestBit_modify_or_self (by rw [hfront]; simp only [bloomByteLength]; omega) iv.2 hmask
  rw [Bloom.add, hsplit, orMasks, List.foldl_append, List.foldl_cons, ← orMasks, ← orMasks]
  exact bloomTestBit_orMasks hset back

section Logs

variable {keccak256 : Bytes → Hash}

theorem length_foldl_bloomAdd (bloom : Bytes) (ts : List Hash) :
    (ts.foldl (fun bloom t => Bloom.add keccak256 bloom t.bytes) bloom).length = bloom.length := by
  induction ts generalizing bloom with
  | nil => rfl
  | cons t ts ih => rw [List.foldl_cons, ih, length_bloomAdd]

theorem bloomTestBit_foldl_bloomAdd {bloom : Bytes} {bit : Nat} (h : bloomTestBit bloom bit = true)
    (ts : List Hash) :
    bloomTestBit (ts.foldl (fun bloom t => Bloom.add keccak256 bloom t.bytes) bloom) bit = true := by
  induction ts generalizing bloom with
  | nil => exact h
  | cons t ts ih => exact ih (bloomTestBit_bloomAdd_of_bloomTestBit h t.bytes)

theorem length_addLog (bloom : Bytes) (l : Log) : (Bloom.addLog keccak256 bloom l).length = bloom.length := by
  rw [Bloom.addLog, length_foldl_bloomAdd, length_bloomAdd]

theorem bloomTestBit_addLog_of_bloomTestBit {bloom : Bytes} {bit : Nat} (h : bloomTestBit bloom bit = true)
    (l : Log) : bloomTestBit (Bloom.addLog keccak256 bloom l) bit = true :=
  bloomTestBit_foldl_bloomAdd (bloomTestBit_bloomAdd_of_bloomTestBit h _) _

theorem bloomTestBit_addLog_self {bloom : Bytes} (hlen : bloom.length = bloomByteLength) (l : Log)
    {d : Bytes} (hd : d = l.address.bytes ∨ ∃ t ∈ l.topics, d = t.bytes) :
    ∀ bit ∈ bloomBits (keccak256 d), bloomTestBit (Bloom.addLog keccak256 bloom l) bit = true := by
  intro bit hbit
  rcases hd with rfl | ⟨t, ht, rfl⟩
  · exact bloomTestBit_foldl_bloomAdd (bloomTestBit_bloomAdd_self hlen _ bit hbit) _
  · -- the topic's step sets the bit: the steps before keep the length, the ones after the bit
    obtain ⟨front, back, hsplit⟩ := List.append_of_mem ht
    have hfront : (front.foldl (fun bloom t => Bloom.add keccak256 bloom t.bytes)
        (Bloom.add keccak256 bloom l.address.bytes)).length = bloomByteLength := by
      rw [length_foldl_bloomAdd, length_bloomAdd, hlen]
    rw [Bloom.addLog, hsplit, List.foldl_append, List.foldl_cons]
    exact bloomTestBit_foldl_bloomAdd (bloomTestBit_bloomAdd_self hfront _ bit hbit) _

theorem length_createBloom (logs : List Log) : (createBloom keccak256 logs).length = bloomByteLength := by
  unfold createBloom
  suffices h : ∀ bloom : Bytes, (logs.foldl (Bloom.addLog keccak256) bloom).length = bloom.length by
    rw [h, List.length_replicate]
  intro bloom
  induction logs generalizing bloom with
  | nil => rfl
  | cons l logs ih => rw [List.foldl_cons, ih, length_addLog]

theorem bloomTestBit_createBloom {logs : List Log} {l : Log} (hl : l ∈ logs) {d : Bytes}
    (hd : d = l.address.bytes ∨ ∃ t ∈ l.topics, d = t.bytes) :
    ∀ bit ∈ bloomBits (keccak256 d), bloomTestBit (createBloom keccak256 logs) bit = true := by
  intro bit hbit
  obtain ⟨front, back, hsplit⟩ := List.append_of_mem hl
  have hmono : ∀ (rest : List Log) (bloom : Bytes), bloomTestBit bloom bit = true →
      bloomTestBit (rest.foldl (Bloom.addLog keccak256) bloom) bit = true := by
    intro rest
    induction rest with
    | nil => exact fun _ h => h
    | cons l' rest ih => exact fun bloom h => ih _ (bloomTestBit_addLog_of_bloomTestBit h l')
  have hfront : (front.foldl (Bloom.addLog keccak256) (List.replicate bloomByteLength 0)).length =
      bloomByteLength := by
    rw [← createBloom, length_createBloom]
  rw [createBloom, hsplit, List.foldl_append, List.foldl_cons]
  exact hmono back _ (bloomTestBit_addLog_self hfront l hd bit hbit)

end Logs

-- `SetBlockBloom`: the blooms of the block's transactions, `ethtypes.Bloom`s of
-- `BloomByteLength` bytes each, OR-ed byte by byte (`bitutil.ORBytes`) into as many zero bytes.
def setBlockBloom (blooms : List Bytes) : Bytes :=
  blooms.foldl (fun blockBloom bloom => List.zipWith (· ||| ·) blockBloom bloom)
    (List.replicate bloomByteLength 0)

theorem bloomTestBit_zipWith_or {x y : Bytes} (hlen : x.length = y.length) {bit : Nat}
    (h : bloomTestBit x bit = true ∨ bloomTestBit y bit = true) :
    bloomTestBit (List.zipWith (· ||| ·) x y) bit = true := by
  unfold bloomTestBit at h ⊢
  simp only [List.getD_eq_getElem?_getD, List.getElem?_zipWith] at h ⊢
  -- the bit's byte is in both blooms or in neither
  by_cases hi : bloomByteLength - 1 - bit / 8 < x.length
  · rw [List.getElem?_eq_getElem hi, List.getElem?_eq_getElem (hlen ▸ hi)] at h ⊢
    simp only [Option.getD_some] at h ⊢
    rw [UInt8.toNat_or, Nat.testBit_or, Bool.or_eq_true]
    exact h
  · have hy : ¬ bloomByteLength - 1 - bit / 8 < y.length := hlen ▸ hi
    rw [List.getElem?_eq_none (Nat.le_of_not_lt hi), List.getElem?_eq_none (Nat.le_of_not_lt hy)] at h
    simp at h

theorem bloomTestBit_setBlockBloom {blooms : List Bytes}
    (hlen : ∀ bloom ∈ blooms, bloom.length = bloomByteLength) {bloom : Bytes} (hb : bloom ∈ blooms)
    {bit : Nat} (h : bloomTestBit bloom bit = true) : bloomTestBit (setBlockBloom blooms) bit = true := by
  unfold setBlockBloom
  -- the running bloom keeps its length, and the bit once it has it
  suffices hrun : ∀ acc : Bytes, acc.length = bloomByteLength →
      (bloomTestBit acc bit = true ∨ bloom ∈ blooms) →
      bloomTestBit (blooms.foldl (fun blockBloom bloom => List.zipWith (· ||| ·) blockBloom bloom) acc) bit = true from
    hrun _ List.length_replicate (.inr hb)
  clear hb
  induction blooms with
  | nil => exact fun acc _ hacc => hacc.resolve_right List.not_mem_nil
  | cons b blooms ih =>
    intro acc hacc hbit
    have hb' : b.length = bloomByteLength := hlen b List.mem_cons_self
    rw [List.foldl_cons]
    refine ih (fun c hc => hlen c (List.mem_cons_of_mem b hc)) _
      (by rw [List.length_zipWith, hacc, hb', Nat.min_self]) ?_
    -- the bit is now set, or the bloom that has it is still to come
    by_cases hnext : bloom ∈ blooms
    · exact .inr hnext
    · left
      apply bloomTestBit_zipWith_or (hacc.trans hb'.symm)
      rcases hbit with hbit | hmem
      · exact .inl hbit
      · rcases List.mem_cons.1 hmem with rfl | hmem
        · exact .inr h
        · exact absurd hmem hnext

end SeiChain.Evm
