import GoEvm.Evm.Arith

/-! The memory handlers and the copies against the spec's byte-level meaning. `checkMemory`
only extends the memory with zero bytes, so a handler that passes it writes into a memory
that covers its range; `opMStore`'s limb loop writes the 32-byte big-endian encoding, which
`SetBytes` decodes; and `setBytes` writes the window of its source at the offset, extended
with zeros. A frame's memory is a Go slice, whose length is below `2⁶³`: the results assume
it below `2⁶⁴`, where the `uint64` length `checkMemory` compares is exact. -/
namespace GoEvm

/-! Byte strings. -/

theorem toUInt8_congr {a b : Nat} (h : a % 256 = b % 256) : a.toUInt8 = b.toUInt8 :=
  UInt8.toNat.inj h

/-- The spec's big-endian encoding of `v` in `n` bytes: its low `8n` bits, the most
significant byte first. -/
def beBytes : Nat → Nat → Bytes
  | 0, _ => []
  | n + 1, v => beBytes n (v / 256) ++ [v.toUInt8]

@[simp] theorem length_beBytes (n v : Nat) : (beBytes n v).length = n := by
  induction n generalizing v with
  | zero => rfl
  | succ n ih => rw [beBytes, List.length_append, ih]; rfl

theorem two_pow_eight_mul (b : Nat) : 2 ^ (8 * (b + 1)) = 256 * 2 ^ (8 * b) := by
  rw [Nat.mul_succ, Nat.pow_add, Nat.mul_comm]

/-- The high bytes of an encoding are the encoding of the value shifted down. -/
theorem beBytes_add (a b v : Nat) :
    beBytes (a + b) v = beBytes a (v / 2 ^ (8 * b)) ++ beBytes b v := by
  induction b generalizing v with
  | zero => simp [beBytes]
  | succ b ih =>
      rw [← Nat.add_assoc, beBytes, ih, beBytes, List.append_assoc, Nat.div_div_eq_div_mul,
        two_pow_eight_mul]

/-- An encoding in `b` bytes reads only the value modulo `2^(8b)`. -/
theorem beBytes_add_mul (b x y : Nat) : beBytes b (x + 2 ^ (8 * b) * y) = beBytes b x := by
  induction b generalizing x with
  | zero => rfl
  | succ b ih =>
      rw [beBytes, beBytes, two_pow_eight_mul, Nat.mul_assoc, Nat.add_mul_div_left _ _ (by decide),
        ih, toUInt8_congr (Nat.add_mul_mod_self_left _ _ _)]

theorem beBytes_zero (n : Nat) : beBytes n 0 = List.replicate n 0 := by
  induction n with
  | zero => rfl
  | succ n ih => rw [beBytes, Nat.zero_div, ih, ← List.append_replicate_replicate]; rfl

/-- `SetBytes` decodes the encoding. -/
theorem bytesToNat_beBytes : ∀ (n v : Nat), v < 2 ^ (8 * n) → bytesToNat (beBytes n v) = v
  | 0, v, h => by simp at h; simp [h, beBytes, bytesToNat]
  | n + 1, v, h => by
      have high : v / 256 < 2 ^ (8 * n) := by
        rw [two_pow_eight_mul] at h
        exact Nat.div_lt_of_lt_mul h
      rw [beBytes, bytesToNat, List.foldl_append, ← bytesToNat, bytesToNat_beBytes n _ high]
      show v / 256 * 256 + v % 256 = v
      omega

/-- The spec's write of `bytes` into `memory` at `o`: the bytes `[o, o + bytes.length)` are
replaced and the others kept. -/
def writeBytes (memory : Bytes) (o : Nat) (bytes : Bytes) : Bytes :=
  memory.take o ++ bytes ++ memory.drop (o + bytes.length)

section WriteBytes

variable {memory bytes : Bytes} {o : Nat}

theorem take_writeBytes {k : Nat} (below : k ≤ o) (covered : o ≤ memory.length) :
    (writeBytes memory o bytes).take k = memory.take k := by
  rw [writeBytes, List.append_assoc, List.take_append_of_le_length (by simp; omega),
    List.take_take, Nat.min_eq_left below]

theorem drop_writeBytes (covered : o ≤ memory.length) :
    (writeBytes memory o bytes).drop o = bytes ++ memory.drop (o + bytes.length) := by
  rw [writeBytes, List.append_assoc, List.drop_left' (by simp; omega)]

/-- A write is read back. -/
theorem writeBytes_read (covered : o ≤ memory.length) :
    ((writeBytes memory o bytes).drop o).take bytes.length = bytes := by
  rw [drop_writeBytes covered, List.take_left' rfl]

@[simp] theorem writeBytes_nil : writeBytes memory o [] = memory := by
  rw [writeBytes, List.append_nil, List.length_nil, Nat.add_zero, List.take_append_drop]

@[simp] theorem length_writeBytes (fits : o + bytes.length ≤ memory.length) :
    (writeBytes memory o bytes).length = memory.length := by
  simp only [writeBytes, List.length_append, List.length_take, List.length_drop]
  omega

end WriteBytes

/-- The spec's copy source: bytes `[d, d + n)` of `source` extended with zeros, and zeros
for an offset of `2⁶⁴` or more. -/
def window (source : Bytes) (d n : Nat) : Bytes :=
  if 2 ^ 64 ≤ d then List.replicate n 0 else (source.drop d ++ List.replicate n 0).take n

@[simp] theorem length_window (source : Bytes) (d n : Nat) : (window source d n).length = n := by
  unfold window
  split <;> simp

/-- A window at or past the end of the source is zeros. -/
theorem window_of_length_le {source : Bytes} {d : Nat} (n : Nat) (past : source.length ≤ d) :
    window source d n = List.replicate n 0 := by
  unfold window
  split
  · rfl
  · rw [List.drop_eq_nil_of_le past, List.nil_append, List.take_replicate, Nat.min_self]

theorem window_eq {source : Bytes} {d : Nat} (n : Nat) (low : d < 2 ^ 64) :
    window source d n =
      (source.drop d).take n ++ List.replicate (n - min n (source.length - d)) 0 := by
  rw [window, if_neg (by omega), List.take_append_eq_append_take, List.take_replicate,
    List.length_drop]
  congr 2
  omega

namespace Evm

/-! The slice operations. -/

/-- `copy` of bytes that fit is the spec's write. -/
theorem copyAt_eq {dst src : Bytes} {o : Nat} (fits : o + src.length ≤ dst.length) :
    copyAt dst o src = writeBytes dst o src := by
  rw [copyAt, writeBytes, List.take_of_length_le (show src.length ≤ dst.length - o by omega)]

theorem sliceFrom_of_le {s : Bytes} {lo : Nat} (within : lo ≤ s.length) :
    sliceFrom s lo = .ok (s.drop lo) :=
  if_pos within

theorem slice_of_le {s : Bytes} {lo hi : Nat} (le : lo ≤ hi) (within : hi ≤ s.length) :
    slice s lo hi = .ok ((s.drop lo).take (hi - lo)) :=
  if_pos ⟨le, within⟩

/-- The part of the input `setBytes` copies. -/
theorem take_drop_min (input : Bytes) (d n : Nat) :
    (input.drop (min d input.length)).take (min n (input.length - d)) = (input.drop d).take n := by
  by_cases le : d ≤ input.length
  · rw [Nat.min_eq_left le, List.take_eq_take, List.length_drop]
    omega
  · rw [Nat.min_eq_right (show input.length ≤ d by omega), List.drop_length,
      List.drop_eq_nil_of_le (by omega), List.take_nil, List.take_nil]

/-- `setBytes` into a buffer of at least `size` bytes writes the window of the input at the
offset and keeps the rest of the buffer. -/
theorem setBytes_eq {dst input : Bytes} {size : Uint64} {d : Int} (word : IsWord d)
    (room : size.toNat ≤ dst.length) :
    setBytes dst input size d = .ok (window input d.toNat size.toNat ++ dst.drop size.toNat) := by
  unfold setBytes
  by_cases high : 2 ^ 64 ≤ d
  · have outside : isUint64 d = false := by simp [isUint64]; omega
    rw [if_pos (by simp [outside]), setBytes.fill, if_pos (by omega), window, if_pos (by omega),
      List.take_zero, List.nil_append, Nat.zero_add]
    rfl
  · have inside : isUint64 d = true := by simp [isUint64]; have := word.1; omega
    have rest : input.length - min d.toNat input.length = input.length - d.toNat := by omega
    rw [if_neg (by simp [inside]), uint64_toNat_of_lt word (by omega), window_eq _ (by omega)]
    dsimp only
    rw [rest, take_drop_min]
    set q := min size.toNat (input.length - d.toNat) with hq
    set part := (input.drop d.toNat).take size.toNat
    have copied : part.length = q := by simp [part, hq]
    have copiedIn : (if 0 < q then copyAt dst 0 part else dst) = part ++ dst.drop q := by
      split
      · rw [copyAt_eq (by omega), writeBytes, List.take_zero, List.nil_append, Nat.zero_add,
          copied]
      · rw [show q = 0 by omega, List.eq_nil_of_length_eq_zero (copied.trans (by omega))]
        rfl
    rw [copiedIn]
    by_cases filling : 0 < size.toNat - q
    · rw [if_pos filling, setBytes.fill, if_pos (by simp; omega), List.take_left' copied,
        List.drop_append_eq_append_drop, List.drop_eq_nil_of_le (by omega), List.nil_append,
        List.drop_drop, copied]
      congr 3
      omega
    · rw [if_neg filling, show size.toNat - q = 0 by omega, List.replicate_zero, List.append_nil,
        show q = size.toNat by omega]
      rfl

/-! The limbs of `(*big.Int).Bits()` and the limb loop of `opMStore`. -/

theorem two_pow_sixty_four_mul (k : Nat) : 2 ^ (64 * (k + 1)) = 2 ^ 64 * 2 ^ (64 * k) := by
  rw [Nat.mul_succ, Nat.pow_add, Nat.mul_comm]

theorem lt_limbs : ∀ {fuel n : Nat}, n ≤ fuel → n < 2 ^ (64 * (limbs fuel n).length)
  | 0, n, h => by rw [Nat.le_zero.mp h]; exact Nat.two_pow_pos _
  | fuel + 1, n, h => by
      unfold limbs
      split
      · rename_i zero
        rw [zero]
        exact Nat.two_pow_pos _
      · have high := @lt_limbs fuel (n / 2 ^ 64) (by omega)
        rw [List.length_cons, two_pow_sixty_four_mul, Nat.mul_comm]
        exact (Nat.div_lt_iff_lt_mul (Nat.two_pow_pos 64)).mp high

theorem length_limbs_le : ∀ {fuel n k : Nat}, n < 2 ^ (64 * k) → (limbs fuel n).length ≤ k
  | 0, _, _, _ => Nat.zero_le _
  | fuel + 1, n, k, h => by
      unfold limbs
      split
      · exact Nat.zero_le _
      · obtain _ | k := k
        · rw [Nat.mul_zero, Nat.pow_zero] at h
          omega
        · rw [two_pow_sixty_four_mul] at h
          exact Nat.succ_le_succ (length_limbs_le (Nat.div_lt_of_lt_mul h))

/-- The bytes of a limb that `opMStore` writes, the least significant last, are its
encoding in 8 bytes. -/
theorem limbBytes (d : Uint64) :
    ((List.range 8).map fun j => (d >>> (8 * j)).toNat.toUInt8).reverse = beBytes 8 d.toNat := by
  have shifted : ∀ n, ((List.range n).map fun j => (d.toNat / 2 ^ (8 * j)).toUInt8).reverse =
      beBytes n d.toNat := by
    intro n
    induction n with
    | zero => rfl
    | succ n ih =>
        rw [List.range_succ, List.map_append, List.reverse_append, ih, Nat.add_comm, beBytes_add]
        rfl
  simpa only [BitVec.toNat_ushiftRight, Nat.shiftRight_eq_div_pow] using shifted 8

/-- The limb loop writes the encoding of the limbs' value just below `i` and keeps the rest
of the slot. -/
theorem mstoreLimbs_eq : ∀ (ds : List Uint64) (i : Nat) (buf : Bytes), 8 * ds.length ≤ i →
    i ≤ buf.length → mstoreLimbs ds i buf = .ok (i - 8 * ds.length,
      buf.take (i - 8 * ds.length) ++ beBytes (8 * ds.length) (limbsValue ds) ++ buf.drop i)
  | [], i, buf, _, _ => by
      simp only [mstoreLimbs, List.length_nil, Nat.mul_zero, Nat.sub_zero, beBytes,
        List.append_nil, List.take_append_drop]
      rfl
  | d :: ds, i, buf, room, fits => by
      simp only [List.length_cons] at room ⊢
      have limb : beBytes (8 * (ds.length + 1)) (limbsValue (d :: ds)) =
          beBytes (8 * ds.length) (limbsValue ds) ++ beBytes 8 d.toNat := by
        rw [Nat.mul_succ, beBytes_add, limbsValue, beBytes_add_mul 8,
          Nat.add_mul_div_left _ _ (Nat.two_pow_pos _), Nat.div_eq_of_lt d.isLt, Nat.zero_add]
      rw [mstoreLimbs, if_neg (by omega)]
      dsimp only
      rw [limbBytes, copyAt_eq (by simp; omega), mstoreLimbs_eq ds (i - 8) _ (by omega)
        (by rw [length_writeBytes (by simp; omega)]; omega), take_writeBytes (by omega) (by omega),
        drop_writeBytes (by omega), length_beBytes, show i - 8 + 8 = i by omega, limb,
        show i - 8 - 8 * ds.length = i - 8 * (ds.length + 1) by omega]
      simp only [List.append_assoc]

/-! `checkMemory`, case by case. -/

theorem isWord_thirty_two : IsWord 32 := isWord_ofNat (by decide)

theorem uint64_eq_ofNat {o : Int} (word : IsWord o) : uint64 o = BitVec.ofNat 64 o.toNat := by
  rw [uint64]
  congr 1
  have := word.1
  omega

namespace State

variable {σ : Type} (c : State σ) {o s : Int}

/-- The limits `checkMemory` puts on the operands of a non-empty range: both are `uint64`s
of at most `0xffffffffe0`. -/
theorem memoryLimits_iff (ow : IsWord o) (sw : IsWord s) :
    ((!isUint64 o || !isUint64 s) = false ∧
      (decide (0xffffffffe0 < uint64 o) || decide (0xffffffffe0 < uint64 s)) = false) ↔
      o.toNat ≤ 0xffffffffe0 ∧ s.toNat ≤ 0xffffffffe0 := by
  have bound : (0xffffffffe0 : Uint64).toNat = 0xffffffffe0 := rfl
  simp only [isUint64, uint64, Bool.or_eq_false_iff, Bool.not_eq_false', Bool.and_eq_true,
    decide_eq_true_eq, decide_eq_false_iff_not, BitVec.lt_def, bound, BitVec.toNat_ofNat]
  have := ow.1
  have := sw.1
  omega

/-- The end and the word count of an admitted range, which the `uint64` sums do not wrap. -/
theorem memoryWords {a b : Nat} (fa : a ≤ 0xffffffffe0) (fb : b ≤ 0xffffffffe0) :
    BitVec.ofNat 64 a + BitVec.ofNat 64 b = BitVec.ofNat 64 (a + b) ∧
      (BitVec.ofNat 64 a + BitVec.ofNat 64 b + 31) / 32 = BitVec.ofNat 64 ((a + b + 31) / 32) := by
  have e31 : (31 : Uint64).toNat = 31 := rfl
  have e32 : (32 : Uint64).toNat = 32 := rfl
  constructor <;> apply BitVec.eq_of_toNat_eq <;>
    simp only [BitVec.toNat_add, BitVec.toNat_udiv, BitVec.toNat_ofNat, e31, e32] <;> omega

/-- The cost of `w` words as `checkMemory` computes it in `uint64`: only the square wraps. -/
theorem memoryCost_uint64 {w : Nat} (small : w < 2 ^ 36) :
    3 * BitVec.ofNat 64 w + BitVec.ofNat 64 w * BitVec.ofNat 64 w / 512 =
      BitVec.ofNat 64 (3 * w + w * w % 2 ^ 64 / 512) := by
  have e3 : (3 : Uint64).toNat = 3 := rfl
  have e512 : (512 : Uint64).toNat = 512 := rfl
  have exact : w % 2 ^ 64 = w := Nat.mod_eq_of_lt (by omega)
  apply BitVec.eq_of_toNat_eq
  simp only [BitVec.toNat_add, BitVec.toNat_mul, BitVec.toNat_udiv, BitVec.toNat_ofNat, e3, e512,
    exact]
  generalize w * w % 2 ^ 64 = q
  omega

section Range

variable (bounded : c.memory.length < 2 ^ 64) (ow : IsWord o) (sw : IsWord s)
include bounded ow sw

/-- The memory's `uint64` length against the end of an admitted range. -/
theorem memoryLength_lt_iff (limit : o.toNat ≤ 0xffffffffe0 ∧ s.toNat ≤ 0xffffffffe0) :
    BitVec.ofNat 64 c.memory.length < uint64 o + uint64 s ↔
      c.memory.length < o.toNat + s.toNat := by
  rw [uint64_eq_ofNat ow, uint64_eq_ofNat sw, (memoryWords limit.1 limit.2).1, BitVec.lt_def,
    BitVec.toNat_ofNat, BitVec.toNat_ofNat, Nat.mod_eq_of_lt bounded, Nat.mod_eq_of_lt (by omega)]

/-- A non-empty range past the end of memory: the memory grows to `w` words, charged the
increment of the cost `3w + w²/512` with the square computed in `uint64`. -/
theorem checkMemory_of_grows (nonzero : s ≠ 0)
    (limit : o.toNat ≤ 0xffffffffe0 ∧ s.toNat ≤ 0xffffffffe0)
    (grows : c.memory.length < o.toNat + s.toNat) :
    c.checkMemory o s =
      let w := (o.toNat + s.toNat + 31) / 32
      let cost : Uint64 := BitVec.ofNat 64 (3 * w + w * w % 2 ^ 64 / 512)
      if c.gas < cost - c.lastGasCost then ({ c with lastGasCost := cost }.exit .outOfGas, false)
      else ({ c with lastGasCost := cost, gas := c.gas - (cost - c.lastGasCost),
                     memory := c.memory ++ List.replicate (32 * w - c.memory.length) 0 }, true) := by
  obtain ⟨range, fits⟩ := (memoryLimits_iff ow sw).mpr limit
  have words := (memoryWords limit.1 limit.2).2
  rw [← uint64_eq_ofNat ow, ← uint64_eq_ofNat sw] at words
  have small : (o.toNat + s.toNat + 31) / 32 < 2 ^ 36 := by omega
  have extended : (BitVec.ofNat 64 ((o.toNat + s.toNat + 31) / 32) * 32).toNat =
      32 * ((o.toNat + s.toNat + 31) / 32) := by
    have e32 : (32 : Uint64).toNat = 32 := rfl
    simp only [BitVec.toNat_mul, BitVec.toNat_ofNat, e32]
    omega
  unfold checkMemory
  dsimp only
  rw [if_neg nonzero, range, fits, if_neg Bool.false_ne_true, if_neg Bool.false_ne_true, if_pos ((memoryLength_lt_iff c bounded ow sw limit).mpr grows), words, State.memoryCost_uint64 small]
  unfold consumeGas
  dsimp only
  split_ifs
  · rfl
  · simp only [extendByteSlice, extended,
      if_neg (show ¬32 * ((o.toNat + s.toNat + 31) / 32) ≤ c.memory.length by omega)]

omit bounded in
/-- Operands past the limits: the frame exits with `errGasUintOverflow`. -/
theorem checkMemory_of_outside (nonzero : s ≠ 0)
    (outside : ¬(o.toNat ≤ 0xffffffffe0 ∧ s.toNat ≤ 0xffffffffe0)) :
    c.checkMemory o s = (c.exit .gasUintOverflow, false) := by
  rw [← memoryLimits_iff ow sw, not_and_or, Bool.not_eq_false, Bool.not_eq_false] at outside
  unfold checkMemory
  dsimp only
  rw [if_neg nonzero]
  by_cases range : (!isUint64 o || !isUint64 s) = true
  · rw [if_pos range]
  · rw [if_neg range, if_pos (outside.resolve_left range)]

/-- A range within memory: nothing changes. -/
theorem checkMemory_of_covered (limit : o.toNat ≤ 0xffffffffe0 ∧ s.toNat ≤ 0xffffffffe0)
    (covered : o.toNat + s.toNat ≤ c.memory.length) : c.checkMemory o s = (c, true) := by
  by_cases zero : s = 0
  · exact if_pos zero
  obtain ⟨range, fits⟩ := (memoryLimits_iff ow sw).mpr limit
  unfold checkMemory
  dsimp only
  rw [if_neg zero, range, fits, if_neg Bool.false_ne_true, if_neg Bool.false_ne_true,
    if_neg (mt (memoryLength_lt_iff c bounded ow sw limit).mp (by omega))]

/-- What a memory check that lets the handler go on did: the memory grew by zero bytes to
cover a non-empty range, whose operands are within the limits, and stays below `2⁶⁴` bytes;
only the gas and the last cost changed besides. -/
theorem checkMemory_admits {c₁ : State σ} (admitted : c.checkMemory o s = (c₁, true)) :
    ∃ k, c₁ = { c with memory := c.memory ++ List.replicate k 0, gas := c₁.gas,
                       lastGasCost := c₁.lastGasCost } ∧
      (s = 0 ∨ o.toNat + s.toNat ≤ c.memory.length + k ∧ o.toNat ≤ 0xffffffffe0 ∧
        s.toNat ≤ 0xffffffffe0) ∧ c.memory.length + k < 2 ^ 64 := by
  by_cases zero : s = 0
  · rw [zero, show c.checkMemory o 0 = (c, true) from if_pos rfl] at admitted
    obtain ⟨rfl, -⟩ := Prod.mk.inj admitted
    exact ⟨0, by simp, .inl zero, by simpa using bounded⟩
  have limit : o.toNat ≤ 0xffffffffe0 ∧ s.toNat ≤ 0xffffffffe0 := by
    by_contra outside
    rw [checkMemory_of_outside c ow sw zero outside] at admitted
    exact absurd (congrArg Prod.snd admitted) Bool.false_ne_true
  by_cases grows : c.memory.length < o.toNat + s.toNat
  · rw [checkMemory_of_grows c bounded ow sw zero limit grows] at admitted
    dsimp only at admitted
    split_ifs at admitted
    · exact absurd (congrArg Prod.snd admitted) Bool.false_ne_true
    · obtain ⟨rfl, -⟩ := Prod.mk.inj admitted
      exact ⟨_, rfl, .inr ⟨by omega, limit⟩, by omega⟩
  · rw [checkMemory_of_covered c bounded ow sw limit (by omega)] at admitted
    obtain ⟨rfl, -⟩ := Prod.mk.inj admitted
    exact ⟨0, by simp, .inr ⟨by omega, limit⟩, by simpa using bounded⟩

/-- `get2` of a range within memory: the bytes, with nothing charged. -/
theorem get2_covered (dst : Bytes) (nonzero : s ≠ 0)
    (limit : o.toNat ≤ 0xffffffffe0 ∧ s.toNat ≤ 0xffffffffe0)
    (covered : o.toNat + s.toNat ≤ c.memory.length) :
    c.get2 dst o s = .ok (c, some (dst ++ (c.memory.drop o.toNat).take s.toNat)) := by
  unfold get2
  rw [if_neg nonzero, checkMemory_of_covered c bounded ow sw limit covered]
  dsimp only
  rw [uint64_toNat_of_lt ow (by omega), uint64_toNat_of_lt sw (by omega),
    slice_of_le (by omega) covered, ok_bind, Nat.add_sub_cancel_left]
  rfl

end Range

end State

/-- The spec's memory cost of `w` words. -/
def memoryCost (w : Nat) : Nat := 3 * w + w * w / 512

namespace State

variable {σ : Type} (c : State σ) {o s : Int}

/-- Growing memory to `w` words records, and charges the increment of, the spec's cost less
`2⁵⁵` for every `2⁶⁴` in `w²`: the square is computed in `uint64`, which wraps from
`w = 2³²` on, and the operand limits admit `w` up to about `2³⁶`. -/
theorem checkMemory_cost_wraps (bounded : c.memory.length < 2 ^ 64) (ow : IsWord o)
    (sw : IsWord s) (nonzero : s ≠ 0) (limit : o.toNat ≤ 0xffffffffe0 ∧ s.toNat ≤ 0xffffffffe0)
    (grows : c.memory.length < o.toNat + s.toNat) :
    c.checkMemory o s =
      let w := (o.toNat + s.toNat + 31) / 32
      let cost : Uint64 := BitVec.ofNat 64 (memoryCost w - 2 ^ 55 * (w * w / 2 ^ 64))
      if c.gas < cost - c.lastGasCost then ({ c with lastGasCost := cost }.exit .outOfGas, false)
      else ({ c with lastGasCost := cost, gas := c.gas - (cost - c.lastGasCost),
                     memory := c.memory ++ List.replicate (32 * w - c.memory.length) 0 }, true) := by
  have wrapped : ∀ w : Nat, 3 * w + w * w % 2 ^ 64 / 512 = memoryCost w - 2 ^ 55 * (w * w / 2 ^ 64) := by
    intro w
    unfold memoryCost
    generalize w * w = q
    omega
  rw [checkMemory_of_grows c bounded ow sw nonzero limit grows]
  dsimp only
  rw [wrapped]

/-- `MSTORE` at `0x1FFFFFFFE0` in a fresh frame with `3·2³²` gas: the memory grows to `2³²`
words for `3·2³²` gas, where the spec's cost is `3·2³² + 2⁵⁵`. -/
theorem mstore_high_offset_undercharged :
    ({ Evm.wordFrame Revision.istanbul [] with gas := BitVec.ofNat 64 (3 * 2 ^ 32) } :
        State Unit).checkMemory 0x1FFFFFFFE0 32 =
      ({ Evm.wordFrame Revision.istanbul [] with
          gas := 0, lastGasCost := BitVec.ofNat 64 (3 * 2 ^ 32),
          memory := List.replicate (32 * 2 ^ 32) 0 }, true) ∧
      memoryCost (2 ^ 32) = 3 * 2 ^ 32 + 2 ^ 55 :=
  ⟨(checkMemory_cost_wraps
    (c := { Evm.wordFrame Revision.istanbul [] with gas := BitVec.ofNat 64 (3 * 2 ^ 32) })
    (by decide) (isWord_ofNat (by decide) : IsWord 0x1FFFFFFFE0) isWord_thirty_two (by decide)
    ⟨by decide, by decide⟩ (by decide)).trans rfl, rfl⟩

end State

/-! `MSTORE`, `MLOAD` and `MSTORE8`. -/

/-- `opMStore`'s slot: the limbs of a word are written from the right and the bytes left of
them zeroed, which is the word's 32-byte encoding. -/
theorem mstoreLimbs_word {v : Int} (word : IsWord v) {slot : Bytes} (len : slot.length = 32) :
    ∃ i, mstoreLimbs (bits v.natAbs) 32 slot = .ok (i, slot.take i ++ beBytes (32 - i) v.toNat) ∧
      copyAt (slot.take i ++ beBytes (32 - i) v.toNat) 0 (List.replicate i 0) =
        beBytes 32 v.toNat := by
  have abs : v.natAbs = v.toNat := by have := word.1; omega
  rw [abs]
  have short : (bits v.toNat).length ≤ 4 := length_limbs_le (by have := word.2; omega)
  have fits : v.toNat < 2 ^ (8 * (8 * (bits v.toNat).length)) := by
    rw [← Nat.mul_assoc]
    exact lt_limbs le_rfl
  refine ⟨32 - 8 * (bits v.toNat).length, ?_, ?_⟩
  · rw [mstoreLimbs_eq _ _ _ (by omega) (by omega), bits_value, List.drop_eq_nil_of_le (by omega),
      List.append_nil, show 32 - (32 - 8 * (bits v.toNat).length) = 8 * (bits v.toNat).length by omega]
  · have encoded : beBytes 32 v.toNat = List.replicate (32 - 8 * (bits v.toNat).length) 0 ++
        beBytes (8 * (bits v.toNat).length) v.toNat := by
      rw [← beBytes_zero, ← Nat.div_eq_of_lt fits, ← beBytes_add]
      congr 1
      omega
    rw [copyAt_eq (by simp; omega), writeBytes, List.take_zero, List.nil_append, Nat.zero_add,
      List.length_replicate, List.drop_left' (by simp; omega), encoded,
      show 32 - (32 - 8 * (bits v.toNat).length) = 8 * (bits v.toNat).length by omega]

section Words

variable {σ : Type} {c c₁ : State σ} {o v : Int} {rest : List Int}

/-- The range a memory check admitted, in the memory it left. -/
theorem covered_of_admits {n : Int} (bounded : c.memory.length < 2 ^ 64) (ow : IsWord o)
    (nonzero : n ≠ 0) (nw : IsWord n) (admitted : c.checkMemory o n = (c₁, true)) :
    o.toNat + n.toNat ≤ c₁.memory.length ∧ o.toNat ≤ 0xffffffffe0 ∧ n.toNat ≤ 0xffffffffe0 := by
  obtain ⟨k, grown, range, -⟩ := State.checkMemory_admits c bounded ow nw admitted
  obtain ⟨covered, limit⟩ := range.resolve_left nonzero
  rw [grown]
  exact ⟨by simpa using covered, limit⟩

theorem opMStore_eq (bounded : c.memory.length < 2 ^ 64) (ow : IsWord o) (vw : IsWord v)
    (stack : c.stack = o :: v :: rest)
    (admitted : ({ c with stack := rest } : State σ).checkMemory o 32 = (c₁, true)) :
    opMStore c = .ok { c₁ with memory := writeBytes c₁.memory o.toNat (beBytes 32 v.toNat) } := by
  obtain ⟨covered, limit, -⟩ := covered_of_admits (c := { c with stack := rest }) bounded ow
    (by decide) isWord_thirty_two admitted
  replace covered : o.toNat + 32 ≤ c₁.memory.length := covered
  have slot : ((c₁.memory.drop o.toNat).take (o.toNat + 32 - o.toNat)).length = 32 := by
    simp only [List.length_take, List.length_drop]
    omega
  obtain ⟨i, limbs, zeroed⟩ := mstoreLimbs_word vw slot
  unfold opMStore
  rw [State.pop_cons c stack]
  simp only [deref, pure_bind]
  rw [State.pop_cons _ rfl]
  simp only [deref, pure_bind]
  rw [admitted]
  dsimp only
  rw [uint64_toNat_of_lt ow (by omega), slice_of_le (by omega) (by omega), ok_bind, limbs, ok_bind]
  dsimp only
  rw [zeroed, copyAt_eq (by simp; omega)]
  rfl

/-- `MLOAD` at an offset whose 32 bytes memory covers: nothing is charged, and the word the
bytes encode replaces the offset. -/
theorem opMload_covered (bounded : c.memory.length < 2 ^ 64) (ow : IsWord o)
    (limit : o.toNat ≤ 0xffffffffe0) (stack : c.stack = o :: rest)
    (covered : o.toNat + 32 ≤ c.memory.length) :
    opMload c = .ok { c with stack := bytesToNat ((c.memory.drop o.toNat).take 32) :: rest } := by
  unfold opMload
  rw [State.pop_cons c stack]
  simp only [deref, pure_bind]
  rw [State.get2_covered (c := { c with stack := rest }) bounded ow isWord_thirty_two []
    (by decide) ⟨limit, by decide⟩ covered, ok_bind]
  rfl

theorem opMStore8_eq (bounded : c.memory.length < 2 ^ 64) (ow : IsWord o) (vw : IsWord v)
    (stack : c.stack = o :: v :: rest)
    (admitted : ({ c with stack := rest } : State σ).checkMemory o 1 = (c₁, true)) :
    opMStore8 c =
      .ok { c₁ with memory := writeBytes c₁.memory o.toNat [(v.toNat % 256).toUInt8] } := by
  obtain ⟨covered, limit, -⟩ := covered_of_admits (c := { c with stack := rest }) bounded ow
    (by decide) isWord_one admitted
  replace covered : o.toNat + 1 ≤ c₁.memory.length := covered
  have low : (uint64 v &&& 0xff).toNat.toUInt8 = (v.toNat % 256).toUInt8 := by
    apply toUInt8_congr
    have mask : (0xff : Uint64).toNat = 2 ^ 8 - 1 := rfl
    have same : v.natAbs = v.toNat := by have := vw.1; omega
    rw [BitVec.toNat_and, mask, Nat.and_pow_two_sub_one_eq_mod, uint64, BitVec.toNat_ofNat, same,
      Nat.mod_mod, Nat.mod_mod_of_dvd _ (show 2 ^ 8 ∣ 2 ^ 64 by decide), Nat.mod_mod]
    rfl
  unfold opMStore8
  rw [State.pop_cons c stack]
  simp only [deref, pure_bind]
  rw [State.pop_cons _ rfl]
  simp only [deref, pure_bind]
  rw [admitted]
  dsimp only
  rw [uint64_toNat_of_lt ow (by omega), if_pos (by omega), low, List.set_eq_take_append_cons_drop,
    if_pos (by omega), writeBytes, List.append_assoc, List.singleton_append, List.length_singleton]
  rfl

/-- A memory store through a check that let it go on: MSTORE writes the word's 32-byte
big-endian encoding over bytes `[o, o + 32)` of the memory the check left, the old memory and
zeros past it, and keeps every other byte; an MLOAD at `o` then pushes the word back; MSTORE8
writes the value modulo 256 over byte `o` alone. -/
theorem memory_store_load (bounded : c.memory.length < 2 ^ 64) (ow : IsWord o) (vw : IsWord v)
    (stack : c.stack = o :: v :: rest) :
    (∀ {c₁ : State σ}, ({ c with stack := rest } : State σ).checkMemory o 32 = (c₁, true) →
      (∃ k, c₁.memory = c.memory ++ List.replicate k 0) ∧ o.toNat + 32 ≤ c₁.memory.length ∧
      opMStore c = .ok { c₁ with memory := writeBytes c₁.memory o.toNat (beBytes 32 v.toNat) } ∧
      ∀ s, opMload { c₁ with memory := writeBytes c₁.memory o.toNat (beBytes 32 v.toNat),
                             stack := o :: s } =
        .ok { c₁ with memory := writeBytes c₁.memory o.toNat (beBytes 32 v.toNat),
                      stack := v :: s }) ∧
    (∀ {c₁ : State σ}, ({ c with stack := rest } : State σ).checkMemory o 1 = (c₁, true) →
      (∃ k, c₁.memory = c.memory ++ List.replicate k 0) ∧ o.toNat < c₁.memory.length ∧
      opMStore8 c =
        .ok { c₁ with memory := writeBytes c₁.memory o.toNat [(v.toNat % 256).toUInt8] }) := by
  refine ⟨fun {c₁} admitted => ?_, fun {c₁} admitted => ?_⟩
  · obtain ⟨k, grown, -, below⟩ := State.checkMemory_admits { c with stack := rest } bounded ow
      isWord_thirty_two admitted
    obtain ⟨covered, limit, -⟩ := covered_of_admits (c := { c with stack := rest }) bounded ow
      (by decide) isWord_thirty_two admitted
    replace covered : o.toNat + 32 ≤ c₁.memory.length := covered
    replace below : c.memory.length + k < 2 ^ 64 := below
    have length : c₁.memory.length = c.memory.length + k := by
      rw [congrArg State.memory grown, List.length_append, List.length_replicate]
    refine ⟨⟨k, congrArg State.memory grown⟩, covered, opMStore_eq bounded ow vw stack admitted,
      fun s => ?_⟩
    have fits : o.toNat + (beBytes 32 v.toNat).length ≤ c₁.memory.length := by simpa using covered
    rw [opMload_covered (by rw [length_writeBytes fits]; omega) ow limit rfl
      (by rw [length_writeBytes fits]; exact covered)]
    have read : ((writeBytes c₁.memory o.toNat (beBytes 32 v.toNat)).drop o.toNat).take
        (beBytes 32 v.toNat).length = beBytes 32 v.toNat := writeBytes_read (by omega)
    rw [length_beBytes] at read
    rw [read, bytesToNat_beBytes 32 _ (by have := vw.2; omega), Int.toNat_of_nonneg vw.1]
  · obtain ⟨k, grown, -, -⟩ := State.checkMemory_admits { c with stack := rest } bounded ow isWord_one
      admitted
    obtain ⟨covered, -, -⟩ := covered_of_admits (c := { c with stack := rest }) bounded ow
      (by decide) isWord_one admitted
    exact ⟨⟨k, congrArg State.memory grown⟩, covered, opMStore8_eq bounded ow vw stack admitted⟩

/-- `MSTORE(0, 0x1234)` in a fresh frame grows memory to one word for 3 gas and writes the
word's encoding there, and `MLOAD(0)` reads `0x1234` back. -/
theorem mstore_mload_fresh :
    opMStore (wordFrame Revision.istanbul [0, 0x1234]) =
        .ok { wordFrame Revision.istanbul [] with
          memory := writeBytes (List.replicate 32 0) 0 (beBytes 32 0x1234), gas := 97,
          lastGasCost := 3 } ∧
      opMload { wordFrame Revision.istanbul [0] with
          memory := writeBytes (List.replicate 32 0) 0 (beBytes 32 0x1234), gas := 97,
          lastGasCost := 3 } =
        .ok { wordFrame Revision.istanbul [0x1234] with
          memory := writeBytes (List.replicate 32 0) 0 (beBytes 32 0x1234), gas := 97,
          lastGasCost := 3 } := by
  have admitted : ({ wordFrame Revision.istanbul [0, 0x1234] with stack := [] } :
      State Unit).checkMemory 0 32 = ({ wordFrame Revision.istanbul [] with
        memory := List.replicate 32 0, gas := 97, lastGasCost := 3 }, true) := rfl
  have stored := (memory_store_load (c := wordFrame Revision.istanbul [0, 0x1234]) (by decide)
    isWord_zero (isWord_ofNat (by decide) : IsWord 0x1234) rfl).1 admitted
  exact ⟨stored.2.2.1, stored.2.2.2 []⟩

end Words

/-! `CALLDATACOPY`, `CODECOPY`, `EXTCODECOPY` and `CALLDATALOAD`. -/

/-- The spec's copy charge: 3 gas per word copied. -/
def copyCharge (n : Int) : Nat := (n.toNat + 31) / 32 * 3

/-- The spec's copy into a frame whose memory check passed: the copy charge and the access
charge `extra`, an exit when either is short, and then bytes `[m, m + n)` of memory set to the
window of the source at `d`, every other byte kept. -/
def copyResult {σ : Type} (c₁ : State σ) (m d n : Int) (extra : Uint64) (source : Bytes) :
    State σ :=
  if c₁.gas.toNat < copyCharge n then c₁.exit .outOfGas
  else if c₁.gas.toNat - copyCharge n < extra.toNat then
    { c₁ with gas := BitVec.ofNat 64 (c₁.gas.toNat - copyCharge n) }.exit .outOfGas
  else { c₁ with gas := BitVec.ofNat 64 (c₁.gas.toNat - copyCharge n - extra.toNat),
                 memory := writeBytes c₁.memory m.toNat (window source d.toNat n.toNat) }

section Copies

variable {σ : Type} {c c₁ : State σ} {m d n : Int} {rest : List Int}

/-- `copyToMemory` after a memory check that let it go on is the spec's copy. -/
theorem copyToMemory_eq {extra : Uint64} {source : State σ → Bytes} {bytes : Bytes}
    (bounded : c.memory.length < 2 ^ 64) (mw : IsWord m) (dw : IsWord d) (nw : IsWord n)
    (admitted : c.checkMemory m n = (c₁, true))
    (reads : ∀ g : Uint64, source { c₁ with gas := g } = bytes) :
    copyToMemory c m d n extra source = .ok (copyResult c₁ m d n extra bytes) := by
  have range : n = 0 ∨ m.toNat + n.toNat ≤ c₁.memory.length ∧ m.toNat ≤ 0xffffffffe0 ∧
      n.toNat ≤ 0xffffffffe0 :=
    (em (n = 0)).imp id fun nonzero => covered_of_admits bounded mw nonzero nw admitted
  have limit : n.toNat ≤ 0xffffffffe0 := by
    rcases range with zero | ⟨-, -, limit⟩
    · rw [zero]; decide
    · exact limit
  have size : uint64 n = BitVec.ofNat 64 n.toNat := uint64_eq_ofNat nw
  have charge : (uint64 n + 31) / 32 * copyGas = BitVec.ofNat 64 (copyCharge n) := by
    have e31 : (31 : Uint64).toNat = 31 := rfl
    have e32 : (32 : Uint64).toNat = 32 := rfl
    have e3 : copyGas.toNat = 3 := rfl
    apply BitVec.eq_of_toNat_eq
    rw [size, BitVec.toNat_mul, BitVec.toNat_udiv, BitVec.toNat_add, BitVec.toNat_ofNat, e31, e32, e3,
      Nat.mod_eq_of_lt (a := n.toNat) (by omega), Nat.mod_eq_of_lt (a := n.toNat + 31) (by omega),
      Nat.mod_eq_of_lt (by omega), BitVec.toNat_ofNat, copyCharge, Nat.mod_eq_of_lt (by omega)]
  unfold copyToMemory copyResult
  rw [admitted]
  dsimp only
  rw [charge, State.consumeGas_ofNat _ (by unfold copyCharge; omega)]
  by_cases short : c₁.gas.toNat < copyCharge n
  · rw [if_pos short, if_pos short]
    rfl
  rw [if_neg short, if_neg short]
  dsimp only
  have left : (BitVec.ofNat 64 (c₁.gas.toNat - copyCharge n)).toNat =
      c₁.gas.toNat - copyCharge n := by
    have := c₁.gas.isLt
    rw [BitVec.toNat_ofNat, Nat.mod_eq_of_lt (by omega)]
  rw [State.consumeGas_toNat]
  dsimp only
  rw [left]
  by_cases scarce : c₁.gas.toNat - copyCharge n < extra.toNat
  · rw [if_pos scarce, if_pos scarce]
    rfl
  rw [if_neg scarce, if_neg scarce]
  dsimp only
  rw [size]
  by_cases zero : n = 0
  · rw [if_pos (by rw [zero]; rfl),
      List.length_eq_zero.mp ((length_window bytes d.toNat n.toNat).trans (by rw [zero]; rfl)),
      writeBytes_nil]
    rfl
  obtain ⟨covered, offset, -⟩ := range.resolve_left zero
  have exact : (BitVec.ofNat 64 n.toNat).toNat = n.toNat := by
    rw [BitVec.toNat_ofNat]
    omega
  have nonzero : BitVec.ofNat 64 n.toNat ≠ 0 := fun h => by
    have vanishes : n.toNat = 0 := exact.symm.trans ((congrArg BitVec.toNat h).trans rfl)
    have := nw.1
    omega
  rw [if_neg nonzero, uint64_toNat_of_lt mw (by omega), sliceFrom_of_le (by omega), ok_bind,
    setBytes_eq dw (by rw [exact, List.length_drop]; omega), ok_bind, reads, exact, List.drop_drop,
    writeBytes, length_window, List.append_assoc]
  rfl

/-- The frame a memory check left reads as the frame before it. -/
theorem checkMemory_reads (bounded : c.memory.length < 2 ^ 64) (mw : IsWord m) (nw : IsWord n)
    (admitted : c.checkMemory m n = (c₁, true)) :
    c₁.input = c.input ∧ c₁.code = c.code ∧ c₁.host = c.host := by
  obtain ⟨k, grown, -⟩ := State.checkMemory_admits c bounded mw nw admitted
  rw [grown]
  exact ⟨rfl, rfl, rfl⟩

theorem opCallDataCopy_eq (bounded : c.memory.length < 2 ^ 64) (mw : IsWord m) (dw : IsWord d)
    (nw : IsWord n) (stack : c.stack = m :: d :: n :: rest)
    (admitted : ({ c with stack := rest } : State σ).checkMemory m n = (c₁, true)) :
    opCallDataCopy c = .ok (copyResult c₁ m d n 0 c.input) := by
  have input := (checkMemory_reads (c := { c with stack := rest }) bounded mw nw admitted).1
  unfold opCallDataCopy
  rw [State.pop_cons c stack]
  simp only [deref, pure_bind]
  rw [State.pop_cons _ rfl]
  simp only [deref, pure_bind]
  rw [State.pop_cons _ rfl]
  simp only [deref, pure_bind]
  exact copyToMemory_eq bounded mw dw nw admitted fun _ => input

theorem opCodeCopy_eq (bounded : c.memory.length < 2 ^ 64) (mw : IsWord m) (dw : IsWord d)
    (nw : IsWord n) (stack : c.stack = m :: d :: n :: rest)
    (admitted : ({ c with stack := rest } : State σ).checkMemory m n = (c₁, true)) :
    opCodeCopy c = .ok (copyResult c₁ m d n 0 c.code) := by
  have code := (checkMemory_reads (c := { c with stack := rest }) bounded mw nw admitted).2.1
  unfold opCodeCopy
  rw [State.pop_cons c stack]
  simp only [deref, pure_bind]
  rw [State.pop_cons _ rfl]
  simp only [deref, pure_bind]
  rw [State.pop_cons _ rfl]
  simp only [deref, pure_bind]
  exact copyToMemory_eq bounded mw dw nw admitted fun _ => code

theorem opExtCodeCopy_eq {host : Host σ} {a : Int} (bounded : c.memory.length < 2 ^ 64)
    (mw : IsWord m) (dw : IsWord d) (nw : IsWord n) (stack : c.stack = a :: m :: d :: n :: rest)
    (admitted : ({ c with stack := rest } : State σ).checkMemory m n = (c₁, true)) :
    opExtCodeCopy host c = .ok (copyResult c₁ m d n
      (if c.isRevision Revision.tangerineWhistle then 700 else 20)
      (host.getCode c.host (bigToAddress a))) := by
  have keeps := (checkMemory_reads (c := { c with stack := rest }) bounded mw nw admitted).2.2
  unfold opExtCodeCopy State.popAddr
  rw [State.pop_cons c stack]
  dsimp only
  rw [State.pop_cons _ rfl]
  simp only [deref, pure_bind]
  rw [State.pop_cons _ rfl]
  simp only [deref, pure_bind]
  rw [State.pop_cons _ rfl]
  simp only [deref, pure_bind]
  exact copyToMemory_eq bounded mw dw nw admitted fun _ => congrArg (host.getCode · _) keeps

/-- `CALLDATALOAD` replaces the offset with the word of the 32 bytes of calldata there,
extended with zeros. -/
theorem opCallDataLoad_eq (dw : IsWord d) (stack : c.stack = d :: rest) :
    opCallDataLoad c = .ok { c with stack := bytesToNat (window c.input d.toNat 32) :: rest } := by
  unfold opCallDataLoad
  rw [State.top, stack]
  simp only [List.head?_cons, deref, pure_bind]
  have e32 : (32 : Uint64).toNat = 32 := rfl
  rw [setBytes_eq dw (by simp), ok_bind, e32, List.drop_eq_nil_of_le (by simp), List.append_nil]
  simp only [State.setTop, stack, List.tail_cons]
  rfl

/-- The copies through a memory check that let them go on: after the copy charge, and for
EXTCODECOPY its access charge, memory `[m, m + n)` holds bytes `[d, d + n)` of the source
extended with zeros and every other byte is kept, and the frame exits with the memory as the
check left it when a charge is short. The window is zeros from the end of the source and from
`2⁶⁴` on, and CALLDATALOAD reads the word of the calldata's window at `d`. -/
theorem copies_reference (bounded : c.memory.length < 2 ^ 64) (mw : IsWord m) (dw : IsWord d)
    (nw : IsWord n) :
    (∀ {c₁ : State σ}, ({ c with stack := rest } : State σ).checkMemory m n = (c₁, true) →
      (c.stack = m :: d :: n :: rest →
        opCallDataCopy c = .ok (copyResult c₁ m d n 0 c.input) ∧
        opCodeCopy c = .ok (copyResult c₁ m d n 0 c.code)) ∧
      ∀ (host : Host σ) (a : Int), c.stack = a :: m :: d :: n :: rest →
        opExtCodeCopy host c = .ok (copyResult c₁ m d n
          (if c.isRevision Revision.tangerineWhistle then 700 else 20)
          (host.getCode c.host (bigToAddress a)))) ∧
    (∀ source : Bytes, source.length ≤ d.toNat ∨ 2 ^ 64 ≤ d →
      window source d.toNat n.toNat = List.replicate n.toNat 0) ∧
    (∀ s, c.stack = d :: s →
      opCallDataLoad c = .ok { c with stack := bytesToNat (window c.input d.toNat 32) :: s }) := by
  refine ⟨fun admitted => ⟨fun stack => ⟨opCallDataCopy_eq bounded mw dw nw stack admitted,
      opCodeCopy_eq bounded mw dw nw stack admitted⟩,
    fun _ _ stack => opExtCodeCopy_eq bounded mw dw nw stack admitted⟩,
    fun source outside => ?_, fun _ stack => opCallDataLoad_eq dw stack⟩
  rcases outside with past | high
  · exact window_of_length_le _ past
  · exact if_pos (by omega)

/-- `CALLDATACOPY(0, 0, 2)` of the calldata `[1, 2]` in a fresh frame: one word of memory for
3 gas, the copy for 3 more, and the two bytes at the start of memory. -/
theorem calldatacopy_two_bytes :
    opCallDataCopy { wordFrame Revision.istanbul [0, 0, 2] with input := [1, 2] } =
      .ok { wordFrame Revision.istanbul [] with
        input := [1, 2], memory := 1 :: 2 :: List.replicate 30 0, gas := 94, lastGasCost := 3 } := by
  have admitted : ({ wordFrame Revision.istanbul [] with input := [1, 2] } :
      State Unit).checkMemory 0 2 = ({ wordFrame Revision.istanbul [] with
        input := [1, 2], memory := List.replicate 32 0, gas := 97, lastGasCost := 3 }, true) := rfl
  have copied := (copies_reference (c := { wordFrame Revision.istanbul [0, 0, 2] with input := [1, 2] })
    (by decide) isWord_zero isWord_zero (isWord_ofNat (by decide) : IsWord 2)).1 admitted
  exact (copied.1 rfl).1.trans rfl

/-- `CALLDATACOPY(0, 0, 1)` of the calldata `[1]` with 3 gas: the memory check admits the range
for the 3 gas, the copy charge of 3 more is short, and memory byte 0 stays 0. -/
theorem calldatacopy_short_copy_charge :
    ({ wordFrame Revision.istanbul [] with gas := 3, input := [1] } : State Unit).checkMemory 0 1 =
        ({ wordFrame Revision.istanbul [] with
          gas := 0, input := [1], memory := List.replicate 32 0, lastGasCost := 3 }, true) ∧
      opCallDataCopy { wordFrame Revision.istanbul [0, 0, 1] with gas := 3, input := [1] } =
        .ok ({ wordFrame Revision.istanbul [] with
          gas := 0, input := [1], memory := List.replicate 32 0, lastGasCost := 3 }.exit .outOfGas) :=
  ⟨rfl, rfl⟩

end Copies

end Evm

end GoEvm
