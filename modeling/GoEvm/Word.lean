import Mathlib.Data.Int.Bitwise

/-! The values the interpreter and the state overlay compute with. A stack word is a
`*big.Int`, an unbounded integer that the handlers may leave negative in place, so it is
an `Int`. Hashes and addresses are evmc's fixed-width byte arrays, compared by content,
and Go's `uint64` counters are `BitVec 64`; an `int64` is kept as its bit pattern and read
signed where the code compares it. The `math/big` methods below are those the code calls,
as the Go library computes them on the magnitude. A revision is its evmc ordinal: the code
only compares revisions. -/
namespace GoEvm

abbrev Hash := BitVec 256
abbrev Address := BitVec 160
abbrev Uint64 := BitVec 64
abbrev Bytes := List UInt8

/-- evmc.Revision; the fork gates compare ordinals. -/
abbrev Revision := Nat

namespace Revision
def frontier : Revision := 0
def homestead : Revision := 1
def tangerineWhistle : Revision := 2
def spuriousDragon : Revision := 3
def byzantium : Revision := 4
def constantinople : Revision := 5
def petersburg : Revision := 6
def istanbul : Revision := 7
end Revision

/-- `(*big.Int).SetBytes`: the big-endian unsigned value of a byte string. -/
def bytesToNat (b : Bytes) : Nat := b.foldl (fun acc x => acc * 256 + x.toNat) 0

/-- `(*big.Int).BitLen`: the length in bits of the magnitude. -/
def bitLen (x : Int) : Nat := if x = 0 then 0 else Nat.log2 x.natAbs + 1

/-- `(*big.Int).IsUint64`. -/
def isUint64 (x : Int) : Bool := 0 ≤ x && x < 2 ^ 64

/-- `(*big.Int).Uint64`: the low 64 bits of the magnitude. -/
def uint64 (x : Int) : Uint64 := BitVec.ofNat 64 x.natAbs

/-- `(*big.Int).IsInt64`. -/
def isInt64 (x : Int) : Bool := -2 ^ 63 ≤ x && x < 2 ^ 63

/-- `(*big.Int).Int64`: the low 64 bits of the magnitude as an `int64`, negated for a
negative value. -/
def int64 (x : Int) : Uint64 :=
  if x < 0 then -BitVec.ofNat 64 x.natAbs else BitVec.ofNat 64 x.natAbs

/-- `bigToHash`: the magnitude's bytes, left padded or cut to their last 32. -/
def bigToHash (b : Int) : Hash := BitVec.ofNat 256 b.natAbs

/-- `bytesToHash`: the last 32 bytes of a byte string, left padded. -/
def bytesToHash (b : Bytes) : Hash := BitVec.ofNat 256 (bytesToNat b)

/-- `popAddr`'s conversion: the magnitude's bytes, left padded or cut to their last 20. -/
def bigToAddress (b : Int) : Address := BitVec.ofNat 160 b.natAbs

def tt256 : Int := 2 ^ 256
def tt256m1 : Int := 2 ^ 256 - 1

/-- `toU256`: a negative or over-long value is masked to its low 256 bits. -/
def toU256 (x : Int) : Int := if x < 0 ∨ 256 < bitLen x then Int.land x tt256m1 else x

/-- `to256`: a value of more than 255 bits is read as a negative 256-bit word. -/
def to256 (x : Int) : Int := if 255 < bitLen x then x - tt256 else x

/-- A stack word in the sense of the spec: `0 ≤ v < 2²⁵⁶`. -/
def IsWord (v : Int) : Prop := 0 ≤ v ∧ v < 2 ^ 256

instance (v : Int) : Decidable (IsWord v) := inferInstanceAs (Decidable (_ ∧ _))

theorem bitLen_le_iff (x : Int) (k : Nat) : bitLen x ≤ k ↔ x.natAbs < 2 ^ k := by
  unfold bitLen
  split
  · subst x; simp [Nat.pos_pow_of_pos]
  · rename_i nonzero
    have positive : x.natAbs ≠ 0 := Int.natAbs_ne_zero.mpr nonzero
    constructor
    · intro bound
      exact Nat.lt_of_lt_of_le (Nat.lt_log2_self) (Nat.pow_le_pow_right (by omega) bound)
    · intro bound
      have := (Nat.log2_lt positive).mpr bound
      omega

@[simp] theorem isWord_zero : IsWord 0 := by simp [IsWord]

@[simp] theorem isWord_one : IsWord 1 := by simp [IsWord]

theorem isWord_ofNat {n : Nat} (bound : n < 2 ^ 256) : IsWord n :=
  ⟨Int.natCast_nonneg n, by exact_mod_cast bound⟩

theorem isWord_toNat {w : Nat} (x : BitVec w) (narrow : w ≤ 256) : IsWord x.toNat :=
  isWord_ofNat (Nat.lt_of_lt_of_le x.isLt (Nat.pow_le_pow_right (by omega) narrow))

@[simp] theorem isWord_hash (x : Hash) : IsWord x.toNat := isWord_toNat x le_rfl

@[simp] theorem isWord_address (x : Address) : IsWord x.toNat := isWord_toNat x (by omega)

@[simp] theorem isWord_uint64 (x : Uint64) : IsWord x.toNat := isWord_toNat x (by omega)

theorem isWord_ite {p : Prop} [Decidable p] {a b : Int} (left : IsWord a) (right : IsWord b) :
    IsWord (if p then a else b) := by
  split <;> assumption

/-- A mask of a word: `Int.land` with a word, of any integer, is a word. -/
theorem isWord_land (a : Int) {b : Int} (word : IsWord b) : IsWord (Int.land a b) := by
  obtain ⟨n, rfl⟩ := Int.eq_ofNat_of_zero_le word.1
  have bound : n < 2 ^ 256 := by exact_mod_cast word.2
  cases a with
  | ofNat m => exact isWord_ofNat (Nat.lt_of_le_of_lt Nat.and_le_right bound)
  | negSucc m =>
      have masked : Nat.ldiff n m ≤ n := Nat.le_of_testBit fun i set => by
        rw [Nat.testBit_ldiff, Bool.and_eq_true] at set
        exact set.1
      exact isWord_ofNat (Nat.lt_of_le_of_lt masked bound)

theorem isWord_lor {a b : Int} (left : IsWord a) (right : IsWord b) : IsWord (Int.lor a b) := by
  obtain ⟨m, rfl⟩ := Int.eq_ofNat_of_zero_le left.1
  obtain ⟨n, rfl⟩ := Int.eq_ofNat_of_zero_le right.1
  exact isWord_ofNat (Nat.or_lt_two_pow (by exact_mod_cast left.2) (by exact_mod_cast right.2))

theorem isWord_xor {a b : Int} (left : IsWord a) (right : IsWord b) : IsWord (Int.xor a b) := by
  obtain ⟨m, rfl⟩ := Int.eq_ofNat_of_zero_le left.1
  obtain ⟨n, rfl⟩ := Int.eq_ofNat_of_zero_le right.1
  exact isWord_ofNat (Nat.xor_lt_two_pow (by exact_mod_cast left.2) (by exact_mod_cast right.2))

theorem isWord_tt256m1 : IsWord tt256m1 := by simp [IsWord, tt256m1]

theorem land_tt256m1_isWord (x : Int) : IsWord (Int.land x tt256m1) := isWord_land x isWord_tt256m1

theorem toU256_isWord (x : Int) : IsWord (toU256 x) := by
  unfold toU256
  split
  · exact land_tt256m1_isWord x
  · rename_i small
    have bound := (bitLen_le_iff x 256).mp (by omega)
    exact ⟨by omega, by omega⟩

theorem foldl_bytes_lt (b : Bytes) : ∀ (acc n : Nat), acc < 2 ^ (8 * n) →
    b.foldl (fun acc x => acc * 256 + x.toNat) acc < 2 ^ (8 * (n + b.length)) := by
  induction b with
  | nil => intro acc n bound; simpa using bound
  | cons x rest ih =>
      intro acc n bound
      have byte : x.toNat < 256 := x.val.isLt
      have step : acc * 256 + x.toNat < 2 ^ (8 * (n + 1)) := by
        rw [Nat.mul_add, Nat.pow_add]
        omega
      simpa only [List.foldl_cons, List.length_cons, Nat.add_assoc, Nat.add_comm 1] using
        ih _ _ step

theorem bytesToNat_lt (b : Bytes) : bytesToNat b < 2 ^ (8 * b.length) := by
  simpa using foldl_bytes_lt b 0 0 (by simp)

/-- `SetBytes` of at most 32 bytes is a word. -/
theorem isWord_bytesToNat {b : Bytes} (short : b.length ≤ 32) : IsWord (bytesToNat b) :=
  isWord_ofNat (Nat.lt_of_lt_of_le (bytesToNat_lt b) (Nat.pow_le_pow_right (by omega) (by omega)))

end GoEvm
