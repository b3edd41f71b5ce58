import GoEvm.Evm.Effect
import Mathlib.Data.Int.ModEq
import Mathlib.Tactic.Ring

/-! The arithmetic handlers against their two's-complement reference. The handlers keep a
stack word as a `*big.Int` and go through two helpers: `toU256` masks a result to its low
256 bits, which is its residue modulo `2²⁵⁶`, and `to256` reads a word of more than 255
bits as negative, which on a word is the spec's signed reading `signed`. With these two
facts each signed handler is the reference operation on the signed readings, reduced
modulo `2²⁵⁶`. `BYTE` reads its index with `Int64()`, and so sees only the index's low 64
bits; `EXP` runs square-and-multiply over the 64-bit limbs of the exponent. -/
namespace GoEvm

/-! The helpers. -/

theorem ldiff_two_pow_sub_one (n m : Nat) : Nat.ldiff (2 ^ n - 1) m = 2 ^ n - (m % 2 ^ n + 1) :=
  Nat.eq_of_testBit_eq fun i => by
    rw [Nat.testBit_ldiff, Nat.testBit_two_pow_sub_one,
      Nat.testBit_two_pow_sub_succ (Nat.mod_lt _ (Nat.two_pow_pos n)), Nat.testBit_mod_two_pow]
    cases decide (i < n) <;> rfl

theorem two_pow_sub_one_cast (n : Nat) : (2 : Int) ^ n - 1 = ((2 ^ n - 1 : Nat) : Int) := by
  push_cast [Nat.one_le_two_pow]
  rfl

/-- A mask of the low `n` bits is the residue modulo `2ⁿ`, for negative integers too. -/
theorem land_two_pow_sub_one (x : Int) (n : Nat) : Int.land x (2 ^ n - 1) = x % 2 ^ n := by
  rw [two_pow_sub_one_cast]
  have pos := Nat.two_pow_pos n
  cases x with
  | ofNat m =>
      show ((m &&& (2 ^ n - 1) : Nat) : Int) = (m : Int) % 2 ^ n
      rw [Nat.and_pow_two_sub_one_eq_mod]
      push_cast
      rfl
  | negSucc m =>
      show ((Nat.ldiff (2 ^ n - 1) m : Nat) : Int) = _
      rw [ldiff_two_pow_sub_one, Int.negSucc_emod m (by exact_mod_cast pos)]
      push_cast [Nat.succ_le_of_lt (Nat.mod_lt m pos)]
      ring

/-- Setting every bit from `n` on leaves the low `n` bits and subtracts `2ⁿ`. -/
theorem lor_lnot_two_pow_sub_one (m n : Nat) :
    Int.lor m (Int.lnot (2 ^ n - 1)) = (m : Int) % 2 ^ n - 2 ^ n := by
  rw [two_pow_sub_one_cast]
  show Int.negSucc (Nat.ldiff (2 ^ n - 1) m) = _
  rw [ldiff_two_pow_sub_one, Int.negSucc_eq]
  push_cast [Nat.succ_le_of_lt (Nat.mod_lt m (Nat.two_pow_pos n))]
  ring

/-- `toU256` is the residue modulo `2²⁵⁶`. -/
theorem toU256_eq_emod (x : Int) : toU256 x = x % 2 ^ 256 := by
  unfold toU256
  split
  · exact land_two_pow_sub_one x 256
  · rename_i small
    have bound := (bitLen_le_iff x 256).mp (by omega)
    exact (Int.emod_eq_of_lt (by omega) (by omega)).symm

theorem toU256_modEq (x : Int) : toU256 x ≡ x [ZMOD 2 ^ 256] := by
  rw [toU256_eq_emod]
  exact Int.mod_modEq x _

/-- The spec's signed reading of a word: `v - 2²⁵⁶` from `2²⁵⁵` on. -/
def signed (v : Int) : Int := if 2 ^ 255 ≤ v then v - 2 ^ 256 else v

/-- `to256` of a word is its signed reading. -/
theorem to256_of_isWord {v : Int} (word : IsWord v) : to256 v = signed v := by
  have long : 255 < bitLen v ↔ 2 ^ 255 ≤ v := by
    rw [← Nat.not_le, bitLen_le_iff]
    have := word.1
    omega
  simp only [to256, signed, tt256, long]

theorem signed_eq_zero {v : Int} (word : IsWord v) : signed v = 0 ↔ v = 0 := by
  have := word.2
  unfold signed
  split <;> omega

/-- The spec's sign extension from bit `b`: the low `b + 1` bits of `x` read as a
two's-complement number, as a word. -/
def signExtend (b : Nat) (x : Int) : Int :=
  let low := x % 2 ^ (b + 1)
  (if 2 ^ b ≤ low then low - 2 ^ (b + 1) else low) % 2 ^ 256

/-- The spec's `BYTE`: byte `n` of the 32-byte big-endian encoding of `y`, counted from the
most significant. -/
def wordByte (n : Nat) (y : Int) : Int := y / 2 ^ (8 * (31 - n)) % 256

/-- `opSignExtension`'s masking of a non-negative value at bit `b` is the sign extension
from bit `b`. -/
theorem signExtension_mask (n b : Nat) :
    toU256 (if (n : Int).testBit b then Int.lor n (Int.lnot (2 ^ b - 1))
      else Int.land n (2 ^ b - 1)) = signExtend b n := by
  have below : n % 2 ^ b < 2 ^ b := Nat.mod_lt n (Nat.two_pow_pos b)
  have cast : ∀ k, (n : Int) % 2 ^ k = ((n % 2 ^ k : Nat) : Int) := fun k => by push_cast; rfl
  have pow : (2 : Int) ^ b = ((2 ^ b : Nat) : Int) := by push_cast; rfl
  have pow' : (2 : Int) ^ (b + 1) = 2 * ((2 ^ b : Nat) : Int) := by rw [pow_succ, pow]; ring
  rw [toU256_eq_emod, signExtend, land_two_pow_sub_one, lor_lnot_two_pow_sub_one, cast, cast,
    Nat.mod_pow_succ, pow, pow']
  show (if n.testBit b then _ else _) % _ = _
  simp only [Nat.testBit_to_div_mod, decide_eq_true_eq]
  congr 1
  generalize n % 2 ^ b = r at below ⊢
  generalize 2 ^ b = p at below ⊢
  rcases Nat.mod_two_eq_zero_or_one (n / p) with bit | bit <;>
    simp only [bit, Nat.mul_zero, Nat.mul_one, Nat.add_zero, Nat.zero_ne_one, if_true, if_false] <;>
    split_ifs <;> omega

/-- Extending a word from bit 256 or above leaves it. -/
theorem signExtend_of_lt {n b : Nat} (small : n < 2 ^ 256) (wide : 256 ≤ b) :
    signExtend b n = n := by
  have fits : ∀ k, 256 ≤ k → n < 2 ^ k := fun k le =>
    Nat.lt_of_lt_of_le small (Nat.pow_le_pow_right (by decide) le)
  have reduce : ∀ k, 256 ≤ k → (n : Int) % 2 ^ k = n := fun k le => by
    exact_mod_cast Nat.mod_eq_of_lt (fits k le)
  dsimp only [signExtend]
  rw [reduce (b + 1) (by omega), if_neg (by exact_mod_cast Nat.not_le.mpr (fits b wide)),
    reduce 256 le_rfl]

set_option maxRecDepth 2000 in
/-- The round trip of the helpers on the signed range. -/
theorem to256_toU256 {x : Int} (low : -2 ^ 255 ≤ x) (high : x < 2 ^ 255) :
    to256 (toU256 x) = x := by
  rw [to256_of_isWord (toU256_isWord x), toU256_eq_emod, signed]
  split <;> omega

/-- The quotient of the magnitudes, negated when the signs differ, is the truncated
quotient. -/
theorem natAbs_div_eq_tdiv (a b : Int) :
    (if a.sign ≠ b.sign then -((a.natAbs / b.natAbs : Nat) : Int)
      else ((a.natAbs / b.natAbs : Nat) : Int)) = a.tdiv b := by
  rcases a with (_ | m) | m <;> rcases b with (_ | n) | n <;>
    simp only [Int.natAbs, Nat.zero_div, Nat.div_zero, Int.ofNat_eq_coe, Int.Nat.cast_ofNat_Int,
      neg_zero, ite_self, Int.zero_tdiv, Int.tdiv_zero] <;> rfl

/-- The remainder of the magnitudes, negated for a negative dividend, carries the
dividend's sign. -/
theorem natAbs_mod_eq_sign_mul (a b : Int) :
    (if a < 0 then -((a.natAbs % b.natAbs : Nat) : Int) else ((a.natAbs % b.natAbs : Nat) : Int)) =
      a.sign * ((a.natAbs % b.natAbs : Nat) : Int) := by
  rcases a with (_ | m) | m
  · simp
  · exact (if_neg (Int.not_lt.mpr (Int.ofNat_nonneg _))).trans (Int.one_mul _).symm
  · exact (if_pos (Int.negSucc_lt_zero m)).trans (Int.neg_eq_neg_one_mul _)

namespace Evm

variable {σ : Type}

/-! The operand shapes. -/

theorem binaryOp_cons {f : Int → Int → Int} {c : State σ} {a b : Int} {rest : List Int}
    (stack : c.stack = a :: b :: rest) : binaryOp f c = .ok { c with stack := f a b :: rest } := by
  unfold binaryOp
  rw [State.pop_cons c stack]
  rfl

theorem shiftOp_cons {overflow : Int → Int} {f : Int → Nat → Int} {c : State σ}
    {shift value : Int} {rest : List Int} (stack : c.stack = shift :: value :: rest) :
    shiftOp overflow f c = .ok (if c.isRevision Revision.constantinople then
      { c with stack := (if equalOrOverflowsUint256 shift then overflow value
        else f value (uint64 shift).toNat) :: rest }
      else c.exit .opCodeNotFound) := by
  unfold shiftOp
  rw [State.pop_cons c stack]
  cases c.isRevision Revision.constantinople <;> rfl

/-- A frame at revision `rev` with 100 gas that holds only `stack`, for the cases below. -/
def wordFrame (rev : Revision) (stack : List Int) : State Unit :=
  { ip := 0, code := [], host := (), address := 0, caller := 0, depth := 0, value := 0,
    input := [], static := false, rev := rev, memory := [], lastGasCost := 0, stack := stack,
    err := none, stop := false, gas := 100, returnData := [], ret := [] }

/-! The signed handlers. Each is stated for a stack of two words and the rest. -/

section Signed

variable {c : State σ} {a b : Int} {rest : List Int}

theorem opSDiv_reference (left : IsWord a) (right : IsWord b) (stack : c.stack = a :: b :: rest) :
    opSDiv c = .ok
      { c with stack := (if b = 0 then 0 else (signed a).tdiv (signed b) % 2 ^ 256) :: rest } := by
  rw [opSDiv, binaryOp_cons stack]
  simp only [to256_of_isWord left, to256_of_isWord right, signed_eq_zero right,
    natAbs_div_eq_tdiv, toU256_eq_emod]

theorem opSMod_reference (left : IsWord a) (right : IsWord b) (stack : c.stack = a :: b :: rest) :
    opSMod c = .ok { c with stack := (if b = 0 then 0 else
      (signed a).sign * ((signed a).natAbs % (signed b).natAbs : Nat) % 2 ^ 256) :: rest } := by
  rw [opSMod, binaryOp_cons stack]
  simp only [to256_of_isWord left, to256_of_isWord right, signed_eq_zero right,
    natAbs_mod_eq_sign_mul, toU256_eq_emod]

theorem opSlt_reference (left : IsWord a) (right : IsWord b) (stack : c.stack = a :: b :: rest) :
    opSlt c = .ok { c with stack := (if signed a < signed b then 1 else 0) :: rest } := by
  rw [opSlt, binaryOp_cons stack, to256_of_isWord left, to256_of_isWord right]

theorem opSgt_reference (left : IsWord a) (right : IsWord b) (stack : c.stack = a :: b :: rest) :
    opSgt c = .ok { c with stack := (if signed b < signed a then 1 else 0) :: rest } := by
  rw [opSgt, binaryOp_cons stack, to256_of_isWord left, to256_of_isWord right]

/-- A shift of a word overflows exactly from 256 on, and below it is the shift itself. -/
theorem equalOrOverflowsUint256_iff {a : Int} (word : IsWord a) :
    equalOrOverflowsUint256 a = true ↔ 256 ≤ a := by
  rw [equalOrOverflowsUint256, decide_eq_true_iff, ← Nat.not_le, bitLen_le_iff]
  have := word.1
  omega

theorem uint64_toNat_of_lt {a : Int} (word : IsWord a) (small : a < 2 ^ 64) :
    (uint64 a).toNat = a.toNat := by
  rw [uint64, BitVec.toNat_ofNat]
  have := word.1
  omega

/-- `SAR` shifts the signed reading with rounding toward minus infinity; from Constantinople
on, as the handler is gated. -/
theorem opSar_reference (left : IsWord a) (right : IsWord b) (stack : c.stack = a :: b :: rest) :
    opSar c = .ok (if c.isRevision Revision.constantinople then
      { c with stack := (if a < 256 then (signed b).fdiv (2 ^ a.toNat) % 2 ^ 256
        else if 0 ≤ signed b then 0 else 2 ^ 256 - 1) :: rest }
      else c.exit .opCodeNotFound) := by
  rw [opSar, shiftOp_cons stack, to256_of_isWord right]
  by_cases small : a < 256
  · have fits : equalOrOverflowsUint256 a = false := by
      rw [← Bool.not_eq_true, equalOrOverflowsUint256_iff left]
      omega
    have nonneg : (0 : Int) ≤ 2 ^ a.toNat := by exact_mod_cast Nat.zero_le (2 ^ a.toNat)
    simp only [fits, if_pos small, uint64_toNat_of_lt left (by omega), toU256_eq_emod,
      Int.shiftRight_eq_div_pow, Int.fdiv_eq_ediv _ nonneg, Nat.cast_pow, Nat.cast_ofNat,
      Bool.false_eq_true, if_false]
  · have over : equalOrOverflowsUint256 a = true :=
      (equalOrOverflowsUint256_iff left).mpr (by omega)
    simp only [over, if_neg small, tt256m1, if_true]

/-- `SIGNEXTEND` with an index of at most 31 extends the sign from bit `8k + 7`; with 32 the
mask keeps the whole word, and above 32 the handler returns at once. -/
theorem opSignExtension_reference (left : IsWord a) (right : IsWord b)
    (stack : c.stack = a :: b :: rest) :
    opSignExtension c = .ok
      { c with stack := (if a ≤ 31 then signExtend (8 * a.toNat + 7) b else b) :: rest } := by
  unfold opSignExtension
  rw [State.pop_cons c stack]
  obtain ⟨n, rfl⟩ := Int.eq_ofNat_of_zero_le right.1
  by_cases far : 32 < a
  · simp only [deref, pure_bind, if_pos far, show ¬a ≤ 31 by omega, if_false]
    rfl
  · have bit : (uint64 a * 8 + 7).toNat = 8 * a.toNat + 7 := by
      have e8 : (8 : Uint64).toNat = 8 := rfl
      have e7 : (7 : Uint64).toNat = 7 := rfl
      simp only [uint64, BitVec.toNat_add, BitVec.toNat_mul, BitVec.toNat_ofNat, e8, e7]
      have := left.1
      omega
    simp only [deref, pure_bind, if_neg far, bit, State.top, List.head?_cons, signExtension_mask]
    by_cases small : a ≤ 31
    · rw [if_pos small]
      rfl
    · rw [if_neg small, show a.toNat = 32 by omega,
        signExtend_of_lt (by exact_mod_cast right.2) (by decide)]
      rfl

/-- The signed handlers on two words leave the two's-complement reference result: SDIV the
truncated quotient and SMOD the remainder with the dividend's sign, of the signed readings,
as words; SLT and SGT the comparison of the signed readings; SAR the floor of the signed
reading over `2^shift`; SIGNEXTEND the sign extension from bit `8k + 7`. -/
theorem signed_handlers_reference (left : IsWord a) (right : IsWord b)
    (stack : c.stack = a :: b :: rest) :
    opSDiv c = .ok
      { c with stack := (if b = 0 then 0 else (signed a).tdiv (signed b) % 2 ^ 256) :: rest } ∧
    opSMod c = .ok { c with stack := (if b = 0 then 0
      else (signed a).sign * ((signed a).natAbs % (signed b).natAbs : Nat) % 2 ^ 256) :: rest } ∧
    opSlt c = .ok { c with stack := (if signed a < signed b then 1 else 0) :: rest } ∧
    opSgt c = .ok { c with stack := (if signed b < signed a then 1 else 0) :: rest } ∧
    opSar c = .ok (if c.isRevision Revision.constantinople then
      { c with stack := (if a < 256 then (signed b).fdiv (2 ^ a.toNat) % 2 ^ 256
        else if 0 ≤ signed b then 0 else 2 ^ 256 - 1) :: rest }
      else c.exit .opCodeNotFound) ∧
    opSignExtension c = .ok
      { c with stack := (if a ≤ 31 then signExtend (8 * a.toNat + 7) b else b) :: rest } ∧
    ∀ x, -2 ^ 255 ≤ x → x < 2 ^ 255 → to256 (toU256 x) = x :=
  ⟨opSDiv_reference left right stack, opSMod_reference left right stack,
    opSlt_reference left right stack, opSgt_reference left right stack,
    opSar_reference left right stack, opSignExtension_reference left right stack,
    fun _ => to256_toU256⟩

set_option maxRecDepth 4000 in
/-- `-7 SDIV 2` is `-3`: the quotient is truncated toward zero. -/
theorem sdiv_truncates : opSDiv (wordFrame Revision.istanbul [2 ^ 256 - 7, 2]) =
    .ok (wordFrame Revision.istanbul [2 ^ 256 - 3]) :=
  (signed_handlers_reference (c := wordFrame Revision.istanbul [2 ^ 256 - 7, 2]) (by decide)
    (by decide) rfl).1.trans rfl

end Signed

/-! `BYTE`. -/

section Byte

variable {c : State σ} {i y : Int} {rest : List Int}

theorem land_255 (v : Int) : Int.land v 255 = v % 256 := land_two_pow_sub_one v 8

/-- `BYTE` reads its index with `Int64()`, which keeps the index's low 64 bits, and a
negative `int64` goes through the same shift, whose product wraps: every index whose
residue modulo `2⁶³` is below 32 selects the byte at that residue, and the indices from 32
to `2⁶³` give 0. -/
theorem opByte_index_mod_two_pow_63 (index : IsWord i) (stack : c.stack = i :: y :: rest) :
    (i % 2 ^ 63 < 32 →
      opByte c = .ok { c with stack := wordByte (i % 2 ^ 63).toNat y :: rest }) ∧
    (32 ≤ i → i < 2 ^ 63 → opByte c = .ok { c with stack := 0 :: rest }) := by
  obtain ⟨N, rfl⟩ := Int.eq_ofNat_of_zero_le index.1
  have low : (int64 N).toNat = N % 2 ^ 64 := by
    rw [int64, if_neg (Int.not_lt.mpr index.1), BitVec.toNat_ofNat, Int.natAbs_ofNat]
  rw [opByte, binaryOp_cons stack]
  refine ⟨fun small => ?_, fun big bound => ?_⟩
  · have keep : ¬(31 : Int) < (int64 N).toInt := by
      rw [BitVec.toInt_eq_toNat_cond, low]
      split <;> omega
    have shift : ((31 - int64 N) * 8).toNat = 8 * (31 - ((N : Int) % 2 ^ 63).toNat) := by
      have e8 : (8 : Uint64).toNat = 8 := rfl
      have e31 : (31 : Uint64).toNat = 31 := rfl
      simp only [BitVec.toNat_mul, BitVec.toNat_sub, low, e8, e31]
      omega
    simp only [if_neg keep, shift, Int.shiftRight_eq_div_pow, land_255, wordByte, Nat.cast_pow,
      Nat.cast_ofNat]
  · have drop : (31 : Int) < (int64 N).toInt := by
      rw [BitVec.toInt_eq_toNat_cond, low]
      split <;> omega
    simp only [if_pos drop]

set_option maxRecDepth 4000 in
/-- `BYTE(2⁶⁴ + 31, 255)` is 255, not 0: only the low 64 bits of the index are read. -/
theorem byte_index_above_two_pow_64 :
    opByte (wordFrame Revision.istanbul [2 ^ 64 + 31, 255]) =
      .ok (wordFrame Revision.istanbul [255]) :=
  ((opByte_index_mod_two_pow_63 (c := wordFrame Revision.istanbul [2 ^ 64 + 31, 255]) (by decide)
    rfl).1 (by decide)).trans rfl

end Byte

/-! `EXP`. -/

/-- The body of `opExp`'s inner loop at bit `i` of the limb `d`. -/
def expBit (d : Uint64) (zx : Int × Int) (i : Nat) : Int × Int :=
  (if d.getLsbD i then toU256 (zx.1 * zx.2) else zx.1, toU256 (zx.2 * zx.2))

theorem expLoop_cons (d : Uint64) (ds : List Uint64) (z x : Int) :
    expLoop (d :: ds) z x = expLoop ds ((List.range 64).foldl (expBit d) (z, x)).1
      ((List.range 64).foldl (expBit d) (z, x)).2 := by
  simp only [expLoop]
  rfl

/-- The number that 64-bit limbs, least significant first, stand for. -/
def limbsValue : List Uint64 → Nat
  | [] => 0
  | d :: ds => d.toNat + 2 ^ 64 * limbsValue ds

theorem limbs_value : ∀ {fuel n : Nat}, n ≤ fuel → limbsValue (limbs fuel n) = n
  | 0, n, h => by rw [Nat.le_zero.mp h]; rfl
  | fuel + 1, n, h => by
      unfold limbs
      split
      · rename_i zero
        rw [zero]
        rfl
      · rename_i pos
        rw [limbsValue, limbs_value (by omega), BitVec.toNat_ofNat]
        exact Nat.mod_add_div n (2 ^ 64)

theorem bits_value (n : Nat) : limbsValue (bits n) = n := limbs_value le_rfl

/-- After `k` bits of the limb `d`, the product holds `z · x^(d mod 2^k)` and the square
`x^(2^k)`, modulo `2²⁵⁶`. -/
theorem expBit_foldl (d : Uint64) (z x : Int) : ∀ k : Nat,
    ((List.range k).foldl (expBit d) (z, x)).1 ≡ z * x ^ (d.toNat % 2 ^ k) [ZMOD 2 ^ 256] ∧
      ((List.range k).foldl (expBit d) (z, x)).2 ≡ x ^ 2 ^ k [ZMOD 2 ^ 256]
  | 0 => by
      simp only [List.range_zero, List.foldl_nil, Nat.pow_zero, Nat.mod_one, pow_zero, mul_one,
        pow_one]
      exact ⟨Int.ModEq.refl _, Int.ModEq.refl _⟩
  | k + 1 => by
      obtain ⟨product, square⟩ := expBit_foldl d z x k
      rw [List.range_succ, List.foldl_append, List.foldl_cons, List.foldl_nil, expBit]
      generalize (List.range k).foldl (expBit d) (z, x) = r at product square
      have split : d.toNat % 2 ^ (k + 1) = d.toNat % 2 ^ k + 2 ^ k * (d.toNat / 2 ^ k % 2) :=
        Nat.mod_pow_succ
      have bit : d.getLsbD k = decide (d.toNat / 2 ^ k % 2 = 1) := Nat.testBit_to_div_mod
      refine ⟨?_, (toU256_modEq _).trans ((square.mul square).trans ?_)⟩
      · rw [bit]
        rcases Nat.mod_two_eq_zero_or_one (d.toNat / 2 ^ k) with zero | one
        · simp only [zero, split, Nat.mul_zero, Nat.add_zero, Nat.zero_ne_one, decide_False,
            Bool.false_eq_true, if_false]
          exact product
        · simp only [one, split, Nat.mul_one, decide_True, if_true]
          refine (toU256_modEq _).trans ((product.mul square).trans ?_)
          rw [pow_add, mul_assoc]
      · rw [← pow_add, ← two_mul, ← Nat.pow_succ']

/-- The whole loop: the product is `z · x^n` modulo `2²⁵⁶` for the number `n` the limbs
stand for. -/
theorem expLoop_modEq : ∀ (ds : List Uint64) (z x : Int),
    expLoop ds z x ≡ z * x ^ limbsValue ds [ZMOD 2 ^ 256]
  | [], z, x => by
      rw [expLoop, limbsValue, pow_zero, mul_one]
  | d :: ds, z, x => by
      obtain ⟨product, square⟩ := expBit_foldl d z x 64
      rw [expLoop_cons]
      generalize (List.range 64).foldl (expBit d) (z, x) = r at product square
      refine (expLoop_modEq ds r.1 r.2).trans ((product.mul (square.pow _)).trans ?_)
      rw [limbsValue, Nat.mod_eq_of_lt d.isLt, pow_add, pow_mul, mul_assoc]

/-- The spec's EXP charge: 10 gas per byte of the exponent before Spurious Dragon, 50 from
it. -/
def expGas (rev : Revision) (y : Int) : Nat :=
  (if Revision.spuriousDragon ≤ rev then 50 else 10) * ((bitLen y + 7) / 8)

section Exp

variable {c : State σ} {x y : Int} {rest : List Int}

/-- `EXP` charges the spec's gas, which fits a `uint64`, before the loop, and leaves
`x^y mod 2²⁵⁶`; an exponent of 0 gives 1. -/
theorem opExp_reference (exponent : IsWord y) (stack : c.stack = x :: y :: rest) :
    opExp c = .ok (if c.gas.toNat < expGas c.rev y then
        ({ c with stack := y :: rest } : State σ).exit .outOfGas
      else
        { c with stack := x ^ y.toNat % 2 ^ 256 :: rest,
                 gas := BitVec.ofNat 64 (c.gas.toNat - expGas c.rev y) }) := by
  have bytes : (bitLen y + 7) / 8 ≤ 32 := by
    have := (bitLen_le_iff y 256).mpr (by have := exponent.1; have := exponent.2; omega)
    omega
  have small : expGas c.rev y < 2 ^ 64 := by
    unfold expGas
    split <;> omega
  have cost : BitVec.ofNat 64 ((bitLen y + 7) / 8) *
      (if Revision.spuriousDragon ≤ c.rev then 50 else 10 : Uint64) =
      BitVec.ofNat 64 (expGas c.rev y) := by
    apply BitVec.eq_of_toNat_eq
    have e50 : (50 : Uint64).toNat = 50 := rfl
    have e10 : (10 : Uint64).toNat = 10 := rfl
    simp only [BitVec.toNat_mul, BitVec.toNat_ofNat, expGas, apply_ite BitVec.toNat, e50, e10]
    split <;> omega
  have power : expLoop (bits y.natAbs) 1 x = x ^ y.toNat % 2 ^ 256 := by
    have word := expLoop_isWord (bits y.natAbs) x isWord_one
    have reduced := expLoop_modEq (bits y.natAbs) 1 x
    have abs : y.natAbs = y.toNat := by have := exponent.1; omega
    rw [bits_value, one_mul] at reduced
    rw [← abs, ← reduced, Int.emod_eq_of_lt word.1 word.2]
  unfold opExp
  rw [State.pop_cons c stack]
  simp only [deref, pure_bind, State.top, List.head?_cons, State.isRevision, decide_eq_true_eq, cost,
    State.consumeGas_ofNat _ small, power]
  split_ifs <;> rfl

set_option maxRecDepth 4000 in
/-- `EXP(3, 5)` at Istanbul charges 50 gas and leaves 243. -/
theorem exp_three_five :
    opExp (wordFrame Revision.istanbul [3, 5]) =
      .ok { wordFrame Revision.istanbul [243] with gas := 50 } := by
  have gas : expGas (wordFrame Revision.istanbul [3, 5]).rev 5 = 50 := by
    simp [expGas, wordFrame, bitLen, Nat.log2, Revision.spuriousDragon, Revision.istanbul]
  rw [opExp_reference (c := wordFrame Revision.istanbul [3, 5]) (by decide) rfl, gas,
    if_neg (by decide)]
  rfl

end Exp

end Evm

end GoEvm
