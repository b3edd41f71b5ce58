import GoEvm.Transition
import Mathlib.Tactic.Ring

/-! The signature check of the `ecrecover` precompile (`precompiled/base.go`).
`validateSignatureValues` trims the leading zero bytes of `r` and `s` and compares what is left
with the 32 bytes of the curve order by `bytes.Compare`, which is the lexicographic order of
byte strings. On strings of one length that is the order of the numbers they encode, so a
value with 32 significant bytes is tested as a number; a shorter value is compared by its first
bytes with the order's, and one that starts with sixteen bytes `0xff` compares above it though
it is a smaller number. The check never accepts a value out of range. -/
namespace GoEvm

namespace Precompiled

/-- `Precompiled.get`: the first `size` bytes of the input, padded with zeros to `size`, and
the rest of the input. -/
def get (input : Bytes) (size : Nat) : Bytes × Bytes :=
  let n := min size input.length
  (input.take n ++ List.replicate (size - n) 0, input.drop n)

/-- `Precompiled.leftPad`: the buffer padded on the left with zeros to `n` bytes. -/
def leftPad (buf : Bytes) (n : Nat) : Bytes :=
  if buf.length > n then buf else List.replicate (n - buf.length) 0 ++ buf

/-- `secp256k1N`, the order of the curve, as the 32 bytes `MustDecodeHex` gives. -/
def secp256k1N : Bytes := toBytesBE 32 0xfffffffffffffffffffffffffffffffebaaedce6af48a03bbfd25e8cd0364141

def one : Bytes := [0x01]

/-- `trimLeftZeros`: the loop over `range b` stops at the first byte that is not zero; when
every byte is zero it ends on the last index, and an empty slice leaves it at 0. -/
def trimLeftZeros (b : Bytes) : Bytes :=
  b.drop ((b.findIdx? (· ≠ 0)).getD (b.length - 1))

/-- `bytes.Compare`: -1, 0 or 1 in the lexicographic order, where a prefix comes first. -/
def bytesCompare : Bytes → Bytes → Int
  | [], [] => 0
  | [], _ :: _ => -1
  | _ :: _, [] => 1
  | x :: xs, y :: ys => if x < y then -1 else if y < x then 1 else bytesCompare xs ys

/-- `validateSignatureValues`. -/
def validateSignatureValues (v : UInt8) (r s : Bytes) : Bool :=
  if v > 1 then false
  else
    let r := trimLeftZeros r
    if bytesCompare r secp256k1N ≥ 0 || bytesCompare r one < 0 then false
    else
      let s := trimLeftZeros s
      if bytesCompare s secp256k1N ≥ 0 || bytesCompare s one < 0 then false
      else true

def Ecrecover.gas (_input : Bytes) (_rev : Revision) : Uint64 := 3000

/-- `Ecrecover.Run`, with `wallet.Ecrecover` as the parameter `recover`: the signer's address
from the hash and the signature, `none` for its error. Every refusal is the empty output. -/
def Ecrecover.run (recover : Bytes → Bytes → Option Address) (input : Bytes) : Except Error Bytes :=
  let input := (get input 128).1
  if ((input.drop 32).take 31).any (· ≠ 0) then pure []
  else
    let v := input.getD 63 0 - 27
    if !validateSignatureValues v ((input.drop 64).take 32) ((input.drop 96).take 32) then pure []
    else
      match recover (input.take 32) ((input.drop 64).take 64 ++ [v]) with
      | none => pure []
      | some addr => pure (leftPad (toBytesBE 20 addr.toNat) 32)

/-- The contract `Ecrecover` the registry installs at address 1. -/
def ecrecover (recover : Bytes → Bytes → Option Address) : PrecompiledContract :=
  ⟨Ecrecover.gas, Ecrecover.run recover⟩

/-! The value of a byte string, big-endian, through `trimLeftZeros`. -/

theorem foldl_bytes_acc (b : Bytes) (acc : Nat) :
    b.foldl (fun acc x => acc * 256 + x.toNat) acc = acc * 2 ^ (8 * b.length) + bytesToNat b := by
  induction b generalizing acc with
  | nil => simp [bytesToNat]
  | cons x rest ih =>
      have head := ih (0 * 256 + x.toNat)
      rw [List.foldl_cons, ih]
      change _ = _ + List.foldl (fun acc x => acc * 256 + x.toNat) (0 * 256 + x.toNat) rest
      rw [head, List.length_cons, Nat.mul_add, Nat.pow_add]
      ring

theorem bytesToNat_cons (x : UInt8) (xs : Bytes) :
    bytesToNat (x :: xs) = x.toNat * 2 ^ (8 * xs.length) + bytesToNat xs := by
  rw [bytesToNat, List.foldl_cons, foldl_bytes_acc, Nat.zero_mul, Nat.zero_add]

theorem trimLeftZeros_of_ne_zero {x : UInt8} (nonzero : x ≠ 0) (rest : Bytes) :
    trimLeftZeros (x :: rest) = x :: rest := by
  simp [trimLeftZeros, List.findIdx?_cons, nonzero]

theorem trimLeftZeros_single (x : UInt8) : trimLeftZeros [x] = [x] := by
  by_cases zero : x = 0
  · simp [trimLeftZeros, zero]
  · exact trimLeftZeros_of_ne_zero zero []

theorem trimLeftZeros_zero_cons (x : UInt8) (rest : Bytes) :
    trimLeftZeros (0 :: x :: rest) = trimLeftZeros (x :: rest) := by
  simp only [trimLeftZeros, List.findIdx?_cons (x := (0 : UInt8)), ne_eq, not_true_eq_false,
    decide_False, Bool.false_eq_true, if_false, List.findIdx?_succ, List.length_cons]
  cases (x :: rest).findIdx? (· ≠ 0) with
  | none => rfl
  | some i => rfl

/-- Trimming keeps the value. -/
theorem bytesToNat_trimLeftZeros : ∀ b : Bytes, bytesToNat (trimLeftZeros b) = bytesToNat b
  | [] => rfl
  | [x] => by rw [trimLeftZeros_single]
  | x :: y :: rest => by
      by_cases zero : x = 0
      · subst zero
        rw [trimLeftZeros_zero_cons, bytesToNat_trimLeftZeros (y :: rest), bytesToNat_cons (0 : UInt8)]
        simp
      · rw [trimLeftZeros_of_ne_zero zero]

theorem length_trimLeftZeros_le (b : Bytes) : (trimLeftZeros b).length ≤ b.length := by
  rw [trimLeftZeros, List.length_drop]
  exact Nat.sub_le _ _

/-! `bytes.Compare` and the order of the numbers. -/

theorem bytesCompare_append_left (c : Bytes) (a b : Bytes) :
    bytesCompare (c ++ a) (c ++ b) = bytesCompare a b := by
  induction c with
  | nil => rfl
  | cons x c ih => simp [bytesCompare, ih]

/-- A larger leading digit makes a larger number, whatever the digits below. -/
theorem lt_of_digit_lt {x y r r' B : Nat} (low : r < B) (digit : x < y) : x * B + r < y * B + r' := by
  have := Nat.mul_le_mul_right B digit
  rw [Nat.succ_mul] at this
  omega

/-- On byte strings of one length, `bytes.Compare` is the order of the numbers they encode. -/
theorem bytesCompare_of_length_eq : ∀ {a b : Bytes}, a.length = b.length →
    bytesCompare a b =
      if bytesToNat a < bytesToNat b then -1 else if bytesToNat b < bytesToNat a then 1 else 0
  | [], [], _ => rfl
  | x :: xs, y :: ys, same => by
      have lengths : xs.length = ys.length := by simpa using same
      have low := bytesToNat_lt xs
      have low' := bytesToNat_lt ys
      rw [lengths] at low
      rw [bytesCompare, bytesToNat_cons, bytesToNat_cons, bytesCompare_of_length_eq lengths, lengths]
      by_cases below : x < y
      · rw [if_pos below, if_pos (lt_of_digit_lt low (show x.toNat < y.toNat from below))]
      by_cases above : y < x
      · have larger : y.toNat * 2 ^ (8 * ys.length) + bytesToNat ys <
            x.toNat * 2 ^ (8 * ys.length) + bytesToNat xs := lt_of_digit_lt low' above
        rw [if_neg below, if_pos above, if_neg (Nat.lt_asymm larger), if_pos larger]
      · obtain rfl : x = y := UInt8.toNat.inj (Nat.le_antisymm (Nat.not_lt.mp above) (Nat.not_lt.mp below))
        simp only [if_neg below, if_neg above, Nat.add_lt_add_iff_left]

/-! The order of the curve. -/

theorem length_secp256k1N : secp256k1N.length = 32 := by decide

theorem bytesToNat_secp256k1N :
    bytesToNat secp256k1N = 0xfffffffffffffffffffffffffffffffebaaedce6af48a03bbfd25e8cd0364141 := by
  decide

/-- The order starts with fifteen bytes `0xff` and a byte `0xfe`. -/
theorem secp256k1N_eq : secp256k1N = List.replicate 15 0xff ++ 0xfe :: secp256k1N.drop 16 := by
  decide

/-- Every number of 31 bytes is below the order. -/
theorem two_pow_lt_secp256k1N : 2 ^ (8 * 31) < bytesToNat secp256k1N := by
  rw [bytesToNat_secp256k1N]
  decide

/-! What the test of `r` and of `s` admits. -/

/-- A byte string that starts with a byte other than zero encodes a number of at least 1. -/
theorem one_le_bytesToNat_cons {y : UInt8} {rest : Bytes} (nonzero : y.toNat ≠ 0) :
    1 ≤ bytesToNat (y :: rest) := by
  have scaled := Nat.mul_le_mul (Nat.one_le_iff_ne_zero.mpr nonzero)
    (Nat.one_le_two_pow (n := 8 * rest.length))
  rw [bytesToNat_cons]
  omega

/-- A value of at most 32 bytes that passes the test, below the order and not below `one`
after the trim, is a number from 1 to below the order. -/
theorem in_range_of_passes {x : Bytes} (short : x.length ≤ 32)
    (below : bytesCompare (trimLeftZeros x) secp256k1N < 0)
    (above : 0 ≤ bytesCompare (trimLeftZeros x) one) :
    1 ≤ bytesToNat x ∧ bytesToNat x < bytesToNat secp256k1N := by
  have length := (length_trimLeftZeros_le x).trans short
  rw [← bytesToNat_trimLeftZeros x]
  generalize trimLeftZeros x = t at below above length
  constructor
  · cases t with
    | nil => simp [bytesCompare, one] at above
    | cons y rest =>
        refine one_le_bytesToNat_cons fun zero => ?_
        obtain rfl : y = 0 := UInt8.toNat.inj zero
        simp [bytesCompare, one] at above
  · rcases Nat.lt_or_ge t.length 32 with shorter | full
    · calc bytesToNat t < 2 ^ (8 * t.length) := bytesToNat_lt t
        _ ≤ 2 ^ (8 * 31) := Nat.pow_le_pow_right (by decide) (by omega)
        _ < bytesToNat secp256k1N := two_pow_lt_secp256k1N
    · rw [bytesCompare_of_length_eq (by rw [length_secp256k1N]; omega)] at below
      split_ifs at below with lt
      · exact lt
      all_goals exact absurd below (by decide)

/-- `validateSignatureValues` never accepts a value out of range: for `r` and `s` of at most
32 bytes, an accepted signature has `v` at most 1 and `r` and `s` from 1 to below the order. -/
theorem validateSignatureValues_sound {v : UInt8} {r s : Bytes} (rShort : r.length ≤ 32)
    (sShort : s.length ≤ 32) (valid : validateSignatureValues v r s = true) :
    v.toNat ≤ 1 ∧ (1 ≤ bytesToNat r ∧ bytesToNat r < bytesToNat secp256k1N) ∧
      (1 ≤ bytesToNat s ∧ bytesToNat s < bytesToNat secp256k1N) := by
  dsimp only [validateSignatureValues] at valid
  split_ifs at valid with high rOut sOut
  simp only [Bool.or_eq_true, decide_eq_true_eq, not_or, not_le, not_lt] at rOut sOut
  exact ⟨Nat.not_lt.mp high, in_range_of_passes rShort rOut.1 rOut.2,
    in_range_of_passes sShort sOut.1 sOut.2⟩

/-- The signature `v` = 0, `r` = `s` = 1. -/
theorem signature_of_ones_in_range :
    validateSignatureValues 0 [1] [1] = true ∧ (0 : UInt8).toNat ≤ 1 ∧
      (1 ≤ bytesToNat [1] ∧ bytesToNat [1] < bytesToNat secp256k1N) ∧
      (1 ≤ bytesToNat [1] ∧ bytesToNat [1] < bytesToNat secp256k1N) :=
  have valid : validateSignatureValues 0 [1] [1] = true := by decide
  ⟨valid, validateSignatureValues_sound (by decide) (by decide) valid⟩

/-- On a value with 32 significant bytes, the test is the numeric one: nothing is trimmed, and a
first byte other than zero puts the value at or above `one`. -/
theorem passes_eq_of_full {x : UInt8} {rest : Bytes} (nonzero : x ≠ 0) (length : rest.length = 31) :
    (bytesCompare (trimLeftZeros (x :: rest)) secp256k1N ≥ 0 ||
        bytesCompare (trimLeftZeros (x :: rest)) one < 0) =
      !decide (bytesToNat (x :: rest) < bytesToNat secp256k1N) := by
  have atLeastOne : 0 ≤ bytesCompare (x :: rest) one := by
    have positive : 0 < x.toNat := Nat.pos_of_ne_zero fun zero => nonzero (UInt8.toNat.inj zero)
    rw [one, bytesCompare, if_neg (show ¬x < 1 from Nat.not_lt.mpr positive)]
    split
    · decide
    · cases rest <;> simp [bytesCompare]
  rw [trimLeftZeros_of_ne_zero nonzero, decide_eq_false (Int.not_lt.mpr atLeastOne), Bool.or_false,
    bytesCompare_of_length_eq (by rw [length_secp256k1N, List.length_cons, length])]
  split_ifs with below <;> simp [below]

/-- On values with 32 significant bytes, `validateSignatureValues` is the numeric test. -/
theorem validateSignatureValues_full {v x y : UInt8} {r s : Bytes} (rHead : x ≠ 0) (sHead : y ≠ 0)
    (rLength : r.length = 31) (sLength : s.length = 31) :
    validateSignatureValues v (x :: r) (y :: s) = true ↔
      v.toNat ≤ 1 ∧ bytesToNat (x :: r) < bytesToNat secp256k1N ∧
        bytesToNat (y :: s) < bytesToNat secp256k1N := by
  dsimp only [validateSignatureValues]
  rw [passes_eq_of_full rHead rLength, passes_eq_of_full sHead sLength,
    show v.toNat ≤ 1 ↔ ¬v > 1 from Nat.not_lt.symm]
  by_cases high : v > 1 <;>
    by_cases rIn : bytesToNat (x :: r) < bytesToNat secp256k1N <;>
    by_cases sIn : bytesToNat (y :: s) < bytesToNat secp256k1N <;>
    simp [high, rIn, sIn]

/-- The signature `v` = 1 and `r` = `s` = `0x80` followed by 31 zero bytes. -/
theorem full_width_signature_valid :
    ((0x80 : UInt8) ≠ 0 ∧ (List.replicate 31 (0 : UInt8)).length = 31) ∧
      (validateSignatureValues 1 (0x80 :: List.replicate 31 0) (0x80 :: List.replicate 31 0) = true ↔
        (1 : UInt8).toNat ≤ 1 ∧ bytesToNat (0x80 :: List.replicate 31 0) < bytesToNat secp256k1N ∧
          bytesToNat (0x80 :: List.replicate 31 0) < bytesToNat secp256k1N) :=
  ⟨⟨by decide, rfl⟩, validateSignatureValues_full (by decide) (by decide) rfl rfl⟩

/-! `Ecrecover.Run` on its 128 bytes: the hash, 31 bytes that must be zero, `v + 27`, `r` and
`s`. -/

theorem get_of_length {input : Bytes} {size : Nat} (exact : input.length = size) :
    (get input size).1 = input := by
  simp [get, exact, List.take_of_length_le]

/-- `Ecrecover.Run` on an input of its five fields. -/
theorem Ecrecover.run_fields (recover : Bytes → Bytes → Option Address) {hash pad r s : Bytes}
    {b : UInt8} (hashLength : hash.length = 32) (padLength : pad.length = 31)
    (rLength : r.length = 32) (sLength : s.length = 32) :
    Ecrecover.run recover (hash ++ pad ++ b :: (r ++ s)) =
      if pad.any (· ≠ 0) then pure []
      else if !validateSignatureValues (b - 27) r s then pure []
      else
        match recover hash (r ++ s ++ [b - 27]) with
        | none => pure []
        | some addr => pure (leftPad (toBytesBE 20 addr.toNat) 32) := by
  have head : (hash ++ pad).length = 63 := by simp [hashLength, padLength]
  have fields : (hash ++ pad ++ b :: (r ++ s)).drop 64 = r ++ s := by
    rw [List.drop_append_eq_append_drop, List.drop_eq_nil_of_le (by omega), head]
    rfl
  have padded : ((hash ++ pad ++ b :: (r ++ s)).drop 32).take 31 = pad := by
    rw [List.append_assoc, List.drop_left' hashLength, List.take_left' padLength]
  have vByte : (hash ++ pad ++ b :: (r ++ s)).getD 63 0 = b := by
    rw [List.getD_append_right _ _ _ _ (by omega), head]
    rfl
  have rField : ((hash ++ pad ++ b :: (r ++ s)).drop 64).take 32 = r := by
    rw [fields, List.take_left' rLength]
  have sField : ((hash ++ pad ++ b :: (r ++ s)).drop 96).take 32 = s := by
    rw [show 96 = 64 + 32 from rfl, ← List.drop_drop, fields, List.drop_left' rLength,
      List.take_of_length_le (by omega)]
  have signature : ((hash ++ pad ++ b :: (r ++ s)).drop 64).take 64 = r ++ s := by
    rw [fields, List.take_of_length_le (by simp [rLength, sLength])]
  have hashField : (hash ++ pad ++ b :: (r ++ s)).take 32 = hash := by
    rw [List.append_assoc, List.take_left' hashLength]
  simp only [Ecrecover.run, get_of_length (by simp [hashLength, padLength, rLength, sLength] : 
    (hash ++ pad ++ b :: (r ++ s)).length = 128), padded, vByte, rField, sField, signature, hashField]

/-- A value `r` whose first byte is zero and whose next sixteen bytes are `0xff` is a number from
1 to below the order, yet `validateSignatureValues` refuses it, whatever `v` and `s`: trimmed,
`r` starts like the order for fifteen bytes and then has `0xff` where the order has `0xfe`, so
`bytes.Compare` puts it above. `Ecrecover` then returns the empty output for every signature
with such an `r`, whatever its recovery would give. -/
theorem validateSignatureValues_refuses_in_range (v : UInt8) (s rest : Bytes)
    (short : rest.length = 15) :
    1 ≤ bytesToNat (0 :: (List.replicate 16 0xff ++ rest)) ∧
      bytesToNat (0 :: (List.replicate 16 0xff ++ rest)) < bytesToNat secp256k1N ∧
      validateSignatureValues v (0 :: (List.replicate 16 0xff ++ rest)) s = false ∧
      ∀ (recover : Bytes → Bytes → Option Address) (hash : Bytes) (b : UInt8), hash.length = 32 →
        s.length = 32 →
        Ecrecover.run recover
          (hash ++ List.replicate 31 0 ++ b :: (0 :: (List.replicate 16 0xff ++ rest) ++ s)) = .ok [] := by
  have tail : List.replicate 16 (0xff : UInt8) ++ rest = 0xff :: (List.replicate 15 0xff ++ rest) := rfl
  have value : bytesToNat (0 :: (List.replicate 16 0xff ++ rest)) =
      bytesToNat (List.replicate 16 0xff ++ rest) := by
    rw [bytesToNat_cons (0 : UInt8)]
    simp
  have trimmed : trimLeftZeros (0 :: (List.replicate 16 0xff ++ rest)) =
      List.replicate 15 0xff ++ 0xff :: rest := by
    rw [tail, trimLeftZeros_zero_cons, trimLeftZeros_of_ne_zero (by decide)]
    rfl
  have above : bytesCompare (List.replicate 15 0xff ++ 0xff :: rest) secp256k1N = 1 := by
    rw [secp256k1N_eq, bytesCompare_append_left, bytesCompare, if_neg (by decide), if_pos (by decide)]
  have refused : ∀ v s, validateSignatureValues v (0 :: (List.replicate 16 0xff ++ rest)) s = false := by
    intro v s
    dsimp only [validateSignatureValues]
    rw [trimmed, above]
    by_cases high : v > 1
    · rw [if_pos high]
    · rw [if_neg high]
      simp
  have positive : 1 ≤ bytesToNat (List.replicate 16 (0xff : UInt8) ++ rest) := by
    rw [tail]
    exact one_le_bytesToNat_cons (by decide)
  refine ⟨value ▸ positive, ?_, refused v s, ?_⟩
  · calc bytesToNat (0 :: (List.replicate 16 0xff ++ rest))
        = bytesToNat (List.replicate 16 0xff ++ rest) := value
      _ < 2 ^ (8 * 31) := by simpa [short] using bytesToNat_lt (List.replicate 16 (0xff : UInt8) ++ rest)
      _ < bytesToNat secp256k1N := two_pow_lt_secp256k1N
  · intro recover hash b hashLength sLength
    rw [Ecrecover.run_fields recover hashLength (List.length_replicate _ _) (by simp [short]) sLength,
      refused, List.any_replicate]
    rfl

/-- The signature `v` = 27, `r` = a zero byte, sixteen bytes `0xff` and fifteen zero bytes, and
`s` = 1, under a zero hash: both values are in range, and a recovery that succeeds is never
called. -/
theorem ecrecover_refuses_in_range_signature :
    bytesToNat (0 :: (List.replicate 16 0xff ++ List.replicate 15 0)) < bytesToNat secp256k1N ∧
      validateSignatureValues 0 (0 :: (List.replicate 16 0xff ++ List.replicate 15 0))
        (List.replicate 31 0 ++ [1]) = false ∧
      Ecrecover.run (fun _ _ => some 0) (List.replicate 32 0 ++ List.replicate 31 0 ++
        27 :: (0 :: (List.replicate 16 0xff ++ List.replicate 15 0) ++ (List.replicate 31 0 ++ [1]))) =
        .ok [] :=
  have refused := validateSignatureValues_refuses_in_range 0 (List.replicate 31 0 ++ [1])
    (List.replicate 15 0) rfl
  ⟨refused.2.1, refused.2.2.1, refused.2.2.2 _ _ 27 rfl rfl⟩

end Precompiled

end GoEvm
