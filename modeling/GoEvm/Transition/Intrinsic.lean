import GoEvm.Transition.PreCheck

/-! The intrinsic gas of a message. `TransactionGasCost` adds the price of the input to the base
cost in `uint64`, and guards each addition by dividing what is left below `2^64 - 1` by the
price before comparing: the guard is exact, so the function fails exactly when the sum as a
number passes `2^64 - 1`, and returns the sum otherwise. `preCheck` then subtracts it from the
gas the message buys and tests the `uint64` difference for a wrap, which is exactly the sum
passing the gas. -/
namespace GoEvm

/-- The intrinsic gas as a number, in the words of the rule: 21000, or 53000 for a creation
from Homestead on, and each byte of the input at 4 when it is zero and otherwise at 68, or 16
from Istanbul on. -/
def exactIntrinsicGas (msg : Message) (isHomestead isIstanbul : Bool) : Nat :=
  (if msg.isContractCreation && isHomestead then 53000 else 21000) +
    (if isIstanbul then 16 else 68) * (msg.input.length - msg.input.count 0) + 4 * msg.input.count 0

/-- The divide-before-compare guard of `TransactionGasCost`: it fails exactly when adding
`count * price` would carry the cost past `2^64 - 1`. -/
theorem guard_iff (cost price count : Uint64) (positive : 0 < price.toNat) :
    (BitVec.allOnes 64 - cost) / price < count ↔
      2 ^ 64 - 1 < cost.toNat + count.toNat * price.toNat := by
  have := cost.isLt
  rw [BitVec.lt_def, BitVec.toNat_udiv, BitVec.toNat_sub, BitVec.toNat_allOnes,
    show (2 ^ 64 - cost.toNat + (2 ^ 64 - 1)) % 2 ^ 64 = 2 ^ 64 - 1 - cost.toNat by omega,
    Nat.div_lt_iff_lt_mul positive]
  omega

/-- Past the guard, the `uint64` sum is the sum as a number. -/
theorem add_mul_toNat (cost price count : Uint64)
    (fits : cost.toNat + count.toNat * price.toNat ≤ 2 ^ 64 - 1) :
    (cost + count * price).toNat = cost.toNat + count.toNat * price.toNat := by
  rw [BitVec.toNat_add, BitVec.toNat_mul, Nat.mod_eq_of_lt (a := count.toNat * price.toNat) (by omega),
    Nat.mod_eq_of_lt (by omega)]

/-- `TransactionGasCost` with its two guards as one test of the sum. -/
theorem transactionGasCost_guarded (cost price count zeros : Uint64) (positive : 0 < price.toNat) :
    (if (BitVec.allOnes 64 - cost) / price < count then (throw .nonZerosOverflow : Except Error Uint64)
      else if (BitVec.allOnes 64 - (cost + count * price)) / 4 < zeros then throw .zerosOverflow
      else pure (cost + count * price + zeros * 4)).toOption =
    if cost.toNat + count.toNat * price.toNat + zeros.toNat * 4 ≤ 2 ^ 64 - 1 then
      some (BitVec.ofNat 64 (cost.toNat + count.toNat * price.toNat + zeros.toNat * 4))
    else none := by
  have four : (4 : Uint64).toNat = 4 := rfl
  by_cases first : (BitVec.allOnes 64 - cost) / price < count
  · rw [if_pos first, if_neg (by rw [guard_iff _ _ _ positive] at first; omega)]
    rfl
  rw [if_neg first]
  rw [guard_iff _ _ _ positive, not_lt] at first
  have added := add_mul_toNat _ _ _ first
  by_cases second : (BitVec.allOnes 64 - (cost + count * price)) / 4 < zeros
  · rw [if_pos second, if_neg (by rw [guard_iff _ _ _ (by decide), added, four] at second; omega)]
    rfl
  rw [if_neg second]
  rw [guard_iff _ _ _ (by decide), added, four, not_lt] at second
  have sum := add_mul_toNat (cost + count * price) 4 zeros (by rw [added, four]; omega)
  rw [added, four] at sum
  rw [if_pos second]
  exact congrArg some (BitVec.eq_of_toNat_eq (by rw [sum, BitVec.toNat_ofNat, Nat.mod_eq_of_lt (by omega)]))

/-- `TransactionGasCost`, for every input of fewer than `2^64` bytes (a Go slice has fewer than
`2^63`) and every pair of revision flags, fails exactly when the intrinsic gas as a number
passes `2^64 - 1`, and returns it otherwise. -/
theorem transactionGasCost_toOption (msg : Message) (isHomestead isIstanbul : Bool)
    (fits : msg.input.length < 2 ^ 64) :
    (transactionGasCost msg isHomestead isIstanbul).toOption =
      if exactIntrinsicGas msg isHomestead isIstanbul ≤ 2 ^ 64 - 1 then
        some (BitVec.ofNat 64 (exactIntrinsicGas msg isHomestead isIstanbul))
      else none := by
  have zeros := List.count_le_length 0 msg.input
  have base : (if msg.isContractCreation && isHomestead then TxGasContractCreation else TxGas).toNat =
      if msg.isContractCreation && isHomestead then 53000 else 21000 := by
    split <;> rfl
  have price : (if isIstanbul then (16 : Uint64) else 68).toNat = if isIstanbul then 16 else 68 := by
    split <;> rfl
  dsimp only [transactionGasCost, exactIntrinsicGas]
  split
  · rename_i empty
    have none_zero : msg.input.count 0 = 0 := by omega
    have within : (if msg.isContractCreation && isHomestead then 53000 else 21000) ≤ 2 ^ 64 - 1 := by
      split <;> decide
    rw [empty, none_zero, Nat.sub_zero, Nat.mul_zero, Nat.mul_zero, Nat.add_zero, if_pos within]
    exact congrArg some (BitVec.eq_of_toNat_eq (by
      rw [base, BitVec.toNat_ofNat]
      split <;> rfl))
  · have zerosN : (BitVec.ofNat 64 (msg.input.count 0)).toNat = msg.input.count 0 := by
      rw [BitVec.toNat_ofNat, Nat.mod_eq_of_lt (by omega)]
    have nonZerosN : (BitVec.ofNat 64 msg.input.length - BitVec.ofNat 64 (msg.input.count 0)).toNat =
        msg.input.length - msg.input.count 0 := by
      rw [BitVec.toNat_sub, BitVec.toNat_ofNat, BitVec.toNat_ofNat]
      omega
    rw [transactionGasCost_guarded _ _ _ _ (by rw [price]; split <;> decide), base, price, zerosN,
      nonZerosN, Nat.mul_comm (msg.input.length - _), Nat.mul_comm _ 4]

/-- The only error of `TransactionGasCost` is one of its two overflows. -/
theorem transactionGasCost_error {msg : Message} {isHomestead isIstanbul : Bool} {err : Error}
    (h : transactionGasCost msg isHomestead isIstanbul = .error err) :
    err = .nonZerosOverflow ∨ err = .zerosOverflow := by
  dsimp only [transactionGasCost] at h
  split_ifs at h <;> cases h <;> simp

/-- The only error of `SubBalance` is the lack of funds. -/
theorem Txn.subBalance_error {t : Txn} {a : Address} {amount : Int} {err : Error}
    (h : t.subBalance a amount = .error err) : err = .notEnoughFunds := by
  unfold Txn.subBalance at h
  split_ifs at h <;> cases h
  rfl

/-- The wrap test of `preCheck`: `gas - cost` in `uint64` is above `gas` exactly when the cost
is. -/
theorem lt_sub_iff (gas cost : Uint64) : gas < gas - cost ↔ gas.toNat < cost.toNat := by
  have := cost.isLt
  rw [BitVec.lt_def, BitVec.toNat_sub]
  omega

namespace Transition

variable (t : Transition) {msg : Message}

/-- The tests after the debit fail on the intrinsic gas, for an overflow or for too little gas,
exactly when the intrinsic gas as a number passes the gas the message buys. -/
theorem postDebitCheck_intrinsic (fits : msg.input.length < 2 ^ 64) :
    (∃ err ∈ [Error.nonZerosOverflow, .zerosOverflow, .intrinsicGasTooLow],
        t.postDebitCheck msg = .error err) ↔
      msg.gas.toNat < exactIntrinsicGas msg (t.isRevision .homestead) (t.isRevision .istanbul) := by
  have exact := transactionGasCost_toOption msg (t.isRevision .homestead) (t.isRevision .istanbul) fits
  have := msg.gas.isLt
  unfold postDebitCheck intrinsicGas
  cases h : transactionGasCost msg (t.isRevision .homestead) (t.isRevision .istanbul) with
  | error e =>
      rw [h] at exact
      split at exact
      · cases exact
      refine ⟨fun _ => by omega, fun _ => ⟨e, ?_, rfl⟩⟩
      rcases transactionGasCost_error h with rfl | rfl <;> simp
  | ok cost =>
      rw [h] at exact
      split at exact
      · rename_i within
        have costN : cost.toNat = exactIntrinsicGas msg (t.isRevision .homestead) (t.isRevision .istanbul) := by
          rw [Option.some.inj exact, BitVec.toNat_ofNat, Nat.mod_eq_of_lt (by omega)]
        dsimp only
        rw [← costN, ← lt_sub_iff]
        by_cases low : msg.gas < msg.gas - cost
        · exact ⟨fun _ => low, fun _ => ⟨.intrinsicGasTooLow, by simp, if_pos low⟩⟩
        · refine ⟨fun ⟨err, mem, rejected⟩ => ?_, fun lt => absurd lt low⟩
          rw [if_neg low] at rejected
          split at rejected
          · cases rejected
            simp at mem
          · cases rejected
      · cases exact

/-- `preCheck` rejects a message for its intrinsic gas exactly when the message passes the
nonce test and the debit and the intrinsic gas as a number passes the gas it buys. -/
theorem preCheck_intrinsic (fits : msg.input.length < 2 ^ 64) :
    (∃ err ∈ [Error.nonZerosOverflow, .zerosOverflow, .intrinsicGasTooLow],
        (t.preCheck msg).2 = .error err) ↔
      t.txn.getNonce msg.«from» = msg.nonce ∧
        (∃ txn, t.txn.subBalance msg.«from» (msg.gasPrice * msg.gas.toNat) = .ok txn) ∧
        msg.gas.toNat < exactIntrinsicGas msg (t.isRevision .homestead) (t.isRevision .istanbul) := by
  rw [preCheck_eq]
  split
  · rename_i mismatch
    refine ⟨fun ⟨err, mem, rejected⟩ => ?_, fun ⟨matched, _⟩ => absurd matched mismatch⟩
    cases rejected
    simp at mem
  rename_i matched
  split
  · rename_i e debit
    refine ⟨fun ⟨err, mem, rejected⟩ => ?_, fun ⟨_, ⟨txn, debited⟩, _⟩ => by
      rw [debit] at debited
      cases debited⟩
    rw [Txn.subBalance_error debit] at rejected
    cases rejected
    simp at mem
  · rename_i txn debit
    rw [postDebitCheck_intrinsic _ fits, withTxn_isRevision, withTxn_isRevision]
    exact ⟨fun lt => ⟨not_not.mp matched, ⟨txn, debit⟩, lt⟩, fun ⟨_, _, lt⟩ => lt⟩

end Transition

/-- For every message of fewer than `2^64` input bytes, `TransactionGasCost` fails exactly when
the intrinsic gas as a number passes `2^64 - 1` and returns it otherwise, for every pair of
revision flags; and `preCheck` rejects the message for its intrinsic gas exactly when, past the
nonce test and the debit, the intrinsic gas passes the gas the message buys. -/
theorem intrinsic_gas_exact (msg : Message) (fits : msg.input.length < 2 ^ 64) :
    (∀ isHomestead isIstanbul : Bool, (transactionGasCost msg isHomestead isIstanbul).toOption =
      if exactIntrinsicGas msg isHomestead isIstanbul ≤ 2 ^ 64 - 1 then
        some (BitVec.ofNat 64 (exactIntrinsicGas msg isHomestead isIstanbul))
      else none) ∧
    ∀ t : Transition,
      (∃ err ∈ [Error.nonZerosOverflow, .zerosOverflow, .intrinsicGasTooLow],
          (t.preCheck msg).2 = .error err) ↔
        t.txn.getNonce msg.«from» = msg.nonce ∧
          (∃ txn, t.txn.subBalance msg.«from» (msg.gasPrice * msg.gas.toNat) = .ok txn) ∧
          msg.gas.toNat < exactIntrinsicGas msg (t.isRevision .homestead) (t.isRevision .istanbul) :=
  ⟨fun isHomestead isIstanbul => transactionGasCost_toOption msg isHomestead isIstanbul fits,
    fun t => t.preCheck_intrinsic fits⟩

/-- A creation from Homestead on, at Istanbul, whose input is a zero byte and a byte 7:
53000 + 16 + 4. -/
theorem creation_intrinsic_gas :
    ([0, 7] : Bytes).length < 2 ^ 64 ∧
      (transactionGasCost ⟨0, 1, 60000, none, 0, [0, 7], 1⟩ true true).toOption = some 53020 :=
  ⟨by decide, ((intrinsic_gas_exact ⟨0, 1, 60000, none, 0, [0, 7], 1⟩ (by decide)).1 true true).trans
    (by decide)⟩

end GoEvm
