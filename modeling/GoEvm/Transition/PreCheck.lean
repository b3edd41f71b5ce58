import GoEvm.Transition

/-! What `Write` leaves behind when it rejects a message. `preCheck` tests the nonce,
then debits the upfront `gasPrice * gas` from the sender, and only then tests the
intrinsic gas and the value; there is no snapshot around it, so a message rejected by one
of the later tests keeps the debit in the overlay. -/
namespace GoEvm

namespace Transition

variable (t : Transition) (msg : Message)

/-- The intrinsic gas `preCheck` and `postCheck` compute for the message. -/
def intrinsicGas : Except Error Uint64 :=
  transactionGasCost msg (t.isRevision Revision.homestead) (t.isRevision Revision.istanbul)

/-- The tests `preCheck` makes after the debit, on the debited Transition. -/
def postDebitCheck : Except Error Message :=
  match t.intrinsicGas msg with
  | .error err => throw err
  | .ok intrinsicGasCost =>
      if msg.gas < msg.gas - intrinsicGasCost then throw .intrinsicGasTooLow
      else if t.txn.getBalance msg.«from» < msg.value then throw .notEnoughFunds
      else pure { msg with gas := msg.gas - intrinsicGasCost }

theorem withTxn_isRevision (txn : Txn) (rev : Revision) :
    (t.withTxn txn).isRevision rev = t.isRevision rev := rfl

/-- `preCheck` as two stages: the nonce and the debit, which leave the Transition as it
was when they fail, and the later tests, whose failure keeps the debit. -/
theorem preCheck_eq :
    t.preCheck msg =
      if t.txn.getNonce msg.«from» ≠ msg.nonce then (t, throw .incorrectNonce)
      else
        match t.txn.subBalance msg.«from» (msg.gasPrice * msg.gas.toNat) with
        | .error err => (t, throw (if err = .notEnoughFunds then .notEnoughFundsForGas else err))
        | .ok txn => (t.withTxn txn, (t.withTxn txn).postDebitCheck msg) := by
  unfold preCheck postDebitCheck intrinsicGas
  dsimp only
  split
  · rfl
  · cases t.txn.subBalance msg.«from» (msg.gasPrice * msg.gas.toNat) with
    | error err => rfl
    | ok txn =>
        simp only [withTxn_isRevision]
        cases transactionGasCost msg (t.isRevision Revision.homestead)
          (t.isRevision Revision.istanbul) with
        | error err => rfl
        | ok cost => dsimp only; split_ifs <;> rfl

/-- A rejected message leaves the Transition unchanged when the nonce test or the debit
fails, and otherwise exactly debited by `gasPrice * gas`. -/
theorem preCheck_error_cases {t' : Transition} {err : Error}
    (rejected : t.preCheck msg = (t', throw err)) :
    t' = t ∨ ∃ txn, t.txn.subBalance msg.«from» (msg.gasPrice * msg.gas.toNat) = .ok txn ∧
      t' = t.withTxn txn := by
  rw [preCheck_eq] at rejected
  split at rejected
  · exact .inl (Prod.mk.inj rejected).1.symm
  · split at rejected
    · exact .inl (Prod.mk.inj rejected).1.symm
    · rename_i txn debited
      exact .inr ⟨txn, debited, (Prod.mk.inj rejected).1.symm⟩

/-- An accepted message passed the nonce test and the debit, and `preCheck` passes on the
sender's message with the debited Transition. -/
theorem preCheck_accepts {msg' : Message} (accepted : (t.preCheck msg).2 = .ok msg') :
    ∃ txn, t.txn.subBalance msg.«from» (msg.gasPrice * msg.gas.toNat) = .ok txn ∧
      t.preCheck msg = (t.withTxn txn, .ok msg') ∧ msg'.«from» = msg.«from» := by
  rw [preCheck_eq] at accepted ⊢
  split at accepted
  · cases accepted
  rename_i matched
  split at accepted
  · cases accepted
  rename_i txn debited
  refine ⟨txn, debited, by rw [if_neg matched]; exact Prod.ext rfl accepted, ?_⟩
  unfold postDebitCheck at accepted
  split at accepted
  · cases accepted
  · split_ifs at accepted
    cases accepted
    rfl

end Transition

/-- A message from address 1, nonce 0, with 1 gas at gas price 1 and no input, to
address 2, at Istanbul, over a backend whose only account, at address 1, holds a balance
of 1: the sender can pay for the single unit of gas but not for the 21000 of intrinsic gas,
and the rejection leaves the sender debited. -/
theorem write_keeps_gas_debit (env : Env) (fuel : Nat) :
    ∃ t : Transition,
      (newTransition ⟨fun _ => 0, ⟨0, 0, 0, 0, 0, 0, 0, 0, 0⟩, Revision.istanbul,
          ⟨fun _ _ _ => 0, fun a => if a = 1 then
            some ⟨0, 1, EmptyRootHash, EmptyCodeHash, []⟩ else none⟩, []⟩).write
        env fuel ⟨0, 1, 1, some 2, 0, [], 1⟩ = pure (t, throw .intrinsicGasTooLow) ∧
      t.txn.getBalance 1 = 0 :=
  ⟨_, rfl, rfl⟩

end GoEvm
