import GoEvm.Transition.Gas

/-! The EIP-2200 refund counter across messages. `Txn.SetStorage` classifies a write
against `GetCommittedState`, which reads the backend at the account's root: the value the
slot had before the block, not at the start of the current message. `Write` clears the
counter at the end of every message, so a later message that restores a slot an earlier
one cleared is taken for a recreation, and `SubRefund(15000)` wraps the empty counter. -/
namespace GoEvm

/-- `PUSH1 0, CALLDATALOAD, PUSH1 0, SSTORE, STOP`: stores the first word of the call data
in slot 0. -/
def storeArgument : Bytes := [0x60, 0, 0x35, 0x60, 0, 0x55, 0x00]

/-- An Istanbul Transition over a backend whose one contract, at `0x10`, runs
`storeArgument` and holds 1 in slot 0. -/
def refundTransition : Transition :=
  newTransition ⟨fun _ => 0, ⟨0, 0, 0, 0x30, 0, 0, 0, 0, 0⟩, Revision.istanbul,
    ⟨fun a _ key => if a = 0x10 ∧ key = 0 then 1 else 0,
     fun a => if a = 0x10 then some ⟨0, 0, EmptyRootHash, 0, storeArgument⟩ else none⟩, []⟩

/-- The first message clears slot 0 of `0x10`: its write is a deletion, refunded 15000,
and `Write` then clears the counter. The second message's SSTORE restores the slot to 1:
`SetStorage` compares with the backend's 1 and not with the 0 the message started from,
takes the write for the recreation of a deleted slot, and subtracts 15000 from the empty
counter, which wraps. -/
theorem refund_wraps_across_messages :
    ∃ t output, refundTransition.write tableEnv 20
        ⟨0, 0, 100000, some 0x10, 0, List.replicate 32 0, 1⟩ = pure (t, pure output) ∧
      t.txn.getRefund = 0 ∧ (t.txn.setStorage 0x10 0 1).2 = .modifiedAgain ∧
      (t.txn.setStorage 0x10 0 1).1.getRefund.toNat = 2 ^ 64 - 15000 + 4200 :=
  ⟨_, _, rfl, rfl, rfl, rfl⟩

end GoEvm
