import GoEvm.Transition.Gas

/-! The account a creation runs against. `applyCreate` replaces the account at the new
address with a fresh one (`CreateAccount`, which keeps only the balance) from Spurious
Dragon on only. Before, the init code runs against the account the pre-state holds at that
address, whose storage the collision test does not look at: an account with no nonce and
no code but with storage passes the test, and its slots are read and kept. -/
namespace GoEvm

/-- An environment whose hash gives the creation address `0xc0`; the creation below
depends on the hash only through that address. -/
def creationEnv : Env := ⟨⟨Evm.dispatchTable, fun _ => 0xc0⟩, tableEnv.precompiled⟩

/-- A Frontier Transition over a backend whose only account, at `0xc0`, has no nonce, no
balance and no code, and a storage root under which slot 0 holds 7. -/
def storedTransition : Transition :=
  newTransition ⟨fun _ => 0, ⟨0, 0, 0, 0x30, 0, 0, 0, 0, 0⟩, Revision.frontier,
    ⟨fun a root key => if a = 0xc0 ∧ root = 1 ∧ key = 0 then 7 else 0,
     fun a => if a = 0xc0 then some ⟨0, 0, 1, EmptyCodeHash, []⟩ else none⟩, []⟩

/-- The creation message from 1 whose init code is `PUSH1 0, SLOAD, PUSH1 1, SSTORE, STOP`
passes the collision test at `0xc0`; its SLOAD of the unwritten slot 0 reads 7, which it
copies to slot 1, and the deployed contract keeps slot 0 at 7. -/
theorem create_reads_prestate_storage :
    ∃ t output, storedTransition.write creationEnv 20
        ⟨0, 0, 100000, none, 0, [0x60, 0, 0x54, 0x60, 1, 0x55, 0x00], 1⟩ = pure (t, pure output) ∧
      output.success = true ∧ output.contractAddress = 0xc0 ∧
      t.txn.getState 0xc0 1 = 7 ∧ t.txn.getState 0xc0 0 = 7 :=
  ⟨_, _, rfl, rfl, rfl, rfl, rfl⟩

end GoEvm
