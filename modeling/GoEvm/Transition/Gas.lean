import GoEvm.Transition
import GoEvm.Evm.Call

/-! The gas a CALL sets aside before Tangerine Whistle, and a `Write` in which it mints gas. The
requested gas is added to the base cost in `uint64` with no overflow test: a request within the
base cost of `2^64` wraps the charge to nothing while the callee is handed almost `2^64` gas.
What the callee returns is credited back in `uint64` too, and a parent with less gas than the
base cost and the callee's use wraps to almost `2^64`. The path from `Write` to its top frame is
stated once, a lemma for each function it passes, for a call whose frame ends cleanly. -/
namespace GoEvm

open Evm OpCode

variable {σ : Type}

/-- Before Tangerine Whistle, a request of `2^64` less the base cost is charged nothing and
hands the callee all of it. -/
theorem callGas_frontier_wraps {c : State σ} {gasCost : Uint64} (positive : 0 < gasCost.toNat)
    (frontier : c.rev < Revision.tangerineWhistle) :
    callGas c gasCost (2 ^ 64 - gasCost.toNat) = some (-gasCost, 0) := by
  have inRange : isUint64 (2 ^ 64 - gasCost.toNat) := by
    have := gasCost.isLt
    simp only [isUint64, Bool.and_eq_true, decide_eq_true_eq]
    omega
  have request : uint64 (2 ^ 64 - gasCost.toNat) = -gasCost := by
    apply BitVec.eq_of_toNat_eq
    simp only [uint64, BitVec.toNat_ofNat, BitVec.toNat_neg]
    omega
  simp only [callGas, State.isRevision, Nat.not_le.mpr frontier, decide_False, if_false,
    inRange, Bool.not_true, Bool.false_eq_true, request, ← BitVec.sub_toAdd, BitVec.sub_self]
  rfl

/-- A Frontier CALL with no value and empty windows that requests `2^64` less its base cost: the
charge wraps to nothing, and the callee is handed the request. -/
theorem opCallBody_frontier_wraps {host : Host σ} {c : State σ} {a : Int} {rest : List Int}
    (frontier : c.rev < Revision.tangerineWhistle)
    (stack : c.stack = (2 ^ 64 - callBaseGas c.rev CALL false
      (host.accountExists c.host (bigToAddress a)) : Int) :: a :: 0 :: 0 :: 0 :: 0 :: 0 :: rest) :
    opCallBody host CALL c = callChild host .call { c with stack := rest } (bigToAddress a) c.address
      (bigToAddress a) (some 0) false c.static [] 0 0
      (-BitVec.ofNat 64 (callBaseGas c.rev CALL false (host.accountExists c.host (bigToAddress a)))) := by
  have least : 40 ≤ callBaseGas c.rev CALL false (host.accountExists c.host (bigToAddress a)) := by
    unfold callBaseGas
    split_ifs <;> omega
  have small := callBaseGas_le c.rev CALL false (host.accountExists c.host (bigToAddress a))
  rw [opCallBody_checked (c := c) (rfl : opCodeToCallKind CALL = .ok .call) (v := 0)
    (by rw [stack]; rfl) (by rfl) (by rfl)]
  dsimp only
  rw [show ((decide (CALL = CALL) || decide (CALL = CALLCODE)) && decide ((0 : Int) ≠ 0)) = false
    from rfl]
  generalize callBaseGas c.rev CALL false (host.accountExists c.host (bigToAddress a)) = base
    at least small ⊢
  have exact : (BitVec.ofNat 64 base).toNat = base := by
    rw [BitVec.toNat_ofNat]
    omega
  rw [show (2 ^ 64 - base : Int) = 2 ^ 64 - (BitVec.ofNat 64 base).toNat by rw [exact],
    callGas_frontier_wraps (c := { c with stack := rest }) (by omega) frontier]
  dsimp only
  rw [State.consumeGas_zero]
  rfl

namespace Transition

variable {env : Env} {call : Transition → Contract → Except Fault CallResult} {fuel : Nat}
  {t : Transition} {c : Contract}

/-- `run` of a frame that no cheatcode claims and that is not precompiled: the interpreter. -/
theorem run_of_interpreter (unclaimed : t.config.cheatcodes.any (·.canRun c.codeAddress) = false)
    (interpreted : t.isPrecompiled c.codeAddress = false) :
    t.run env call fuel c = evmRun env.toRuntime (transitionHost call) t.config.rev fuel t c.type
      c.address c.caller c.value c.input c.gas c.depth c.static c.codeAddress := by
  simp only [Transition.run, unclaimed, interpreted, Bool.false_eq_true, if_false]

/-- `applyCall` of a CALL whose transfer goes through and whose frame ends without an error: the
frame's Transition, return data and gas. -/
theorem applyCall_of_run {t₂ t₃ : Transition} {ret : Bytes} {gasLeft : Uint64}
    (moved : (t.withTxn (t.txn.takeSnapshot.1.touchAccount c.address)).transfer c.caller c.address
      c.value = .ok t₂)
    (ran : t₂.run env call fuel c = .ok (t₃, ret, gasLeft, none)) :
    t.applyCall env call fuel c .call = .ok (t₃, ret, gasLeft, 0, none) := by
  simp only [applyCall, Txn.takeSnapshot, if_true] at moved ⊢
  simp only [moved, ran]
  rfl

/-- `Apply` of a message to an account: the top frame's `applyCall` after the nonce increment, in
the context the message sets, with the logs drained into the output. -/
theorem apply_of_call {msg : Message} {r : Address} {t₁ : Transition} {ret : Bytes}
    {gasLeft : Uint64} {address : Address} {err : Option Error} (addressed : msg.«to» = some r)
    (called : (({ t with config.ctx.gasPrice := bigToHash msg.gasPrice,
                         config.ctx.origin := msg.«from» } : Transition).withTxn
      (t.txn.incrNonce msg.«from»)).applyCall env (callx env fuel) fuel
        (newContract .call 0 msg.«from» r msg.value msg.gas msg.input) .call =
          .ok (t₁, ret, gasLeft, address, err)) :
    t.apply env fuel msg = .ok (t₁.withTxn t₁.txn.logs.1,
      { returnValue := ret, logs := t₁.txn.logs.2, gasLeft := gasLeft, success := err.isNone,
        contractAddress := 0 }) := by
  simp only [apply, addressed]
  rw [called]
  simp [addressed]

/-- `Write` of a message `preCheck` accepts: `postCheck` settles the output of `Apply`, and the
empty objects are deleted from Spurious Dragon on. -/
theorem write_of_apply {tp ta : Transition} {msg msg' : Message} {output : Output}
    (pre : t.preCheck msg = (tp, .ok msg')) (applied : tp.apply env fuel msg' = .ok (ta, output)) :
    let settled := ta.postCheck msg' output
    t.write env fuel msg = pure (settled.1.withTxn (settled.1.txn.cleanDeleteObjects
      (if settled.1.isRevision .byzantium then true else settled.1.isRevision .spuriousDragon)),
        pure settled.2.2) := by
  simp only [write, pre, applied]
  rfl

end Transition

/-- The caller of the wrap: it calls `0x20` with `2^64 - 40` gas, no value and empty
windows, then stops (`PUSH1 0` five times, `PUSH1 0x20`, `PUSH8 2^64 - 40`, `CALL`,
`STOP`); its seven pushes cost 21 gas. -/
def wrappingCaller : Bytes :=
  [0x60, 0, 0x60, 0, 0x60, 0, 0x60, 0, 0x60, 0, 0x60, 0x20,
   0x67, 0xff, 0xff, 0xff, 0xff, 0xff, 0xff, 0xff, 0xd8, 0xf1, 0x00]

/-- The backend of the wrap: the sender, address 1, holds 100000 wei; the caller's code is
at `0x10`, and `PUSH1 0, POP, STOP`, which uses 5 gas, at `0x20`. -/
def wrapBackend : Snapshot where
  getStorage _ _ _ := 0
  getAccount a :=
    if a = 1 then some ⟨0, 100000, EmptyRootHash, EmptyCodeHash, []⟩
    else if a = 0x10 then some ⟨0, 0, EmptyRootHash, 0, wrappingCaller⟩
    else if a = 0x20 then some ⟨0, 0, EmptyRootHash, 0, [0x60, 0, 0x50, 0x00]⟩
    else none

/-- A Frontier Transition over `wrapBackend`, with coinbase `0x30`. -/
def wrapTransition : Transition :=
  newTransition ⟨fun _ => 0, ⟨0, 0, 0, 0x30, 0, 0, 0, 0, 0⟩, Revision.frontier, wrapBackend, []⟩

/-- From the sender, nonce 0, gas price 1, to the caller with `21000 + 51` gas: the caller
reaches its CALL with 30 gas, pays `40 + (2^64 - 40) = 0` for it, and gets back the
callee's `2^64 - 45`, so it stops with `2^64 - 15`. -/
def wrapMessage : Message := ⟨0, 1, 21051, some 0x10, 0, [], 1⟩

/-- The spec-modelled table with a hash and precompiled contracts that are never reached:
the runs below hash nothing and call no address below 10. -/
def tableEnv : Env := ⟨⟨dispatchTable, fun _ => 0⟩, fun _ => ⟨fun _ _ => 0, fun _ => pure []⟩⟩

set_option maxRecDepth 4000 in
/-- The output of `Write` returns `2^64 - 15` gas for a message that bought 51 past the
intrinsic gas. -/
theorem write_gasLeft_exceeds_gas :
    ∃ t output, wrapTransition.write tableEnv 20 wrapMessage = pure (t, pure output) ∧
      output.gasLeft.toNat = 2 ^ 64 - 15 :=
  ⟨_, _, Transition.write_of_apply (by rfl) (Transition.apply_of_call rfl
    (Transition.applyCall_of_run (by rfl) (by
      rw [Transition.run_of_interpreter (by rfl) (by rfl)]
      unfold evmRun
      -- the seven pushes cost 21 of the 51 gas
      iterate 7 rw [run_succ_of_step (by rfl) (by decide) (by rfl) (by rfl)]
      -- the CALL's charge wraps to nothing, and the callee is handed `2^64 - 40`
      rw [run_succ_of_step (by rfl) (by decide) (by
        rw [step_of_handler (by rfl) (by rfl) (by decide) (by decide)]
        simp only [Instr.exec]
        rw [opCall_of_call (by rfl), opCallBody_frontier_wraps (a := 0x20) (by decide) (by rfl)]
        rfl) (by rfl)]
      rfl))), by rfl⟩

set_option maxRecDepth 4000 in
/-- After the same `Write`, the sender has been refunded `2^64 - 15` wei for 21051 it
paid, the coinbase holds the 21066 of the gas used, and neither contract holds anything:
`2^64` wei more than the 100000 the accounts held before. -/
theorem write_mints_balance :
    ∃ t output, wrapTransition.write tableEnv 20 wrapMessage = pure (t, pure output) ∧
      t.txn.getBalance 1 = 100000 - 21051 + (2 ^ 64 - 15) ∧
      t.txn.getBalance 0x30 = 21066 ∧ t.txn.getBalance 0x10 = 0 ∧ t.txn.getBalance 0x20 = 0 :=
  ⟨_, _, rfl, rfl, rfl, rfl, rfl⟩

end GoEvm
