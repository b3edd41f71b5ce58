import GoEvm.Evm.Spend
import GoEvm.Transition.Frames
import GoEvm.Transition.Intrinsic

/-! The gas a frame of `Callx` returns. From Spurious Dragon on, every frame `Callx` runs,
through a cheatcode, a precompiled contract or the interpreter, and whatever it calls at any
depth, returns at most the gas it was given: by induction on the fuel, with the run of the
interpreter as the step and the Transition as a host honest from every state of its
configuration. The interpreter needs Tangerine Whistle, for the charge of the call opcodes; a
creation needs Spurious Dragon too: the deposit charge `int64(len(retValue)) * 200` is
compared signed, and only the size limit of Spurious Dragon keeps it below `2⁶³` for every
code a frame can return, a precompiled contract's output included. On that bound `Write`
settles the gas: `postCheck` caps the refund at half the gas used, so neither the credit of the
sender nor the gas used wraps, and the two credits add up to the upfront debit. -/
namespace GoEvm

open Evm

/-- A subtraction that the signed comparison before it allows, of an amount below `2⁶³`, does
not wrap. -/
theorem toNat_sub_of_not_slt {a b : Uint64} (small : b.toNat < 2 ^ 63) (allowed : ¬a.slt b) :
    (a - b).toNat ≤ a.toNat := by
  have := a.isLt
  rw [BitVec.slt, decide_eq_true_eq, BitVec.toInt_eq_toNat_cond, BitVec.toInt_eq_toNat_cond] at allowed
  rw [BitVec.toNat_sub_of_le (BitVec.le_def.mpr (by split_ifs at allowed <;> omega))]
  exact Nat.sub_le _ _

/-- A precompiled contract returns its gas less its charge, or none. -/
theorem runPrecompiled_gasLeft (contract : PrecompiledContract) (input : Bytes) (gas : Uint64)
    (rev : Revision) : (runPrecompiled contract input gas rev).2.1.toNat ≤ gas.toNat := by
  unfold runPrecompiled
  dsimp only
  split
  · exact Nat.zero_le _
  · rename_i enough
    split
    · exact Nat.zero_le _
    · exact (BitVec.toNat_sub_of_le (BitVec.not_lt.mp enough)).le.trans (Nat.sub_le _ _)

namespace Transition

variable {env : Env} {call : Transition → Contract → Except Fault CallResult} {fuel : Nat}
  {t : Transition} {c : Contract}

/-- The Transition as the interpreter's host is honest from every state whose configuration is
at Spurious Dragon or later, when the frames it calls return at most the gas they are given
from there. -/
theorem transitionHost_honest (calls : ∀ t c r, call t c = .ok r → Extends t r.1)
    (returns : ∀ t c r, Revision.spuriousDragon ≤ t.config.rev → call t c = .ok r →
      r.2.2.1.toNat ≤ c.gas.toNat) :
    (transitionHost call).Honest fun t => Revision.spuriousDragon ≤ t.config.rev :=
  ⟨fun t dragon _ _ _ _ _ _ _ _ _ _ _ _ _ _ _ called => returns t _ _ dragon called,
    fun _ _ _ _ effect dragon => by rw [(hostEffect_extends calls effect).1]; exact dragon⟩

/-- The deposit of a creation's code from Spurious Dragon on returns at most the gas the init
code left. -/
theorem depositCode_gasLeft {snapshot : Nat} {address : Address} {ret : Bytes} {gasLeft : Uint64}
    {r : CallResult} (dragon : Revision.spuriousDragon ≤ t.config.rev)
    (h : t.depositCode env snapshot address ret gasLeft = .ok r) : r.2.2.1.toNat ≤ gasLeft.toNat := by
  unfold depositCode at h
  split at h
  · obtain ⟨_, -, h⟩ := bind_eq_ok.mp h
    obtain rfl := pure_eq_ok.mp h
    exact Nat.zero_le _
  rename_i fits
  have short : ret.length ≤ spuriousDragonMaxCodeSize := by
    simp only [isRevision, dragon, decide_True, Bool.true_and, decide_eq_true_eq] at fits
    omega
  dsimp only at h
  split at h
  · split at h
    · obtain ⟨_, -, h⟩ := bind_eq_ok.mp h
      obtain rfl := pure_eq_ok.mp h
      exact Nat.zero_le _
    · obtain rfl := pure_eq_ok.mp h
      exact Nat.le_refl _
  · rename_i enough
    obtain rfl := pure_eq_ok.mp h
    refine toNat_sub_of_not_slt ?_ enough
    have : (200 : Uint64).toNat = 200 := rfl
    unfold spuriousDragonMaxCodeSize at short
    rw [BitVec.toNat_mul, BitVec.toNat_ofNat, this, Nat.mod_eq_of_lt (a := ret.length) (by omega),
      Nat.mod_eq_of_lt (by omega)]
    omega

variable (wellFormed : env.WellFormed) (calls : ∀ t c r, call t c = .ok r → Extends t r.1)
  (returns : ∀ t c r, Revision.spuriousDragon ≤ t.config.rev → call t c = .ok r →
    r.2.2.1.toNat ≤ c.gas.toNat)
include wellFormed calls returns

/-- `run`: a cheatcode returns the gas it was given, a precompiled contract its gas less its
charge, and the interpreter at most its gas. -/
theorem run_gasLeft (dragon : Revision.spuriousDragon ≤ t.config.rev)
    {r : Transition × Bytes × Uint64 × Option Error} (h : t.run env call fuel c = .ok r) :
    r.2.2.1.toNat ≤ c.gas.toNat := by
  unfold Transition.run at h
  split at h
  · obtain rfl := pure_eq_ok.mp h
    exact Nat.le_refl _
  split at h
  · obtain rfl := pure_eq_ok.mp h
    exact runPrecompiled_gasLeft _ _ _ _
  · exact evmRun_spends wellFormed (transitionHost_honest calls returns) dragon
      (Nat.le_trans (by decide) dragon) h

theorem applyCall_gasLeft {callType : CallKind} (dragon : Revision.spuriousDragon ≤ t.config.rev)
    {r : CallResult} (h : t.applyCall env call fuel c callType = .ok r) :
    r.2.2.1.toNat ≤ c.gas.toNat := by
  unfold applyCall at h
  simp only [Txn.takeSnapshot] at h
  split at h
  · obtain rfl := pure_eq_ok.mp h
    exact Nat.le_refl _
  · rename_i t₂ moved
    obtain ⟨out, ran, h⟩ := bind_eq_ok.mp h
    have spent := run_gasLeft wellFormed calls returns
      (by rw [(moved_extends moved).1]; exact dragon) ran
    split at h
    · obtain rfl := pure_eq_ok.mp h
      exact spent
    · obtain ⟨_, -, h⟩ := bind_eq_ok.mp h
      obtain rfl := pure_eq_ok.mp h
      exact spent

theorem applyCreate_gasLeft (dragon : Revision.spuriousDragon ≤ t.config.rev) {r : CallResult}
    (h : t.applyCreate env call fuel c = .ok r) : r.2.2.1.toNat ≤ c.gas.toNat := by
  unfold applyCreate at h
  obtain ⟨address, -, h⟩ := bind_eq_ok.mp h
  dsimp only at h
  split at h
  · obtain rfl := pure_eq_ok.mp h
    exact Nat.zero_le _
  split at h
  · obtain rfl := pure_eq_ok.mp h
    exact Nat.le_refl _
  · rename_i t₁ moved
    obtain ⟨out, ran, h⟩ := bind_eq_ok.mp h
    have later := (settle_extends _ address).1.trans (transfer_extends moved)
    have spent := run_gasLeft wellFormed calls returns (by rw [later.1]; exact dragon) ran
    split at h
    · obtain ⟨_, -, h⟩ := bind_eq_ok.mp h
      obtain rfl := pure_eq_ok.mp h
      exact spent
    · have kept := run_extends wellFormed calls ran
      exact (depositCode_gasLeft (by rw [kept.1, later.1]; exact dragon) h).trans spent

end Transition

/-- From Spurious Dragon on, every frame `Callx` runs returns at most the gas it was given,
whatever it runs and whatever it calls, at any depth. -/
theorem callx_gasLeft {env : Env} (wellFormed : env.WellFormed) :
    ∀ {fuel : Nat} {t : Transition} {c : Contract} {r : CallResult},
      Revision.spuriousDragon ≤ t.config.rev → callx env fuel t c = .ok r →
        r.2.2.1.toNat ≤ c.gas.toNat
  | 0, _, _, _, _, h => absurd h throw_ne_ok
  | fuel + 1, t, c, r, dragon, h => by
      have calls : ∀ t c r, callx env fuel t c = .ok r → Transition.Extends t r.1 :=
        fun _ _ _ => callx_extends wellFormed
      have returns : ∀ t c r, Revision.spuriousDragon ≤ t.config.rev → callx env fuel t c = .ok r →
          r.2.2.1.toNat ≤ c.gas.toNat :=
        fun _ _ _ => callx_gasLeft wellFormed
      unfold callx at h
      split at h
      · exact Transition.applyCreate_gasLeft wellFormed calls returns dragon h
      · exact Transition.applyCall_gasLeft wellFormed calls returns dragon h

/-- The refund arithmetic of `postCheck`, for gas left within the gas: the refund is capped at
half the gas used, so the gas left with the refund stays within the gas and the gas used less
the refund is the rest of it. -/
theorem refund_within {gas gasLeft : Uint64} (refund : Uint64) (within : gasLeft.toNat ≤ gas.toNat) :
    let used := gas - gasLeft
    let refund := if used / 2 < refund then used / 2 else refund
    (gasLeft + refund).toNat ≤ gas.toNat ∧
      (used - refund).toNat = gas.toNat - (gasLeft + refund).toNat := by
  intro used capped
  have usedN : used.toNat = gas.toNat - gasLeft.toNat :=
    BitVec.toNat_sub_of_le (BitVec.le_def.mpr within)
  have two : (2 : Uint64).toNat = 2 := rfl
  have cappedN : capped.toNat ≤ used.toNat / 2 := by
    simp only [capped]
    split_ifs with lt
    · rw [BitVec.toNat_udiv, two]
    · rw [BitVec.lt_def, BitVec.toNat_udiv, two] at lt
      omega
  have := gas.isLt
  have sumN : (gasLeft + capped).toNat = gasLeft.toNat + capped.toNat := by
    rw [BitVec.toNat_add]
    exact Nat.mod_eq_of_lt (by omega)
  rw [sumN, BitVec.toNat_sub_of_le (BitVec.le_def.mpr (by omega)), usedN]
  omega

namespace Transition

variable {env : Env} {fuel : Nat} {t t' : Transition} {msg : Message} {out : Output}

/-- An accepted message: the debit keeps the configuration, and the tests after it pass. -/
theorem preCheck_ok {t₁ : Transition} {msg' : Message} (accepted : t.preCheck msg = (t₁, .ok msg')) :
    t₁.config = t.config ∧ t₁.postDebitCheck msg = .ok msg' := by
  rw [preCheck_eq] at accepted
  split at accepted
  · cases accepted
  split at accepted
  · cases accepted
  · obtain ⟨rfl, h⟩ := Prod.mk.inj accepted
    exact ⟨rfl, h⟩

/-- The tests after the debit, when they pass: the message keeps its fields, with its gas less
an intrinsic gas that fits in it. -/
theorem postDebitCheck_ok {msg' : Message} (h : t.postDebitCheck msg = .ok msg') :
    ∃ cost, t.intrinsicGas msg = .ok cost ∧ cost.toNat ≤ msg.gas.toNat ∧
      msg' = { msg with gas := msg.gas - cost } := by
  unfold postDebitCheck at h
  split at h
  · cases h
  rename_i cost costEq
  split_ifs at h with low
  cases h
  exact ⟨cost, costEq, Nat.not_lt.mp (mt (lt_sub_iff _ _).mpr low), rfl⟩

/-- `Apply` from Spurious Dragon on returns at most the message's gas, in a Transition of the
same revision and coinbase. -/
theorem apply_gasLeft (wellFormed : env.WellFormed) (dragon : Revision.spuriousDragon ≤ t.config.rev)
    (h : t.apply env fuel msg = .ok (t', out)) :
    out.gasLeft.toNat ≤ msg.gas.toNat ∧ t'.config.rev = t.config.rev ∧
      t'.config.ctx.coinbase = t.config.ctx.coinbase := by
  have calls : ∀ t c r, callx env fuel t c = .ok r → Extends t r.1 :=
    fun _ _ _ => callx_extends wellFormed
  have returns : ∀ t c r, Revision.spuriousDragon ≤ t.config.rev → callx env fuel t c = .ok r →
      r.2.2.1.toNat ≤ c.gas.toNat :=
    fun _ _ _ => callx_gasLeft wellFormed
  unfold apply at h
  dsimp only at h
  revert h
  cases msg.«to» with
  | none =>
      intro h
      obtain ⟨⟨t₁, ret, gasLeft, address, err⟩, ran, h⟩ := bind_eq_ok.mp h
      obtain ⟨rfl, rfl⟩ := Prod.mk.inj (pure_eq_ok.mp h)
      have kept := (applyCreate_spec wellFormed calls ran).1.1
      have spent := applyCreate_gasLeft wellFormed calls returns (by exact dragon) ran
      exact ⟨spent, congrArg (·.rev) kept, congrArg (·.ctx.coinbase) kept⟩
  | some recipient =>
      intro h
      obtain ⟨⟨t₁, ret, gasLeft, address, err⟩, ran, h⟩ := bind_eq_ok.mp h
      obtain ⟨rfl, rfl⟩ := Prod.mk.inj (pure_eq_ok.mp h)
      have kept := (applyCall_extends wellFormed calls ran).1
      have spent := applyCall_gasLeft wellFormed calls returns (by exact dragon) ran
      exact ⟨spent, congrArg (·.rev) kept, congrArg (·.ctx.coinbase) kept⟩

/-- `postCheck` given back the intrinsic gas it computes, on an output within the message's gas
with it: the output's gas left, refund included, stays within that gas, the sender is credited
for it and the coinbase for the rest. -/
theorem postCheck_settles {msg : Message} {output : Output} {cost : Uint64}
    (intrinsic : transactionGasCost msg (t.isRevision .homestead) (t.isRevision .istanbul) = .ok cost)
    (within : output.gasLeft.toNat ≤ (msg.gas + cost).toNat) :
    (t.postCheck msg output).2.2.gasLeft.toNat ≤ (msg.gas + cost).toNat ∧
      (t.postCheck msg output).1.config = t.config ∧
      (t.postCheck msg output).1.txn =
        (t.txn.addBalance msg.«from» ((t.postCheck msg output).2.2.gasLeft.toNat * msg.gasPrice)).addBalance
          t.config.ctx.coinbase
          (((msg.gas + cost).toNat - (t.postCheck msg output).2.2.gasLeft.toNat : Int) * msg.gasPrice) := by
  obtain ⟨bounded, usedN⟩ := refund_within t.txn.getRefund within
  simp only [postCheck, intrinsic]
  refine ⟨bounded, rfl, ?_⟩
  rw [usedN, Nat.cast_sub bounded]
  rfl

end Transition

/-- The Transition of the wrap at Spurious Dragon. -/
def dragonTransition : Transition :=
  newTransition ⟨fun _ => 0, ⟨0, 0, 0, 0x30, 0, 0, 0, 0, 0⟩, Revision.spuriousDragon, wrapBackend, []⟩

/-- The message of the wrap with 30000 gas, enough for the CALL's base cost of Tangerine
Whistle. -/
def dragonMessage : Message := ⟨0, 1, 30000, some 0x10, 0, [], 1⟩

end GoEvm
