import GoEvm.Transition.Fuel
import GoEvm.Evm.Call

/-! The call depth. `Apply` runs its top frame at depth 0, and a frame calls its host only
below depth 1024, at its own depth plus one (`callChild`, `createChild`). So every frame that
`Callx` enters from a frame of depth at most 1024 has depth at most 1024: `Callx` gives the
results of `callxBounded`, which faults on a deeper frame. A call or create opcode in a frame of
depth 1024 calls no child; it pushes 0 and credits back the gas it set aside. For a call that
moves value, that includes the 2300 stipend the opcode never charged. -/
namespace GoEvm

open Evm OpCode

/-- `Callx` with a monitor on the depth: entering a frame deeper than 1024 is a fault. The
monitor is not part of the Go code. -/
def callxBounded (env : Env) : Nat → Transition → Contract → Except Fault CallResult
  | 0, _, _ => throw .fuel
  | fuel + 1, t, c =>
      if 1024 < c.depth then throw .panic
      else if c.type = .create || c.type = .create2 then
        t.applyCreate env (callxBounded env fuel) fuel c
      else t.applyCall env (callxBounded env fuel) fuel c c.type

/-- From a frame of depth at most 1024, `Callx` and the monitored `callxBounded` reach the same
results. The induction on the fuel uses `Transition.applyCall_mono`, which needs the two
calls to agree only at the depths a frame can call at. -/
theorem callx_iff_bounded {env : Env} : ∀ {fuel : Nat} {t : Transition} {c : Contract}
    {r : CallResult}, c.depth ≤ 1024 → (callx env fuel t c = .ok r ↔ callxBounded env fuel t c = .ok r)
  | 0, _, _, _, _ => Iff.rfl
  | fuel + 1, t, c, r, within => by
      have forth : ∀ t c r, c.depth ≤ 1024 → callx env fuel t c = .ok r →
          callxBounded env fuel t c = .ok r := fun _ _ _ deep => (callx_iff_bounded deep).mp
      have back : ∀ t c r, c.depth ≤ 1024 → callxBounded env fuel t c = .ok r →
          callx env fuel t c = .ok r := fun _ _ _ deep => (callx_iff_bounded deep).mpr
      rw [callx, callxBounded, if_neg (Nat.not_lt.mpr within)]
      exact ⟨ite_ok (Transition.applyCreate_mono forth le_rfl) (Transition.applyCall_mono forth le_rfl),
        ite_ok (Transition.applyCreate_mono back le_rfl) (Transition.applyCall_mono back le_rfl)⟩

/-- The depth limit. Every frame that `Callx` enters from a frame of depth at most 1024 is within
depth 1024. In a frame at depth 1024 or more, a call opcode that passed its memory checks makes
no `Host.Call`: it reads the host only for the base cost. It exits when it cannot pay the charge,
and otherwise it pushes 0 and keeps all but the base cost. When it moves value, the 2300 stipend
is credited back too. `createChild` credits back the gas set aside for the callee, and 0 is
pushed. -/
theorem call_depth_limit :
    (∀ (env : Env) (fuel : Nat) (t : Transition) (c : Contract) (r : CallResult), c.depth ≤ 1024 →
      (callx env fuel t c = .ok r ↔ callxBounded env fuel t c = .ok r)) ∧
    (∀ {σ : Type} (host : Host σ) (op : OpCode) (callType : CallKind) (c₀ c₁ c : State σ)
      (initialGas a v inOffset inSize retOffset retSize : Int) (rest : List Int) (args : Bytes),
      opCodeToCallKind op = .ok callType →
      c₀.stack = initialGas :: a :: ((if op = CALL || op = CALLCODE then [v] else []) ++
        inOffset :: inSize :: retOffset :: retSize :: rest) →
      ({ c₀ with stack := rest } : State σ).get2 [] inOffset inSize = .ok (c₁, some args) →
      c₁.checkMemory retOffset retSize = (c, true) → 1024 ≤ c.depth →
      let transfersValue := (op = CALL || op = CALLCODE) && v ≠ 0
      let gasCost := BitVec.ofNat 64
        (callBaseGas c.rev op transfersValue (host.accountExists c.host (bigToAddress a)))
      opCallBody host op c₀ = .ok (match callGas c gasCost initialGas with
        | none => c.exit .outOfGas
        | some (_, total) => if c.gas.toNat < total.toNat then c.exit .outOfGas
            else { c.push1 0 with gas := c.gas - gasCost + if transfersValue then 2300 else 0 }) ∧
      ∀ host' : Host σ,
        opCallBody { host' with accountExists := host.accountExists } op c₀ = opCallBody host op c₀) ∧
    (∀ {σ : Type} (host : Host σ) (op : OpCode) (c : State σ) (value salt : Option Int)
      (input : Bytes) (gas : Uint64), 1024 ≤ c.depth →
      createChild host op { c with gas := c.gas - gas } value input salt gas = .ok (c.push1 0)) := by
  refine ⟨fun _ _ _ _ _ within => callx_iff_bounded within,
    fun host _ _ _ _ _ _ _ _ _ _ _ _ _ _ kind stack got checked deep =>
      ⟨opCallBody_of_depth kind stack got checked deep, fun _ => ?_⟩,
    fun _ _ c _ _ _ gas deep => ?_⟩
  · rw [opCallBody_of_depth kind stack got checked deep, opCallBody_of_depth kind stack got checked deep]
  · rw [createChild_of_depth (c := { c with gas := c.gas - gas }) deep, BitVec.sub_add_cancel]
    rfl

/-- A CALL at depth 1024 over a host where every account has no balance: the balance test
fails before the depth test, and the frame keeps its gas but for the base cost, with the
stipend credited. -/
theorem deep_call_without_balance :
    opCallBody silentHost CALL
        { wordFrame Revision.istanbul [0, 0x20, 1, 0, 0, 0, 0] with depth := 1024, gas := 100000 } =
      .ok { wordFrame Revision.istanbul [0] with depth := 1024, gas := 67600 } :=
  (call_depth_limit.2.1 silentHost CALL .call
    { wordFrame Revision.istanbul [0, 0x20, 1, 0, 0, 0, 0] with depth := 1024, gas := 100000 }
    { wordFrame Revision.istanbul [] with depth := 1024, gas := 100000 }
    { wordFrame Revision.istanbul [] with depth := 1024, gas := 100000 } 0 0x20 1 0 0 0 0 [] []
    rfl rfl rfl rfl (by decide)).1.trans rfl

/-- A CALL at depth 1024 that moves 1 wei to the absent account `0x20` at Istanbul, from a
frame with the balance and 100000 gas: the base cost is 34700, but the frame is left with
100000 - 34700 + 2300 gas, as the stipend is credited back too. -/
theorem deep_value_call_net_charge :
    callBaseGas Revision.istanbul CALL true false = 34700 ∧
      opCallBody { silentHost with getBalance := fun _ _ => 1 } CALL
          { wordFrame Revision.istanbul [0, 0x20, 1, 0, 0, 0, 0] with depth := 1024, gas := 100000 } =
        .ok { wordFrame Revision.istanbul [0] with depth := 1024, gas := 100000 - 34700 + 2300 } :=
  ⟨rfl, rfl⟩

end GoEvm
