import GoEvm.Evm.Memory
import GoEvm.Evm.Bounds
import GoEvm.Evm.Fuel

/-! The charge of the call opcodes. After its two memory checks, `opCallBody` charges a base
cost with its surcharges and the gas it sets aside for the callee, which `callGas` computes:
from Tangerine Whistle all but a 64th of what the base cost leaves caps the request, and the
charge is exact; before, the request is added to the base cost in `uint64`, and a request
within the base cost of `2⁶⁴` wraps the charge. -/
namespace GoEvm.Evm

open OpCode

/-- The spec's base cost of a call opcode with its surcharges: 700 from Tangerine Whistle
and 40 before, 25000 for a CALL to an account that does not exist when it moves value or
before Spurious Dragon, and 9000 when it moves value. -/
def callBaseGas (rev : Revision) (op : OpCode) (transfersValue present : Bool) : Nat :=
  (if Revision.tangerineWhistle ≤ rev then 700 else 40) +
    (if op = CALL ∧ (transfersValue ∨ rev < Revision.spuriousDragon) ∧ present = false then 25000
      else 0) +
    (if transfersValue then 9000 else 0)

theorem callBaseGas_le (rev : Revision) (op : OpCode) (transfersValue present : Bool) :
    callBaseGas rev op transfersValue present ≤ 34700 := by
  unfold callBaseGas
  split_ifs <;> omega

/-- The base cost as `opCallBody` computes it, in `uint64`. -/
theorem callBaseGas_eq {σ : Type} (c : State σ) (op : OpCode) (transfersValue present : Bool) :
    (if transfersValue = true then
        (if (decide (op = CALL) && (transfersValue || decide (c.rev < Revision.spuriousDragon)) &&
            !present) = true then
          (if c.isRevision Revision.tangerineWhistle = true then 700 else 40) + 25000
        else if c.isRevision Revision.tangerineWhistle = true then 700 else 40) + 9000
      else if (decide (op = CALL) && (transfersValue || decide (c.rev < Revision.spuriousDragon)) &&
          !present) = true then
        (if c.isRevision Revision.tangerineWhistle = true then 700 else 40) + 25000
      else if c.isRevision Revision.tangerineWhistle = true then 700 else 40 : Uint64) =
      BitVec.ofNat 64 (callBaseGas c.rev op transfersValue present) := by
  unfold callBaseGas State.isRevision
  by_cases tw : Revision.tangerineWhistle ≤ c.rev <;> by_cases call : op = CALL <;>
    by_cases dragon : c.rev < Revision.spuriousDragon <;> cases transfersValue <;> cases present <;>
    simp only [tw, call, dragon, decide_True, decide_False, if_true, if_false, Bool.true_and,
      Bool.false_and, Bool.and_true, Bool.and_false, Bool.or_true, Bool.or_false, Bool.not_true,
      Bool.not_false, Bool.true_eq_false, Bool.false_eq_true, true_and, false_and, and_true,
      and_false, true_or, false_or, or_true, or_false] <;> rfl

section CallGas

variable {σ : Type} {c : State σ} {base : Nat} {initialGas : Int}

/-- From Tangerine Whistle, a base cost the frame can pay: the callee gets the request capped
at all but a 64th of what the base cost leaves, and the charge is the base cost plus that. -/
theorem callGas_of_payable (tangerineWhistle : Revision.tangerineWhistle ≤ c.rev)
    (requested : IsWord initialGas) (payable : base ≤ c.gas.toNat) :
    let r := c.gas.toNat - base
    callGas c (BitVec.ofNat 64 base) initialGas =
      some (BitVec.ofNat 64 (min initialGas.toNat (r - r / 64)),
        BitVec.ofNat 64 (base + min initialGas.toNat (r - r / 64))) := by
  have := c.gas.isLt
  have e64 : (64 : Uint64).toNat = 64 := rfl
  have exact : ∀ {n : Nat}, n ≤ c.gas.toNat → (BitVec.ofNat 64 n).toNat = n := fun small => by
    rw [BitVec.toNat_ofNat, Nat.mod_eq_of_lt (by omega)]
  have left : c.gas - BitVec.ofNat 64 base = BitVec.ofNat 64 (c.gas.toNat - base) := by
    apply BitVec.eq_of_toNat_eq
    rw [BitVec.toNat_sub_of_le (by rw [BitVec.le_def, exact payable]; exact payable), exact payable,
      exact (Nat.sub_le _ _)]
  have kept : BitVec.ofNat 64 (c.gas.toNat - base) - BitVec.ofNat 64 (c.gas.toNat - base) / 64 =
      BitVec.ofNat 64 (c.gas.toNat - base - (c.gas.toNat - base) / 64) := by
    apply BitVec.eq_of_toNat_eq
    rw [BitVec.toNat_sub_of_le (by rw [BitVec.le_def, BitVec.toNat_udiv, e64]; exact Nat.div_le_self _ _),
      BitVec.toNat_udiv, e64, exact (Nat.sub_le _ _), exact (by omega)]
  have capped : (if (!isUint64 initialGas || decide (BitVec.ofNat 64 (c.gas.toNat - base -
      (c.gas.toNat - base) / 64) < uint64 initialGas)) = true then
        BitVec.ofNat 64 (c.gas.toNat - base - (c.gas.toNat - base) / 64) else uint64 initialGas) =
      BitVec.ofNat 64 (min initialGas.toNat (c.gas.toNat - base - (c.gas.toNat - base) / 64)) := by
    have := requested.1
    rw [uint64_eq_ofNat requested]
    by_cases wide : 2 ^ 64 ≤ initialGas
    · rw [if_pos (by simp [isUint64]; omega), Nat.min_eq_right (by omega)]
    · have inRange : isUint64 initialGas = true := by simp [isUint64]; omega
      have asked : (BitVec.ofNat 64 initialGas.toNat).toNat = initialGas.toNat := by
        rw [BitVec.toNat_ofNat, Nat.mod_eq_of_lt (by omega)]
      simp only [inRange, Bool.not_true, Bool.false_or, decide_eq_true_eq, BitVec.lt_def,
        exact (by omega : c.gas.toNat - base - (c.gas.toNat - base) / 64 ≤ c.gas.toNat), asked]
      split_ifs with lt
      · rw [Nat.min_eq_right lt.le]
      · rw [Nat.min_eq_left (Nat.not_lt.mp lt)]
  unfold callGas
  simp only [State.isRevision, tangerineWhistle, decide_True, if_true, left, kept, capped,
    BitVec.ofNat_add_ofNat]

/-- From Tangerine Whistle, a base cost the frame cannot pay: the `uint64` difference wraps,
but the charge is still more than the frame's gas. -/
theorem callGas_of_short (initialGas : Int) (tangerineWhistle : Revision.tangerineWhistle ≤ c.rev)
    (short : c.gas.toNat < base) (small : base ≤ 34700) :
    ∃ gas total, callGas c (BitVec.ofNat 64 base) initialGas = some (gas, total) ∧
      c.gas.toNat < total.toNat := by
  have e64 : (64 : Uint64).toNat = 64 := rfl
  have available : (c.gas - BitVec.ofNat 64 base).toNat = 2 ^ 64 + c.gas.toNat - base := by
    simp only [BitVec.toNat_sub, BitVec.toNat_ofNat]
    omega
  unfold callGas
  simp only [State.isRevision, tangerineWhistle, decide_True, if_true]
  generalize c.gas - BitVec.ofNat 64 base = avail at available ⊢
  have far : c.gas.toNat < avail.toNat / 64 := by omega
  have kept : (avail - avail / 64).toNat = avail.toNat - avail.toNat / 64 := by
    rw [BitVec.toNat_sub_of_le (BitVec.le_def.mpr (by simp only [BitVec.toNat_udiv, e64]; omega)),
      BitVec.toNat_udiv, e64]
  refine ⟨_, _, rfl, ?_⟩
  split <;> rename_i capped <;> rw [BitVec.toNat_add, BitVec.toNat_ofNat]
  · rw [kept]
    omega
  · simp only [Bool.or_eq_true, Bool.not_eq_true', not_or, decide_eq_true_eq, BitVec.not_lt,
      BitVec.le_def, kept] at capped
    omega

/-- Before Tangerine Whistle, the request is taken as it is when it is a `uint64`, and the
charge is its `uint64` sum with the base cost. -/
theorem callGas_frontier (frontier : c.rev < Revision.tangerineWhistle) (requested : IsWord initialGas)
    (gasCost : Uint64) :
    callGas c gasCost initialGas = if 2 ^ 64 ≤ initialGas then none
      else some (BitVec.ofNat 64 initialGas.toNat, gasCost + BitVec.ofNat 64 initialGas.toNat) := by
  have := requested.1
  simp only [callGas, State.isRevision, Nat.not_le.mpr frontier, decide_False,
    Bool.false_eq_true, if_false, uint64_eq_ofNat requested]
  by_cases wide : 2 ^ 64 ≤ initialGas
  · rw [if_pos (by simp [isUint64]; omega), if_pos wide]
  · rw [if_neg (by simp [isUint64]; omega), if_neg wide]

end CallGas

section Call

variable {σ : Type} {host : Host σ} {op : OpCode} {callType : CallKind} {c c₁ c₂ : State σ}
  {initialGas a v inOffset inSize retOffset retSize : Int} {rest : List Int} {args : Bytes}

/-- A CALL from a frame that is not static: the return data is reset and the body runs. -/
theorem opCall_of_call (dynamic : c.static = false) :
    opCall host CALL c = opCallBody host CALL c.resetReturnData := by
  have delegate : CALL ≠ DELEGATECALL := by decide
  have static : CALL ≠ STATICCALL := by decide
  simp [opCall, State.resetReturnData, dynamic, delegate, static]

/-- `opCallBody` after its pops and its two memory checks: the charge `callGas` computes from
the base cost, and the child. CALL and CALLCODE pop a value after the address. -/
theorem opCallBody_checked (kind : opCodeToCallKind op = .ok callType)
    (stack : c.stack = initialGas :: a :: ((if op = CALL || op = CALLCODE then [v] else []) ++
      inOffset :: inSize :: retOffset :: retSize :: rest))
    (got : ({ c with stack := rest } : State σ).get2 [] inOffset inSize = .ok (c₁, some args))
    (checked : c₁.checkMemory retOffset retSize = (c₂, true)) :
    let valued := op = CALL || op = CALLCODE
    let transfersValue := valued && v ≠ 0
    opCallBody host op c =
      match callGas c₂ (BitVec.ofNat 64 (callBaseGas c₂.rev op transfersValue
          (host.accountExists c₂.host (bigToAddress a)))) initialGas with
      | none => .ok (c₂.exit .outOfGas)
      | some (gas, total) =>
          match c₂.consumeGas total with
          | (c₃, false) => .ok c₃
          | (c₃, true) => callChild host callType c₃
              (if op = CALLCODE || op = DELEGATECALL then c₃.address else bigToAddress a)
              (if op = DELEGATECALL then c₃.caller else c₃.address) (bigToAddress a)
              (if op = DELEGATECALL then some c₃.value else if valued then some v else none)
              transfersValue (op = STATICCALL || c₃.static) args retOffset retSize
              (if transfersValue then gas + 2300 else gas) := by
  unfold opCallBody
  rw [kind, ok_bind, State.pop_cons c stack]
  by_cases valued : (op = CALL || op = CALLCODE) = true
  · simp only [deref, pure_bind, State.popAddr, State.pop, valued, if_true, List.singleton_append]
    rw [got, ok_bind]
    dsimp only
    rw [checked]
    dsimp only
    rw [callBaseGas_eq]
    rfl
  · simp only [deref, pure_bind, State.popAddr, State.pop, valued, Bool.false_eq_true, if_false,
      List.nil_append]
    rw [got, ok_bind]
    dsimp only
    rw [checked]
    dsimp only
    rw [callBaseGas_eq]
    rfl

theorem stipend_ofNat (transfersValue : Bool) (g : Nat) :
    (if transfersValue = true then BitVec.ofNat 64 g + 2300 else BitVec.ofNat 64 g) =
      BitVec.ofNat 64 (g + if transfersValue = true then 2300 else 0) := by
  cases transfersValue
  · rfl
  · show BitVec.ofNat 64 g + BitVec.ofNat 64 2300 = BitVec.ofNat 64 (g + 2300)
    exact BitVec.ofNat_add_ofNat _ _

/-- The charge of a call opcode that passed its memory checks, in exact arithmetic. From
Tangerine Whistle the frame exits when it cannot pay the base cost, and otherwise pays the base
cost and the callee's gas, the request capped at all but a 64th of what the base cost leaves.
Before, a request past `uint64` exits, and the charge is the base cost plus the request modulo
`2⁶⁴`. The callee gets 2300 gas more when the opcode moves value. -/
theorem opCallBody_charge (kind : opCodeToCallKind op = .ok callType)
    (stack : c.stack = initialGas :: a :: ((if op = CALL || op = CALLCODE then [v] else []) ++
      inOffset :: inSize :: retOffset :: retSize :: rest))
    (got : ({ c with stack := rest } : State σ).get2 [] inOffset inSize = .ok (c₁, some args))
    (checked : c₁.checkMemory retOffset retSize = (c₂, true)) (requested : IsWord initialGas) :
    let valued := op = CALL || op = CALLCODE
    let transfersValue := valued && v ≠ 0
    let base := callBaseGas c₂.rev op transfersValue (host.accountExists c₂.host (bigToAddress a))
    let child (charged g : Nat) := callChild host callType
      { c₂ with gas := BitVec.ofNat 64 (c₂.gas.toNat - charged) }
      (if op = CALLCODE || op = DELEGATECALL then c₂.address else bigToAddress a)
      (if op = DELEGATECALL then c₂.caller else c₂.address) (bigToAddress a)
      (if op = DELEGATECALL then some c₂.value else if valued then some v else none)
      transfersValue (op = STATICCALL || c₂.static) args retOffset retSize
      (BitVec.ofNat 64 (g + if transfersValue then 2300 else 0))
    (Revision.tangerineWhistle ≤ c₂.rev →
      opCallBody host op c = if c₂.gas.toNat < base then .ok (c₂.exit .outOfGas) else
        let r := c₂.gas.toNat - base
        child (base + min initialGas.toNat (r - r / 64)) (min initialGas.toNat (r - r / 64))) ∧
    (c₂.rev < Revision.tangerineWhistle →
      opCallBody host op c = if 2 ^ 64 ≤ initialGas then .ok (c₂.exit .outOfGas)
        else if c₂.gas.toNat < (base + initialGas.toNat) % 2 ^ 64 then .ok (c₂.exit .outOfGas)
        else child ((base + initialGas.toNat) % 2 ^ 64) initialGas.toNat) := by
  dsimp only
  have small := callBaseGas_le c₂.rev op ((op = CALL || op = CALLCODE) && v ≠ 0)
    (host.accountExists c₂.host (bigToAddress a))
  have := c₂.gas.isLt
  rw [opCallBody_checked kind stack got checked]
  refine ⟨fun tangerineWhistle => ?_, fun frontier => ?_⟩
  · by_cases short : c₂.gas.toNat < callBaseGas c₂.rev op ((op = CALL || op = CALLCODE) && v ≠ 0)
        (host.accountExists c₂.host (bigToAddress a))
    · obtain ⟨g, total, split, over⟩ := callGas_of_short initialGas tangerineWhistle short small
      rw [split, if_pos short]
      dsimp only
      rw [State.consumeGas_toNat, if_pos over]
    · generalize callBaseGas c₂.rev op ((op = CALL || op = CALLCODE) && v ≠ 0)
        (host.accountExists c₂.host (bigToAddress a)) = base at short small ⊢
      rw [callGas_of_payable tangerineWhistle requested (by omega), if_neg short]
      have total : (BitVec.ofNat 64 (base + min initialGas.toNat
          ((c₂.gas.toNat - base) - (c₂.gas.toNat - base) / 64))).toNat =
          base + min initialGas.toNat ((c₂.gas.toNat - base) - (c₂.gas.toNat - base) / 64) := by
        rw [BitVec.toNat_ofNat]
        omega
      simp only [State.consumeGas_toNat, total, if_neg (show ¬c₂.gas.toNat < base + min initialGas.toNat
        ((c₂.gas.toNat - base) - (c₂.gas.toNat - base) / 64) by omega), stipend_ofNat]
  · generalize callBaseGas c₂.rev op ((op = CALL || op = CALLCODE) && v ≠ 0)
      (host.accountExists c₂.host (bigToAddress a)) = base at small ⊢
    rw [callGas_frontier frontier requested]
    by_cases wide : 2 ^ 64 ≤ initialGas
    · rw [if_pos wide, if_pos wide]
    · have total : (BitVec.ofNat 64 base + BitVec.ofNat 64 initialGas.toNat).toNat =
          (base + initialGas.toNat) % 2 ^ 64 := by
        rw [BitVec.toNat_add, BitVec.toNat_ofNat, BitVec.toNat_ofNat]
        omega
      rw [if_neg wide, if_neg wide]
      simp only [State.consumeGas_toNat, total]
      by_cases short : c₂.gas.toNat < (base + initialGas.toNat) % 2 ^ 64
      · simp only [if_pos short]
      · simp only [if_neg short, stipend_ofNat]

/-- A Frontier CALL to the absent account `0x20` that requests `2⁶⁴ - 25040` gas, with no
value and empty windows, from a frame with 100 gas: the charge `25040 + (2⁶⁴ - 25040)` wraps
to 0, and the callee is handed `2⁶⁴ - 25040` gas. -/
theorem frontier_call_charges_nothing :
    opCallBody silentHost CALL (wordFrame Revision.frontier [2 ^ 64 - 25040, 0x20, 0, 0, 0, 0, 0]) =
      callChild silentHost .call (wordFrame Revision.frontier []) 0x20 0 0x20 (some 0) false false
        [] 0 0 (BitVec.ofNat 64 (2 ^ 64 - 25040)) := by
  have charged : opCallBody silentHost CALL
      (wordFrame Revision.frontier [2 ^ 64 - 25040, 0x20, 0, 0, 0, 0, 0]) = _ :=
    ((opCallBody_charge (rfl : opCodeToCallKind CALL = .ok .call) (v := 0) rfl
      (rfl : (wordFrame Revision.frontier []).get2 [] 0 0 = .ok (wordFrame Revision.frontier [], some []))
      (rfl : (wordFrame Revision.frontier []).checkMemory 0 0 = (wordFrame Revision.frontier [], true))
      (⟨by omega, by omega⟩ : IsWord (2 ^ 64 - 25040))).2 (by decide))
  have request : (2 ^ 64 - 25040 : Int).toNat = 2 ^ 64 - 25040 := by omega
  refine charged.trans ((if_neg (by omega)).trans ((if_neg ?_).trans ?_))
  · show ¬(100 : Nat) < (25040 + (2 ^ 64 - 25040 : Int).toNat) % 2 ^ 64
    omega
  · show callChild silentHost .call { wordFrame Revision.frontier [] with
        gas := BitVec.ofNat 64 (100 - (25040 + (2 ^ 64 - 25040 : Int).toNat) % 2 ^ 64) }
      0x20 0 0x20 (some 0) false false [] 0 0 (BitVec.ofNat 64 ((2 ^ 64 - 25040 : Int).toNat + 0)) = _
    rw [request, Nat.add_zero, show (25040 + (2 ^ 64 - 25040)) % 2 ^ 64 = 0 by omega]
    rfl

end Call

/-! The depth limit. A frame at depth 1024 calls no child: the call and create handlers push 0
and credit the gas they set aside back. -/

section Depth

variable {σ : Type} {host : Host σ} {c : State σ}

/-- `callChild` in a frame at depth 1024 or more: no call, 0 pushed and the callee's gas
credited back, whether or not the balance test before the depth test fails. -/
theorem callChild_of_depth {callType : CallKind} {recipient caller codeAddress : Address}
    {value : Option Int} {transfersValue isStatic : Bool} {args : Bytes} {retOffset retSize : Int}
    {gas : Uint64} (deep : 1024 ≤ c.depth) :
    callChild host callType c recipient caller codeAddress value transfersValue isStatic args
      retOffset retSize gas = .ok { c.push1 0 with gas := c.gas + gas } := by
  simp only [callChild, if_pos deep]
  split <;> rfl

/-- `createChild` in a frame at depth 1024 or more: no call, 0 pushed and the gas set aside
credited back. -/
theorem createChild_of_depth {op : OpCode} {value salt : Option Int} {input : Bytes}
    {gas : Uint64} (deep : 1024 ≤ c.depth) :
    createChild host op c value input salt gas = .ok { c.push1 0 with gas := c.gas + gas } :=
  if_pos deep

/-- Both branches of `callGas` charge the base cost plus the callee's gas, in `uint64`. -/
theorem callGas_total {gasCost gas total : Uint64} {initialGas : Int}
    (split : callGas c gasCost initialGas = some (gas, total)) : total = gasCost + gas := by
  unfold callGas at split
  dsimp only at split
  split_ifs at split
  all_goals first
    | exact Option.noConfusion split
    | obtain ⟨rfl, rfl⟩ := Prod.mk.inj (Option.some.inj split); rfl

/-- The frame's gas after a charge of `gasCost + gas` that the frame can pay and a credit of
`gas` and the stipend. -/
theorem credit_of_enough {g gasCost gas : Uint64} (transfersValue : Bool)
    (enough : ¬g.toNat < (gasCost + gas).toNat) :
    BitVec.ofNat 64 (g.toNat - (gasCost + gas).toNat) + (if transfersValue then gas + 2300 else gas) =
      g - gasCost + if transfersValue then 2300 else 0 := by
  cases transfersValue <;> simp only [Bool.false_eq_true, if_true, if_false] <;> bv_omega

variable {op : OpCode} {callType : CallKind} {c₀ c₁ : State σ}
  {initialGas a v inOffset inSize retOffset retSize : Int} {rest : List Int} {args : Bytes}

/-- A call opcode in a frame at depth 1024 or more, after its memory checks: the frame exits
when the charge is short, and otherwise 0 is pushed and the frame keeps all but the base cost,
with the stipend credited back too, in `uint64`. Only the base cost reads the host. -/
theorem opCallBody_of_depth (kind : opCodeToCallKind op = .ok callType)
    (stack : c₀.stack = initialGas :: a :: ((if op = CALL || op = CALLCODE then [v] else []) ++
      inOffset :: inSize :: retOffset :: retSize :: rest))
    (got : ({ c₀ with stack := rest } : State σ).get2 [] inOffset inSize = .ok (c₁, some args))
    (checked : c₁.checkMemory retOffset retSize = (c, true)) (deep : 1024 ≤ c.depth) :
    let transfersValue := (op = CALL || op = CALLCODE) && v ≠ 0
    let gasCost := BitVec.ofNat 64
      (callBaseGas c.rev op transfersValue (host.accountExists c.host (bigToAddress a)))
    opCallBody host op c₀ = .ok (match callGas c gasCost initialGas with
      | none => c.exit .outOfGas
      | some (_, total) => if c.gas.toNat < total.toNat then c.exit .outOfGas
          else { c.push1 0 with gas := c.gas - gasCost + if transfersValue then 2300 else 0 }) := by
  rw [opCallBody_checked kind stack got checked]
  dsimp only
  split
  · rfl
  · rename_i gas total split
    rw [State.consumeGas_toNat]
    by_cases short : c.gas.toNat < total.toNat
    · simp only [if_pos short]
    · simp only [if_neg short]
      rw [callChild_of_depth (c := { c with gas := BitVec.ofNat 64 (c.gas.toNat - total.toNat) }) deep,
        callGas_total split]
      rw [callGas_total split] at short
      rw [← credit_of_enough _ short]
      rfl

end Depth

end GoEvm.Evm
