import GoEvm.Evm.Effect

/-! What the handlers do to the frame's ledger: the gas, the revision, the code, `ip`, the
memory's length, the last memory cost and the stop flag. The handlers write the ledger only by
`consumeGas`, `checkMemory`, `exit` and `halt`, and by writes into memory that keep its
length, except five: JUMP, JUMPI and PUSH move `ip`, and CREATE and CALL credit back the gas a
child frame returns. `Local` names the relations between frames that hold across every update
keeping the ledger and across each of the four writes, and that compose; every such relation
holds between the frame one of the other handlers is given and the frame it returns. This is
proved here once, for every such relation, and for CREATE and CALL once for the relations that
also hold across a change of the gas alone: GoEvm.Evm.Spend instantiates it with the gas
bound, GoEvm.Evm.Flow with the place of `ip`, GoEvm.Evm.Expansion with the size of the memory
and its price. -/
namespace GoEvm.Evm

variable {σ : Type}

/-- The fields of a frame that the handlers write only by charges, memory checks, stops, jumps
and child frames. -/
def State.ledger (c : State σ) : Uint64 × Revision × Bytes × Int × Nat × Uint64 × Bool :=
  (c.gas, c.rev, c.code, c.ip, c.memory.length, c.lastGasCost, c.stop)

/-- `c'` has the ledger of `c`. -/
def Agree (c c' : State σ) : Prop := c'.ledger = c.ledger

/-- A relation between frames that holds across every update keeping the ledger, across a
charge, a memory check and a stop, and that composes. -/
structure Local (R : State σ → State σ → Prop) : Prop where
  agree : ∀ {c c' : State σ}, Agree c c' → R c c'
  charge : ∀ (c : State σ) (gas : Uint64), R c (c.consumeGas gas).1
  checkMemory : ∀ (c : State σ) (offset size : Int), R c (c.checkMemory offset size).1
  exit : ∀ (c : State σ) (e : Error), R c (c.exit e)
  halt : ∀ c : State σ, R c c.halt
  trans : ∀ {c₁ c₂ c₃ : State σ}, R c₁ c₂ → R c₂ c₃ → R c₁ c₃

namespace State

variable (c : State σ)

@[simp] theorem pop_gas : c.pop.2.gas = c.gas := by simp [pop_eq]
@[simp] theorem pop_rev : c.pop.2.rev = c.rev := by simp [pop_eq]
@[simp] theorem pop_code : c.pop.2.code = c.code := by simp [pop_eq]
@[simp] theorem pop_ip : c.pop.2.ip = c.ip := by simp [pop_eq]

@[simp] theorem consumeGas_rev (gas : Uint64) : (c.consumeGas gas).1.rev = c.rev := by
  unfold consumeGas; split <;> rfl

@[simp] theorem consumeGas_code (gas : Uint64) : (c.consumeGas gas).1.code = c.code := by
  unfold consumeGas; split <;> rfl

end State

/-- A relation that holds across every update keeping the gas, the revision, the code and
`ip`, and across a charge, is local: a memory check is a charge between two such updates. -/
theorem Local.ofFields {R : State σ → State σ → Prop}
    (fields : ∀ {c c' : State σ}, c'.gas = c.gas → c'.rev = c.rev → c'.code = c.code →
      c'.ip = c.ip → R c c')
    (charge : ∀ (c : State σ) (gas : Uint64), R c (c.consumeGas gas).1)
    (trans : ∀ {c₁ c₂ c₃ : State σ}, R c₁ c₂ → R c₂ c₃ → R c₁ c₃) : Local R where
  agree same := fields (congrArg (·.1) same) (congrArg (·.2.1) same) (congrArg (·.2.2.1) same)
    (congrArg (·.2.2.2.1) same)
  charge := charge
  checkMemory c offset size := by
    have paid : ∀ {c₀ c₁ : State σ} {gas : Uint64} {b : Bool}, c₀.consumeGas gas = (c₁, b) →
        R c₀ c₁ := fun {c₀ _ gas _} charged => by simpa only [charged] using charge c₀ gas
    unfold State.checkMemory
    dsimp only
    split_ifs
    · exact fields rfl rfl rfl rfl
    · exact fields rfl rfl rfl rfl
    · exact fields rfl rfl rfl rfl
    · split <;> rename_i c₁ charged <;>
        exact trans (trans (by exact fields rfl rfl rfl rfl) (paid charged))
          (by exact fields rfl rfl rfl rfl)
    · exact fields rfl rfl rfl rfl
  exit _ _ := fields rfl rfl rfl rfl
  halt _ := fields rfl rfl rfl rfl
  trans := trans

section Agree

variable {c c₁ c₂ : State σ}

theorem Agree.refl (c : State σ) : Agree c c := rfl

theorem Agree.trans (first : Agree c c₁) (second : Agree c₁ c₂) : Agree c c₂ :=
  Eq.trans second first

theorem Agree.pop (first : Agree c c₁) : Agree c c₁.pop.2 := by
  rw [Agree, State.pop_eq]
  exact first

theorem Agree.popIf (first : Agree c c₁) (p : Prop) [Decidable p] :
    Agree c (if p then c₁.pop else (none, c₁)).2 := by
  split
  exacts [first.pop, first]

theorem popAddr_agree {addr : Address} {found : Bool} (popped : c.popAddr = (addr, found, c₁)) :
    Agree c c₁ := by
  have : c₁ = c.pop.2 := by rw [← State.popAddr_snd, popped]
  exact this ▸ (Agree.refl c).pop

/-- A write into memory that keeps its length. -/
theorem Agree.write {m : Bytes} (same : m.length = c.memory.length) :
    Agree c { c with memory := m } := by
  simp only [Agree, State.ledger, same]

theorem slice_within {s out : Bytes} {lo hi : Nat} (h : slice s lo hi = .ok out) :
    lo ≤ hi ∧ hi ≤ s.length := by
  unfold slice at h
  split at h
  · assumption
  · exact absurd h throw_ne_ok

/-- `c.memory[o:]` overwritten by as many bytes keeps the memory's length. -/
theorem splice_length {m d dst : Bytes} {o : Nat} (sliced : sliceFrom m o = .ok d)
    (same : dst.length = d.length) : (m.take o ++ dst).length = m.length := by
  unfold sliceFrom at sliced
  split at sliced
  · obtain rfl := pure_eq_ok.mp sliced
    simp only [List.length_append, List.length_take, same, List.length_drop]
    omega
  · exact absurd sliced throw_ne_ok

end Agree

namespace Local

variable {R : State σ → State σ → Prop} (loc : Local R) {c c₁ c' : State σ}
include loc

theorem refl (c : State σ) : R c c := loc.agree rfl

/-- A relation, then an update that agrees. -/
theorem agreeing (first : R c c₁) (agree : Agree c₁ c') : R c c' := loc.trans first (loc.agree agree)

/-- A relation, then a charge. -/
theorem charged {gas : Uint64} {b : Bool} (first : R c c₁) (charged : c₁.consumeGas gas = (c', b)) :
    R c c' :=
  loc.trans first (by simpa only [charged] using loc.charge c₁ gas)

/-- A charge made only when `p` holds. -/
theorem chargedIf {p : Prop} [Decidable p] {gas : Uint64} {b : Bool} (first : R c c₁)
    (charged : (if p then c₁.consumeGas gas else (c₁, true)) = (c', b)) : R c c' := by
  split at charged
  · exact loc.charged first charged
  · exact (Prod.mk.inj charged).1 ▸ first

/-- A relation, then a memory check. -/
theorem checked {offset size : Int} {b : Bool} (first : R c c₁)
    (checked : c₁.checkMemory offset size = (c', b)) : R c c' :=
  loc.trans first (by simpa only [checked] using loc.checkMemory c₁ offset size)

/-- A relation, then the memory read of `get2`. -/
theorem got {dst : Bytes} {offset length : Int} {out : Option Bytes} (first : R c c₁)
    (got : c₁.get2 dst offset length = .ok (c', out)) : R c c' := by
  rcases (c₁.get2_spec got).1 with rfl | rfl
  exacts [first, loc.trans first (loc.checkMemory c₁ offset length)]

/-- A relation, then an exit. -/
theorem exited {e : Error} (first : R c c₁) : R c (c₁.exit e) := loc.trans first (loc.exit c₁ e)

end Local

/-! The handlers that write the ledger only by charges, memory checks and stops. -/

section Handlers

variable {R : State σ → State σ → Prop} (loc : Local R) {host : Host σ} {c c₁ c' : State σ}
include loc

theorem binaryOp_local {f : Int → Int → Int} (h : binaryOp f c = .ok c') : R c c' := by
  simp only [binaryOp, bind_eq_ok, deref_eq_ok, pure_eq_ok] at h
  obtain ⟨_, -, _, -, rfl⟩ := h
  exact loc.agree ((Agree.refl c).pop.trans rfl)

theorem unaryOp_local {f : Int → Int} (h : unaryOp f c = .ok c') : R c c' := by
  simp only [unaryOp, bind_eq_ok, deref_eq_ok, pure_eq_ok] at h
  obtain ⟨_, -, rfl⟩ := h
  exact loc.agree rfl

theorem modOp_local {f : Int → Int → Int} (h : modOp f c = .ok c') : R c c' := by
  simp only [modOp, bind_eq_ok, deref_eq_ok, pure_eq_ok] at h
  obtain ⟨_, -, _, -, _, -, rfl⟩ := h
  exact loc.agree ((Agree.refl c).pop.pop.trans rfl)

theorem shiftOp_local {overflow : Int → Int} {f : Int → Nat → Int}
    (h : shiftOp overflow f c = .ok c') : R c c' := by
  unfold shiftOp at h
  split at h
  · exact pure_eq_ok.mp h ▸ loc.exit c _
  · simp only [bind_eq_ok, deref_eq_ok, pure_eq_ok] at h
    obtain ⟨_, -, _, -, rfl⟩ := h
    exact loc.agree ((Agree.refl c).pop.trans rfl)

/-- The handlers gated on a revision that push one value. -/
theorem gated_local {gate : Bool} {e : Error} {v : Int}
    (h : (if gate then pure (c.exit e) else pure (c.push1 v) : Except Fault (State σ)) = .ok c') :
    R c c' := by
  split at h
  exacts [pure_eq_ok.mp h ▸ loc.exit c e, pure_eq_ok.mp h ▸ loc.agree rfl]

theorem opExp_local (h : opExp c = .ok c') : R c c' := by
  simp only [opExp, bind_eq_ok, deref_eq_ok] at h
  obtain ⟨_, -, _, -, h⟩ := h
  split at h <;> rename_i c₁ charged <;> obtain rfl := pure_eq_ok.mp h <;>
    have first := loc.charged (loc.agree (Agree.refl c).pop) charged
  exacts [first, loc.agreeing first rfl]

theorem opSignExtension_local (h : opSignExtension c = .ok c') : R c c' := by
  simp only [opSignExtension, bind_eq_ok, deref_eq_ok] at h
  obtain ⟨_, -, h⟩ := h
  have popped := loc.agree (Agree.refl c).pop
  split at h
  · exact pure_eq_ok.mp h ▸ popped
  · split at h <;> obtain rfl := pure_eq_ok.mp h
    exacts [popped, loc.agreeing popped rfl]

theorem opMload_local (h : opMload c = .ok c') : R c c' := by
  simp only [opMload, bind_eq_ok, deref_eq_ok] at h
  obtain ⟨_, -, ⟨c₁, out⟩, got, h⟩ := h
  have first := loc.got (loc.agree (Agree.refl c).pop) got
  cases out <;> obtain rfl := pure_eq_ok.mp h
  exacts [first, loc.agreeing first rfl]

theorem opMStore_local (h : opMStore c = .ok c') : R c c' := by
  simp only [opMStore, bind_eq_ok, deref_eq_ok] at h
  obtain ⟨_, -, _, -, h⟩ := h
  split at h <;> rename_i c₁ checked <;>
    have first := loc.checked (loc.agree (Agree.refl c).pop.pop) checked
  · exact pure_eq_ok.mp h ▸ first
  · simp only [bind_eq_ok] at h
    obtain ⟨_, sliced, _, _, h⟩ := h
    exact pure_eq_ok.mp h ▸
      loc.agreeing first (Agree.write (copyAt_length _ _ (by have := slice_within sliced; omega)))

theorem opMStore8_local (h : opMStore8 c = .ok c') : R c c' := by
  simp only [opMStore8, bind_eq_ok, deref_eq_ok] at h
  obtain ⟨_, -, _, -, h⟩ := h
  split at h <;> rename_i c₁ checked <;>
    have first := loc.checked (loc.agree (Agree.refl c).pop.pop) checked
  · exact pure_eq_ok.mp h ▸ first
  · split at h
    · exact pure_eq_ok.mp h ▸ loc.agreeing first (Agree.write (List.length_set ..))
    · exact absurd h throw_ne_ok

theorem opSload_local (h : opSload host c = .ok c') : R c c' := by
  simp only [opSload, bind_eq_ok, deref_eq_ok] at h
  obtain ⟨_, -, h⟩ := h
  split at h <;> rename_i c₁ charged <;> obtain rfl := pure_eq_ok.mp h <;>
    have first := loc.charged (loc.refl c) charged
  exacts [first, loc.agreeing first rfl]

theorem opSStore_local (h : opSStore host c = .ok c') : R c c' := by
  unfold opSStore at h
  split at h
  · exact pure_eq_ok.mp h ▸ loc.exit c _
  split at h
  · exact pure_eq_ok.mp h ▸ loc.exit c _
  simp only [bind_eq_ok] at h
  obtain ⟨⟨key, c₁⟩, first, ⟨val, c₂⟩, second, h⟩ := h
  obtain rfl := popHash_ok first
  obtain rfl := popHash_ok second
  obtain rfl := pure_eq_ok.mp h
  exact loc.trans (loc.agree (by exact (Agree.refl c).pop.pop.trans rfl)) (loc.charge _ _)

theorem opSha3_local {keccak256 : Bytes → Hash} (h : opSha3 keccak256 c = .ok c') : R c c' := by
  simp only [opSha3, bind_eq_ok, deref_eq_ok] at h
  obtain ⟨_, -, _, -, ⟨c₁, out⟩, got, h⟩ := h
  have first := loc.got (loc.agree (Agree.refl c).pop.pop) got
  cases out with
  | none => exact pure_eq_ok.mp h ▸ first
  | some tmp =>
      dsimp only at h
      split at h <;> rename_i c₂ charged <;> obtain rfl := pure_eq_ok.mp h <;>
        have second := loc.charged first charged
      exacts [second, loc.agreeing second rfl]

/-- The handlers that pop an address, charge, and push what the host says of it. -/
theorem popAddr_charge_local {p : Address × Bool × State σ} {gas : Uint64} {read : State σ → Int}
    (h : (match p with
      | (_, _, c) => match c.consumeGas gas with
        | (c, false) => pure c
        | (c, true) => pure (c.push1 (read c)) : Except Fault (State σ)) = .ok c')
    (popped : c.popAddr = p) : R c c' := by
  obtain ⟨addr, found, c₁⟩ := p
  dsimp only at h
  split at h <;> rename_i c₂ charged <;> obtain rfl := pure_eq_ok.mp h <;>
    have first := loc.charged (loc.agree (popAddr_agree popped)) charged
  exacts [first, loc.agreeing first rfl]

theorem opExtCodeHash_local (h : opExtCodeHash host c = .ok c') : R c c' := by
  unfold opExtCodeHash at h
  split at h
  · exact pure_eq_ok.mp h ▸ loc.exit c _
  · exact popAddr_charge_local loc h rfl

/-- The copy shape, after the operands are popped. -/
theorem copyToMemory_local {memOffset dataOffset length : Int} {extraGas : Uint64}
    {source : State σ → Bytes} (first : R c c₁)
    (h : copyToMemory c₁ memOffset dataOffset length extraGas source = .ok c') : R c c' := by
  unfold copyToMemory at h
  split at h <;> rename_i c₂ checked <;> have first := loc.checked first checked
  · exact pure_eq_ok.mp h ▸ first
  dsimp only at h
  split at h <;> rename_i c₃ charged <;> have second := loc.charged first charged
  · exact pure_eq_ok.mp h ▸ second
  split at h <;> rename_i c₄ extra <;> have third := loc.charged second extra
  · exact pure_eq_ok.mp h ▸ third
  split at h
  · exact pure_eq_ok.mp h ▸ third
  · simp only [bind_eq_ok, pure_eq_ok] at h
    obtain ⟨_, sliced, _, set, rfl⟩ := h
    exact loc.agreeing third (Agree.write (splice_length sliced (setBytes_length set)))

theorem opCallDataCopy_local (h : opCallDataCopy c = .ok c') : R c c' := by
  simp only [opCallDataCopy, bind_eq_ok, deref_eq_ok] at h
  obtain ⟨_, -, _, -, _, -, copied⟩ := h
  exact copyToMemory_local loc (loc.agree (Agree.refl c).pop.pop.pop) copied

theorem opCodeCopy_local (h : opCodeCopy c = .ok c') : R c c' := by
  simp only [opCodeCopy, bind_eq_ok, deref_eq_ok] at h
  obtain ⟨_, -, _, -, _, -, copied⟩ := h
  exact copyToMemory_local loc (loc.agree (Agree.refl c).pop.pop.pop) copied

theorem opExtCodeCopy_local (h : opExtCodeCopy host c = .ok c') : R c c' := by
  simp only [opExtCodeCopy, bind_eq_ok, deref_eq_ok, State.popAddr_snd] at h
  obtain ⟨_, -, _, -, _, -, copied⟩ := h
  exact copyToMemory_local loc (loc.agree (Agree.refl c).pop.pop.pop.pop) copied

theorem opReturnDataCopy_local (h : opReturnDataCopy c = .ok c') : R c c' := by
  unfold opReturnDataCopy at h
  split at h
  · exact pure_eq_ok.mp h ▸ loc.exit c _
  simp only [bind_eq_ok, deref_eq_ok] at h
  obtain ⟨_, -, _, -, _, -, h⟩ := h
  split at h <;> rename_i c₁ checked <;>
    have first := loc.checked (loc.agree (Agree.refl c).pop.pop.pop) checked
  · exact pure_eq_ok.mp h ▸ first
  split at h <;> rename_i c₂ charged <;> have second := loc.charged first charged
  · exact pure_eq_ok.mp h ▸ second
  split at h
  · exact pure_eq_ok.mp h ▸ loc.exited second
  split at h
  · exact pure_eq_ok.mp h ▸ loc.exited second
  simp only [bind_eq_ok] at h
  obtain ⟨_, _, _, sliced, h⟩ := h
  exact pure_eq_ok.mp h ▸ loc.agreeing second
    (Agree.write (splice_length sliced (copyAt_length _ _ (Nat.zero_le _))))

theorem popTopics_local : ∀ {n : Nat} {c₁ c₂ : State σ} {topics : List Hash}, R c c₁ →
    popTopics c₁ n = .ok (topics, c₂) → R c c₂
  | 0, _, _, _, first, h => by
      obtain ⟨-, rfl⟩ := Prod.mk.inj (pure_eq_ok.mp h)
      exact first
  | _ + 1, _, _, _, first, h => by
      simp only [popTopics, bind_eq_ok, deref_eq_ok] at h
      obtain ⟨_, -, ⟨_, _⟩, rest, h⟩ := h
      obtain ⟨-, rfl⟩ := Prod.mk.inj (pure_eq_ok.mp h)
      exact popTopics_local (loc.agreeing first (Agree.refl _).pop) rest

theorem opLog_local {size : Nat} (h : opLog host size c = .ok c') : R c c' := by
  unfold opLog at h
  dsimp only at h
  split at h
  · exact pure_eq_ok.mp h ▸ loc.exit c _
  split at h
  · exact pure_eq_ok.mp h ▸ loc.exit c _
  simp only [bind_eq_ok, deref_eq_ok] at h
  obtain ⟨_, -, _, -, ⟨topics, c₁⟩, popped, ⟨c₂, out⟩, got, h⟩ := h
  have first := loc.got (popTopics_local loc (loc.agree (Agree.refl c).pop.pop) popped) got
  cases out with
  | none => exact pure_eq_ok.mp h ▸ first
  | some tmp =>
      dsimp only at h
      split at h <;> rename_i c₃ charged <;> obtain rfl := pure_eq_ok.mp h <;>
        have second := loc.charged (loc.agreeing first (by exact rfl)) charged
      exacts [second, loc.trans second (loc.charge _ _)]

theorem opSelfDestruct_local (h : opSelfDestruct host c = .ok c') : R c c' := by
  unfold opSelfDestruct at h
  split at h
  · exact pure_eq_ok.mp h ▸ loc.exit c _
  split at h
  rename_i c₁ popped
  dsimp only at h
  split at h <;> rename_i c₂ charged <;> obtain rfl := pure_eq_ok.mp h <;>
    have first := loc.charged (loc.agree (popAddr_agree popped)) charged
  exacts [first, loc.trans (loc.agreeing first (by exact rfl)) (loc.halt _)]

theorem opHalt_local {op : OpCode} (h : opHalt op c = .ok c') : R c c' := by
  unfold opHalt at h
  split at h
  · exact pure_eq_ok.mp h ▸ loc.exit c _
  simp only [bind_eq_ok, deref_eq_ok] at h
  obtain ⟨_, -, _, -, ⟨c₁, out⟩, got, h⟩ := h
  have first := loc.got (loc.agree (Agree.refl c).pop.pop) got
  cases out with
  | none => exact pure_eq_ok.mp h ▸ loc.agreeing first rfl
  | some ret =>
      obtain rfl := pure_eq_ok.mp h
      split
      exacts [loc.exited (loc.agreeing first (by exact rfl)),
        loc.trans (loc.agreeing first (by exact rfl)) (loc.halt _)]

theorem opCallDataLoad_local (h : opCallDataLoad c = .ok c') : R c c' := by
  simp only [opCallDataLoad, bind_eq_ok, deref_eq_ok, pure_eq_ok] at h
  obtain ⟨_, -, _, -, rfl⟩ := h
  exact loc.agree rfl

theorem opBlockHash_local (h : opBlockHash host c = .ok c') : R c c' := by
  simp only [opBlockHash, bind_eq_ok, deref_eq_ok] at h
  obtain ⟨_, -, h⟩ := h
  split at h
  · exact pure_eq_ok.mp h ▸ loc.agree rfl
  · split at h <;> exact pure_eq_ok.mp h ▸ loc.agree rfl

theorem opDup_local {n : Nat} (h : opDup n c = .ok c') : R c c' := by
  unfold opDup at h
  split at h
  · exact pure_eq_ok.mp h ▸ loc.exit c _
  · simp only [bind_eq_ok, pure_eq_ok] at h
    obtain ⟨_, -, rfl⟩ := h
    exact loc.agree rfl

theorem opSwap_local {n : Nat} (h : opSwap n c = .ok c') : R c c' := by
  unfold opSwap at h
  split at h
  exacts [pure_eq_ok.mp h ▸ loc.exit c _, pure_eq_ok.mp h ▸ loc.agree rfl]

end Handlers

/-- The instructions whose handlers write the ledger only by charges, memory checks, stops and
writes into memory: all but JUMP, JUMPI, PUSH, CREATE and CALL. -/
def Instr.Plain : Instr → Prop
  | .jump | .jumpi | .push _ | .create _ | .call _ => False
  | _ => True

section Dispatch

variable {R : State σ → State σ → Prop} (loc : Local R) {host : Host σ} {c c' : State σ}
include loc

/-- Every plain handler keeps every local relation. -/
theorem Instr.exec_local {i : Instr} {keccak256 : Bytes → Hash} (plain : i.Plain)
    (h : i.exec host keccak256 c = .ok c') : R c c' := by
  have pushed : ∀ {c'' : State σ}, (pure c'' : Except Fault (State σ)) = .ok c' →
      Agree c c'' → R c c' :=
    fun h agree => pure_eq_ok.mp h ▸ loc.agree agree
  cases i with
  | add | mul | sub | div | sdiv | mod | smod | and | or | xor | byte | eq | lt | gt | slt | sgt =>
      exact binaryOp_local loc h
  | not | iszero => exact unaryOp_local loc h
  | addmod | mulmod => exact modOp_local loc h
  | shl => exact shiftOp_local loc (show opShl c = _ from h)
  | shr => exact shiftOp_local loc (show opShr c = _ from h)
  | sar => exact shiftOp_local loc (show opSar c = _ from h)
  | exp => exact opExp_local loc h
  | signextend => exact opSignExtension_local loc h
  | mload => exact opMload_local loc h
  | mstore => exact opMStore_local loc h
  | mstore8 => exact opMStore8_local loc h
  | sload => exact opSload_local loc h
  | sstore => exact opSStore_local loc h
  | sha3 => exact opSha3_local loc h
  | balance | extcodesize => exact popAddr_charge_local loc h rfl
  | extcodehash => exact opExtCodeHash_local loc h
  | calldataload => exact opCallDataLoad_local loc h
  | calldatacopy => exact opCallDataCopy_local loc h
  | codecopy => exact opCodeCopy_local loc h
  | extcodecopy => exact opExtCodeCopy_local loc h
  | returndatacopy => exact opReturnDataCopy_local loc h
  | blockhash => exact opBlockHash_local loc h
  | selfdestruct => exact opSelfDestruct_local loc h
  | dup n => exact opDup_local loc h
  | swap n => exact opSwap_local loc h
  | log size => exact opLog_local loc h
  | halt op => exact opHalt_local loc h
  | pop => exact pushed h (Agree.refl c).pop
  | selfbalance | chainid | returndatasize => exact gated_local loc h
  | stop => exact pure_eq_ok.mp h ▸ loc.halt c
  | jumpdest | address | caller | origin | coinbase | gasprice | difficulty | callvalue
  | calldatasize | codesize | pc | msize | gas | timestamp | number | gaslimit =>
      exact pushed h rfl
  | jump | jumpi | push _ | create _ | call _ => exact plain.elim

end Dispatch

/-! CREATE and CALL, for the local relations that also hold across a change of the gas alone:
the child frame's gas is credited back. -/

section Children

variable {R : State σ → State σ → Prop} (loc : Local R)
  (credit : ∀ {c c' : State σ}, c'.ledger.2 = c.ledger.2 → R c c') {host : Host σ} {c c' : State σ}
include loc credit

omit loc in
theorem createChild_local {op : OpCode} {value salt : Option Int} {input : Bytes} {gas : Uint64}
    (h : createChild host op c value input salt gas = .ok c') : R c c' := by
  unfold createChild at h
  split at h
  · exact pure_eq_ok.mp h ▸ credit rfl
  · simp only [bind_eq_ok] at h
    obtain ⟨_, -, ⟨_, _, _, _, _⟩, -, h⟩ := h
    exact pure_eq_ok.mp h ▸ credit rfl

theorem opCreate_local {op : OpCode} (h : opCreate host op c = .ok c') : R c c' := by
  unfold opCreate at h
  split at h
  · exact pure_eq_ok.mp h ▸ loc.exit c _
  split at h
  · exact pure_eq_ok.mp h ▸ loc.exit c _
  simp only [bind_eq_ok, deref_eq_ok] at h
  obtain ⟨_, -, _, -, ⟨c₁, out⟩, got, h⟩ := h
  have reset : Agree c c.resetReturnData := rfl
  have first := loc.got (loc.agree (reset.pop.pop.pop.popIf _)) got
  cases out with
  | none => exact pure_eq_ok.mp h ▸ loc.agreeing first rfl
  | some input =>
      dsimp only at h
      split at h
      · exact pure_eq_ok.mp h ▸ loc.agreeing first rfl
      split at h <;> rename_i c₂ charged <;> have second := loc.chargedIf first charged
      · exact pure_eq_ok.mp h ▸ loc.agreeing second rfl
      split at h <;> rename_i c₃ reserved <;> have third := loc.charged second reserved
      · exact pure_eq_ok.mp h ▸ loc.agreeing third rfl
      · exact loc.trans third (createChild_local credit h)

omit loc in
theorem callChild_local {callType : CallKind} {recipient caller codeAddress : Address}
    {value : Option Int} {transfersValue isStatic : Bool} {args : Bytes} {retOffset retSize : Int}
    {gas : Uint64} (h : callChild host callType c recipient caller codeAddress value transfersValue
      isStatic args retOffset retSize gas = .ok c') : R c c' := by
  unfold callChild at h
  split at h
  · exact pure_eq_ok.mp h ▸ credit rfl
  dsimp only at h
  split at h
  · exact pure_eq_ok.mp h ▸ credit rfl
  simp only [bind_eq_ok] at h
  obtain ⟨⟨_, _, _, _, _⟩, -, h⟩ := h
  split at h <;> simp only [bind_eq_ok, pure_eq_ok] at h
  · obtain ⟨_, rfl, rfl⟩ := h
    exact credit rfl
  · obtain ⟨_, sliced, _, rfl, rfl⟩ := h
    have within := (slice_within sliced).2
    simp only [State.push1] at within
    exact credit (by
      simp only [State.ledger, State.push1, copyAt_length _ _ (Nat.le_of_add_right_le within)])

theorem opCallBody_local {op : OpCode} (h : opCallBody host op c = .ok c') : R c c' := by
  unfold opCallBody at h
  simp only [bind_eq_ok, deref_eq_ok, State.popAddr_snd] at h
  obtain ⟨_, -, _, -, _, -, _, -, _, -, _, -, ⟨c₁, out⟩, got, h⟩ := h
  have first := loc.got (loc.agree ((Agree.refl c).pop.pop.popIf _).pop.pop.pop.pop) got
  cases out with
  | none => exact pure_eq_ok.mp h ▸ first
  | some args =>
      dsimp only at h
      split at h <;> rename_i c₂ checked <;> have second := loc.checked first checked
      · exact pure_eq_ok.mp h ▸ second
      split at h
      · exact pure_eq_ok.mp h ▸ loc.exited second
      split at h <;> rename_i c₃ charged <;> have third := loc.charged second charged
      · exact pure_eq_ok.mp h ▸ third
      · exact loc.trans third (callChild_local credit h)

theorem opCall_local {op : OpCode} (h : opCall host op c = .ok c') : R c c' := by
  have reset : R c c.resetReturnData := loc.agree rfl
  unfold opCall at h
  dsimp only at h
  split at h
  · simp only [bind_eq_ok, map_eq_ok] at h
    obtain ⟨_, ⟨v, -, rfl⟩, h⟩ := h
    split at h
    · exact pure_eq_ok.mp h ▸ loc.exited reset
    split at h
    · exact pure_eq_ok.mp h ▸ loc.exited reset
    split at h
    · exact pure_eq_ok.mp h ▸ loc.exited reset
    exact loc.trans reset (opCallBody_local loc credit h)
  · simp only [pure_bind, Bool.false_eq_true, if_false] at h
    split at h
    · exact pure_eq_ok.mp h ▸ loc.exited reset
    split at h
    · exact pure_eq_ok.mp h ▸ loc.exited reset
    exact loc.trans reset (opCallBody_local loc credit h)

end Children

end GoEvm.Evm
