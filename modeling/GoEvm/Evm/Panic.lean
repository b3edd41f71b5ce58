import GoEvm.Evm.Effect

/-! Where a turn of `Run` fails. A `Fault` of the model has two causes: `panic`, a run-time
check of Go that fails (a nil operand, a slice out of bounds, the limb loop of `opMStore` past
its slot, an opcode `opCodeToCallKind` does not know), and `fuel`, the bound the model puts on
the loops of `run` and `callx`. No handler throws the second: a handler runs out of fuel only
where a call of the host does, which CREATE and CALL make from the host state of the frame. So
a turn over a host whose calls from that state finish never ends in `Fault.fuel`. -/
namespace GoEvm.Evm

variable {σ : Type}

/-! The monad and the checks of Go. -/

/-- A computation that does not run out of fuel, continued by one that does not either. -/
theorem ne_fuel_bind {α β : Type} {x : Except Fault α} {f : α → Except Fault β}
    (first : x ≠ .error .fuel) (rest : ∀ a, x = .ok a → f a ≠ .error .fuel) :
    x >>= f ≠ .error .fuel := by
  cases x with
  | error e => simpa [bind, Except.bind] using first
  | ok a => exact rest a rfl

theorem pure_ne_fuel {α : Type} (a : α) : (pure a : Except Fault α) ≠ .error .fuel := nofun

theorem map_ne_fuel {α β : Type} {x : Except Fault α} {f : α → β} (first : x ≠ .error .fuel) :
    f <$> x ≠ .error .fuel := by
  cases x with
  | error e => simpa [Functor.map, Except.map] using first
  | ok a => exact nofun

theorem gated_ne_fuel {p : Prop} [Decidable p] {a b : State σ} :
    (if p then pure a else pure b : Except Fault (State σ)) ≠ .error .fuel := by
  split <;> exact pure_ne_fuel _

theorem deref_ne_fuel (o : Option Int) : deref o ≠ .error .fuel := by
  cases o <;> exact nofun

theorem slice_ne_fuel (s : Bytes) (lo hi : Nat) : slice s lo hi ≠ .error .fuel := by
  unfold slice; split <;> exact nofun

theorem sliceFrom_ne_fuel (s : Bytes) (lo : Nat) : sliceFrom s lo ≠ .error .fuel := by
  unfold sliceFrom; split <;> exact nofun

theorem fill_ne_fuel (dst : Bytes) (start n : Nat) : setBytes.fill dst start n ≠ .error .fuel := by
  unfold setBytes.fill; split <;> exact nofun

theorem setBytes_ne_fuel (dst input : Bytes) (size : Uint64) (d : Int) :
    setBytes dst input size d ≠ .error .fuel := by
  unfold setBytes; dsimp only
  split_ifs <;> first | exact fill_ne_fuel _ _ _ | exact pure_ne_fuel _

theorem mstoreLimbs_ne_fuel : ∀ (ds : List Uint64) (i : Nat) (buf : Bytes),
    mstoreLimbs ds i buf ≠ .error .fuel
  | [], _, _ => nofun
  | _ :: ds, i, _ => by
      unfold mstoreLimbs; split
      · exact nofun
      · exact mstoreLimbs_ne_fuel ds _ _

theorem peekAt_ne_fuel (c : State σ) (n : Nat) : c.peekAt n ≠ .error .fuel := by
  unfold State.peekAt; split <;> exact nofun

theorem popHash_ne_fuel (c : State σ) : c.popHash ≠ .error .fuel := by
  unfold State.popHash; split <;> exact nofun

theorem get2_ne_fuel (c : State σ) (dst : Bytes) (offset length : Int) :
    c.get2 dst offset length ≠ .error .fuel := by
  unfold State.get2; split
  · exact pure_ne_fuel _
  · split
    · exact pure_ne_fuel _
    · exact ne_fuel_bind (slice_ne_fuel _ _ _) fun _ _ => pure_ne_fuel _

theorem opCodeToCallKind_ne_fuel (op : OpCode) : opCodeToCallKind op ≠ .error .fuel := by
  unfold opCodeToCallKind; split_ifs <;> exact nofun

theorem popTopics_ne_fuel : ∀ (c : State σ) (n : Nat), popTopics c n ≠ .error .fuel
  | _, 0 => nofun
  | _, n + 1 => ne_fuel_bind (deref_ne_fuel _) fun _ _ =>
      ne_fuel_bind (popTopics_ne_fuel _ n) fun _ _ => pure_ne_fuel _

/-! The handlers that make no host call. -/

section Handlers

variable {host : Host σ} {c : State σ}

theorem binaryOp_ne_fuel (f : Int → Int → Int) : binaryOp f c ≠ .error .fuel :=
  ne_fuel_bind (deref_ne_fuel _) fun _ _ => ne_fuel_bind (deref_ne_fuel _) fun _ _ =>
    pure_ne_fuel _

theorem unaryOp_ne_fuel (f : Int → Int) : unaryOp f c ≠ .error .fuel :=
  ne_fuel_bind (deref_ne_fuel _) fun _ _ => pure_ne_fuel _

theorem modOp_ne_fuel (f : Int → Int → Int) : modOp f c ≠ .error .fuel :=
  ne_fuel_bind (deref_ne_fuel _) fun _ _ => ne_fuel_bind (deref_ne_fuel _) fun _ _ =>
    ne_fuel_bind (deref_ne_fuel _) fun _ _ => pure_ne_fuel _

theorem opExp_ne_fuel : opExp c ≠ .error .fuel :=
  ne_fuel_bind (deref_ne_fuel _) fun _ _ => ne_fuel_bind (deref_ne_fuel _) fun _ _ => by
    dsimp only; split <;> exact pure_ne_fuel _

theorem opSignExtension_ne_fuel : opSignExtension c ≠ .error .fuel :=
  ne_fuel_bind (deref_ne_fuel _) fun _ _ => by
    dsimp only; split
    · exact pure_ne_fuel _
    · split <;> exact pure_ne_fuel _

theorem shiftOp_ne_fuel (overflow : Int → Int) (f : Int → Nat → Int) :
    shiftOp overflow f c ≠ .error .fuel := by
  unfold shiftOp; split
  · exact pure_ne_fuel _
  · exact ne_fuel_bind (deref_ne_fuel _) fun _ _ => ne_fuel_bind (deref_ne_fuel _) fun _ _ =>
      pure_ne_fuel _

theorem opMload_ne_fuel : opMload c ≠ .error .fuel :=
  ne_fuel_bind (deref_ne_fuel _) fun _ _ => ne_fuel_bind (get2_ne_fuel _ _ _ _) fun _ _ => by
    split <;> exact pure_ne_fuel _

theorem opMStore_ne_fuel : opMStore c ≠ .error .fuel :=
  ne_fuel_bind (deref_ne_fuel _) fun _ _ => ne_fuel_bind (deref_ne_fuel _) fun _ _ => by
    split
    · exact pure_ne_fuel _
    · exact ne_fuel_bind (slice_ne_fuel _ _ _) fun _ _ =>
        ne_fuel_bind (mstoreLimbs_ne_fuel _ _ _) fun _ _ => pure_ne_fuel _

theorem opMStore8_ne_fuel : opMStore8 c ≠ .error .fuel :=
  ne_fuel_bind (deref_ne_fuel _) fun _ _ => ne_fuel_bind (deref_ne_fuel _) fun _ _ => by
    split
    · exact pure_ne_fuel _
    · dsimp only; split <;> exact nofun

theorem opSload_ne_fuel : opSload host c ≠ .error .fuel :=
  ne_fuel_bind (deref_ne_fuel _) fun _ _ => by
    dsimp only; split <;> exact pure_ne_fuel _

theorem opSStore_ne_fuel : opSStore host c ≠ .error .fuel := by
  unfold opSStore; split
  · exact pure_ne_fuel _
  split
  · exact pure_ne_fuel _
  · exact ne_fuel_bind (popHash_ne_fuel _) fun _ _ => ne_fuel_bind (popHash_ne_fuel _) fun _ _ =>
      pure_ne_fuel _

theorem opSha3_ne_fuel (keccak256 : Bytes → Hash) : opSha3 keccak256 c ≠ .error .fuel :=
  ne_fuel_bind (deref_ne_fuel _) fun _ _ => ne_fuel_bind (deref_ne_fuel _) fun _ _ =>
    ne_fuel_bind (get2_ne_fuel _ _ _ _) fun _ _ => by
      split
      · exact pure_ne_fuel _
      · dsimp only; split <;> exact pure_ne_fuel _

theorem opBalance_ne_fuel : opBalance host c ≠ .error .fuel := by
  unfold opBalance; dsimp only; split <;> exact pure_ne_fuel _

theorem opExtCodeSize_ne_fuel : opExtCodeSize host c ≠ .error .fuel := by
  unfold opExtCodeSize; dsimp only; split <;> exact pure_ne_fuel _

theorem opExtCodeHash_ne_fuel : opExtCodeHash host c ≠ .error .fuel := by
  unfold opExtCodeHash; split
  · exact pure_ne_fuel _
  · dsimp only; split <;> exact pure_ne_fuel _

theorem opCallDataLoad_ne_fuel : opCallDataLoad c ≠ .error .fuel :=
  ne_fuel_bind (deref_ne_fuel _) fun _ _ => ne_fuel_bind (setBytes_ne_fuel _ _ _ _) fun _ _ =>
    pure_ne_fuel _

theorem copyToMemory_ne_fuel (m d n : Int) (extra : Uint64) (source : State σ → Bytes) :
    copyToMemory c m d n extra source ≠ .error .fuel := by
  unfold copyToMemory; split
  · exact pure_ne_fuel _
  dsimp only; split
  · exact pure_ne_fuel _
  split
  · exact pure_ne_fuel _
  split
  · exact pure_ne_fuel _
  · exact ne_fuel_bind (sliceFrom_ne_fuel _ _) fun _ _ =>
      ne_fuel_bind (setBytes_ne_fuel _ _ _ _) fun _ _ => pure_ne_fuel _

theorem opExtCodeCopy_ne_fuel : opExtCodeCopy host c ≠ .error .fuel :=
  ne_fuel_bind (deref_ne_fuel _) fun _ _ => ne_fuel_bind (deref_ne_fuel _) fun _ _ =>
    ne_fuel_bind (deref_ne_fuel _) fun _ _ => copyToMemory_ne_fuel _ _ _ _ _

theorem opCallDataCopy_ne_fuel : opCallDataCopy c ≠ .error .fuel :=
  ne_fuel_bind (deref_ne_fuel _) fun _ _ => ne_fuel_bind (deref_ne_fuel _) fun _ _ =>
    ne_fuel_bind (deref_ne_fuel _) fun _ _ => copyToMemory_ne_fuel _ _ _ _ _

theorem opCodeCopy_ne_fuel : opCodeCopy c ≠ .error .fuel :=
  ne_fuel_bind (deref_ne_fuel _) fun _ _ => ne_fuel_bind (deref_ne_fuel _) fun _ _ =>
    ne_fuel_bind (deref_ne_fuel _) fun _ _ => copyToMemory_ne_fuel _ _ _ _ _

theorem opReturnDataCopy_ne_fuel : opReturnDataCopy c ≠ .error .fuel := by
  unfold opReturnDataCopy; split
  · exact pure_ne_fuel _
  refine ne_fuel_bind (deref_ne_fuel _) fun _ _ => ne_fuel_bind (deref_ne_fuel _) fun _ _ =>
    ne_fuel_bind (deref_ne_fuel _) fun _ _ => ?_
  split
  · exact pure_ne_fuel _
  dsimp only; split
  · exact pure_ne_fuel _
  split
  · exact pure_ne_fuel _
  split
  · exact pure_ne_fuel _
  · exact ne_fuel_bind (slice_ne_fuel _ _ _) fun _ _ =>
      ne_fuel_bind (sliceFrom_ne_fuel _ _) fun _ _ => pure_ne_fuel _

theorem opBlockHash_ne_fuel : opBlockHash host c ≠ .error .fuel :=
  ne_fuel_bind (deref_ne_fuel _) fun _ _ => by
    split
    · exact pure_ne_fuel _
    · dsimp only; split <;> exact pure_ne_fuel _

theorem opJump_ne_fuel : opJump c ≠ .error .fuel :=
  ne_fuel_bind (deref_ne_fuel _) fun _ _ => pure_ne_fuel _

theorem opJumpi_ne_fuel : opJumpi c ≠ .error .fuel :=
  ne_fuel_bind (deref_ne_fuel _) fun _ _ => ne_fuel_bind (deref_ne_fuel _) fun _ _ =>
    pure_ne_fuel _

theorem opPush_ne_fuel (n : Nat) : opPush n c ≠ .error .fuel := by
  unfold opPush; dsimp only; split
  · exact ne_fuel_bind (sliceFrom_ne_fuel _ _) fun _ _ =>
      ne_fuel_bind (pure_ne_fuel _) fun _ _ => pure_ne_fuel _
  · exact ne_fuel_bind (slice_ne_fuel _ _ _) fun _ _ =>
      ne_fuel_bind (pure_ne_fuel _) fun _ _ => pure_ne_fuel _

theorem opDup_ne_fuel (n : Nat) : opDup n c ≠ .error .fuel := by
  unfold opDup; split
  · exact pure_ne_fuel _
  · exact ne_fuel_bind (peekAt_ne_fuel _ _) fun _ _ => pure_ne_fuel _

theorem opLog_ne_fuel (size : Nat) : opLog host size c ≠ .error .fuel := by
  unfold opLog; dsimp only; split
  · exact pure_ne_fuel _
  split
  · exact pure_ne_fuel _
  refine ne_fuel_bind (deref_ne_fuel _) fun _ _ => ne_fuel_bind (deref_ne_fuel _) fun _ _ =>
    ne_fuel_bind (popTopics_ne_fuel _ _) fun _ _ =>
    ne_fuel_bind (get2_ne_fuel _ _ _ _) fun _ _ => ?_
  split
  · exact pure_ne_fuel _
  · split <;> exact pure_ne_fuel _

theorem opSelfDestruct_ne_fuel : opSelfDestruct host c ≠ .error .fuel := by
  unfold opSelfDestruct; split
  · exact pure_ne_fuel _
  · dsimp only; split <;> exact pure_ne_fuel _

theorem opHalt_ne_fuel (op : OpCode) : opHalt op c ≠ .error .fuel := by
  unfold opHalt; split
  · exact pure_ne_fuel _
  · exact ne_fuel_bind (deref_ne_fuel _) fun _ _ => ne_fuel_bind (deref_ne_fuel _) fun _ _ =>
      ne_fuel_bind (get2_ne_fuel _ _ _ _) fun _ _ => by split <;> exact pure_ne_fuel _

end Handlers

/-! CREATE and CALL: the host is called from the host state of the frame, which the pops, the
memory checks and the charges before the call keep. -/

/-- The host's calls from the host state `h` do not run out of fuel. -/
def Host.Finishes (host : Host σ) (h : σ) : Prop :=
  ∀ kind recipient sender value input gas depth static salt codeAddress,
    host.call h kind recipient sender value input gas depth static salt codeAddress ≠ .error .fuel

section Children

variable {host : Host σ} {c : State σ}

theorem createChild_ne_fuel (finishes : host.Finishes c.host) (op : OpCode) (value : Option Int)
    (input : Bytes) (salt : Option Int) (gas : Uint64) :
    createChild host op c value input salt gas ≠ .error .fuel := by
  unfold createChild; split
  · exact pure_ne_fuel _
  · exact ne_fuel_bind (opCodeToCallKind_ne_fuel _) fun _ _ =>
      ne_fuel_bind (finishes _ _ _ _ _ _ _ _ _ _) fun _ _ => pure_ne_fuel _

theorem callChild_ne_fuel (finishes : host.Finishes c.host) (callType : CallKind)
    (recipient caller codeAddress : Address) (value : Option Int) (transfersValue isStatic : Bool)
    (args : Bytes) (retOffset retSize : Int) (gas : Uint64) :
    callChild host callType c recipient caller codeAddress value transfersValue isStatic args
      retOffset retSize gas ≠ .error .fuel := by
  unfold callChild; split
  · exact pure_ne_fuel _
  dsimp only; split
  · exact pure_ne_fuel _
  refine ne_fuel_bind (finishes _ _ _ _ _ _ _ _ _ _) fun _ _ => ?_
  split
  · exact ne_fuel_bind (pure_ne_fuel _) fun _ _ => pure_ne_fuel _
  · exact ne_fuel_bind (slice_ne_fuel _ _ _) fun _ _ =>
      ne_fuel_bind (pure_ne_fuel _) fun _ _ => pure_ne_fuel _

theorem opCreate_ne_fuel (finishes : host.Finishes c.host) (op : OpCode) :
    opCreate host op c ≠ .error .fuel := by
  unfold opCreate; split
  · exact pure_ne_fuel _
  split
  · exact pure_ne_fuel _
  have reset : Pops c c.resetReturnData := ⟨rfl, rfl, rfl, rfl, 0, rfl⟩
  refine ne_fuel_bind (deref_ne_fuel _) fun _ _ => ne_fuel_bind (deref_ne_fuel _) fun _ _ =>
    ne_fuel_bind (get2_ne_fuel _ _ _ _) fun r got => ?_
  obtain ⟨c₁, out⟩ := r
  have pops := (reset.pop.pop.pop.popIf _).keeps (get2_keeps got)
  cases out with
  | none => exact pure_ne_fuel _
  | some input =>
      dsimp only; split
      · exact pure_ne_fuel _
      split <;> rename_i c₂ charged <;>
        have pops := pops.keeps (keeps_of_fst (charge_keeps _) charged)
      · exact pure_ne_fuel _
      split <;> rename_i c₃ reserved <;>
        have pops := pops.keeps (keeps_of_fst (consumeGas_keeps _) reserved)
      · exact pure_ne_fuel _
      · exact createChild_ne_fuel (pops.2.2.2.1 ▸ finishes) _ _ _ _ _

theorem opCallBody_ne_fuel (finishes : host.Finishes c.host) (op : OpCode) :
    opCallBody host op c ≠ .error .fuel := by
  unfold opCallBody
  refine ne_fuel_bind (opCodeToCallKind_ne_fuel _) fun _ _ =>
    ne_fuel_bind (deref_ne_fuel _) fun _ _ => ne_fuel_bind (deref_ne_fuel _) fun _ _ =>
    ne_fuel_bind (deref_ne_fuel _) fun _ _ => ne_fuel_bind (deref_ne_fuel _) fun _ _ =>
    ne_fuel_bind (deref_ne_fuel _) fun _ _ =>
    ne_fuel_bind (get2_ne_fuel _ _ _ _) fun r got => ?_
  obtain ⟨c₁, out⟩ := r
  have addr : Pops c c.pop.2.popAddr.2.2 := by rw [State.popAddr_snd]; exact (Pops.refl c).pop.pop
  have pops := (addr.popIf _).pop.pop.pop.pop.keeps (get2_keeps got)
  cases out with
  | none => exact pure_ne_fuel _
  | some args =>
      dsimp only
      split <;> rename_i c₂ checked <;>
        have pops := pops.keeps (keeps_of_fst (checkMemory_keeps _ _) checked)
      · exact pure_ne_fuel _
      split
      · exact pure_ne_fuel _
      split <;> rename_i c₃ charged <;>
        have pops := pops.keeps (keeps_of_fst (consumeGas_keeps _) charged)
      · exact pure_ne_fuel _
      · exact callChild_ne_fuel (pops.2.2.2.1 ▸ finishes) _ _ _ _ _ _ _ _ _ _ _

theorem opCall_ne_fuel (finishes : host.Finishes c.host) (op : OpCode) :
    opCall host op c ≠ .error .fuel := by
  have body : opCallBody host op c.resetReturnData ≠ .error .fuel :=
    opCallBody_ne_fuel (c := c.resetReturnData) finishes op
  unfold opCall; dsimp only; split
  · exact ne_fuel_bind (map_ne_fuel (peekAt_ne_fuel _ _)) fun _ _ => by
      split_ifs <;> first | exact pure_ne_fuel _ | exact body
  · exact ne_fuel_bind (pure_ne_fuel _) fun _ _ => by
      split_ifs <;> first | exact pure_ne_fuel _ | exact body

end Children

/-! Every handler, and one turn of the loop. -/

section Dispatch

variable {host : Host σ} {c : State σ}

/-- No handler runs out of fuel: it fails where Go panics, or where the host's call fails. -/
theorem Instr.exec_ne_fuel {keccak256 : Bytes → Hash} (i : Instr)
    (finishes : host.Finishes c.host) : i.exec host keccak256 c ≠ .error .fuel := by
  cases i with
  | stop | pop | address | selfbalance | chainid | origin | caller | callvalue | calldatasize
  | codesize | gasprice | returndatasize | pc | msize | gas | coinbase | timestamp | number
  | difficulty | gaslimit | jumpdest | swap n =>
      first | exact pure_ne_fuel _ | exact gated_ne_fuel
  | add | mul | sub | div | sdiv | mod | smod | and | or | xor | byte | eq | lt | gt | slt | sgt =>
      exact binaryOp_ne_fuel _
  | not | iszero => exact unaryOp_ne_fuel _
  | addmod | mulmod => exact modOp_ne_fuel _
  | exp => exact opExp_ne_fuel
  | signextend => exact opSignExtension_ne_fuel
  | shl => show opShl c ≠ _; exact shiftOp_ne_fuel _ _
  | shr => show opShr c ≠ _; exact shiftOp_ne_fuel _ _
  | sar => show opSar c ≠ _; exact shiftOp_ne_fuel _ _
  | mload => exact opMload_ne_fuel
  | mstore => exact opMStore_ne_fuel
  | mstore8 => exact opMStore8_ne_fuel
  | sload => exact opSload_ne_fuel
  | sstore => exact opSStore_ne_fuel
  | sha3 => exact opSha3_ne_fuel _
  | balance => exact opBalance_ne_fuel
  | calldataload => exact opCallDataLoad_ne_fuel
  | extcodesize => exact opExtCodeSize_ne_fuel
  | extcodehash => exact opExtCodeHash_ne_fuel
  | extcodecopy => exact opExtCodeCopy_ne_fuel
  | calldatacopy => exact opCallDataCopy_ne_fuel
  | returndatacopy => exact opReturnDataCopy_ne_fuel
  | codecopy => exact opCodeCopy_ne_fuel
  | blockhash => exact opBlockHash_ne_fuel
  | selfdestruct => exact opSelfDestruct_ne_fuel
  | jump => exact opJump_ne_fuel
  | jumpi => exact opJumpi_ne_fuel
  | push n => exact opPush_ne_fuel n
  | dup n => exact opDup_ne_fuel n
  | log size => exact opLog_ne_fuel size
  | create op => exact opCreate_ne_fuel finishes op
  | call op => exact opCall_ne_fuel finishes op
  | halt op => exact opHalt_ne_fuel op

theorem opAt_ne_fuel (c : State σ) : opAt c ≠ .error .fuel := by
  unfold opAt; split
  · split <;> exact nofun
  · exact nofun

/-- No turn of the loop runs out of fuel over a host whose calls from the frame's host state
finish. -/
theorem step_ne_fuel {rt : Runtime} (finishes : host.Finishes c.host) :
    step rt host c ≠ .error .fuel := by
  refine ne_fuel_bind (opAt_ne_fuel c) fun _ _ => ?_
  split
  · exact pure_ne_fuel _
  split
  · exact pure_ne_fuel _
  split <;> rename_i c₁ charged
  · exact pure_ne_fuel _
  have kept : c₁.host = c.host := (keeps_of_fst (consumeGas_keeps _) charged).2.2.2.1
  exact ne_fuel_bind (Instr.exec_ne_fuel _ (kept ▸ finishes)) fun _ _ => by
    split <;> exact pure_ne_fuel _

end Dispatch

end GoEvm.Evm
