import GoEvm.Evm.DispatchTable
import GoEvm.Evm.Frame

/-! Slice bounds in the copies to memory. CALLDATACOPY, CODECOPY and EXTCODECOPY return
before slicing when the size is zero, so a zero-length copy touches no memory whatever its
offset. RETURNDATACOPY has no such test: with a zero length `checkMemory` accepts any
offset and grows nothing, and `c.memory[memOffset:]` then panics for an offset past the
memory. So `Run` does not return on a frame that reaches such a RETURNDATACOPY. -/
namespace GoEvm.Evm

variable {σ : Type}

/-- A turn that leaves the frame running: `run` goes on from the frame it leaves. -/
theorem run_succ_of_step {rt : Runtime} {host : Host σ} {fuel : Nat} {c c' : State σ}
    (running : c.stop = false) (inside : c.ip < c.code.length) (stepped : step rt host c = .ok c')
    (going : c'.stop = false) : run rt host (fuel + 1) c = run rt host fuel c' := by
  have stepped : step rt host c = pure c' := stepped
  simp [run, running, Int.not_le.mpr inside, stepped, going]

/-- The turn of a frame whose handler the table holds and whose base gas it can pay: the handler
runs on the charged frame, and `ip` moves on unless the stack overflows. -/
theorem step_of_handler {rt : Runtime} {host : Host σ} {c : State σ} {op : OpCode} {entry : Handler}
    (fetched : opAt c = pure op) (registered : rt.dispatchTable op = some entry)
    (minimum : entry.stack ≤ c.stack.length) (charged : entry.gas ≤ c.gas) :
    step rt host c = entry.inst.exec host rt.keccak256 { c with gas := c.gas - entry.gas } >>= fun c =>
      if stackSize < c.stack.length then pure (c.exit .stackOverflow)
      else pure { c with ip := c.ip + 1 } := by
  have consumed : c.consumeGas entry.gas = ({ c with gas := c.gas - entry.gas }, true) := by
    simp [State.consumeGas, BitVec.not_lt.mpr charged]
  simp only [step, fetched, pure_bind, registered, not_lt.mpr minimum, if_false, consumed]

/-- RETURNDATACOPY of zero bytes from a readable data offset: the frame only loses its
three operands when the memory offset is inside the memory, and panics past it. -/
theorem opReturnDataCopy_zero_length {c : State σ} {memOffset dataOffset : Int} {rest : List Int}
    (byzantium : Revision.byzantium ≤ c.rev) (stack : c.stack = memOffset :: dataOffset :: 0 :: rest)
    (inData : isUint64 dataOffset)
    (readable : (uint64 dataOffset).toNat ≤ c.returnData.length) :
    opReturnDataCopy c =
      if (uint64 memOffset).toNat ≤ c.memory.length then pure { c with stack := rest }
      else throw .panic := by
  have zeroGas : ((uint64 0 + 31) / 32 * copyGas : Uint64) = 0 := by decide
  simp only [opReturnDataCopy, State.isRevision, byzantium, decide_True, Bool.not_true,
    State.pop, stack, deref, pure_bind, State.checkMemory_zero]
  simp only [zeroGas, State.consumeGas_zero]
  simp only [add_zero, inData, Bool.not_true, slice, sliceFrom, le_refl, readable, and_self,
    if_true, Bool.false_eq_true, if_false, not_lt.mpr readable]
  split
  · simp [copyAt]
  · rfl

/-- A frame about to run RETURNDATACOPY with a zero length, a readable data offset and a
memory offset past its memory makes `Run` panic, whatever the table charges for it. -/
theorem run_returnDataCopy_panics (rt : Runtime) (host : Host σ) (fuel : Nat) {c : State σ}
    {entry : Handler} {memOffset dataOffset : Int} {rest : List Int}
    (running : c.stop = false) (inCode : c.ip < c.code.length) (fetched : opAt c = pure 0x3e)
    (registered : rt.dispatchTable 0x3e = some entry) (handler : entry.inst = .returndatacopy)
    (minimum : entry.stack ≤ c.stack.length) (charged : entry.gas ≤ c.gas)
    (byzantium : Revision.byzantium ≤ c.rev) (stack : c.stack = memOffset :: dataOffset :: 0 :: rest)
    (inData : isUint64 dataOffset) (readable : (uint64 dataOffset).toNat ≤ c.returnData.length)
    (beyond : c.memory.length < (uint64 memOffset).toNat) :
    run rt host (fuel + 1) c = throw .panic := by
  have copied : opReturnDataCopy { c with gas := c.gas - entry.gas } = throw .panic := by
    rw [opReturnDataCopy_zero_length (c := { c with gas := c.gas - entry.gas }) byzantium stack
      inData readable]
    exact if_neg (Nat.not_le.mpr beyond)
  have stepped : step rt host c = throw .panic := by
    rw [step_of_handler fetched registered minimum charged, handler]
    simp only [Instr.exec, copied]
    rfl
  simp only [run, running, Int.not_le.mpr inCode, stepped, Bool.false_eq_true, if_false]
  rfl

/-- A host that holds nothing and answers zero, for frames that make no host call. -/
def silentHost : Host Unit where
  accountExists _ _ := false
  getStorage _ _ _ := 0
  setStorage _ _ _ _ := ((), .unchanged)
  getBalance _ _ := 0
  getCodeSize _ _ := 0
  getCodeHash _ _ := 0
  getCode _ _ := []
  selfdestruct _ _ _ := ()
  getTxContext _ := ⟨0, 0, 0, 0, 0, 0, 0, 0⟩
  getBlockHash _ _ := 0
  emitLog _ _ _ _ := ()
  call _ _ _ _ _ _ _ _ _ _ _ := pure ((), [], 0, 0, none)

/-- `PUSH1 0, PUSH1 0, PUSH6 2^40, RETURNDATACOPY, STOP` run as init code at Byzantium with
100 gas: the copy of zero bytes to offset `2^40` of the empty memory panics. -/
theorem returnDataCopy_zero_length_panics (keccak256 : Bytes → Hash) :
    evmRun ⟨dispatchTable, keccak256⟩ silentHost Revision.byzantium 10 () .create 0 0 0
      [0x60, 0x00, 0x60, 0x00, 0x65, 0x01, 0x00, 0x00, 0x00, 0x00, 0x00, 0x3e, 0x00] 100 0 false 0
      = throw .panic := by
  unfold evmRun
  -- the three pushes charge 9 gas and leave `2^40, 0, 0` for the copy at 11
  iterate 3 rw [run_succ_of_step (by rfl) (by decide) (by rfl) (by rfl)]
  rw [run_returnDataCopy_panics _ _ 6 (by rfl) (by decide) (by rfl) (by rfl) (by rfl) (by decide)
    (by decide) (by decide) (by rfl) (by decide) (by decide) (by decide)]
  rfl

end GoEvm.Evm
