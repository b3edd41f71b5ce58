import GoEvm.Evm.Instructions

/-! The handlers of `evm/instructions.go` that leave the frame: logs, SSTORE's companions
SELFDESTRUCT and the halts, and the CREATE and CALL families, which dispatch a child frame
through `Host.Call`. The `op` a factory handler is built with is the opcode byte it was
registered under. -/
namespace GoEvm.Evm

variable {σ : Type}

abbrev OpCode := UInt8

/-- Modelled from the spec: the opcode constants of `evm/opcodes.go` are not under src/;
these are the protocol's byte values of the opcodes the handlers compare against. -/
def OpCode.CREATE : OpCode := 0xf0
def OpCode.CALL : OpCode := 0xf1
def OpCode.CALLCODE : OpCode := 0xf2
def OpCode.RETURN : OpCode := 0xf3
def OpCode.DELEGATECALL : OpCode := 0xf4
def OpCode.CREATE2 : OpCode := 0xf5
def OpCode.STATICCALL : OpCode := 0xfa
def OpCode.REVERT : OpCode := 0xfd

open OpCode

/-- `opCodeToCallKind`; any other opcode is a `panic("BUG")`. -/
def opCodeToCallKind (op : OpCode) : Except Fault CallKind :=
  if op = CALL then pure .call
  else if op = STATICCALL then pure .call
  else if op = CALLCODE then pure .callCode
  else if op = DELEGATECALL then pure .delegateCall
  else if op = CREATE then pure .create
  else if op = CREATE2 then pure .create2
  else throw .panic

/-- `getBalance`: the host's balance hash read back as a number. -/
def State.getBalance (host : Host σ) (c : State σ) (addr : Address) : Int :=
  (host.getBalance c.host addr).toNat

/-- Pops `n` topics, each through `bigToHash`. -/
def popTopics (c : State σ) : Nat → Except Fault (List Hash × State σ)
  | 0 => pure ([], c)
  | n + 1 => do
      let (topic, c) := c.pop
      let topic ← deref topic
      let (topics, c) ← popTopics c n
      pure (bigToHash topic :: topics, c)

/-- `opLog(size)`, registered with `size` one more than its number of topics. The log is
emitted before its gas is charged. -/
def opLog (host : Host σ) (size : Nat) (c : State σ) : Except Fault (State σ) :=
  let size := size - 1
  if c.static then pure (c.exit .writeProtection)
  else if !c.stackAtLeast (2 + size) then pure (c.exit .stackUnderflow)
  else do
    let (mStart, c) := c.pop
    let mStart ← deref mStart
    let (mSize, c) := c.pop
    let mSize ← deref mSize
    let (topics, c) ← popTopics c size
    match ← c.get2 [] mStart mSize with
    | (c, none) => pure c
    | (c, some tmp) =>
        let c := { c with host := host.emitLog c.host c.address topics tmp }
        match c.consumeGas (BitVec.ofNat 64 size * 375) with
        | (c, false) => pure c
        | (c, true) => pure (c.consumeGas (uint64 mSize * 8)).1

def opSelfDestruct (host : Host σ) (c : State σ) : Except Fault (State σ) :=
  if c.static then pure (c.exit .writeProtection)
  else
    let (address, _, c) := c.popAddr
    let gas : Uint64 :=
      if Revision.tangerineWhistle ≤ c.rev then
        if (c.rev = Revision.tangerineWhistle || host.getBalance c.host c.address != 0) &&
            !host.accountExists c.host address then 5000 + 25000
        else 5000
      else 0
    match c.consumeGas gas with
    | (c, false) => pure c
    | (c, true) => pure { c with host := host.selfdestruct c.host c.address address }.halt

/-- `opHalt(op)`: RETURN, or REVERT from Byzantium on; a failed memory check leaves `ret`
empty. -/
def opHalt (op : OpCode) (c : State σ) : Except Fault (State σ) :=
  if op = REVERT && !c.isRevision Revision.byzantium then pure (c.exit .opCodeNotFound)
  else do
    let (offset, c) := c.pop
    let offset ← deref offset
    let (size, c) := c.pop
    let size ← deref size
    match ← c.get2 [] offset size with
    | (c, none) => pure { c with ret := [] }
    | (c, some ret) =>
        let c := { c with ret := ret }
        pure (if op = REVERT then c.exit .executionReverted else c.halt)

/-- The part of `opCreate(op)` after the gas is set aside: the depth test, then
`Host.Call` with the gas as an `int64`, and the child's gas credited back. -/
def createChild (host : Host σ) (op : OpCode) (c : State σ) (value : Option Int) (input : Bytes)
    (salt : Option Int) (gas : Uint64) : Except Fault (State σ) :=
  if 1024 ≤ c.depth then pure { c.push1 0 with gas := c.gas + gas }
  else do
    let callType ← opCodeToCallKind op
    let saltHash : Hash := if op = CREATE2 then bigToHash (salt.getD 0) else 0
    let valueHash : Hash := match value with | some v => bigToHash v | none => 0
    let (h, retValue, gasLeft, codeAddress, err) ←
      host.call c.host callType 0 c.address valueHash input gas (c.depth + 1) false saltHash 0
    let c := { c with host := h }
    let c := c.push1 (if err.isSome then 0 else codeAddress.toNat)
    pure { c with gas := c.gas + gasLeft, returnData := retValue }

/-- `opCreate(op)` for CREATE and CREATE2. -/
def opCreate (host : Host σ) (op : OpCode) (c : State σ) : Except Fault (State σ) :=
  if c.static then pure (c.exit .writeProtection)
  else if op = CREATE2 && !c.isRevision Revision.constantinople then
    pure (c.exit .opCodeNotFound)
  else do
    let c := c.resetReturnData
    let (value, c) := c.pop
    let (offset, c) := c.pop
    let offset ← deref offset
    let (length, c) := c.pop
    let length ← deref length
    let (salt, c) := if op = CREATE2 then c.pop else (none, c)
    let hasTransfer := match value with | some v => v ≠ 0 | none => false
    match ← c.get2 [] offset length with
    | (c, none) => pure (c.push1 0)
    | (c, some input) =>
        if hasTransfer && c.getBalance host c.address < value.getD 0 then pure (c.push1 0)
        else
          let charged : State σ × Bool :=
            if op = CREATE2 then c.consumeGas ((uint64 length + 31) / 32 * sha3WordGas)
            else (c, true)
          match charged with
          | (c, false) => pure (c.push1 0)
          | (c, true) =>
              let gas := c.gas
              let gas :=
                if c.isRevision Revision.tangerineWhistle || op = CREATE2 then gas - gas / 64
                else gas
              match c.consumeGas gas with
              | (c, false) => pure (c.push1 0)
              | (c, true) => createChild host op c value input salt gas

/-- The gas `opCall` sets aside for the callee and the total it charges, from the base
cost: from Tangerine Whistle all but one 64th of what remains caps the request; before,
the request is taken as it is, and a request past `uint64` is out of gas. The sum is a
`uint64` addition. -/
def callGas (c : State σ) (gasCost : Uint64) (initialGas : Int) : Option (Uint64 × Uint64) :=
  let ok := isUint64 initialGas
  if c.isRevision Revision.tangerineWhistle then
    let availableGas := c.gas - gasCost
    let availableGas := availableGas - availableGas / 64
    let gas := if !ok || availableGas < uint64 initialGas then availableGas else uint64 initialGas
    some (gas, gasCost + gas)
  else if !ok then none
  else some (uint64 initialGas, gasCost + uint64 initialGas)

/-- The part of `opCall(op)` after the charge: the balance and depth tests, `Host.Call`,
the result pushed, the returned bytes copied into the requested window, and the callee's
gas credited back. A window of size zero is not sliced by the model: Go checks
`c.memory[offset:offset]` against the memory's capacity, which the pool's history sets. -/
def callChild (host : Host σ) (callType : CallKind) (c : State σ)
    (recipient caller codeAddress : Address) (value : Option Int) (transfersValue isStatic : Bool)
    (args : Bytes) (retOffset retSize : Int) (gas : Uint64) : Except Fault (State σ) :=
  if transfersValue && c.getBalance host c.address < value.getD 0 then
    pure ({ c with gas := c.gas + gas }.push1 0)
  else
    let offset := (uint64 retOffset).toNat
    let size := (uint64 retSize).toNat
    if 1024 ≤ c.depth then pure { c.push1 0 with gas := c.gas + gas }
    else do
      let valueHash : Hash := match value with | some v => bigToHash v | none => 0
      let (h, retValue, gasLeft, _, err) ←
        host.call c.host callType recipient caller valueHash args gas (c.depth + 1) isStatic 0 codeAddress
      let c := { c with host := h }
      let c := c.push1 (if err.isSome then 0 else 1)
      let memory ←
        if retValue.length = 0 || size = 0 then pure c.memory
        else do
          let window ← slice c.memory offset (offset + size)
          pure (copyAt c.memory offset (copyAt window 0 retValue))
      pure { c with memory := memory, gas := c.gas + gasLeft, returnData := retValue }

/-- The part of `opCall(op)` after its guards: the operands popped, the two memory windows
checked, the charge computed, and the child called. -/
def opCallBody (host : Host σ) (op : OpCode) (c : State σ) : Except Fault (State σ) := do
  let callType ← opCodeToCallKind op
  let (initialGas, c) := c.pop
  let initialGas ← deref initialGas
  let (addr, _, c) := c.popAddr
  let (value, c) := if op = CALL || op = CALLCODE then c.pop else (none, c)
  let (inOffset, c) := c.pop
  let inOffset ← deref inOffset
  let (inSize, c) := c.pop
  let inSize ← deref inSize
  let (retOffset, c) := c.pop
  let retOffset ← deref retOffset
  let (retSize, c) := c.pop
  let retSize ← deref retSize
  match ← c.get2 [] inOffset inSize with
  | (c, none) => pure c
  | (c, some args) =>
      match c.checkMemory retOffset retSize with
      | (c, false) => pure c
      | (c, true) =>
          let gasCost : Uint64 := if c.isRevision Revision.tangerineWhistle then 700 else 40
          let transfersValue := (op = CALL || op = CALLCODE) &&
            match value with | some v => v ≠ 0 | none => false
          let gasCost :=
            if op = CALL && (transfersValue || c.rev < Revision.spuriousDragon) &&
                !host.accountExists c.host addr then gasCost + 25000
            else gasCost
          let gasCost := if transfersValue then gasCost + 9000 else gasCost
          match callGas c gasCost initialGas with
          | none => pure (c.exit .outOfGas)
          | some (gas, gasCost) =>
              match c.consumeGas gasCost with
              | (c, false) => pure c
              | (c, true) =>
                  let gas := if transfersValue then gas + 2300 else gas
                  let isStatic := op = STATICCALL || c.static
                  let delegated := op = CALLCODE || op = DELEGATECALL
                  let recipient := if delegated then c.address else addr
                  let value := if op = DELEGATECALL then some c.value else value
                  let caller := if op = DELEGATECALL then c.caller else c.address
                  callChild host callType c recipient caller addr value transfersValue isStatic args
                    retOffset retSize gas

/-- `opCall(op)` for CALL, CALLCODE, DELEGATECALL and STATICCALL: a CALL from a static frame
that moves value is refused, as are the opcodes before their revisions. -/
def opCall (host : Host σ) (op : OpCode) (c : State σ) : Except Fault (State σ) := do
  let c := c.resetReturnData
  let protectedValue ←
    if op = CALL && c.static then (fun val => val != 0) <$> c.peekAt 3 else pure false
  if protectedValue then pure (c.exit .writeProtection)
  else if op = DELEGATECALL && !c.isRevision Revision.homestead then pure (c.exit .opCodeNotFound)
  else if op = STATICCALL && !c.isRevision Revision.byzantium then pure (c.exit .opCodeNotFound)
  else opCallBody host op c

end GoEvm.Evm
