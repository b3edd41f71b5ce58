import GoEvm.Evm.System

/-! The dispatch loop `state.Run` and its entry point `EVM.Run`. The dispatch table,
`evm/dispatch_table.go`, is not under src/: the loop takes it as a parameter, a map from
opcode to the handler registered there with its stack minimum and base gas, and every
result about the loop is stated for any table. A table modelled from the spec is given
for running programs. The loop is bounded by fuel, one unit a step. -/
namespace GoEvm.Evm

variable {σ : Type}

/-- The handlers a table can register; the factories carry the value they are built with. -/
inductive Instr where
  | stop | add | mul | sub | div | sdiv | mod | smod | exp | addmod | mulmod
  | and | or | xor | byte | not | iszero | eq | lt | gt | slt | sgt | signextend
  | shl | shr | sar
  | mload | mstore | mstore8 | sload | sstore | sha3 | pop
  | address | balance | selfbalance | chainid | origin | caller | callvalue
  | calldataload | calldatasize | codesize | extcodesize | gasprice | returndatasize
  | extcodehash | pc | msize | gas | extcodecopy | calldatacopy | returndatacopy | codecopy
  | blockhash | coinbase | timestamp | number | difficulty | gaslimit
  | selfdestruct | jump | jumpi | jumpdest
  | push (n : Nat) | dup (n : Nat) | swap (n : Nat) | log (size : Nat)
  | create (op : OpCode) | call (op : OpCode) | halt (op : OpCode)
  deriving Repr

/-- A table entry: `handler{inst, stack, gas}`. -/
structure Handler where
  inst : Instr
  stack : Nat
  gas : Uint64

/-- What `Run` needs besides the frame: the dispatch table and `ethgo.Keccak256`. -/
structure Runtime where
  dispatchTable : OpCode → Option Handler
  keccak256 : Bytes → Hash

def Instr.exec (host : Host σ) (keccak256 : Bytes → Hash) : Instr → State σ → Except Fault (State σ)
  | .stop => opStop
  | .add => opAdd
  | .mul => opMul
  | .sub => opSub
  | .div => opDiv
  | .sdiv => opSDiv
  | .mod => opMod
  | .smod => opSMod
  | .exp => opExp
  | .addmod => opAddMod
  | .mulmod => opMulMod
  | .and => opAnd
  | .or => opOr
  | .xor => opXor
  | .byte => opByte
  | .not => opNot
  | .iszero => opIsZero
  | .eq => opEq
  | .lt => opLt
  | .gt => opGt
  | .slt => opSlt
  | .sgt => opSgt
  | .signextend => opSignExtension
  | .shl => opShl
  | .shr => opShr
  | .sar => opSar
  | .mload => opMload
  | .mstore => opMStore
  | .mstore8 => opMStore8
  | .sload => opSload host
  | .sstore => opSStore host
  | .sha3 => opSha3 keccak256
  | .pop => opPop
  | .address => opAddress
  | .balance => opBalance host
  | .selfbalance => opSelfBalance host
  | .chainid => opChainID host
  | .origin => opOrigin host
  | .caller => opCaller
  | .callvalue => opCallValue
  | .calldataload => opCallDataLoad
  | .calldatasize => opCallDataSize
  | .codesize => opCodeSize
  | .extcodesize => opExtCodeSize host
  | .gasprice => opGasPrice host
  | .returndatasize => opReturnDataSize
  | .extcodehash => opExtCodeHash host
  | .pc => opPC
  | .msize => opMSize
  | .gas => opGas
  | .extcodecopy => opExtCodeCopy host
  | .calldatacopy => opCallDataCopy
  | .returndatacopy => opReturnDataCopy
  | .codecopy => opCodeCopy
  | .blockhash => opBlockHash host
  | .coinbase => opCoinbase host
  | .timestamp => opTimestamp host
  | .number => opNumber host
  | .difficulty => opDifficulty host
  | .gaslimit => opGasLimit host
  | .selfdestruct => opSelfDestruct host
  | .jump => opJump
  | .jumpi => opJumpi
  | .jumpdest => opJumpDest
  | .push n => opPush n
  | .dup n => opDup n
  | .swap n => opSwap n
  | .log size => opLog host size
  | .create op => opCreate host op
  | .call op => opCall host op
  | .halt op => opHalt op

def stackSize : Nat := 1024

/-- `c.code[c.ip]`, for an `ip` the loop has checked against the length. -/
def opAt (c : State σ) : Except Fault OpCode :=
  if 0 ≤ c.ip then
    match c.code[c.ip.toNat]? with
    | some op => pure op
    | none => throw .panic
  else throw .panic

/-- One turn of `Run`'s loop on a frame that has not stopped and whose `ip` is inside the
code: look the opcode up, check the stack minimum, charge the base gas, run the handler,
check the stack limit and advance `ip`. -/
def step (rt : Runtime) (host : Host σ) (c : State σ) : Except Fault (State σ) := do
  let op ← opAt c
  match rt.dispatchTable op with
  | none => pure (c.exit .opCodeNotFound)
  | some inst =>
      if c.stack.length < inst.stack then pure (c.exit .stackUnderflow)
      else
        match c.consumeGas inst.gas with
        | (c, false) => pure (c.exit .outOfGas)
        | (c, true) => do
            let c ← inst.inst.exec host rt.keccak256 c
            if stackSize < c.stack.length then pure (c.exit .stackOverflow)
            else pure { c with ip := c.ip + 1 }

/-- `state.Run`: steps until the frame stops or `ip` leaves the code. -/
def run (rt : Runtime) (host : Host σ) : Nat → State σ → Except Fault (State σ)
  | 0, _ => throw .fuel
  | fuel + 1, c =>
      if c.stop then pure c
      else if c.code.length ≤ c.ip then pure c.halt
      else do
        let c ← step rt host c
        if c.stop then pure c else run rt host fuel c

/-- The frame `EVM.Run` starts: a creation runs its input as code, with no call data. -/
def initialState (host : Host σ) (rev : Revision) (h : σ) (typ : CallKind)
    (recipient sender : Address) (value : Int) (input : Bytes) (gas : Uint64) (depth : Nat)
    (static : Bool) (codeAddress : Address) : State σ :=
  let creation := typ = .create || typ = .create2
  { ip := 0, code := if creation then input else host.getCode h codeAddress, host := h,
    address := recipient, caller := sender, depth := depth, value := value,
    input := if creation then [] else input, static := static, rev := rev, memory := [],
    lastGasCost := 0, stack := [], err := none, stop := false, gas := gas, returnData := [],
    ret := [] }

/-- `EVM.Run`: the return data, the gas left (none after an error other than a revert)
and the error. -/
def evmRun (rt : Runtime) (host : Host σ) (rev : Revision) (fuel : Nat) (h : σ) (typ : CallKind)
    (recipient sender : Address) (value : Int) (input : Bytes) (gas : Uint64) (depth : Nat)
    (static : Bool) (codeAddress : Address) : Except Fault (σ × Bytes × Uint64 × Option Error) := do
  let s ← run rt host fuel
    (initialState host rev h typ recipient sender value input gas depth static codeAddress)
  let gasLeft := if s.err.isSome && s.err != some .executionReverted then 0 else s.gas
  pure (s.host, s.ret, gasLeft, s.err)

end GoEvm.Evm
