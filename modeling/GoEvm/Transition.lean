import GoEvm.Txn
import GoEvm.Evm.Run

/-! `Transition`, the driver that applies a message to the overlay (`unnamed/part_007`),
with the precompile registry (`unnamed/part_004`) and the address derivations
(`address.go`). The Transition is the interpreter's host, and the interpreter reaches it
back through `Host.Call`: `callx` below is that recursion, bounded by fuel. The cheatcodes'
own effects and the precompiled contracts' kernels are outside the code's reach here: a
cheatcode is its `CanRun` test, and the contracts are given with the environment. -/
namespace GoEvm

open Evm

/-- A precompiled contract: its `Gas` schedule and its `Run`. -/
structure PrecompiledContract where
  gas : Bytes → Revision → Uint64
  run : Bytes → Except Error Bytes

/-- What the code calls outside src/: the dispatch table and `ethgo.Keccak256` of the
interpreter, and the precompiled contracts the registry maps addresses to. -/
structure Env extends Runtime where
  precompiled : Address → PrecompiledContract

/-- A cheatcode, seen through `CanRun`. -/
structure Cheatcode where
  canRun : Address → Bool

structure Config where
  getHash : Uint64 → Hash
  ctx : TxContext
  rev : Revision
  state : Snapshot
  cheatcodes : List Cheatcode

structure Transition where
  txn : Txn
  config : Config

/-- `NewTransition`, for the configuration its options leave: the overlay starts empty
over the configured backend, at the configured revision. -/
def newTransition (config : Config) : Transition :=
  ⟨{ Txn.newTxn config.state with rev := config.rev }, config⟩

/-- What a frame returns to its caller: host state, return data, gas left (`int64` bits),
created address and error. -/
abbrev CallResult := Transition × Bytes × Uint64 × Address × Option Error

def spuriousDragonMaxCodeSize : Nat := 24576

def TxGas : Uint64 := 21000

def TxGasContractCreation : Uint64 := 53000

/-- The `width` bytes of `n`, big-endian. -/
def toBytesBE : Nat → Nat → Bytes
  | 0, _ => []
  | w + 1, n => toBytesBE w (n / 256) ++ [(n % 256).toUInt8]

/-- fastrlp's encoding of a byte string shorter than 56 bytes. -/
def rlpBytes : Bytes → Bytes
  | [x] => if x ≤ 0x7f then [x] else [0x81, x]
  | b => (0x80 + b.length).toUInt8 :: b

/-- `createAddress`: the last 20 bytes of the hash of the RLP list `[addr, nonce]`. -/
def createAddress (keccak256 : Bytes → Hash) (addr : Address) (nonce : Uint64) : Address :=
  let payload := rlpBytes (toBytesBE 20 addr.toNat) ++
    rlpBytes ((toBytesBE 8 nonce.toNat).dropWhile (· = 0))
  (keccak256 ((0xc0 + payload.length).toUInt8 :: payload)).truncate 160

def createAddress2 (keccak256 : Bytes → Hash) (addr : Address) (salt : Hash) (inithash : Bytes) :
    Address :=
  (keccak256 ([0xff] ++ toBytesBE 20 addr.toNat ++ toBytesBE 32 salt.toNat ++
    toBytesBE 32 (keccak256 inithash).toNat)).truncate 160

def newContract (typ : CallKind) (depth : Nat) (sender recipient : Address) (value : Int)
    (gas : Uint64) (input : Bytes) : Contract :=
  { type := typ, caller := sender, codeAddress := recipient, address := recipient, gas := gas,
    value := value, input := input, depth := depth, static := false, salt := 0 }

/-- The addresses `register` fills in the precompile registry. -/
def precompiledAddresses : List Address := [1, 2, 3, 4, 5, 6, 7, 8, 9]

/-- `runPrecompiled`: the contract's gas is charged before it runs. -/
def runPrecompiled (contract : PrecompiledContract) (input : Bytes) (gas : Uint64)
    (rev : Revision) : Bytes × Uint64 × Option Error :=
  let gasCost := contract.gas input rev
  if gas < gasCost then ([], 0, some .precompileOutOfGas)
  else
    match contract.run input with
    | .error err => ([], 0, some err)
    | .ok returnValue => (returnValue, gas - gasCost, none)

/-- `TransactionGasCost`: the intrinsic gas, with the `uint64` overflow checks. -/
def transactionGasCost (msg : Message) (isHomestead isIstanbul : Bool) : Except Error Uint64 :=
  let cost : Uint64 := if msg.isContractCreation && isHomestead then TxGasContractCreation else TxGas
  let payload := msg.input
  if payload.length = 0 then pure cost
  else
    let zeros : Uint64 := BitVec.ofNat 64 (payload.count 0)
    let nonZeros := BitVec.ofNat 64 payload.length - zeros
    let nonZeroCost : Uint64 := if isIstanbul then 16 else 68
    if (BitVec.allOnes 64 - cost) / nonZeroCost < nonZeros then throw .nonZerosOverflow
    else
      let cost := cost + nonZeros * nonZeroCost
      if (BitVec.allOnes 64 - cost) / 4 < zeros then throw .zerosOverflow
      else pure (cost + zeros * 4)

namespace Transition

variable (t : Transition)

def isRevision (rev : Revision) : Bool := rev ≤ t.config.rev

def withTxn (txn : Txn) : Transition := { t with txn := txn }

def isPrecompiled (codeAddr : Address) : Bool :=
  if codeAddr ∉ precompiledAddresses then false
  else if codeAddr ∈ ([5, 6, 7, 8] : List Address) then t.isRevision Revision.byzantium
  else if codeAddr = 9 then t.isRevision Revision.istanbul
  else true

def transfer (sender recipient : Address) (amount : Int) : Except Error Transition := do
  let txn ← t.txn.subBalance sender amount
  pure (t.withTxn (txn.addBalance recipient amount))

def hasCodeOrNonce (addr : Address) : Bool :=
  if t.txn.getNonce addr ≠ 0 then true
  else
    let codeHash := t.txn.getCodeHash addr
    codeHash ≠ EmptyCodeHash && codeHash ≠ 0

/-- `Selfdestruct`: the first suicide of an account earns the refund, and the balance
moves to the beneficiary before the account is zeroed. -/
def selfdestruct (addr beneficiary : Address) : Transition :=
  let txn := if !t.txn.hasSuicided addr then t.txn.addRefund 24000 else t.txn
  let txn := txn.addBalance beneficiary (txn.getBalance addr)
  t.withTxn (txn.suicide addr).1

def getTxContext : EvmcTxContext :=
  { gasPrice := t.config.ctx.gasPrice, origin := t.config.ctx.origin,
    coinbase := t.config.ctx.coinbase, number := t.config.ctx.number,
    timestamp := t.config.ctx.timestamp, gasLimit := t.config.ctx.gasLimit,
    difficulty := t.config.ctx.difficulty, chainID := bigToHash t.config.ctx.chainID.toInt }

end Transition

/-- The Transition as the interpreter's host; `call` is `Callx`, which the fuel bounds. -/
def transitionHost (call : Transition → Contract → Except Fault CallResult) : Host Transition where
  accountExists t addr := t.txn.accountExists addr
  getStorage t addr key := t.txn.getState addr key
  setStorage t addr key value :=
    let (txn, status) := t.txn.setStorage addr key value
    (t.withTxn txn, status)
  getBalance t addr := bigToHash (t.txn.getBalance addr)
  getCodeSize t addr := t.txn.getCodeSize addr
  getCodeHash t addr := t.txn.getCodeHash addr
  getCode t addr := t.txn.getCode addr
  selfdestruct t addr beneficiary := t.selfdestruct addr beneficiary
  getTxContext t := t.getTxContext
  getBlockHash t number := t.config.getHash number
  emitLog t addr topics data := t.withTxn (t.txn.emitLog addr topics data)
  call t kind recipient sender value input gas depth static salt codeAddress :=
    call t { type := kind, address := recipient, caller := sender, codeAddress := codeAddress,
             depth := depth, value := value.toNat, input := input, gas := gas, static := static,
             salt := salt }

namespace Transition

variable (env : Env) (call : Transition → Contract → Except Fault CallResult) (fuel : Nat)

/-- `run`: a cheatcode first, then a precompiled contract, then the interpreter. -/
def run (t : Transition) (c : Contract) : Except Fault (Transition × Bytes × Uint64 × Option Error) :=
  if t.config.cheatcodes.any (·.canRun c.codeAddress) then pure (t, [], c.gas, none)
  else if t.isPrecompiled c.codeAddress then
    let (ret, gasLeft, err) := runPrecompiled (env.precompiled c.codeAddress) c.input c.gas t.config.rev
    pure (t, ret, gasLeft, err)
  else
    evmRun env.toRuntime (transitionHost call) t.config.rev fuel t c.type c.address c.caller c.value
      c.input c.gas c.depth c.static c.codeAddress

/-- The rewind after a failed run: only a revert keeps its return data. -/
def revertFrame (t : Transition) (snapshot : Nat) (retValue : Bytes) (err : Error) :
    Except Fault (Transition × Bytes) := do
  let txn ← t.txn.revertToSnapshot snapshot
  pure (t.withTxn txn, if err = .executionReverted then retValue else [])

def applyCall (t : Transition) (c : Contract) (callType : CallKind) : Except Fault CallResult := do
  let (txn, snapshot) := t.txn.takeSnapshot
  let t := t.withTxn (txn.touchAccount c.address)
  let transferred := if callType = .call then t.transfer c.caller c.address c.value else pure t
  match transferred with
  | .error err => pure (t, [], c.gas, 0, some err)
  | .ok t =>
      let (t, retValue, gasLeft, err) ← t.run env call fuel c
      match err with
      | none => pure (t, retValue, gasLeft, 0, none)
      | some err =>
          let (t, retValue) ← t.revertFrame snapshot retValue err
          pure (t, retValue, gasLeft, 0, some err)

/-- The end of `applyCreate` after a successful run: the size limit, then the deposit
charge of 200 gas a byte, compared as `int64`. -/
def depositCode (t : Transition) (snapshot : Nat) (address : Address) (retValue : Bytes)
    (gasLeft : Uint64) : Except Fault CallResult :=
  if t.isRevision Revision.spuriousDragon && spuriousDragonMaxCodeSize < retValue.length then do
    let txn ← t.txn.revertToSnapshot snapshot
    pure (t.withTxn txn, [], 0, address, some .maxCodeSizeExceeded)
  else
    let gasCost : Uint64 := BitVec.ofNat 64 retValue.length * 200
    if gasLeft.slt gasCost then
      if t.isRevision Revision.homestead then do
        let txn ← t.txn.revertToSnapshot snapshot
        pure (t.withTxn txn, [], 0, address, some .codeStoreOutOfGas)
      else pure (t, [], gasLeft, address, some .codeStoreOutOfGas)
    else pure (t.withTxn (t.txn.setCode address env.keccak256 retValue), [], gasLeft - gasCost,
      address, none)

def applyCreate (t : Transition) (c : Contract) : Except Fault CallResult := do
  let gasLimit := c.gas
  let address ← (if c.type = .create then pure (createAddress env.keccak256 c.caller (t.txn.getNonce c.caller))
    else if c.type = .create2 then pure (createAddress2 env.keccak256 c.caller c.salt c.input)
    else throw .panic : Except Fault Address)
  let c := { c with codeAddress := address, address := address }
  let t := t.withTxn (t.txn.incrNonce c.caller)
  if t.hasCodeOrNonce c.address then pure (t, [], 0, address, some .addressCollision)
  else
    let (txn, snapshot) := t.txn.takeSnapshot
    let t := t.withTxn txn
    let t := if t.isRevision Revision.spuriousDragon then
      t.withTxn ((t.txn.createAccount c.address).incrNonce c.address) else t
    match t.transfer c.caller c.address c.value with
    | .error err => pure (t, [], gasLimit, address, some err)
    | .ok t =>
        let (t, retValue, gasLeft, err) ← t.run env call fuel c
        match err with
        | some err =>
            let (t, retValue) ← t.revertFrame snapshot retValue err
            pure (t, retValue, gasLeft, address, some err)
        | none => t.depositCode env snapshot address retValue gasLeft

end Transition

/-- `Callx`, with `Host.Call` of the frames it runs bound to `callx` at one unit of fuel
less; the interpreter loops of those frames get the same fuel. -/
def callx (env : Env) : Nat → Transition → Contract → Except Fault CallResult
  | 0, _, _ => throw .fuel
  | fuel + 1, t, c =>
      if c.type = .create || c.type = .create2 then t.applyCreate env (callx env fuel) fuel c
      else t.applyCall env (callx env fuel) fuel c c.type

namespace Transition

variable (t : Transition)

/-- `preCheck`: the nonce, the upfront debit of `gasPrice * gas`, the intrinsic gas and
the value. The debit stays in the returned Transition whatever follows. On success the
message carries the gas left after the intrinsic charge. -/
def preCheck (msg : Message) : Transition × Except Error Message :=
  if t.txn.getNonce msg.«from» ≠ msg.nonce then (t, throw .incorrectNonce)
  else
    let upfrontGasCost := msg.gasPrice * msg.gas.toNat
    match t.txn.subBalance msg.«from» upfrontGasCost with
    | .error err => (t, throw (if err = .notEnoughFunds then .notEnoughFundsForGas else err))
    | .ok txn =>
        let t := t.withTxn txn
        match transactionGasCost msg (t.isRevision Revision.homestead)
            (t.isRevision Revision.istanbul) with
        | .error err => (t, throw err)
        | .ok intrinsicGasCost =>
            let gasLeft := msg.gas - intrinsicGasCost
            if msg.gas < gasLeft then (t, throw .intrinsicGasTooLow)
            else if t.txn.getBalance msg.«from» < msg.value then (t, throw .notEnoughFunds)
            else (t, pure { msg with gas := gasLeft })

/-- `postCheck`: the intrinsic gas is added back to the message, the refund is capped at
half the gas used, the sender is paid for the gas left and the coinbase for the gas used. -/
def postCheck (msg : Message) (output : Output) : Transition × Message × Output :=
  let intrinsicGasCost := match transactionGasCost msg (t.isRevision Revision.homestead)
      (t.isRevision Revision.istanbul) with
    | .ok cost => cost
    | .error _ => 0
  let msg := { msg with gas := msg.gas + intrinsicGasCost }
  let refund := t.txn.getRefund
  let gasUsed := msg.gas - output.gasLeft
  let maxRefund := gasUsed / 2
  let refund := if maxRefund < refund then maxRefund else refund
  let output := { output with gasLeft := output.gasLeft + refund }
  let gasUsed := gasUsed - refund
  let t := t.withTxn (t.txn.addBalance msg.«from» (output.gasLeft.toNat * msg.gasPrice))
  let t := t.withTxn (t.txn.addBalance t.config.ctx.coinbase (gasUsed.toNat * msg.gasPrice))
  (t, msg, output)

/-- `Apply`: the context takes the message's gas price and origin, and the top frame is a
creation at the address of the sender's nonce or a call after the nonce increment. -/
def apply (env : Env) (fuel : Nat) (msg : Message) : Except Fault (Transition × Output) := do
  let t := { t with config.ctx.gasPrice := bigToHash msg.gasPrice, config.ctx.origin := msg.«from» }
  let (t, retValue, gasLeft, _, err) ←
    match msg.«to» with
    | none =>
        let address := createAddress env.keccak256 msg.«from» (t.txn.getNonce msg.«from»)
        t.applyCreate env (callx env fuel) fuel
          (newContract .create 0 msg.«from» address msg.value msg.gas msg.input)
    | some recipient =>
        let t := t.withTxn (t.txn.incrNonce msg.«from»)
        t.applyCall env (callx env fuel) fuel
          (newContract .call 0 msg.«from» recipient msg.value msg.gas msg.input) .call
  let (txn, logs) := t.txn.logs
  let contractAddress := if msg.«to».isNone then createAddress env.keccak256 msg.«from» msg.nonce
    else 0
  pure (t.withTxn txn,
    { returnValue := retValue, logs := logs, gasLeft := gasLeft, success := err.isNone,
      contractAddress := contractAddress })

/-- `Write`: `applyImpl` and then the clean-up of deleted objects. The Transition is
returned on an error too, as the Go pointer keeps what `preCheck` did. -/
def write (env : Env) (fuel : Nat) (msg : Message) : Except Fault (Transition × Except Error Output) :=
  match t.preCheck msg with
  | (t, .error err) => pure (t, .error err)
  | (t, .ok msg) => do
      let (t, output) ← t.apply env fuel msg
      let (t, _, output) := t.postCheck msg output
      let deleteEmptyObjects :=
        if t.isRevision Revision.byzantium then true else t.isRevision Revision.spuriousDragon
      pure (t.withTxn (t.txn.cleanDeleteObjects deleteEmptyObjects), .ok output)

end Transition

end GoEvm
