import GoEvm.Evm.State

/-! The handlers of `evm/instructions.go` that compute on the stack, memory and context:
arithmetic, comparison, bitwise and shift operations, memory and storage access, the
context reads, the copies, block information, jumps and the stack operations. A handler
is a function of the frame; the handlers that call the host take it as an argument.
An operand popped from an empty stack is dereferenced where it is popped: Go dereferences
it at its first use, so the two differ only when the dispatch table admits fewer items
than a handler pops. Go's explicit `nil` checks (`popAddr`, `opPop`, the second operand of
`opSignExtension`) are kept. -/
namespace GoEvm.Evm

variable {σ : Type}

/-- The two-operand shape: `a := c.pop()`, `b := c.top()`, and `b` is overwritten with
`f a b`. -/
def binaryOp (f : Int → Int → Int) (c : State σ) : Except Fault (State σ) := do
  let (a, c) := c.pop
  let a ← deref a
  let b ← deref c.top
  pure (c.setTop (f a b))

/-- The one-operand shape: the top is overwritten with `f` of itself. -/
def unaryOp (f : Int → Int) (c : State σ) : Except Fault (State σ) := do
  let a ← deref c.top
  pure (c.setTop (f a))

/-- `opAddMod` and `opMulMod`: `a`, `b` popped, the top `z` overwritten. -/
def modOp (f : Int → Int → Int) (c : State σ) : Except Fault (State σ) := do
  let (a, c) := c.pop
  let a ← deref a
  let (b, c) := c.pop
  let b ← deref b
  let z ← deref c.top
  pure (c.setTop (if z = 0 then 0 else toU256 (f a b % z)))

def opAdd : State σ → Except Fault (State σ) := binaryOp fun a b => toU256 (a + b)
def opMul : State σ → Except Fault (State σ) := binaryOp fun a b => toU256 (a * b)
def opSub : State σ → Except Fault (State σ) := binaryOp fun a b => toU256 (a - b)

/-- `big.Int.Div` is Euclidean, as `Int.ediv`. -/
def opDiv : State σ → Except Fault (State σ) :=
  binaryOp fun a b => if b = 0 then 0 else toU256 (a / b)

/-- Both operands go through `to256` in place; the quotient of the magnitudes gets the
sign back when the signs differ. -/
def opSDiv : State σ → Except Fault (State σ) :=
  binaryOp fun a b =>
    let a := to256 a
    let b := to256 b
    if b = 0 then 0
    else
      let q : Int := (a.natAbs / b.natAbs : Nat)
      toU256 (if a.sign ≠ b.sign then -q else q)

def opMod : State σ → Except Fault (State σ) :=
  binaryOp fun a b => if b = 0 then 0 else toU256 (a % b)

def opSMod : State σ → Except Fault (State σ) :=
  binaryOp fun a b =>
    let a := to256 a
    let b := to256 b
    if b = 0 then 0
    else
      let r : Int := (a.natAbs % b.natAbs : Nat)
      toU256 (if a < 0 then -r else r)

/-- `(*big.Int).Bits()` of a magnitude: its 64-bit limbs, least significant first. -/
def limbs : Nat → Nat → List Uint64
  | 0, _ => []
  | fuel + 1, n => if n = 0 then [] else BitVec.ofNat 64 n :: limbs fuel (n / 2 ^ 64)

def bits (n : Nat) : List Uint64 := limbs n n

/-- The square-and-multiply loop of `opExp` over the 64 bits of every limb of the
exponent: `z` collects the product, `x` is squared at every bit. -/
def expLoop : List Uint64 → Int → Int → Int
  | [], z, _ => z
  | d :: ds, z, x =>
      let (z, x) := (List.range 64).foldl
        (fun (zx : Int × Int) i =>
          (if d.getLsbD i then toU256 (zx.1 * zx.2) else zx.1, toU256 (zx.2 * zx.2)))
        (z, x)
      expLoop ds z x

def opExp (c : State σ) : Except Fault (State σ) := do
  let (x, c) := c.pop
  let x ← deref x
  let y ← deref c.top
  let gas : Uint64 := if c.isRevision Revision.spuriousDragon then 50 else 10
  let gasCost := BitVec.ofNat 64 ((bitLen y + 7) / 8) * gas
  match c.consumeGas gasCost with
  | (c, false) => pure c
  | (c, true) => pure (c.setTop (expLoop (bits y.natAbs) 1 x))

def opAddMod : State σ → Except Fault (State σ) := modOp (· + ·)
def opMulMod : State σ → Except Fault (State σ) := modOp (· * ·)

def opAnd : State σ → Except Fault (State σ) := binaryOp Int.land
def opOr : State σ → Except Fault (State σ) := binaryOp Int.lor
def opXor : State σ → Except Fault (State σ) := binaryOp Int.xor

/-- The index is read with `Int64()`; the shift is computed in `int64` and converted to
`uint`. -/
def opByte : State σ → Except Fault (State σ) :=
  binaryOp fun x y =>
    let indx := int64 x
    if (31 : Int) < indx.toInt then 0
    else
      let sh := (31 - indx) * 8
      Int.land (y >>> sh.toNat) 255

def opNot : State σ → Except Fault (State σ) := unaryOp fun a => toU256 (Int.lnot a)
def opIsZero : State σ → Except Fault (State σ) := unaryOp fun a => if a = 0 then 1 else 0
def opEq : State σ → Except Fault (State σ) := binaryOp fun a b => if a = b then 1 else 0
def opLt : State σ → Except Fault (State σ) := binaryOp fun a b => if a < b then 1 else 0
def opGt : State σ → Except Fault (State σ) := binaryOp fun a b => if b < a then 1 else 0

def opSlt : State σ → Except Fault (State σ) :=
  binaryOp fun a b => if to256 a < to256 b then 1 else 0

def opSgt : State σ → Except Fault (State σ) :=
  binaryOp fun a b => if to256 b < to256 a then 1 else 0

/-- An extension index above 32 leaves the top as it is, as does an empty stack below the
index. -/
def opSignExtension (c : State σ) : Except Fault (State σ) := do
  let (ext, c) := c.pop
  let ext ← deref ext
  if 32 < ext then pure c
  else
    match c.top with
    | none => pure c
    | some x =>
        let bit := (uint64 ext * 8 + 7).toNat
        let mask : Int := 2 ^ bit - 1
        let x := if x.testBit bit then Int.lor x (Int.lnot mask) else Int.land x mask
        pure (c.setTop (toU256 x))

/-- `equalOrOverflowsUint256`. -/
def equalOrOverflowsUint256 (b : Int) : Bool := 8 < bitLen b

/-- The shift handlers: gated on Constantinople, `shift` popped and `value` the top,
overwritten with `overflow value` for a shift of 256 or more and `f value shift` below. -/
def shiftOp (overflow : Int → Int) (f : Int → Nat → Int) (c : State σ) :
    Except Fault (State σ) :=
  if !c.isRevision Revision.constantinople then pure (c.exit .opCodeNotFound)
  else do
    let (shift, c) := c.pop
    let shift ← deref shift
    let value ← deref c.top
    pure (c.setTop <|
      if equalOrOverflowsUint256 shift then overflow value else f value (uint64 shift).toNat)

def opShl : State σ → Except Fault (State σ) :=
  shiftOp (fun _ => 0) fun value n => toU256 (value * 2 ^ n)

/-- `Rsh` is arithmetic, as `Int.shiftRight`. -/
def opShr : State σ → Except Fault (State σ) :=
  shiftOp (fun _ => 0) fun value n => toU256 (value >>> n)

/-- The value is read signed by `to256` in place. -/
def opSar : State σ → Except Fault (State σ) :=
  shiftOp (fun value => if 0 ≤ to256 value then 0 else tt256m1)
    fun value n => toU256 (to256 value >>> n)

/-! Memory. -/

def opMload (c : State σ) : Except Fault (State σ) := do
  let (offset, c) := c.pop
  let offset ← deref offset
  match ← c.get2 [] offset 32 with
  | (c, some tmp) => pure (c.push1 (bytesToNat tmp))
  | (c, none) => pure c

/-- The limb loop of `opMStore`: each limb's eight bytes are written from index `i`
downwards; an index below zero panics. -/
def mstoreLimbs : List Uint64 → Nat → Bytes → Except Fault (Nat × Bytes)
  | [], i, buf => pure (i, buf)
  | d :: ds, i, buf =>
      if i < 8 then throw .panic
      else
        let bytes := (List.range 8).map fun j => (d >>> (8 * j)).toNat.toUInt8
        mstoreLimbs ds (i - 8) (copyAt buf (i - 8) bytes.reverse)

/-- `opMStore`: the limbs of the value's magnitude are written into the 32-byte slot from
the right and the rest of the slot is zeroed. -/
def opMStore (c : State σ) : Except Fault (State σ) := do
  let (offset, c) := c.pop
  let offset ← deref offset
  let (val, c) := c.pop
  let val ← deref val
  match c.checkMemory offset 32 with
  | (c, false) => pure c
  | (c, true) =>
      let o := (uint64 offset).toNat
      let buf ← slice c.memory o (o + 32)
      let (i, buf) ← mstoreLimbs (bits val.natAbs) 32 buf
      let buf := copyAt buf 0 (List.replicate i 0)
      pure { c with memory := copyAt c.memory o buf }

def opMStore8 (c : State σ) : Except Fault (State σ) := do
  let (offset, c) := c.pop
  let offset ← deref offset
  let (val, c) := c.pop
  let val ← deref val
  match c.checkMemory offset 1 with
  | (c, false) => pure c
  | (c, true) =>
      let o := (uint64 offset).toNat
      if o < c.memory.length then
        pure { c with memory := c.memory.set o (uint64 val &&& 0xff).toNat.toUInt8 }
      else throw .panic

/-! Storage. -/

def opSload (host : Host σ) (c : State σ) : Except Fault (State σ) := do
  let loc ← deref c.top
  let gas : Uint64 :=
    if c.isRevision Revision.istanbul then 800
    else if c.isRevision Revision.tangerineWhistle then 200 else 50
  match c.consumeGas gas with
  | (c, false) => pure c
  | (c, true) =>
      let val := host.getStorage c.host c.address (bigToHash loc)
      pure (c.setTop val.toNat)

/-- The gas of an SSTORE by the status the host returns. -/
def sstoreCost (c : State σ) (legacyGasMetering : Bool) : StorageStatus → Uint64
  | .unchanged | .modifiedAgain =>
      if c.isRevision Revision.istanbul then 800 else if legacyGasMetering then 5000 else 200
  | .modified => 5000
  | .added => 20000
  | .deleted => 5000

def opSStore (host : Host σ) (c : State σ) : Except Fault (State σ) :=
  if c.static then pure (c.exit .writeProtection)
  else if c.isRevision Revision.istanbul && c.gas ≤ 2300 then pure (c.exit .outOfGas)
  else do
    let (key, c) ← c.popHash
    let (val, c) ← c.popHash
    let legacyGasMetering := !c.isRevision Revision.istanbul &&
      (c.isRevision Revision.petersburg || !c.isRevision Revision.constantinople)
    let (h, status) := host.setStorage c.host c.address key val
    let c := { c with host := h }
    pure (c.consumeGas (sstoreCost c legacyGasMetering status)).1

def sha3WordGas : Uint64 := 6

def opSha3 (keccak256 : Bytes → Hash) (c : State σ) : Except Fault (State σ) := do
  let (offset, c) := c.pop
  let offset ← deref offset
  let (length, c) := c.pop
  let length ← deref length
  match ← c.get2 [] offset length with
  | (c, none) => pure c
  | (c, some tmp) =>
      let size := uint64 length
      match c.consumeGas ((size + 31) / 32 * sha3WordGas) with
      | (c, false) => pure c
      | (c, true) => pure (c.push1 (keccak256 tmp).toNat)

def opPop (c : State σ) : Except Fault (State σ) := pure c.pop.2

/-! Context. -/

def opAddress (c : State σ) : Except Fault (State σ) := pure (c.push1 c.address.toNat)

def opBalance (host : Host σ) (c : State σ) : Except Fault (State σ) :=
  let (addr, _, c) := c.popAddr
  let gas : Uint64 :=
    if c.isRevision Revision.istanbul then 700
    else if c.isRevision Revision.tangerineWhistle then 400 else 20
  match c.consumeGas gas with
  | (c, false) => pure c
  | (c, true) => pure (c.push1 (host.getBalance c.host addr).toNat)

def opSelfBalance (host : Host σ) (c : State σ) : Except Fault (State σ) :=
  if !c.isRevision Revision.istanbul then pure (c.exit .opCodeNotFound)
  else pure (c.push1 (host.getBalance c.host c.address).toNat)

def opChainID (host : Host σ) (c : State σ) : Except Fault (State σ) :=
  if !c.isRevision Revision.istanbul then pure (c.exit .opCodeNotFound)
  else pure (c.push1 (host.getTxContext c.host).chainID.toNat)

def opOrigin (host : Host σ) (c : State σ) : Except Fault (State σ) :=
  pure (c.push1 (host.getTxContext c.host).origin.toNat)

def opCaller (c : State σ) : Except Fault (State σ) := pure (c.push1 c.caller.toNat)

def opCallValue (c : State σ) : Except Fault (State σ) := pure (c.push1 c.value)

/-- The pooled buffer is written in full by `setBytes`, so its old bytes never show. -/
def opCallDataLoad (c : State σ) : Except Fault (State σ) := do
  let offset ← deref c.top
  let buf ← setBytes (List.replicate 32 0) c.input 32 offset
  pure (c.setTop (bytesToNat buf))

/-- `SetUint64(uint64(len(c.Input)))`, as the other sizes. -/
def opCallDataSize (c : State σ) : Except Fault (State σ) :=
  pure (c.push1 (BitVec.ofNat 64 c.input.length).toNat)

def opCodeSize (c : State σ) : Except Fault (State σ) :=
  pure (c.push1 (BitVec.ofNat 64 c.code.length).toNat)

def opExtCodeSize (host : Host σ) (c : State σ) : Except Fault (State σ) :=
  let (addr, _, c) := c.popAddr
  let gas : Uint64 := if c.isRevision Revision.tangerineWhistle then 700 else 20
  match c.consumeGas gas with
  | (c, false) => pure c
  | (c, true) => pure (c.push1 (BitVec.ofNat 64 (host.getCodeSize c.host addr)).toNat)

def opGasPrice (host : Host σ) (c : State σ) : Except Fault (State σ) :=
  pure (c.push1 (host.getTxContext c.host).gasPrice.toNat)

def opReturnDataSize (c : State σ) : Except Fault (State σ) :=
  if !c.isRevision Revision.byzantium then pure (c.exit .opCodeNotFound)
  else pure (c.push1 (BitVec.ofNat 64 c.returnData.length).toNat)

def opExtCodeHash (host : Host σ) (c : State σ) : Except Fault (State σ) :=
  if !c.isRevision Revision.constantinople then pure (c.exit .opCodeNotFound)
  else
    let (address, _, c) := c.popAddr
    let gas : Uint64 := if c.isRevision Revision.istanbul then 700 else 400
    match c.consumeGas gas with
    | (c, false) => pure c
    | (c, true) => pure (c.push1 (host.getCodeHash c.host address).toNat)

/-- `uint64(c.ip)`. -/
def opPC (c : State σ) : Except Fault (State σ) := pure (c.push1 (BitVec.ofInt 64 c.ip).toNat)

def opMSize (c : State σ) : Except Fault (State σ) :=
  pure (c.push1 (BitVec.ofNat 64 c.memory.length).toNat)

def opGas (c : State σ) : Except Fault (State σ) := pure (c.push1 c.gas.toNat)

def copyGas : Uint64 := 3

/-- The copy shape shared by CALLDATACOPY, CODECOPY and EXTCODECOPY: memory check, the
word charge, EXTCODECOPY's access charge (zero for the other two, which make none), then
`setBytes` into `c.memory[memOffset:]` when the size is not zero. -/
def copyToMemory (c : State σ) (memOffset dataOffset length : Int) (extraGas : Uint64)
    (source : State σ → Bytes) : Except Fault (State σ) :=
  match c.checkMemory memOffset length with
  | (c, false) => pure c
  | (c, true) =>
      let size := uint64 length
      match c.consumeGas ((size + 31) / 32 * copyGas) with
      | (c, false) => pure c
      | (c, true) =>
          match c.consumeGas extraGas with
          | (c, false) => pure c
          | (c, true) =>
              if size = 0 then pure c
              else do
                let o := (uint64 memOffset).toNat
                let dst ← sliceFrom c.memory o
                let dst ← setBytes dst (source c) size dataOffset
                pure { c with memory := c.memory.take o ++ dst }

/-- The address is popped first, and the code is read after both charges. -/
def opExtCodeCopy (host : Host σ) (c : State σ) : Except Fault (State σ) := do
  let (address, _, c) := c.popAddr
  let (memOffset, c) := c.pop
  let memOffset ← deref memOffset
  let (codeOffset, c) := c.pop
  let codeOffset ← deref codeOffset
  let (length, c) := c.pop
  let length ← deref length
  let gas : Uint64 := if c.isRevision Revision.tangerineWhistle then 700 else 20
  copyToMemory c memOffset codeOffset length gas fun c => host.getCode c.host address

def opCallDataCopy (c : State σ) : Except Fault (State σ) := do
  let (memOffset, c) := c.pop
  let memOffset ← deref memOffset
  let (dataOffset, c) := c.pop
  let dataOffset ← deref dataOffset
  let (length, c) := c.pop
  let length ← deref length
  copyToMemory c memOffset dataOffset length 0 (·.input)

def opCodeCopy (c : State σ) : Except Fault (State σ) := do
  let (memOffset, c) := c.pop
  let memOffset ← deref memOffset
  let (dataOffset, c) := c.pop
  let dataOffset ← deref dataOffset
  let (length, c) := c.pop
  let length ← deref length
  copyToMemory c memOffset dataOffset length 0 (·.code)

/-- `opReturnDataCopy` has no test for a zero size before it slices `c.memory[memOffset:]`,
unlike the three copies above. -/
def opReturnDataCopy (c : State σ) : Except Fault (State σ) :=
  if !c.isRevision Revision.byzantium then pure (c.exit .opCodeNotFound)
  else do
    let (memOffset, c) := c.pop
    let memOffset ← deref memOffset
    let (dataOffset, c) := c.pop
    let dataOffset ← deref dataOffset
    let (length, c) := c.pop
    let length ← deref length
    match c.checkMemory memOffset length with
    | (c, false) => pure c
    | (c, true) =>
        let size := uint64 length
        match c.consumeGas ((size + 31) / 32 * copyGas) with
        | (c, false) => pure c
        | (c, true) =>
            let stop := dataOffset + length
            if !isUint64 stop then pure (c.exit .returnDataOutOfBounds)
            else
              let size := uint64 stop
              if c.returnData.length < size.toNat then pure (c.exit .returnDataOutOfBounds)
              else do
                let data ← slice c.returnData (uint64 dataOffset).toNat size.toNat
                let o := (uint64 memOffset).toNat
                let dst ← sliceFrom c.memory o
                pure { c with memory := c.memory.take o ++ copyAt dst 0 data }

/-! Block information. -/

/-- The window test is on `int64` values, as in the code. -/
def opBlockHash (host : Host σ) (c : State σ) : Except Fault (State σ) := do
  let num ← deref c.top
  if !isInt64 num then pure (c.setTop 0)
  else
    let n := int64 num
    let lastBlock := (host.getTxContext c.host).number
    if (lastBlock - 257).slt n && n.slt lastBlock then
      pure (c.setTop (host.getBlockHash c.host n).toNat)
    else pure (c.setTop 0)

def opCoinbase (host : Host σ) (c : State σ) : Except Fault (State σ) :=
  pure (c.push1 (host.getTxContext c.host).coinbase.toNat)

/-- `SetInt64`: the `int64` read signed. -/
def opTimestamp (host : Host σ) (c : State σ) : Except Fault (State σ) :=
  pure (c.push1 (host.getTxContext c.host).timestamp.toInt)

def opNumber (host : Host σ) (c : State σ) : Except Fault (State σ) :=
  pure (c.push1 (host.getTxContext c.host).number.toInt)

def opDifficulty (host : Host σ) (c : State σ) : Except Fault (State σ) :=
  pure (c.push1 (host.getTxContext c.host).difficulty.toNat)

def opGasLimit (host : Host σ) (c : State σ) : Except Fault (State σ) :=
  pure (c.push1 (host.getTxContext c.host).gasLimit.toInt)

/-! Jumps and the stack. -/

/-- `int(dest.Uint64() - 1)`: the loop's increment then lands on `dest`. -/
def jumpTo (c : State σ) (dest : Int) : State σ :=
  if c.validJumpdest dest then { c with ip := (uint64 dest - 1).toInt }
  else c.exit .invalidJump

def opJump (c : State σ) : Except Fault (State σ) := do
  let (dest, c) := c.pop
  let dest ← deref dest
  pure (jumpTo c dest)

def opJumpi (c : State σ) : Except Fault (State σ) := do
  let (dest, c) := c.pop
  let dest ← deref dest
  let (cond, c) := c.pop
  let cond ← deref cond
  pure (if cond ≠ 0 then jumpTo c dest else c)

def opJumpDest (c : State σ) : Except Fault (State σ) := pure c

/-- `opPush(n)`: an immediate cut short by the end of the code is extended by `n` zero
bytes, appended after the bytes present. -/
def opPush (n : Nat) (c : State σ) : Except Fault (State σ) := do
  let ip := c.ip.toNat
  let v ←
    if c.code.length < ip + 1 + n then do
      let rest ← sliceFrom c.code (ip + 1)
      pure (bytesToNat (rest ++ List.replicate n 0))
    else do
      let imm ← slice c.code (ip + 1) (ip + 1 + n)
      pure (bytesToNat imm)
  pure { c.push1 v with ip := c.ip + n }

def opDup (n : Nat) (c : State σ) : Except Fault (State σ) :=
  if !c.stackAtLeast n then pure (c.exit .stackUnderflow)
  else do
    let val ← c.peekAt n
    pure (c.push1 val)

def opSwap (n : Nat) (c : State σ) : Except Fault (State σ) :=
  if !c.stackAtLeast (n + 1) then pure (c.exit .stackUnderflow) else pure (c.swap n)

def opStop (c : State σ) : Except Fault (State σ) := pure c.halt

end GoEvm.Evm
