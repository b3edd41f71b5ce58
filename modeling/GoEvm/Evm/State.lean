import GoEvm.Types

/-! The interpreter's frame (`evm/state.go`) and the part of `evmc.HostContext` the
handlers call. The host is a record of functions over the host's own state `σ`, which the
frame carries, so that a host call returns the updated host state. The stack holds the
live entries, top first: `pop` only moves Go's `sp`, and `push1` hands back a stale slot
that every handler overwrites before any read, so the entries above `sp` are never
observed. A slice expression that Go checks at run time is an `Except Fault`, which is
`.panic` when the bounds fail. -/
namespace GoEvm.Evm

/-- The host calls of the handlers; `σ` is the state the host keeps. The `int64` gas of
`Call` is its bit pattern. -/
structure Host (σ : Type) where
  accountExists : σ → Address → Bool
  getStorage : σ → Address → Hash → Hash
  setStorage : σ → Address → Hash → Hash → σ × StorageStatus
  getBalance : σ → Address → Hash
  getCodeSize : σ → Address → Nat
  getCodeHash : σ → Address → Hash
  getCode : σ → Address → Bytes
  selfdestruct : σ → Address → Address → σ
  getTxContext : σ → EvmcTxContext
  getBlockHash : σ → Uint64 → Hash
  emitLog : σ → Address → List Hash → Bytes → σ
  call : σ → CallKind → Address → Address → Hash → Bytes → Uint64 → Nat → Bool → Hash →
    Address → Except Fault (σ × Bytes × Uint64 × Address × Option Error)

/-- `state`, the frame of one execution. `ip` is Go's `int`: a jump sets it to the
destination minus one before the loop's increment. -/
structure State (σ : Type) where
  ip : Int
  code : Bytes
  host : σ
  address : Address
  caller : Address
  depth : Nat
  value : Int
  input : Bytes
  static : Bool
  rev : Revision
  memory : Bytes
  lastGasCost : Uint64
  stack : List Int
  err : Option Error
  stop : Bool
  gas : Uint64
  returnData : Bytes
  ret : Bytes

/-- `s[lo:hi]`: panics unless `lo ≤ hi ≤ len(s)`. -/
def slice (s : Bytes) (lo hi : Nat) : Except Fault Bytes :=
  if lo ≤ hi ∧ hi ≤ s.length then pure ((s.drop lo).take (hi - lo)) else throw .panic

/-- `s[lo:]`: panics unless `lo ≤ len(s)`. -/
def sliceFrom (s : Bytes) (lo : Nat) : Except Fault Bytes :=
  if lo ≤ s.length then pure (s.drop lo) else throw .panic

/-- `copy(dst[o:], src)` for `o ≤ len(dst)`: as many bytes as fit. -/
def copyAt (dst : Bytes) (o : Nat) (src : Bytes) : Bytes :=
  dst.take o ++ src.take (dst.length - o) ++ dst.drop (o + src.length)

/-- Nil dereference: a handler that uses the `nil` of an empty-stack `pop` panics. -/
def deref : Option Int → Except Fault Int
  | some v => pure v
  | none => throw .panic

namespace State

variable {σ : Type} (c : State σ)

def isRevision (rev : Revision) : Bool := rev ≤ c.rev

def halt : State σ := { c with stop := true }

def exit (err : Error) : State σ := { c with stop := true, err := some err }

/-- `pop` returns `nil` on an empty stack. -/
def pop : Option Int × State σ :=
  match c.stack with
  | v :: rest => (some v, { c with stack := rest })
  | [] => (none, c)

def top : Option Int := c.stack.head?

def push1 (v : Int) : State σ := { c with stack := v :: c.stack }

/-- Writing through the pointer `top` returns. -/
def setTop (v : Int) : State σ := { c with stack := v :: c.stack.tail }

def stackAtLeast (n : Nat) : Bool := n ≤ c.stack.length

/-- `c.stack[c.sp-n]`, which Go checks. -/
def peekAt (n : Nat) : Except Fault Int :=
  if 0 < n ∧ n ≤ c.stack.length then pure (c.stack.getD (n - 1) 0) else throw .panic

/-- `swap(n)`, called after `stackAtLeast(n + 1)`. -/
def swap (n : Nat) : State σ :=
  { c with stack := (c.stack.set 0 (c.stack.getD n 0)).set n (c.stack.getD 0 0) }

def popAddr : Address × Bool × State σ :=
  match c.pop with
  | (some b, c) => (bigToAddress b, true, c)
  | (none, c) => (0, false, c)

def popHash : Except Fault (Hash × State σ) :=
  match c.pop with
  | (some b, c) => pure (bigToHash b, c)
  | (none, _) => throw .panic

/-- `consumeGas`: the frame exits with `errOutOfGas` when the gas is short. -/
def consumeGas (gas : Uint64) : State σ × Bool :=
  if c.gas < gas then (c.exit .outOfGas, false) else ({ c with gas := c.gas - gas }, true)

def resetReturnData : State σ := { c with returnData := [] }

/-- `extendByteSlice`; the bytes past the length are zero, as `reset` left them. -/
def extendByteSlice (b : Bytes) (needLen : Nat) : Bytes :=
  if needLen ≤ b.length then b.take needLen else b ++ List.replicate (needLen - b.length) 0

/-- `checkMemory`: a non-empty range must have offset and size of at most `0xffffffffe0`;
growing memory to `w` words charges the increment of `3w + w²/512`, in `uint64`. -/
def checkMemory (offset size : Int) : State σ × Bool :=
  if size = 0 then (c, true)
  else if !isUint64 offset || !isUint64 size then (c.exit .gasUintOverflow, false)
  else
    let o := uint64 offset
    let s := uint64 size
    if 0xffffffffe0 < o || 0xffffffffe0 < s then (c.exit .gasUintOverflow, false)
    else
      let m : Uint64 := BitVec.ofNat 64 c.memory.length
      let newSize := o + s
      if m < newSize then
        let w := (newSize + 31) / 32
        let newCost := 3 * w + w * w / 512
        let cost := newCost - c.lastGasCost
        let c := { c with lastGasCost := newCost }
        match c.consumeGas cost with
        | (c, false) => (c.exit .outOfGas, false)
        | (c, true) => ({ c with memory := extendByteSlice c.memory (w * 32).toNat }, true)
      else (c, true)

/-- `get2`: the bytes of a memory range, after `checkMemory`; an empty range is `nil`. -/
def get2 (dst : Bytes) (offset length : Int) : Except Fault (State σ × Option Bytes) :=
  if length = 0 then pure (c, some [])
  else
    match c.checkMemory offset length with
    | (c, false) => pure (c, none)
    | (c, true) => do
        let o := (uint64 offset).toNat
        let l := (uint64 length).toNat
        let bytes ← slice c.memory o (o + l)
        pure (c, some (dst ++ bytes))

end State

/-- `setBytes`: writes `size` bytes at the start of `dst`, the source from `dataOffset` on
and then zeros. A write past `dst` panics. -/
def setBytes (dst input : Bytes) (size : Uint64) (dataOffset : Int) : Except Fault Bytes :=
  if !isUint64 dataOffset then fill dst 0 size.toNat
  else
    let inputSize := input.length
    let start := min (uint64 dataOffset).toNat inputSize
    let copySize := min size.toNat (inputSize - start)
    let dst := if 0 < copySize then copyAt dst 0 ((input.drop start).take copySize) else dst
    if 0 < size.toNat - copySize then fill dst copySize (size.toNat - copySize) else pure dst
where
  /-- Zeroing `dst[i]` for `i` in `[start, start + n)`, one index at a time. -/
  fill (dst : Bytes) (start n : Nat) : Except Fault Bytes :=
    if start + n ≤ dst.length then
      pure (dst.take start ++ List.replicate n 0 ++ dst.drop (start + n))
    else throw .panic

/-- The positions the jump bitmap marks, scanning from `i` and skipping PUSH immediates. -/
def scanJumpdests : Nat → Bytes → Nat → List Nat
  | 0, _, _ => []
  | _ + 1, [], _ => []
  | fuel + 1, op :: rest, i =>
      if 0x60 ≤ op.toNat ∧ op.toNat ≤ 0x7f then
        scanJumpdests fuel (rest.drop (op.toNat - 0x5f)) (i + op.toNat - 0x5e)
      else (if op = 0x5b then [i] else []) ++ scanJumpdests fuel rest (i + 1)

/-- Modelled from the spec: the jump bitmap (`bitmap.setCode`, `bitmap.isSet`) is not
under src/. By §4.D and §8 a position is set when it holds a JUMPDEST byte outside every
PUSH immediate. -/
def bitmapIsSet (code : Bytes) (i : Nat) : Bool := i ∈ scanJumpdests code.length code 0

namespace State

variable {σ : Type} (c : State σ)

def validJumpdest (dest : Int) : Bool :=
  let udest := uint64 dest
  if 63 ≤ bitLen dest || c.code.length ≤ udest.toNat then false
  else bitmapIsSet c.code udest.toNat

end State

end GoEvm.Evm
