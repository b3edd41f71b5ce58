import GoEvm.Word

/-! The records the state overlay and the transition driver exchange (`state.go`,
`state_empty.go` and `Transition`'s context). Pointers to `big.Int` become values; a
record the code mutates through a pointer is returned updated by the function that
mutates it. A storage overlay is a map from key to the value last written, the stored
`nil` of a deletion being the zero hash; a `nil` storage transaction and an empty one read
alike, so both are the empty map. -/
namespace GoEvm

/-- Every error value the code returns, one constructor per `errors.New`; a precompiled
contract's failure carries the text its library gives. -/
inductive Error where
  | outOfGas
  | stackUnderflow
  | stackOverflow
  | executionReverted
  | gasUintOverflow
  | writeProtection
  | invalidJump
  | opCodeNotFound
  | returnDataOutOfBounds
  | notEnoughFunds
  | incorrectNonce
  | notEnoughFundsForGas
  | nonZerosOverflow
  | zerosOverflow
  | intrinsicGasTooLow
  | addressCollision
  | maxCodeSizeExceeded
  | codeStoreOutOfGas
  | precompileOutOfGas
  | precompileFailed (message : String)
  deriving DecidableEq, Repr

/-- The texts of the errors, as the code spells them. -/
def Error.message : Error → String
  | .outOfGas => "out of gas"
  | .stackUnderflow => "stack underflow"
  | .stackOverflow => "stack overflow"
  | .executionReverted => "execution was reverted"
  | .gasUintOverflow => "gas uint64 overflow"
  | .writeProtection => "write protection"
  | .invalidJump => "invalid jump destination"
  | .opCodeNotFound => "opcode not found"
  | .returnDataOutOfBounds => "return data out of bounds"
  | .notEnoughFunds => "not enough funds for transfer with given value"
  | .incorrectNonce => "incorrect nonce"
  | .notEnoughFundsForGas => "not enough funds to cover gas costs"
  | .nonZerosOverflow => "overflow in non-zeros intrinsic gas calculation"
  | .zerosOverflow => "overflow in zeros intrinsic gas calculation"
  | .intrinsicGasTooLow => "not enough gas supplied for intrinsic gas costs"
  | .addressCollision => "contract address collision"
  | .maxCodeSizeExceeded => "evm: max code size exceeded"
  | .codeStoreOutOfGas => "contract creation code storage out of gas"
  | .precompileOutOfGas => "out of gas"
  | .precompileFailed message => message

/-- How a run of the model ends when the Go program would not return: a runtime panic
(slice bounds, nil dereference, an explicit `panic`), or the model's own fuel running out. -/
inductive Fault where
  | panic
  | fuel
  deriving DecidableEq, Repr

/-- evmc.CallKind. -/
inductive CallKind where
  | call
  | delegateCall
  | callCode
  | create
  | create2
  deriving DecidableEq, Repr

/-- The evmc storage statuses `Txn.SetStorage` returns. -/
inductive StorageStatus where
  | unchanged
  | modified
  | modifiedAgain
  | added
  | deleted
  deriving DecidableEq, Repr

/-- keccak256 of the empty string, the value of `EmptyCodeHash`. -/
def EmptyCodeHash : Hash :=
  0xc5d2460186f7233c927e7db2dcc703c0e500b653ca82273b7bfad8045d85a470#256

def EmptyRootHash : Hash :=
  0x56e81f171bcc55a6ff8345e692c0f86e5b48e01b996cadc001622fb5e363b421#256

structure Account where
  nonce : Uint64
  balance : Int
  root : Hash
  codeHash : Hash
  code : Bytes

/-- `Account.Copy`. The balance goes through `SetBytes(Balance.Bytes())`, which keeps the
magnitude only, and the code is not copied. -/
def Account.copy (a : Account) : Account :=
  { nonce := a.nonce, balance := a.balance.natAbs, root := a.root, codeHash := a.codeHash,
    code := [] }

abbrev Storage := Hash → Option Hash

structure StateObject where
  account : Account
  code : Bytes
  suicide : Bool
  deleted : Bool
  dirtyCode : Bool
  txn : Storage

def StateObject.empty (s : StateObject) : Bool :=
  s.account.nonce == 0 && s.account.balance == 0 && s.account.codeHash == EmptyCodeHash

/-- `stateObject.Copy`; the storage transaction is recommitted, with the same contents. -/
def StateObject.copy (s : StateObject) : StateObject :=
  { s with account := s.account.copy }

/-- The Snapshot backend. An error from `GetAccount` reads as an absent account, as in
`getStateObject`. -/
structure Snapshot where
  getStorage : Address → Hash → Hash → Hash
  getAccount : Address → Option Account

/-- `EmptyState`. -/
def EmptyState : Snapshot where
  getStorage _ _ _ := 0
  getAccount _ := none

structure Log where
  address : Address
  topics : List Hash
  data : Bytes

structure Message where
  nonce : Uint64
  gasPrice : Int
  gas : Uint64
  «to» : Option Address
  value : Int
  input : Bytes
  «from» : Address

def Message.isContractCreation (m : Message) : Bool := m.«to».isNone

/-- `Contract`, the descriptor of a frame. -/
structure Contract where
  type : CallKind
  codeAddress : Address
  address : Address
  caller : Address
  depth : Nat
  value : Int
  input : Bytes
  gas : Uint64
  static : Bool
  salt : Hash

structure Output where
  logs : List Log
  success : Bool
  gasLeft : Uint64
  contractAddress : Address
  returnValue : Bytes

/-- The transaction context of the `state` package; the `int64` fields are bit patterns. -/
structure TxContext where
  hash : Hash
  gasPrice : Hash
  origin : Address
  coinbase : Address
  number : Uint64
  timestamp : Uint64
  gasLimit : Uint64
  chainID : Uint64
  difficulty : Hash

/-- `evmc.TxContext`, the view the interpreter reads through the host. -/
structure EvmcTxContext where
  gasPrice : Hash
  origin : Address
  coinbase : Address
  number : Uint64
  timestamp : Uint64
  gasLimit : Uint64
  difficulty : Hash
  chainID : Hash

end GoEvm
