import GoEvm.Txn

/-! Modelled from the spec: the reference model of the overlay, and the sequences of
operations both run. The model is a map from address to account, filled lazily from the
backend: an address never written reads the backend's account, and a written one reads what
was written there, which may be nothing after `CleanDeleteObjects`. An account holds what
its reads return, and the storage it held when it entered the map, against which `SetStorage`
classifies a write by the spec's EIP-2200 table. `Snapshot` records the state, and
`RevertToSnapshot` makes a recorded state the current one again. -/
namespace GoEvm

/-- Modelled from the spec: an account of the reference model. `committed` is the storage
the account held when it entered the map: the backend's, or none for a new account. -/
structure RefAccount where
  nonce : Uint64
  balance : Int
  code : Bytes
  codeHash : Hash
  storage : Hash → Hash
  committed : Hash → Hash
  suicide : Bool

namespace RefAccount

/-- Modelled from the spec: an account created in the map, with nothing in it. -/
def new : RefAccount := ⟨0, 0, [], EmptyCodeHash, fun _ => 0, fun _ => 0, false⟩

/-- Modelled from the spec: an account is empty with no nonce, no balance and no code. -/
def empty (account : RefAccount) : Bool :=
  account.nonce == 0 && account.balance == 0 && account.codeHash == EmptyCodeHash

/-- Modelled from the spec: the backend's account at `a`, its storage read under its root. -/
def ofBackend (snapshot : Snapshot) (a : Address) (account : Account) : RefAccount :=
  ⟨account.nonce, account.balance, account.code, account.codeHash,
    snapshot.getStorage a account.root, snapshot.getStorage a account.root, false⟩

end RefAccount

/-- Modelled from the spec: the Snapshot backend's contract. Balances are U256, and an
absent slot reads zero, every slot under the empty root `EmptyRootHash` among them. -/
structure Snapshot.Valid (snapshot : Snapshot) : Prop where
  balances : ∀ a account, snapshot.getAccount a = some account → 0 ≤ account.balance
  emptyRoot : ∀ a key, snapshot.getStorage a EmptyRootHash key = 0

/-- Modelled from the spec: the state of the reference model. `written a` is `none` for an
address the map has not filled, `some none` for one removed, and `some (some account)`. -/
structure RefState where
  written : Address → Option (Option RefAccount)
  logs : List Log
  refund : Uint64

namespace RefState

variable (snapshot : Snapshot) (s : RefState) (a : Address)

/-- Modelled from the spec: the account at `a`, written or filled from the backend. -/
def account : Option RefAccount :=
  match s.written a with
  | some written => written
  | none => (snapshot.getAccount a).map (RefAccount.ofBackend snapshot a)

/-- Modelled from the spec: a write of the map at `a`. -/
def set (x : Option RefAccount) : RefState :=
  { s with written := Function.update s.written a (some x) }

/-- Modelled from the spec: an update of the account at `a`, created when absent. -/
def upsert (f : RefAccount → RefAccount) : RefState :=
  s.set a (some (f ((s.account snapshot a).getD RefAccount.new)))

def getBalance : Int := ((s.account snapshot a).map (·.balance)).getD 0
def getNonce : Uint64 := ((s.account snapshot a).map (·.nonce)).getD 0
def getCode : Bytes := ((s.account snapshot a).map (·.code)).getD []
def empty : Bool := ((s.account snapshot a).map (·.empty)).getD true
def getCodeHash : Hash := if s.empty snapshot a then 0 else ((s.account snapshot a).map (·.codeHash)).getD 0
def getState (key : Hash) : Hash := ((s.account snapshot a).map (·.storage key)).getD 0
def getCommittedState (key : Hash) : Hash := ((s.account snapshot a).map (·.committed key)).getD 0
def hasSuicided : Bool := ((s.account snapshot a).map (·.suicide)).getD false

def accountExists (rev : Revision) : Bool :=
  if Revision.spuriousDragon ≤ rev then !s.empty snapshot a else (s.account snapshot a).isSome

def addBalance (amount : Int) : RefState :=
  s.upsert snapshot a fun acc => { acc with balance := acc.balance + amount }

/-- Modelled from the spec: fails with no change when the balance is below a non-zero
amount. -/
def subBalance (amount : Int) : Except Error RefState :=
  if amount = 0 then pure s
  else if s.getBalance snapshot a < amount then throw .notEnoughFunds
  else pure (s.upsert snapshot a fun acc => { acc with balance := acc.balance - amount })

def setBalance (balance : Int) : RefState := s.upsert snapshot a fun acc => { acc with balance }
def incrNonce : RefState := s.upsert snapshot a fun acc => { acc with nonce := acc.nonce + 1 }
def setNonce (nonce : Uint64) : RefState := s.upsert snapshot a fun acc => { acc with nonce }

def setCode (keccak256 : Bytes → Hash) (code : Bytes) : RefState :=
  s.upsert snapshot a fun acc => { acc with code, codeHash := keccak256 code }

def setState (key value : Hash) : RefState :=
  s.upsert snapshot a fun acc => { acc with storage := Function.update acc.storage key value }

def addRefund (gas : Uint64) : RefState := { s with refund := s.refund + gas }
def subRefund (gas : Uint64) : RefState := { s with refund := s.refund - gas }

/-- Modelled from the spec: `set_state`'s EIP-2200 classification, with its refunds. -/
def setStorage (rev : Revision) (key value : Hash) : RefState × StorageStatus :=
  let current := s.getState snapshot a key
  if current = value then (s, .unchanged) else
  let original := s.getCommittedState snapshot a key
  let s' := s.setState snapshot a key value
  let isIstanbul := decide (Revision.istanbul ≤ rev)
  let legacy := !isIstanbul &&
    (decide (Revision.petersburg ≤ rev) || !decide (Revision.constantinople ≤ rev))
  if legacy then
    if current = 0 then (s', .added)
    else if value = 0 then (s'.addRefund 15000, .deleted)
    else (s', .modified)
  else if original = current then
    if original = 0 then (s', .added)
    else if value = 0 then (s'.addRefund 15000, .deleted)
    else (s', .modified)
  else
    let s' :=
      if original ≠ 0 then
        if current = 0 then s'.subRefund 15000
        else if value = 0 then s'.addRefund 15000
        else s'
      else s'
    let s' :=
      if original = value then
        if original = 0 then s'.addRefund (if isIstanbul then 19200 else 19800)
        else s'.addRefund (if isIstanbul then 4200 else 4800)
      else s'
    (s', .modifiedAgain)

/-- Modelled from the spec: marks the account suicided and zeroes its balance; an absent
account stays absent. -/
def suicide : RefState :=
  match s.account snapshot a with
  | some acc => s.set a (some { acc with suicide := true, balance := 0 })
  | none => s

def touchAccount : RefState := s.upsert snapshot a id

/-- Modelled from the spec: a new account that keeps only the balance. -/
def createAccount : RefState :=
  s.set a (some { RefAccount.new with balance := s.getBalance snapshot a })

def emitLog (topics : List Hash) (data : Bytes) : RefState :=
  { s with logs := s.logs ++ [⟨a, topics, data⟩] }

/-- Modelled from the spec: removes the suicided accounts the map holds, and the empty ones
when asked, and clears the refund. -/
def cleanDeleteObjects (deleteEmptyObjects : Bool) : RefState :=
  { s with
    written := fun a => (s.written a).map fun x => x.bind fun acc =>
      if acc.suicide || acc.empty && deleteEmptyObjects then none else some acc
    refund := 0 }

end RefState

/-- Modelled from the spec: the reference state with the states `Snapshot` recorded. -/
structure RefTxn where
  state : RefState
  snapshots : List RefState

/-- Modelled from the spec: the reference model before any operation. -/
def RefTxn.init : RefTxn := ⟨⟨fun _ => none, [], 0⟩, []⟩

/-- The operations of the overlay a sequence is made of, with their arguments. -/
inductive TxnOp where
  | addBalance (a : Address) (amount : Int)
  | subBalance (a : Address) (amount : Int)
  | setBalance (a : Address) (balance : Int)
  | incrNonce (a : Address)
  | setNonce (a : Address) (nonce : Uint64)
  | setCode (a : Address) (code : Bytes)
  | setState (a : Address) (key value : Hash)
  | setStorage (a : Address) (key value : Hash)
  | suicide (a : Address)
  | touchAccount (a : Address)
  | createAccount (a : Address)
  | emitLog (a : Address) (topics : List Hash) (data : Bytes)
  | addRefund (gas : Uint64)
  | subRefund (gas : Uint64)
  | cleanDeleteObjects (deleteEmptyObjects : Bool)
  | snapshot
  | revertToSnapshot (id : Nat)

namespace TxnOp

variable (keccak256 : Bytes → Hash)

/-- One operation on the overlay. A failed `SubBalance` leaves it as it was; an unknown
snapshot id panics. -/
def apply : TxnOp → Txn → Except Fault Txn
  | .addBalance a amount, t => pure (t.addBalance a amount)
  | .subBalance a amount, t =>
      match t.subBalance a amount with
      | .ok t' => pure t'
      | .error _ => pure t
  | .setBalance a balance, t => pure (t.setBalance a balance)
  | .incrNonce a, t => pure (t.incrNonce a)
  | .setNonce a nonce, t => pure (t.setNonce a nonce)
  | .setCode a code, t => pure (t.setCode a keccak256 code)
  | .setState a key value, t => pure (t.setState a key value)
  | .setStorage a key value, t => pure (t.setStorage a key value).1
  | .suicide a, t => pure (t.suicide a).1
  | .touchAccount a, t => pure (t.touchAccount a)
  | .createAccount a, t => pure (t.createAccount a)
  | .emitLog a topics data, t => pure (t.emitLog a topics data)
  | .addRefund gas, t => pure (t.addRefund gas)
  | .subRefund gas, t => pure (t.subRefund gas)
  | .cleanDeleteObjects deleteEmptyObjects, t => pure (t.cleanDeleteObjects deleteEmptyObjects)
  | .snapshot, t => pure t.takeSnapshot.1
  | .revertToSnapshot id, t => t.revertToSnapshot id

/-- Modelled from the spec: one operation on the reference model, over the backend
`snapshot` at the revision `rev`. -/
def refApply (snapshot : Snapshot) (rev : Revision) : TxnOp → RefTxn → Except Fault RefTxn
  | .addBalance a amount, r => pure { r with state := r.state.addBalance snapshot a amount }
  | .subBalance a amount, r =>
      match r.state.subBalance snapshot a amount with
      | .ok s => pure { r with state := s }
      | .error _ => pure r
  | .setBalance a balance, r => pure { r with state := r.state.setBalance snapshot a balance }
  | .incrNonce a, r => pure { r with state := r.state.incrNonce snapshot a }
  | .setNonce a nonce, r => pure { r with state := r.state.setNonce snapshot a nonce }
  | .setCode a code, r => pure { r with state := r.state.setCode snapshot a keccak256 code }
  | .setState a key value, r => pure { r with state := r.state.setState snapshot a key value }
  | .setStorage a key value, r =>
      pure { r with state := (r.state.setStorage snapshot a rev key value).1 }
  | .suicide a, r => pure { r with state := r.state.suicide snapshot a }
  | .touchAccount a, r => pure { r with state := r.state.touchAccount snapshot a }
  | .createAccount a, r => pure { r with state := r.state.createAccount snapshot a }
  | .emitLog a topics data, r => pure { r with state := r.state.emitLog a topics data }
  | .addRefund gas, r => pure { r with state := r.state.addRefund gas }
  | .subRefund gas, r => pure { r with state := r.state.subRefund gas }
  | .cleanDeleteObjects deleteEmptyObjects, r =>
      pure { r with state := r.state.cleanDeleteObjects deleteEmptyObjects }
  | .snapshot, r => pure { r with snapshots := r.snapshots ++ [r.state] }
  | .revertToSnapshot id, r =>
      match r.snapshots[id]? with
      | some s => pure { r with state := s }
      | none => throw .panic

/-- A sequence of operations on the overlay, stopped by the first panic. -/
def run : List TxnOp → Txn → Except Fault Txn
  | [], t => pure t
  | op :: ops, t => do run ops (← op.apply keccak256 t)

/-- Modelled from the spec: the same sequence on the reference model. -/
def refRun (snapshot : Snapshot) (rev : Revision) : List TxnOp → RefTxn → Except Fault RefTxn
  | [], r => pure r
  | op :: ops, r => do refRun snapshot rev ops (← op.refApply keccak256 snapshot rev r)

/-- The amounts an operation adds or sets are not negative. -/
def NonNegative : TxnOp → Prop
  | .addBalance _ amount => 0 ≤ amount
  | .setBalance _ balance => 0 ≤ balance
  | _ => True

end TxnOp

end GoEvm
