import GoEvm.Types

/-! `Txn`, the overlay of account, log and refund changes over a Snapshot backend
(`txn.go`). The radix tree of the code holds three kinds of keys, 20-byte addresses and
the two 32-byte keys `logIndex` and `refundIndex`, so the model keeps them as three fields.
`Snapshot` records the committed tree in an append-only list and `RevertToSnapshot` makes
it live again. Every mutation copies the object it reads and inserts the copy, never
writing through a stored pointer, so committed trees behave as values. -/
namespace GoEvm

structure Radix where
  objects : Address → Option StateObject
  logs : Option (List Log)
  refund : Option Uint64

def Radix.empty : Radix := ⟨fun _ => none, none, none⟩

structure Txn where
  snapshot : Snapshot
  snapshots : List Radix
  txn : Radix
  rev : Revision

namespace Txn

variable (t : Txn) (addr : Address)

def newTxn (snapshot : Snapshot) : Txn := ⟨snapshot, [], Radix.empty, Revision.frontier⟩

def isRevision (rev : Revision) : Bool := rev ≤ t.rev

/-- `Snapshot`: the id is the index of the committed tree. -/
def takeSnapshot : Txn × Nat :=
  ({ t with snapshots := t.snapshots ++ [t.txn] }, t.snapshots.length)

/-- `RevertToSnapshot`; an id past the recorded trees panics. -/
def revertToSnapshot (id : Nat) : Except Fault Txn :=
  match t.snapshots[id]? with
  | some tree => pure { t with txn := tree }
  | none => throw .panic

def getStateObject : Option StateObject :=
  match t.txn.objects addr with
  | some obj => if obj.deleted then none else some obj.copy
  | none =>
      (t.snapshot.getAccount addr).map fun account =>
        { account := account.copy, code := account.code, suicide := false, deleted := false
          dirtyCode := false, txn := fun _ => none }

def getAccount : Option Account := (t.getStateObject addr).map (·.account)

def newStateObject : StateObject :=
  { account := { nonce := 0, balance := 0, root := EmptyRootHash, codeHash := EmptyCodeHash
                 code := [] }
    code := [], suicide := false, deleted := false, dirtyCode := false, txn := fun _ => none }

def insert (object : StateObject) : Txn :=
  { t with txn := { t.txn with objects := Function.update t.txn.objects addr (some object) } }

/-- `upsertAccount`: the callback runs on the object read, or on a new one when `create`
is set, and the result is inserted; nothing happens when there is no object. -/
def upsertAccount (create : Bool) (f : StateObject → StateObject) : Txn :=
  match (t.getStateObject addr).orElse fun _ => if create then some newStateObject else none with
  | some object => t.insert addr (f object)
  | none => t

def addBalance (balance : Int) : Txn :=
  t.upsertAccount addr true fun o => { o with account.balance := o.account.balance + balance }

def getBalance : Int :=
  match t.getStateObject addr with
  | some object => object.account.balance
  | none => 0

/-- `SubBalance`: a zero amount is a no-op, and an amount above the balance fails with
`errNotEnoughFunds` and no change. -/
def subBalance (amount : Int) : Except Error Txn :=
  if amount = 0 then pure t
  else if t.getBalance addr < amount then throw .notEnoughFunds
  else pure <| t.upsertAccount addr true fun o =>
    { o with account.balance := o.account.balance - amount }

/-- `SetBalance`, through `SetBytes(balance.Bytes())`. -/
def setBalance (balance : Int) : Txn :=
  t.upsertAccount addr true fun o => { o with account.balance := balance.natAbs }

def emitLog (topics : List Hash) (data : Bytes) : Txn :=
  { t with txn := { t.txn with logs := some (t.txn.logs.getD [] ++ [⟨addr, topics, data⟩]) } }

def getState (key : Hash) : Hash :=
  match t.getStateObject addr with
  | some object =>
      match object.txn key with
      | some value => value
      | none => t.snapshot.getStorage addr object.account.root key
  | none => 0

def setState (key value : Hash) : Txn :=
  t.upsertAccount addr true fun o => { o with txn := Function.update o.txn key (some value) }

def getCommittedState (key : Hash) : Hash :=
  match t.getStateObject addr with
  | some object => t.snapshot.getStorage addr object.account.root key
  | none => 0

def getRefund : Uint64 := t.txn.refund.getD 0

def addRefund (gas : Uint64) : Txn :=
  { t with txn := { t.txn with refund := some (t.getRefund + gas) } }

def subRefund (gas : Uint64) : Txn :=
  { t with txn := { t.txn with refund := some (t.getRefund - gas) } }

/-- `SetStorage`: writes the value and classifies the write by EIP-2200 against the
committed value, adjusting the refund counter. -/
def setStorage (key value : Hash) : Txn × StorageStatus :=
  let oldValue := t.getState addr key
  if oldValue = value then (t, .unchanged) else
  let current := oldValue
  let original := t.getCommittedState addr key
  let t' := t.setState addr key value
  let isIstanbul := t'.isRevision Revision.istanbul
  let legacyGasMetering := !isIstanbul &&
    (t'.isRevision Revision.petersburg || !t'.isRevision Revision.constantinople)
  if legacyGasMetering then
    if oldValue = 0 then (t', .added)
    else if value = 0 then (t'.addRefund 15000, .deleted)
    else (t', .modified)
  else if original = current then
    if original = 0 then (t', .added)
    else if value = 0 then (t'.addRefund 15000, .deleted)
    else (t', .modified)
  else
    let t' :=
      if original ≠ 0 then
        if current = 0 then t'.subRefund 15000
        else if value = 0 then t'.addRefund 15000
        else t'
      else t'
    let t' :=
      if original = value then
        if original = 0 then t'.addRefund (if isIstanbul then 19200 else 19800)
        else t'.addRefund (if isIstanbul then 4200 else 4800)
      else t'
    (t', .modifiedAgain)

def incrNonce : Txn :=
  t.upsertAccount addr true fun o => { o with account.nonce := o.account.nonce + 1 }

def setNonce (nonce : Uint64) : Txn :=
  t.upsertAccount addr true fun o => { o with account.nonce := nonce }

def getNonce : Uint64 :=
  match t.getStateObject addr with
  | some object => object.account.nonce
  | none => 0

def setCode (keccak256 : Bytes → Hash) (code : Bytes) : Txn :=
  t.upsertAccount addr true fun o =>
    { o with account.codeHash := keccak256 code, dirtyCode := true, code := code }

def getCode : Bytes :=
  match t.getStateObject addr with
  | some object => object.code
  | none => []

def getCodeSize : Nat := (t.getCode addr).length

def empty : Bool :=
  match t.getStateObject addr with
  | some object => object.empty
  | none => true

def getCodeHash : Hash :=
  if t.empty addr then 0
  else
    match t.getStateObject addr with
    | some object => object.account.codeHash
    | none => 0

/-- `Suicide`: marks the object and zeroes its balance; the flag says whether this is the
first suicide of an existing object. -/
def suicide : Txn × Bool :=
  (t.upsertAccount addr false fun o => { o with suicide := true, account.balance := 0 },
    match t.getStateObject addr with
    | some object => !object.suicide
    | none => false)

def hasSuicided : Bool :=
  match t.getStateObject addr with
  | some object => object.suicide
  | none => false

/-- `Logs`: the emitted logs, with the log key deleted. -/
def logs : Txn × List Log :=
  ({ t with txn := { t.txn with logs := none } }, t.txn.logs.getD [])

def touchAccount : Txn := t.upsertAccount addr true id

def accountExists : Bool :=
  if Revision.spuriousDragon ≤ t.rev then !t.empty addr else (t.getStateObject addr).isSome

/-- `CreateAccount`: a new object that keeps only the balance of the one it replaces. -/
def createAccount : Txn :=
  let balance : Int :=
    match t.getStateObject addr with
    | some prev => prev.account.balance.natAbs
    | none => 0
  t.insert addr { newStateObject with account.balance := balance }

/-- `CleanDeleteObjects`: suicided objects, and empty ones when asked, are marked deleted,
and the refund key is removed. -/
def cleanDeleteObjects (deleteEmptyObjects : Bool) : Txn :=
  { t with txn :=
    { t.txn with
      objects := fun a =>
        (t.txn.objects a).map fun o =>
          if o.suicide || o.empty && deleteEmptyObjects then { o.copy with deleted := true } else o
      refund := none } }

end Txn

end GoEvm
