import GoEvm.Txn

/-! What the overlay's operations keep. Every operation but `Snapshot` writes only the live
tree: the backend, the revision and the recorded trees stay, and `Snapshot` appends the
live tree to the recorded ones. Every object `getStateObject` returns is a copy, and a copy
of a copy is the copy, so touching an account that exists writes back what is read; touching
one that does not exist writes a new, empty object. The reads of a touched overlay are
those of the overlay before, given a backend whose empty storage root holds no slot. -/
namespace GoEvm

@[simp] theorem Account.copy_copy (account : Account) : account.copy.copy = account.copy := by
  simp [Account.copy]

@[simp] theorem StateObject.copy_copy (o : StateObject) : o.copy.copy = o.copy := by
  simp [StateObject.copy]

@[simp] theorem StateObject.copy_deleted (o : StateObject) : o.copy.deleted = o.deleted := rfl

namespace Txn

variable (t : Txn) (a b : Address)

/-! The backend, the revision and the recorded trees. -/

@[simp] theorem insert_snapshot (o : StateObject) : (t.insert a o).snapshot = t.snapshot := rfl
@[simp] theorem insert_snapshots (o : StateObject) : (t.insert a o).snapshots = t.snapshots := rfl
@[simp] theorem insert_rev (o : StateObject) : (t.insert a o).rev = t.rev := rfl

@[simp] theorem upsertAccount_snapshot (create : Bool) (f : StateObject → StateObject) :
    (t.upsertAccount a create f).snapshot = t.snapshot := by
  unfold upsertAccount; split <;> rfl

@[simp] theorem upsertAccount_snapshots (create : Bool) (f : StateObject → StateObject) :
    (t.upsertAccount a create f).snapshots = t.snapshots := by
  unfold upsertAccount; split <;> rfl

@[simp] theorem upsertAccount_rev (create : Bool) (f : StateObject → StateObject) :
    (t.upsertAccount a create f).rev = t.rev := by
  unfold upsertAccount; split <;> rfl

/-- `t'` is `t` with only its live tree written. -/
def Rewrites (t t' : Txn) : Prop :=
  t'.snapshot = t.snapshot ∧ t'.snapshots = t.snapshots ∧ t'.rev = t.rev

theorem Rewrites.refl : Rewrites t t := ⟨rfl, rfl, rfl⟩

theorem Rewrites.trans {t t' t'' : Txn} (first : Rewrites t t') (second : Rewrites t' t'') :
    Rewrites t t'' :=
  ⟨second.1.trans first.1, second.2.1.trans first.2.1, second.2.2.trans first.2.2⟩

theorem upsertAccount_rewrites (create : Bool) (f : StateObject → StateObject) :
    Rewrites t (t.upsertAccount a create f) := by
  simp [Rewrites]

theorem subBalance_rewrites {amount : Int} {t' : Txn} (h : t.subBalance a amount = .ok t') :
    Rewrites t t' := by
  unfold subBalance at h
  split at h
  · cases h; exact .refl t
  split at h
  · cases h
  · cases h; exact t.upsertAccount_rewrites a _ _

theorem setStorage_rewrites (key value : Hash) : Rewrites t (t.setStorage a key value).1 := by
  unfold setStorage
  simp only [Rewrites, apply_ite Prod.fst, apply_ite snapshot, apply_ite snapshots, apply_ite rev,
    addRefund, subRefund, setState, upsertAccount_snapshot, upsertAccount_snapshots,
    upsertAccount_rev, ite_self, and_self]

theorem revertToSnapshot_eq {id : Nat} {t' : Txn} (h : t.revertToSnapshot id = .ok t') :
    ∃ tree, t.snapshots[id]? = some tree ∧ t' = { t with txn := tree } := by
  unfold revertToSnapshot at h
  split at h
  · rename_i tree recorded
    cases h
    exact ⟨tree, recorded, rfl⟩
  · cases h

/-! Objects read and written. -/

/-- An object read is not deleted, and is its own copy. -/
theorem getStateObject_some {o : StateObject} (h : t.getStateObject a = some o) :
    o.deleted = false ∧ o.copy = o := by
  unfold getStateObject at h
  split at h
  · split at h
    · cases h
    · cases h
      exact ⟨Bool.eq_false_iff.mpr ‹_›, by simp⟩
  · obtain ⟨account, -, rfl⟩ := Option.map_eq_some'.mp h
    exact ⟨rfl, by simp [StateObject.copy]⟩

theorem getStateObject_insert (o : StateObject) :
    (t.insert a o).getStateObject b =
      if b = a then (if o.deleted then none else some o.copy) else t.getStateObject b := by
  by_cases same : b = a
  · subst same; simp [getStateObject, insert]
  · simp [getStateObject, insert, Function.update_noteq same, same]

@[simp] theorem newStateObject_copy : newStateObject.copy = newStateObject := rfl
@[simp] theorem newStateObject_deleted : newStateObject.deleted = false := rfl

/-- The object `upsertAccount` writes when it may create: `f` of the object read, or of a
new one where there is none, read back as its copy. -/
theorem getStateObject_upsertAccount {f : StateObject → StateObject}
    (live : ∀ o, (f o).deleted = o.deleted) :
    (t.upsertAccount a true f).getStateObject b =
      if b = a then some (f ((t.getStateObject a).getD newStateObject)).copy
      else t.getStateObject b := by
  unfold upsertAccount
  cases read : t.getStateObject a with
  | none => simp [getStateObject_insert, live]
  | some o => simp [getStateObject_insert, live, (t.getStateObject_some a read).1]

/-- Touching writes back the object read, or a new one where there was none. -/
theorem getStateObject_touchAccount :
    (t.touchAccount a).getStateObject b =
      if b = a then some ((t.getStateObject a).getD newStateObject) else t.getStateObject b := by
  rw [touchAccount, getStateObject_upsertAccount (f := id) _ _ _ fun _ => rfl]
  cases read : t.getStateObject a with
  | none => rfl
  | some o => simp [(t.getStateObject_some a read).2]

/-! Storage slots. -/

/-- A slot written reads back the value written. -/
theorem getState_setState (key value : Hash) : (t.setState a key value).getState a key = value := by
  rw [getState, setState, getStateObject_upsertAccount t a a, if_pos rfl]
  · simp only [StateObject.copy, Function.update_same]
  · exact fun _ => rfl

@[simp] theorem getState_addRefund (gas : Uint64) (key : Hash) :
    (t.addRefund gas).getState a key = t.getState a key := rfl

@[simp] theorem getState_subRefund (gas : Uint64) (key : Hash) :
    (t.subRefund gas).getState a key = t.getState a key := rfl

/-- `SetStorage` leaves the slot holding the value written, whatever it classifies. -/
theorem setStorage_getState (key value : Hash) :
    (t.setStorage a key value).1.getState a key = value := by
  unfold setStorage
  by_cases same : t.getState a key = value
  · simp [same]
  · simp only [same, if_false, apply_ite Prod.fst, apply_ite (fun t : Txn => t.getState a key),
      getState_addRefund, getState_subRefund, getState_setState, ite_self]

/-- `SetStorage` of the value a slot holds changes nothing and is `Unchanged`. -/
theorem setStorage_of_getState {key value : Hash} (same : t.getState a key = value) :
    t.setStorage a key value = (t, .unchanged) := by
  unfold setStorage
  exact if_pos same

/-- Writing a slot twice with one value: the first `SetStorage` leaves the slot reading the value,
whichever branch it takes, and the second changes nothing, the refund counter included, and is
`Unchanged`. -/
theorem setStorage_idempotent (key value : Hash) :
    (t.setStorage a key value).1.getState a key = value ∧
      (t.setStorage a key value).1.setStorage a key value =
        ((t.setStorage a key value).1, .unchanged) :=
  ⟨setStorage_getState t a key value, setStorage_of_getState _ a (setStorage_getState t a key value)⟩

/-! Balances. -/

/-- An object read holds a balance that is not negative: it went through `Account.copy`. -/
theorem getStateObject_balance {o : StateObject} (h : t.getStateObject a = some o) :
    0 ≤ o.account.balance := by
  rw [← (t.getStateObject_some a h).2]
  exact Int.natCast_nonneg _

/-- An update that keeps the balance of the object it writes keeps every balance. -/
theorem getBalance_upsertAccount {f : StateObject → StateObject}
    (live : ∀ o, (f o).deleted = o.deleted)
    (keeps : ∀ o, (f o).account.balance = o.account.balance) :
    (t.upsertAccount a true f).getBalance b = t.getBalance b := by
  unfold getBalance
  rw [getStateObject_upsertAccount _ _ _ live]
  split_ifs with same
  · subst same
    cases read : t.getStateObject b with
    | none => simp [StateObject.copy, Account.copy, keeps, newStateObject]
    | some o =>
        simp [StateObject.copy, Account.copy, keeps, Int.natAbs_of_nonneg (t.getStateObject_balance b read)]
  · rfl

theorem getBalance_touchAccount : (t.touchAccount a).getBalance b = t.getBalance b :=
  t.getBalance_upsertAccount a b (fun _ => rfl) fun _ => rfl

theorem getBalance_incrNonce : (t.incrNonce a).getBalance b = t.getBalance b :=
  t.getBalance_upsertAccount a b (fun _ => rfl) fun _ => rfl

/-- `CreateAccount` keeps every balance, its own address's included. -/
theorem getBalance_createAccount : (t.createAccount a).getBalance b = t.getBalance b := by
  by_cases same : b = a
  · subst same
    have natAbs : ∀ o, t.getStateObject b = some o → (o.account.balance.natAbs : Int) = o.account.balance :=
      fun o read => Int.natAbs_of_nonneg (t.getStateObject_balance b read)
    cases read : t.getStateObject b <;>
      simp [createAccount, getBalance, getStateObject_insert, read, natAbs, newStateObject,
        StateObject.copy, Account.copy]
  · simp [createAccount, getBalance, getStateObject_insert, same]

@[simp] theorem takeSnapshot_getBalance : t.takeSnapshot.1.getBalance a = t.getBalance a := rfl

/-! Touches. -/

/-- `t'` is `t` with some accounts touched: every object reads as it did, or was absent and
is now a new, empty one. The backend, the revision, the logs and the refund stay. -/
def Touched (t t' : Txn) : Prop :=
  t'.snapshot = t.snapshot ∧ t'.rev = t.rev ∧ t'.txn.logs = t.txn.logs ∧
    t'.txn.refund = t.txn.refund ∧
    ∀ a, t'.getStateObject a = t.getStateObject a ∨
      t.getStateObject a = none ∧ t'.getStateObject a = some newStateObject

/-- Two overlays with one backend and one live tree read the same objects. -/
theorem Touched.of_txn {t t' : Txn} (backend : t'.snapshot = t.snapshot) (tree : t'.txn = t.txn)
    (rev : t'.rev = t.rev) : Touched t t' := by
  refine ⟨backend, rev, by rw [tree], by rw [tree], fun a => .inl ?_⟩
  simp only [getStateObject, backend, tree]

/-- An overlay restored to the live tree of `t`, over `t`'s backend and revision. -/
theorem Touched.of_restored {t t' : Txn} (restored : t' = { t with snapshots := t'.snapshots }) :
    Touched t t' := by
  have backend := congrArg Txn.snapshot restored
  have tree := congrArg Txn.txn restored
  have rev := congrArg Txn.rev restored
  exact .of_txn backend tree rev

theorem Touched.refl : Touched t t := .of_txn rfl rfl rfl

theorem Touched.trans {t t' t'' : Txn} (first : Touched t t') (second : Touched t' t'') :
    Touched t t'' := by
  refine ⟨second.1.trans first.1, second.2.1.trans first.2.1, second.2.2.1.trans first.2.2.1,
    second.2.2.2.1.trans first.2.2.2.1, fun a => ?_⟩
  rcases first.2.2.2.2 a with same | ⟨absent, created⟩ <;>
    rcases second.2.2.2.2 a with same' | ⟨absent', created'⟩
  · exact .inl (same'.trans same)
  · exact .inr ⟨same ▸ absent', created'⟩
  · exact .inr ⟨absent, same'.trans created⟩
  · exact absurd (created.symm.trans absent') nofun

theorem touchAccount_touched : Touched t (t.touchAccount a) := by
  refine ⟨by simp [touchAccount], by simp [touchAccount], ?_, ?_, fun b => ?_⟩
  · unfold touchAccount upsertAccount; split <;> rfl
  · unfold touchAccount upsertAccount; split <;> rfl
  rw [getStateObject_touchAccount]
  split_ifs with same
  · subst same
    cases t.getStateObject b <;> simp
  · exact .inl rfl

/-- Adding nothing is touching. -/
theorem addBalance_zero : t.addBalance a 0 = t.touchAccount a := by
  unfold addBalance touchAccount
  congr 1
  funext o
  simp only [Int.add_zero]
  rfl

theorem takeSnapshot_touched : Touched t t.takeSnapshot.1 := .of_txn rfl rfl rfl

/-- Every read of the overlay agrees between `t` and `t'`. -/
def SameReads (t t' : Txn) : Prop :=
  (∀ a, t'.getBalance a = t.getBalance a ∧ t'.getNonce a = t.getNonce a ∧
    t'.getCode a = t.getCode a ∧ t'.getCodeHash a = t.getCodeHash a ∧
    t'.hasSuicided a = t.hasSuicided a ∧ ∀ key, t'.getState a key = t.getState a key) ∧
  t'.txn.logs = t.txn.logs ∧ t'.getRefund = t.getRefund

/-- A touched overlay reads as the one before it, over a backend whose empty storage root
holds no slot: the reads of a new, empty object are those of an absent one. -/
theorem Touched.sameReads {t t' : Txn} (touched : Touched t t')
    (emptyRoot : ∀ a key, t.snapshot.getStorage a EmptyRootHash key = 0) : SameReads t t' := by
  obtain ⟨backend, -, logs, refund, objects⟩ := touched
  refine ⟨fun a => ?_, logs, by simp only [getRefund, refund]⟩
  rcases objects a with same | ⟨absent, created⟩
  · simp only [getBalance, getNonce, getCode, getCodeHash, empty, hasSuicided, getState, same,
      backend, and_self, implies_true]
  · simp [getBalance, getNonce, getCode, getCodeHash, empty, hasSuicided, getState, absent,
      created, backend, emptyRoot, newStateObject, StateObject.empty]

end Txn

end GoEvm
