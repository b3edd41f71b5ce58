import GoEvm.Txn.Reference
import GoEvm.Txn.Frame

/-! The overlay refines the reference model. `Txn.view` reads the overlay as a reference
state: each object it holds as `getStateObject` reads it, nothing for a deleted one, and the
logs and the refund. Every read of the overlay is the reference model's read of its view
(`readsAs_view`), given the backend's contract. Every operation maps the view as the
reference operation does (one lemma an operation, through `view_upsertAccount` for the
updates), but for the amounts: `Account.Copy` keeps a balance's magnitude only, so an
addition or a setting of a negative amount reads back positive. By induction over the
sequence, the overlay run from a new `Txn` reads as the reference model run from its start,
and both panic at the same `RevertToSnapshot`. -/
namespace GoEvm

/-- The reference account an object of the overlay reads as over the backend `snapshot`. -/
def StateObject.toRef (snapshot : Snapshot) (a : Address) (o : StateObject) : RefAccount :=
  ⟨o.account.nonce, o.account.balance, o.code, o.account.codeHash,
    fun key => (o.txn key).getD (snapshot.getStorage a o.account.root key),
    snapshot.getStorage a o.account.root, o.suicide⟩

/-- Two runs that panic alike, or end in related results. -/
def ExceptRel {ε α β : Type} (R : α → β → Prop) : Except ε α → Except ε β → Prop
  | .ok a, .ok b => R a b
  | .error e, .error e' => e = e'
  | _, _ => False

theorem ExceptRel.mono {ε α β : Type} {R S : α → β → Prop} (weaker : ∀ a b, R a b → S a b) :
    ∀ {x : Except ε α} {y : Except ε β}, ExceptRel R x y → ExceptRel S x y
  | .ok _, .ok _, related => weaker _ _ related
  | .error _, .error _, related => related
  | .ok _, .error _, related => related.elim
  | .error _, .ok _, related => related.elim

namespace Txn

/-- The reference state the overlay reads as. -/
def view (t : Txn) : RefState :=
  ⟨fun a => (t.txn.objects a).map fun o =>
      if o.deleted then none else some (o.copy.toRef t.snapshot a),
    t.txn.logs.getD [], t.getRefund⟩

/-- Every read of the overlay `t` at the revision `rev` is the reference model's read of `s`
over the backend `snapshot`. -/
def ReadsAs (snapshot : Snapshot) (rev : Revision) (t : Txn) (s : RefState) : Prop :=
  t.getRefund = s.refund ∧ ∀ a,
    (t.getAccount a).map (fun account => (account.nonce, account.balance, account.codeHash)) =
      (s.account snapshot a).map (fun account => (account.nonce, account.balance, account.codeHash)) ∧
    t.accountExists a = s.accountExists snapshot a rev ∧
    t.getBalance a = s.getBalance snapshot a ∧ t.getNonce a = s.getNonce snapshot a ∧
    t.getCode a = s.getCode snapshot a ∧ t.getCodeHash a = s.getCodeHash snapshot a ∧
    t.hasSuicided a = s.hasSuicided snapshot a ∧
    ∀ key, t.getState a key = s.getState snapshot a key

variable (t : Txn) (a : Address)

theorem account_view (valid : t.snapshot.Valid) :
    t.view.account t.snapshot a = (t.getStateObject a).map (·.toRef t.snapshot a) := by
  unfold RefState.account view getStateObject
  cases stored : t.txn.objects a with
  | some o => simp only [stored, Option.map_some']; split <;> rfl
  | none =>
      cases backend : t.snapshot.getAccount a with
      | none => simp [stored, backend]
      | some account =>
          have nonneg := Int.natAbs_of_nonneg (valid.balances a account backend)
          simp only [stored, backend, Option.map_none', Option.map_some', RefAccount.ofBackend,
            StateObject.toRef, Account.copy, nonneg, Option.getD_none]

/-- Every read is the reference read of the view. -/
theorem readsAs_view (valid : t.snapshot.Valid) : ReadsAs t.snapshot t.rev t t.view := by
  refine ⟨rfl, fun a => ?_⟩
  have read := t.account_view a valid
  simp only [RefState.getBalance, RefState.getNonce, RefState.getCode, RefState.getCodeHash,
    RefState.empty, RefState.hasSuicided, RefState.getState, RefState.accountExists, read]
  cases object : t.getStateObject a with
  | none => simp [getAccount, accountExists, getBalance, getNonce, getCode, getCodeHash, empty,
      hasSuicided, getState, object]
  | some o =>
      simp only [getAccount, accountExists, getBalance, getNonce, getCode, getCodeHash, empty,
        hasSuicided, getState, object, StateObject.toRef, StateObject.empty, RefAccount.empty,
        Option.map_some', Option.getD_some, Option.isSome_some, true_and]
      intro key
      cases o.txn key <;> rfl

/-! The operations. -/

theorem toRef_copy {snapshot : Snapshot} {o : StateObject} (nonneg : 0 ≤ o.account.balance) :
    o.copy.toRef snapshot a = o.toRef snapshot a := by
  simp [StateObject.toRef, StateObject.copy, Account.copy, Int.natAbs_of_nonneg nonneg]

theorem newStateObject_toRef {snapshot : Snapshot} (valid : snapshot.Valid) :
    newStateObject.toRef snapshot a = RefAccount.new := by
  simp only [StateObject.toRef, newStateObject, RefAccount.new, RefAccount.mk.injEq, true_and]
  exact ⟨funext fun key => by simp [valid.emptyRoot], funext (valid.emptyRoot a), trivial⟩

theorem balance_of_copy {o : StateObject} (copied : o.copy = o) : 0 ≤ o.account.balance := by
  rw [← copied]
  exact Int.natCast_nonneg _

theorem getBalance_getD : t.getBalance a = ((t.getStateObject a).getD newStateObject).account.balance := by
  unfold getBalance
  cases t.getStateObject a <;> rfl

theorem view_insert (o : StateObject) :
    (t.insert a o).view = t.view.set a (if o.deleted then none else some (o.copy.toRef t.snapshot a)) := by
  simp only [view, insert, RefState.set, RefState.mk.injEq]
  refine ⟨funext fun b => ?_, by trivial, by trivial⟩
  by_cases same : b = a
  · subst same
    simp
  · simp [Function.update_noteq same]

/-- An update of the object read, or of a new one, maps the view as the reference update
does, when it commutes with reading the object back and keeps its balance non-negative. -/
theorem view_upsertAccount (valid : t.snapshot.Valid) {f : StateObject → StateObject}
    {F : RefAccount → RefAccount} {P : StateObject → Prop} (live : ∀ o, (f o).deleted = o.deleted)
    (holds : P ((t.getStateObject a).getD newStateObject))
    (commutes : ∀ o, P o → o.copy = o →
      0 ≤ (f o).account.balance ∧ (f o).toRef t.snapshot a = F (o.toRef t.snapshot a)) :
    (t.upsertAccount a true f).view = t.view.upsert t.snapshot a F := by
  unfold RefState.upsert
  rw [account_view t a valid]
  unfold upsertAccount
  cases read : t.getStateObject a with
  | none =>
      rw [read, Option.getD_none] at holds
      obtain ⟨nonneg, commuted⟩ := commutes _ holds rfl
      simp [view_insert, live, toRef_copy a nonneg, commuted, newStateObject_toRef a valid]
  | some o =>
      rw [read] at holds
      obtain ⟨live', copied⟩ := t.getStateObject_some a read
      obtain ⟨nonneg, commuted⟩ := commutes o holds copied
      simp [view_insert, live, live', toRef_copy a nonneg, commuted]

variable (valid : t.snapshot.Valid)
include valid

theorem view_addBalance {amount : Int} (nonneg : 0 ≤ amount) :
    (t.addBalance a amount).view = t.view.addBalance t.snapshot a amount :=
  t.view_upsertAccount a valid (P := fun _ => True) (fun _ => rfl) trivial fun _ _ copied =>
    ⟨Int.add_nonneg (balance_of_copy copied) nonneg, rfl⟩

/-- `SubBalance` maps the view as the reference does, its error included. -/
theorem view_subBalance (amount : Int) :
    (t.subBalance a amount).map view = t.view.subBalance t.snapshot a amount := by
  have balance : t.view.getBalance t.snapshot a = t.getBalance a :=
    ((t.readsAs_view valid).2 a).2.2.1.symm
  unfold subBalance RefState.subBalance
  rw [balance]
  split_ifs with zero short
  · rfl
  · rfl
  · refine congrArg Except.ok (t.view_upsertAccount a valid
      (P := fun o => amount ≤ o.account.balance) (fun _ => rfl) ?_ fun _ enough _ => ⟨?_, rfl⟩)
    · show amount ≤ ((t.getStateObject a).getD newStateObject).account.balance
      rw [← getBalance_getD]
      exact Int.not_lt.mp short
    · simp only
      omega

theorem view_setBalance {balance : Int} (nonneg : 0 ≤ balance) :
    (t.setBalance a balance).view = t.view.setBalance t.snapshot a balance :=
  t.view_upsertAccount a valid (P := fun _ => True) (fun _ => rfl) trivial fun _ _ _ =>
    ⟨Int.natCast_nonneg _, by simp [StateObject.toRef, Int.natAbs_of_nonneg nonneg]⟩

theorem view_incrNonce : (t.incrNonce a).view = t.view.incrNonce t.snapshot a :=
  t.view_upsertAccount a valid (P := fun _ => True) (fun _ => rfl) trivial fun _ _ copied =>
    ⟨(balance_of_copy copied :), rfl⟩

theorem view_setNonce (nonce : Uint64) :
    (t.setNonce a nonce).view = t.view.setNonce t.snapshot a nonce :=
  t.view_upsertAccount a valid (P := fun _ => True) (fun _ => rfl) trivial fun _ _ copied =>
    ⟨(balance_of_copy copied :), rfl⟩

theorem view_setCode (keccak256 : Bytes → Hash) (code : Bytes) :
    (t.setCode a keccak256 code).view = t.view.setCode t.snapshot a keccak256 code :=
  t.view_upsertAccount a valid (P := fun _ => True) (fun _ => rfl) trivial fun _ _ copied =>
    ⟨(balance_of_copy copied :), rfl⟩

theorem view_touchAccount : (t.touchAccount a).view = t.view.touchAccount t.snapshot a :=
  t.view_upsertAccount a valid (P := fun _ => True) (fun _ => rfl) trivial fun _ _ copied =>
    ⟨(balance_of_copy copied :), rfl⟩

theorem view_setState (key value : Hash) :
    (t.setState a key value).view = t.view.setState t.snapshot a key value :=
  t.view_upsertAccount a valid (P := fun _ => True) (fun _ => rfl) trivial fun o _ copied =>
    ⟨(balance_of_copy copied :), by
      simp only [StateObject.toRef, RefAccount.mk.injEq, true_and, and_true]
      funext key'
      by_cases same : key' = key
      · subst same
        simp
      · simp [Function.update_noteq same]⟩

/-- `Suicide` marks and zeroes the object read, and leaves an absent account absent. -/
theorem view_suicide : (t.suicide a).1.view = t.view.suicide t.snapshot a := by
  unfold suicide RefState.suicide upsertAccount
  rw [account_view t a valid]
  cases read : t.getStateObject a with
  | none => rfl
  | some o =>
      obtain ⟨live, copied⟩ := t.getStateObject_some a read
      simp only [Option.orElse, Option.map_some', view_insert, live]
      congr

/-- `CreateAccount` writes a new account with the balance read. -/
theorem view_createAccount : (t.createAccount a).view = t.view.createAccount t.snapshot a := by
  have balance : t.view.getBalance t.snapshot a = t.getBalance a :=
    ((t.readsAs_view valid).2 a).2.2.1.symm
  unfold createAccount RefState.createAccount
  rw [view_insert, balance, ← newStateObject_toRef a valid]
  congr
  cases read : t.getStateObject a with
  | none => simp [read, getBalance, StateObject.toRef, StateObject.copy, Account.copy, newStateObject]
  | some o =>
      simp [read, getBalance, StateObject.toRef, StateObject.copy, Account.copy, newStateObject,
        Int.natAbs_of_nonneg (t.getStateObject_balance a read)]

omit valid in
theorem view_emitLog (topics : List Hash) (data : Bytes) :
    (t.emitLog a topics data).view = t.view.emitLog a topics data := rfl

omit valid in
theorem view_addRefund (gas : Uint64) : (t.addRefund gas).view = t.view.addRefund gas := rfl

omit valid in
theorem view_subRefund (gas : Uint64) : (t.subRefund gas).view = t.view.subRefund gas := rfl

theorem getState_view (key : Hash) : t.getState a key = t.view.getState t.snapshot a key := by
  simp only [RefState.getState, account_view t a valid, getState]
  cases t.getStateObject a with
  | none => rfl
  | some o => simp only [Option.map_some', Option.getD_some, StateObject.toRef]; cases o.txn key <;> rfl

theorem getCommittedState_view (key : Hash) :
    t.getCommittedState a key = t.view.getCommittedState t.snapshot a key := by
  simp only [RefState.getCommittedState, account_view t a valid, getCommittedState]
  cases t.getStateObject a <;> rfl

/-- `SetStorage` maps the view as the spec's EIP-2200 table does: the reads it classifies by
are the reference reads, and its writes are `SetState` and the refund's. -/
theorem view_setStorage (key value : Hash) :
    (t.setStorage a key value).1.view = (t.view.setStorage t.snapshot a t.rev key value).1 := by
  have rev : (t.setState a key value).rev = t.rev := by
    unfold setState
    exact upsertAccount_rev _ _ _ _
  unfold setStorage RefState.setStorage
  rw [← getState_view t a valid, ← getCommittedState_view t a valid, ← view_setState t a valid]
  simp only [isRevision, rev, apply_ite Prod.fst, apply_ite view, view_addRefund, view_subRefund]

omit valid in
/-- `CleanDeleteObjects` decides on the object stored as the reference does on the object
read: a copy is suicided and empty as the object is. -/
theorem view_cleanDeleteObjects (deleteEmptyObjects : Bool) :
    (t.cleanDeleteObjects deleteEmptyObjects).view = t.view.cleanDeleteObjects deleteEmptyObjects := by
  simp only [view, cleanDeleteObjects, RefState.cleanDeleteObjects, RefState.mk.injEq]
  refine ⟨funext fun b => ?_, by trivial, by trivial⟩
  cases t.txn.objects b with
  | none => rfl
  | some o =>
      have zero : ((o.account.balance.natAbs : Int) == 0) = (o.account.balance == 0) := by
        rw [Bool.eq_iff_iff]
        simp only [beq_iff_eq, Int.natCast_eq_zero, Int.natAbs_eq_zero]
      have empty : (o.copy.toRef t.snapshot b).empty = o.empty := by
        simp only [RefAccount.empty, StateObject.empty, StateObject.toRef, StateObject.copy,
          Account.copy, zero]
      have suicided : (o.copy.toRef t.snapshot b).suicide = o.suicide := rfl
      cases dead : o.deleted <;>
        by_cases gone : o.suicide = true ∨ o.empty = true ∧ deleteEmptyObjects = true <;>
        simp [dead, gone, empty, suicided]

/-! The refinement. -/

/-- The overlay `t` refines the reference `r` over the backend `snapshot` at the revision
`rev`: it reads as `r`'s state, and its recorded trees read as `r`'s recorded states. -/
def Refines (snapshot : Snapshot) (rev : Revision) (t : Txn) (r : RefTxn) : Prop :=
  t.snapshot = snapshot ∧ t.rev = rev ∧ t.view = r.state ∧
    t.snapshots.map (fun tree => ({ t with txn := tree } : Txn).view) = r.snapshots

omit valid in
/-- An operation that writes the live tree only, and maps the view as a reference operation
maps the state, keeps the refinement. -/
theorem Refines.rewrite {snapshot : Snapshot} {rev : Revision} {t t' : Txn} {r : RefTxn}
    {s : RefState} (refines : Refines snapshot rev t r) (rewrites : Rewrites t t')
    (viewed : t'.view = s) : Refines snapshot rev t' { r with state := s } := by
  obtain ⟨backend, revision, -, recorded⟩ := refines
  obtain ⟨backend', recorded', revision'⟩ := rewrites
  refine ⟨backend'.trans backend, revision'.trans revision, viewed, ?_⟩
  rw [recorded', ← recorded]
  simp only [view, backend']
  rfl

end Txn

namespace TxnOp

variable (keccak256 : Bytes → Hash) {snapshot : Snapshot} {rev : Revision}

/-- One operation keeps the refinement: the overlay and the reference model panic alike or
end refining each other. -/
theorem apply_refines (valid : snapshot.Valid) {op : TxnOp} (nonneg : op.NonNegative)
    {t : Txn} {r : RefTxn} (refines : Txn.Refines snapshot rev t r) :
    ExceptRel (Txn.Refines snapshot rev) (op.apply keccak256 t) (op.refApply keccak256 snapshot rev r) := by
  obtain ⟨state, recorded⟩ := r
  obtain ⟨rfl, rfl, rfl, rfl⟩ := refines
  have refines : Txn.Refines t.snapshot t.rev t ⟨t.view, _⟩ := ⟨rfl, rfl, rfl, rfl⟩
  have upsert : ∀ {a : Address} {f : StateObject → StateObject}, Txn.Rewrites t (t.upsertAccount a true f) :=
    t.upsertAccount_rewrites _ _ _
  cases op with
  | addBalance a amount => exact refines.rewrite upsert (t.view_addBalance a valid nonneg)
  | subBalance a amount =>
      have viewed := t.view_subBalance a valid amount
      simp only [apply, refApply]
      cases debited : t.subBalance a amount with
      | error => rw [debited] at viewed; rw [← viewed]; exact refines
      | ok t' =>
          rw [debited] at viewed
          rw [← viewed]
          exact refines.rewrite (t.subBalance_rewrites a debited) rfl
  | setBalance a balance => exact refines.rewrite upsert (t.view_setBalance a valid nonneg)
  | incrNonce a => exact refines.rewrite upsert (t.view_incrNonce a valid)
  | setNonce a nonce => exact refines.rewrite upsert (t.view_setNonce a valid nonce)
  | setCode a code => exact refines.rewrite upsert (t.view_setCode a valid keccak256 code)
  | setState a key value => exact refines.rewrite upsert (t.view_setState a valid key value)
  | setStorage a key value =>
      exact refines.rewrite (t.setStorage_rewrites a key value) (t.view_setStorage a valid key value)
  | suicide a =>
      exact refines.rewrite (t.upsertAccount_rewrites a false _) (t.view_suicide a valid)
  | touchAccount a => exact refines.rewrite upsert (t.view_touchAccount a valid)
  | createAccount a => exact refines.rewrite ⟨rfl, rfl, rfl⟩ (t.view_createAccount a valid)
  | emitLog a topics data => exact refines.rewrite ⟨rfl, rfl, rfl⟩ (t.view_emitLog a topics data)
  | addRefund gas => exact refines.rewrite ⟨rfl, rfl, rfl⟩ (t.view_addRefund gas)
  | subRefund gas => exact refines.rewrite ⟨rfl, rfl, rfl⟩ (t.view_subRefund gas)
  | cleanDeleteObjects deleteEmptyObjects =>
      exact refines.rewrite ⟨rfl, rfl, rfl⟩ (t.view_cleanDeleteObjects deleteEmptyObjects)
  | snapshot => exact ⟨rfl, rfl, rfl, by simp [apply, Txn.takeSnapshot]; rfl⟩
  | revertToSnapshot id =>
      simp only [apply, refApply, Txn.revertToSnapshot, List.getElem?_map]
      cases t.snapshots[id]? with
      | none => rfl
      | some tree => exact ⟨rfl, rfl, rfl, rfl⟩

/-- A sequence of operations with amounts that are not negative keeps the refinement. -/
theorem run_refines (valid : snapshot.Valid) :
    ∀ {ops : List TxnOp} {t : Txn} {r : RefTxn}, (∀ op ∈ ops, op.NonNegative) →
      Txn.Refines snapshot rev t r →
      ExceptRel (Txn.Refines snapshot rev) (run keccak256 ops t) (refRun keccak256 snapshot rev ops r)
  | [], _, _, _, refines => refines
  | op :: ops, t, r, nonneg, refines => by
      have step := apply_refines keccak256 valid (nonneg op (.head _)) refines
      simp only [run, refRun]
      cases applied : op.apply keccak256 t <;> cases refApplied : op.refApply keccak256 snapshot rev r <;>
        rw [applied, refApplied] at step
      · exact step
      · exact step.elim
      · exact step.elim
      · exact run_refines valid (fun op mem => nonneg op (.tail _ mem)) step

end TxnOp

/-- Over a backend that meets the spec's contract, every sequence of the overlay's operations
whose added and set balances are not negative, run from a new `Txn`, reads as the same
sequence run on the reference model: both panic alike at a `RevertToSnapshot` of an id no
`Snapshot` returned, or every read (`GetAccount`, `AccountExists`, `GetBalance`, `GetNonce`,
`GetCode`, `GetCodeHash`, `GetState`, `HasSuicided`, `GetRefund`) returns what the
reference model's returns. -/
theorem txn_reads_as_reference (keccak256 : Bytes → Hash) {snapshot : Snapshot}
    (valid : snapshot.Valid) (rev : Revision) {ops : List TxnOp}
    (nonneg : ∀ op ∈ ops, op.NonNegative) :
    ExceptRel (fun t r => Txn.ReadsAs snapshot rev t r.state)
      (TxnOp.run keccak256 ops { Txn.newTxn snapshot with rev })
      (TxnOp.refRun keccak256 snapshot rev ops RefTxn.init) := by
  refine (TxnOp.run_refines keccak256 valid nonneg ⟨rfl, rfl, rfl, rfl⟩).mono ?_
  rintro t r ⟨rfl, rfl, viewed, -⟩
  exact viewed ▸ t.readsAs_view valid

/-- A backend with no account, every slot of which reads zero. -/
def emptySnapshot : Snapshot := ⟨fun _ _ _ => 0, fun _ => none⟩

theorem emptySnapshot_valid : emptySnapshot.Valid :=
  ⟨fun _ _ absent => (nomatch absent), fun _ _ => rfl⟩

/-- Adding 5 to `0xaa`, taking a snapshot, writing slot 1 and rewinding to the snapshot
reads as the reference model does. -/
theorem rewound_run_reads_as_reference :
    ExceptRel (fun t r => Txn.ReadsAs emptySnapshot Revision.istanbul t r.state)
      (TxnOp.run (fun _ => 0) [.addBalance 0xaa 5, .snapshot, .setState 0xaa 1 2, .revertToSnapshot 0]
        { Txn.newTxn emptySnapshot with rev := Revision.istanbul })
      (TxnOp.refRun (fun _ => 0) emptySnapshot Revision.istanbul
        [.addBalance 0xaa 5, .snapshot, .setState 0xaa 1 2, .revertToSnapshot 0] RefTxn.init) :=
  txn_reads_as_reference (fun _ => 0) emptySnapshot_valid Revision.istanbul
    (by simp [TxnOp.NonNegative])

/-- Adding -5 to the absent account `0xaa`: the reference model reads the balance -5, and
the overlay reads 5, the magnitude `Account.Copy` keeps. -/
theorem negative_addBalance_reads_magnitude :
    ∃ t r, TxnOp.run (fun _ => 0) [.addBalance 0xaa (-5)] (Txn.newTxn emptySnapshot) = .ok t ∧
      TxnOp.refRun (fun _ => 0) emptySnapshot Revision.frontier [.addBalance 0xaa (-5)]
        RefTxn.init = .ok r ∧
      t.getBalance 0xaa = 5 ∧ r.state.getBalance emptySnapshot 0xaa = -5 :=
  ⟨_, _, rfl, rfl, rfl, rfl⟩

end GoEvm
