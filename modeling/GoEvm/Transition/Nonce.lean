import GoEvm.Transition.Frames
import GoEvm.Transition.Gas
import GoEvm.Transition.PreCheck

/-! The sender's nonce. `Apply` increments the sender's nonce before the top frame takes its
snapshot, on the call path and on the creation path, and after that only balances of the
sender's account are written. A frame at the sender's address runs the sender's code, which is
empty. Every other frame writes only its own account, creates only with itself as the creator,
and enters the sender's address only to run the sender's code (`CallEntry`). A creation at the
sender's address collides with the nonce. A rewind restores a tree taken after the increment.
So, from a pre-state where the sender has no code and has not self-destructed, `Write` leaves
the nonce one above its value before, when that value is below `2⁶⁴ - 1`. -/
namespace GoEvm

open Evm

namespace Txn

/-- The account at `s` reads with the nonce `n`, no code and no suicide: an account whose
frames run nothing. -/
def Dormant (s : Address) (n : Uint64) (t : Txn) : Prop :=
  ∃ o, t.getStateObject s = some o ∧ o.account.nonce = n ∧ o.code = [] ∧ o.suicide = false

/-- An update of an object that keeps what `Dormant` reads: the nonce, the code, the suicide
flag and the deletion flag. -/
def KeepsDormant (f : StateObject → StateObject) : Prop :=
  ∀ o, (f o).account.nonce = o.account.nonce ∧ (f o).code = o.code ∧ (f o).suicide = o.suicide ∧
    (f o).deleted = o.deleted

variable {s a : Address} {n : Uint64} {t t' : Txn}

theorem Dormant.congr (dormant : Dormant s n t)
    (reads : t'.getStateObject s = t.getStateObject s) : Dormant s n t' :=
  let ⟨o, read, kept⟩ := dormant
  ⟨o, reads.trans read, kept⟩

theorem Dormant.getNonce (dormant : Dormant s n t) : t.getNonce s = n := by
  obtain ⟨o, read, nonce, -⟩ := dormant
  rw [Txn.getNonce, read]
  exact nonce

theorem Dormant.insert (dormant : Dormant s n t) (other : a ≠ s) (o : StateObject) :
    Dormant s n (t.insert a o) :=
  dormant.congr (by rw [getStateObject_insert, if_neg (Ne.symm other)])

/-- An upsert keeps the account at `s` when it writes another account, or writes it with an
update that keeps what `Dormant` reads. -/
theorem Dormant.upsertAccount (dormant : Dormant s n t) {create : Bool}
    {f : StateObject → StateObject} (keeps : a = s → KeepsDormant f) :
    Dormant s n (t.upsertAccount a create f) := by
  by_cases same : a = s
  · subst same
    obtain ⟨o, read, nonce, code, alive⟩ := dormant
    obtain ⟨nonce', code', alive', live⟩ := keeps rfl o
    have deleted := (t.getStateObject_some a read).1
    refine ⟨(f o).copy, ?_, nonce'.trans nonce, code'.trans code, alive'.trans alive⟩
    simp only [Txn.upsertAccount, read, Option.orElse, getStateObject_insert, if_true, live,
      deleted, Bool.false_eq_true, if_false]
  · unfold Txn.upsertAccount
    split
    · exact dormant.insert same _
    · exact dormant

theorem Dormant.addBalance (dormant : Dormant s n t) (amount : Int) :
    Dormant s n (t.addBalance a amount) :=
  dormant.upsertAccount fun _ _ => ⟨rfl, rfl, rfl, rfl⟩

theorem Dormant.subBalance (dormant : Dormant s n t) {amount : Int}
    (h : t.subBalance a amount = .ok t') : Dormant s n t' := by
  unfold Txn.subBalance at h
  split at h
  · cases h
    exact dormant
  split at h
  · cases h
  · cases h
    exact dormant.upsertAccount fun _ _ => ⟨rfl, rfl, rfl, rfl⟩

theorem Dormant.touchAccount (dormant : Dormant s n t) : Dormant s n (t.touchAccount a) :=
  dormant.upsertAccount fun _ _ => ⟨rfl, rfl, rfl, rfl⟩

theorem Dormant.incrNonce (dormant : Dormant s n t) (other : a ≠ s) :
    Dormant s n (t.incrNonce a) :=
  dormant.upsertAccount fun same => absurd same other

theorem Dormant.suicide (dormant : Dormant s n t) (other : a ≠ s) :
    Dormant s n (t.suicide a).1 :=
  dormant.upsertAccount fun same => absurd same other

theorem Dormant.setCode (dormant : Dormant s n t) (other : a ≠ s) (keccak256 : Bytes → Hash)
    (code : Bytes) : Dormant s n (t.setCode a keccak256 code) :=
  dormant.upsertAccount fun same => absurd same other

theorem Dormant.createAccount (dormant : Dormant s n t) (other : a ≠ s) :
    Dormant s n (t.createAccount a) :=
  dormant.insert other _

@[simp] theorem dormant_addRefund (gas : Uint64) : Dormant s n (t.addRefund gas) ↔ Dormant s n t :=
  Iff.rfl

@[simp] theorem dormant_subRefund (gas : Uint64) : Dormant s n (t.subRefund gas) ↔ Dormant s n t :=
  Iff.rfl

/-- `SetStorage` writes only a slot and the refund counter. -/
theorem Dormant.setStorage (dormant : Dormant s n t) (key value : Hash) :
    Dormant s n (t.setStorage a key value).1 := by
  have written : Dormant s n (t.setState a key value) :=
    dormant.upsertAccount fun _ _ => ⟨rfl, rfl, rfl, rfl⟩
  unfold Txn.setStorage
  simp only [apply_ite Prod.fst, apply_ite (Dormant s n), dormant_addRefund, dormant_subRefund,
    dormant, written, ite_self]

/-- `CleanDeleteObjects` keeps an account with a nonce and no suicide. -/
theorem Dormant.cleanDeleteObjects (dormant : Dormant s n t) (nonzero : n ≠ 0)
    (deleteEmptyObjects : Bool) : Dormant s n (t.cleanDeleteObjects deleteEmptyObjects) := by
  obtain ⟨o, read, nonce, code, alive⟩ := dormant
  refine ⟨o, ?_, nonce, code, alive⟩
  rw [← read]
  unfold Txn.getStateObject at read ⊢
  simp only [Txn.cleanDeleteObjects]
  cases stored : t.txn.objects s with
  | none => rfl
  | some obj =>
      simp only [stored] at read
      have kept : obj.suicide = false ∧ obj.empty = false := by
        by_cases deleted : obj.deleted = true
        · simp only [deleted, if_true] at read
          cases read
        · simp only [deleted, Bool.false_eq_true, if_false, Option.some.injEq] at read
          subst read
          have nonzero' : obj.account.nonce ≠ 0 := fun zero => nonzero (nonce.symm.trans zero)
          refine ⟨alive, ?_⟩
          simp only [StateObject.empty, Bool.and_eq_false_iff, beq_eq_false_iff_ne]
          exact .inl (.inl nonzero')
      simp only [Option.map_some', kept, Bool.false_or, Bool.false_and, Bool.false_eq_true, if_false]

/-- After `CleanDeleteObjects` no account reads as suicided. -/
theorem hasSuicided_cleanDeleteObjects (deleteEmptyObjects : Bool) :
    (t.cleanDeleteObjects deleteEmptyObjects).hasSuicided a = false := by
  unfold Txn.hasSuicided Txn.getStateObject
  simp only [Txn.cleanDeleteObjects]
  cases stored : t.txn.objects a with
  | none => cases t.snapshot.getAccount a <;> rfl
  | some obj =>
      by_cases gone : (obj.suicide || obj.empty && deleteEmptyObjects) = true
      · simp only [Option.map_some', gone, if_true, StateObject.copy_deleted, if_true]
      · simp only [Option.map_some', gone, Bool.false_eq_true, if_false]
        simp only [Bool.or_eq_true, not_or, Bool.not_eq_true] at gone
        by_cases deleted : obj.deleted = true
        · simp only [deleted, if_true]
        · simp only [deleted, Bool.false_eq_true, if_false]
          exact gone.1

/-- The reads of the sender's account that the nonce law starts from: the nonce, the code
and the suicide flag. An update that keeps what `Dormant` reads keeps them, created or not. -/
theorem upsertAccount_reads {f : StateObject → StateObject} (keeps : KeepsDormant f) :
    (t.upsertAccount a true f).getNonce s = t.getNonce s ∧
      (t.upsertAccount a true f).getCode s = t.getCode s ∧
      (t.upsertAccount a true f).hasSuicided s = t.hasSuicided s := by
  by_cases same : s = a
  · subst same
    simp only [Txn.getNonce, Txn.getCode, Txn.hasSuicided,
      getStateObject_upsertAccount t s s fun o => (keeps o).2.2.2, if_true]
    cases t.getStateObject s with
    | none => exact ⟨(keeps _).1, (keeps _).2.1, (keeps _).2.2.1⟩
    | some o => exact ⟨(keeps o).1, (keeps o).2.1, (keeps o).2.2.1⟩
  · simp only [Txn.getNonce, Txn.getCode, Txn.hasSuicided,
      getStateObject_upsertAccount t a s fun o => (keeps o).2.2.2, if_neg same, and_self]

theorem subBalance_reads {amount : Int} (h : t.subBalance a amount = .ok t') :
    t'.getNonce s = t.getNonce s ∧ t'.getCode s = t.getCode s ∧
      t'.hasSuicided s = t.hasSuicided s := by
  unfold Txn.subBalance at h
  split at h
  · cases h
    exact ⟨rfl, rfl, rfl⟩
  split at h
  · cases h
  · cases h
    exact upsertAccount_reads fun _ => ⟨rfl, rfl, rfl, rfl⟩

/-- The sender's increment: an account with no code and no suicide reads with its nonce one
up, in the live tree. -/
theorem dormant_incrNonce (code : t.getCode s = []) (alive : t.hasSuicided s = false) :
    Dormant s (t.getNonce s + 1) (t.incrNonce s) := by
  refine ⟨_, (getStateObject_upsertAccount (f := fun o => { o with account.nonce :=
    o.account.nonce + 1 }) t s s fun _ => rfl).trans (if_pos rfl), ?_, ?_, ?_⟩
  · rw [Txn.getNonce]
    cases t.getStateObject s <;> rfl
  · rw [Txn.getCode] at code
    cases read : t.getStateObject s
    · rfl
    · rw [read] at code
      exact code
  · rw [Txn.hasSuicided] at alive
    cases read : t.getStateObject s
    · rfl
    · rw [read] at alive
      exact alive

theorem Dormant.restored {s : Address} {n : Uint64} {t t' : Txn} (dormant : t.Dormant s n)
    (restored : t' = { t with snapshots := t'.snapshots }) : t'.Dormant s n :=
  dormant.congr (by rw [restored]; rfl)

end Txn

namespace Transition

/-- How a frame enters, seen from the sender `s`: a creation whose creator is not `s`, or a
call that runs `s`'s own code whenever it runs at `s`. -/
def SenderInert (s : Address) (c : Contract) : Prop :=
  if (c.type = .create || c.type = .create2) = true then c.caller ≠ s
  else c.address = s → c.codeAddress = s

variable {env : Env} {call : Transition → Contract → Except Fault CallResult} {fuel : Nat}
  {s : Address} {n : Uint64} {t t' : Transition} {c : Contract}

/-- A frame that a frame at another address than `s` enters keeps `s` inert. -/
theorem senderInert_of_callEntry {A : Address} {kind : CallKind}
    {recipient sender codeAddress : Address} (other : A ≠ s)
    (entered : CallEntry A kind recipient sender codeAddress) (c : Contract)
    (typed : c.type = kind) (addressed : c.address = recipient) (called : c.caller = sender)
    (coded : c.codeAddress = codeAddress) : SenderInert s c := by
  rw [SenderInert, typed, addressed, called, coded]
  cases kind with
  | create | create2 =>
      rw [if_pos (by decide)]
      exact fun same => other (Eq.trans (Eq.symm entered) same)
  | call | callCode | delegateCall =>
      rw [if_neg (by decide)]
      intro here
      rcases entered with own | runs
      · exact absurd (own.symm.trans here) other
      · exact runs ▸ here

theorem dormant_transfer {a b : Address} {amount : Int} (h : t.transfer a b amount = .ok t')
    (dormant : t.txn.Dormant s n) : t'.txn.Dormant s n := by
  obtain ⟨txn, debited, h⟩ := bind_eq_ok.mp h
  obtain rfl := pure_eq_ok.mp h
  exact (dormant.subBalance debited).addBalance _

/-- Every host effect of a frame at another address than `s` keeps `s` dormant, given that
the frames it calls do. -/
theorem hostEffect_dormant
    (calls : ∀ t c r, call t c = .ok r → SenderInert s c → t.txn.Dormant s n →
      r.1.txn.Dormant s n)
    {A : Address} (other : A ≠ s) {static : Bool}
    (effect : HostEffect (transitionHost call) static A t t') :
    t.txn.Dormant s n → t'.txn.Dormant s n := by
  intro dormant
  cases effect with
  | setStorage key value _ => exact dormant.setStorage key value
  | emitLog _ _ _ => exact dormant
  | selfdestruct beneficiary _ =>
      have refunded : (if (!t.txn.hasSuicided A) = true then t.txn.addRefund 24000
          else t.txn).Dormant s n := by
        split <;> exact dormant
      exact (refunded.addBalance _).suicide other
  | call _ _ entered returned =>
      exact calls _ _ _ returned (senderInert_of_callEntry other entered _ rfl rfl rfl rfl) dormant

/-- A frame's run keeps `s` dormant: at `s` it runs `s`'s code, which is empty, and at
another address every host effect does. -/
theorem run_dormant (wellFormed : env.WellFormed)
    (calls : ∀ t c r, call t c = .ok r → SenderInert s c → t.txn.Dormant s n →
      r.1.txn.Dormant s n)
    (entry : c.address = s → c.codeAddress = s ∧ ¬(c.type = .create || c.type = .create2) = true)
    {r : Transition × Bytes × Uint64 × Option Error} (h : t.run env call fuel c = .ok r)
    (dormant : t.txn.Dormant s n) : r.1.txn.Dormant s n := by
  unfold Transition.run at h
  split at h
  · obtain rfl := pure_eq_ok.mp h
    exact dormant
  split at h
  · split at h
    obtain rfl := pure_eq_ok.mp h
    exact dormant
  by_cases here : c.address = s
  · obtain ⟨coded, notCreate⟩ := entry here
    have noCode : (transitionHost call).getCode t c.codeAddress = [] := by
      obtain ⟨o, read, -, code, -⟩ := dormant
      show t.txn.getCode c.codeAddress = []
      rw [coded, Txn.getCode, read]
      exact code
    rw [evmRun_of_no_code notCreate noCode h]
    exact dormant
  · exact evmRun_hostRel (R := fun h h' => h.txn.Dormant s n → h'.txn.Dormant s n) (fun _ => id)
      (fun first second => second ∘ first) wellFormed
      (fun _ _ effect => hostEffect_dormant calls here effect) h dormant

section
variable (wellFormed : env.WellFormed)
  (calls : ∀ t c r, call t c = .ok r → SenderInert s c → t.txn.Dormant s n → r.1.txn.Dormant s n)
  (extend : ∀ t c r, call t c = .ok r → Extends t r.1)
include wellFormed calls extend

/-- A call keeps `s` dormant: the touch and the transfer write balances, the frame's run keeps
it, and a rewind restores the tree the snapshot took. -/
theorem applyCall_dormant
    (entry : c.address = s → c.codeAddress = s ∧ ¬(c.type = .create || c.type = .create2) = true)
    {callType : CallKind} {r : CallResult} (h : t.applyCall env call fuel c callType = .ok r)
    (dormant : t.txn.Dormant s n) : r.1.txn.Dormant s n := by
  have touched : (t.txn.takeSnapshot.1.touchAccount c.address).Dormant s n :=
    Txn.Dormant.touchAccount dormant
  rcases applyCall_returns h with ⟨err, -, unpaid, -⟩ | ⟨t₂, out, moved, ran, ended⟩
  · exact unpaid ▸ touched
  have moved' : t₂.txn.Dormant s n := by
    split at moved
    · exact dormant_transfer moved touched
    · obtain rfl := pure_eq_ok.mp moved
      exact touched
  rcases ended with ⟨-, succeeded, -⟩ | ⟨err, txn, -, rewound, reverted, -⟩
  · exact succeeded ▸ run_dormant wellFormed calls entry ran moved'
  · have touch : Extends (t.withTxn t.txn.takeSnapshot.1)
        (t.withTxn (t.txn.takeSnapshot.1.touchAccount c.address)) :=
      .ofRewrites (Txn.upsertAccount_rewrites _ _ _ _)
    have later := touch.trans ((moved_extends moved).trans (run_extends wellFormed extend ran))
    exact reverted ▸ dormant.restored (revert_restores later rewound).1

omit wellFormed calls extend in
theorem dormant_settle {address : Address} (other : address ≠ s) (t : Transition)
    (dormant : t.txn.Dormant s n) :
    (if t.isRevision Revision.spuriousDragon then
      t.withTxn ((t.txn.createAccount address).incrNonce address) else t).txn.Dormant s n := by
  split
  · exact (dormant.createAccount other).incrNonce other
  · exact dormant

/-- A creation keeps `s` dormant once the creator's nonce is incremented, as `s`'s nonce `n`
is not 0: at `s` the creation collides, and at another address its frame runs away from `s`. -/
theorem applyCreate_dormant (nonzero : n ≠ 0) {r : CallResult}
    (h : t.applyCreate env call fuel c = .ok r) (bumped : (t.txn.incrNonce c.caller).Dormant s n) :
    r.1.txn.Dormant s n := by
  unfold applyCreate at h
  obtain ⟨address, -, h⟩ := bind_eq_ok.mp h
  dsimp only at h
  split at h
  · obtain rfl := pure_eq_ok.mp h
    exact bumped
  rename_i free
  have other : address ≠ s := by
    rintro rfl
    exact free (by rw [hasCodeOrNonce, if_pos]; exact fun zero => nonzero (bumped.getNonce.symm.trans zero))
  simp only [Txn.takeSnapshot] at h
  have settled := dormant_settle other
    ((t.withTxn (t.txn.incrNonce c.caller)).withTxn (t.txn.incrNonce c.caller).takeSnapshot.1) bumped
  split at h
  · obtain rfl := pure_eq_ok.mp h
    exact settled
  rename_i t₁ moved
  obtain ⟨out, ran, h⟩ := bind_eq_ok.mp h
  have later := (settle_extends _ address).1.trans
    ((transfer_extends moved).trans (run_extends wellFormed extend ran))
  have ran' := run_dormant wellFormed calls (fun here => absurd here other) ran
    (dormant_transfer moved settled)
  have rewind : ∀ {txn : Txn}, out.1.txn.revertToSnapshot (t.txn.incrNonce c.caller).snapshots.length = .ok txn →
      txn.Dormant s n := fun rewound => bumped.restored (revert_restores later rewound).1
  split at h
  · obtain ⟨⟨t₂, ret⟩, reverted, h⟩ := bind_eq_ok.mp h
    obtain rfl := pure_eq_ok.mp h
    obtain ⟨txn, rewound, rfl⟩ := revertFrame_eq reverted
    exact rewind rewound
  unfold depositCode at h
  split at h
  · obtain ⟨txn, reverted, h⟩ := bind_eq_ok.mp h
    obtain rfl := pure_eq_ok.mp h
    exact rewind reverted
  dsimp only at h
  split at h
  · split at h
    · obtain ⟨txn, reverted, h⟩ := bind_eq_ok.mp h
      obtain rfl := pure_eq_ok.mp h
      exact rewind reverted
    · obtain rfl := pure_eq_ok.mp h
      exact ran'
  · obtain rfl := pure_eq_ok.mp h
    exact ran'.setCode other _ _

end

end Transition

/-- Every frame `Callx` enters with `s` inert keeps `s` dormant, for a nonce `n` that is not 0. -/
theorem callx_dormant {env : Env} (wellFormed : env.WellFormed) {s : Address} {n : Uint64}
    (nonzero : n ≠ 0) : ∀ {fuel : Nat} {t : Transition} {c : Contract} {r : CallResult},
      callx env fuel t c = .ok r → Transition.SenderInert s c → t.txn.Dormant s n →
        r.1.txn.Dormant s n
  | 0, _, _, _, h => absurd h throw_ne_ok
  | fuel + 1, t, c, r, h => by
      have calls : ∀ t c r, callx env fuel t c = .ok r → Transition.SenderInert s c →
          t.txn.Dormant s n → r.1.txn.Dormant s n := fun _ _ _ => callx_dormant wellFormed nonzero
      have extend : ∀ t c r, callx env fuel t c = .ok r → Transition.Extends t r.1 :=
        fun _ _ _ => callx_extends wellFormed
      intro inert dormant
      unfold callx at h
      unfold Transition.SenderInert at inert
      split at h
      · rename_i creates
        rw [if_pos creates] at inert
        exact Transition.applyCreate_dormant wellFormed calls extend nonzero h
          (dormant.incrNonce inert)
      · rename_i calling
        rw [if_neg calling] at inert
        exact Transition.applyCall_dormant wellFormed calls extend
          (fun here => ⟨inert here, calling⟩) h dormant

namespace Transition

/-- `Apply` keeps the sender dormant from the increment of its nonce on: the top frame is a
creation by the sender, or a call that runs the sender's code at the sender's address. -/
theorem apply_dormant {env : Env} (wellFormed : env.WellFormed) {fuel : Nat} {t t' : Transition}
    {msg : Message} {out : Output} {n : Uint64} (nonzero : n ≠ 0)
    (h : t.apply env fuel msg = .ok (t', out))
    (bumped : (t.txn.incrNonce msg.«from»).Dormant msg.«from» n) : t'.txn.Dormant msg.«from» n := by
  have calls : ∀ t c r, callx env fuel t c = .ok r → SenderInert msg.«from» c →
      t.txn.Dormant msg.«from» n → r.1.txn.Dormant msg.«from» n :=
    fun _ _ _ => callx_dormant wellFormed nonzero
  have extend : ∀ t c r, callx env fuel t c = .ok r → Extends t r.1 :=
    fun _ _ _ => callx_extends wellFormed
  unfold apply at h
  dsimp only at h
  revert h
  cases msg.«to» with
  | none =>
      intro h
      obtain ⟨⟨t₁, ret, gasLeft, address, err⟩, ran, h⟩ := bind_eq_ok.mp h
      obtain rfl := (Prod.mk.inj (pure_eq_ok.mp h)).1
      exact (applyCreate_dormant wellFormed calls extend nonzero ran bumped).congr rfl
  | some recipient =>
      intro h
      obtain ⟨⟨t₁, ret, gasLeft, address, err⟩, ran, h⟩ := bind_eq_ok.mp h
      obtain rfl := (Prod.mk.inj (pure_eq_ok.mp h)).1
      refine (applyCall_dormant wellFormed calls extend (fun here => ⟨here, ?_⟩) ran bumped).congr rfl
      exact Bool.false_ne_true

/-- The sender's nonce law: after a message that `preCheck` accepts from a sender with no code
and no suicide in the overlay, whatever the top frame does, `Write` leaves the sender's nonce
one above its value before, when that value is below `2⁶⁴ - 1`. -/
theorem write_increments_nonce {env : Env} (wellFormed : env.WellFormed) {fuel : Nat}
    {t : Transition} {msg msg' : Message} {r : Transition × Except Error Output}
    (accepted : (t.preCheck msg).2 = .ok msg') (noCode : t.txn.getCode msg.«from» = [])
    (alive : t.txn.hasSuicided msg.«from» = false)
    (below : (t.txn.getNonce msg.«from»).toNat + 1 < 2 ^ 64) (h : t.write env fuel msg = .ok r) :
    (r.1.txn.getNonce msg.«from»).toNat = (t.txn.getNonce msg.«from»).toNat + 1 := by
  obtain ⟨txn, debited, pre, sender⟩ := preCheck_accepts t msg accepted
  obtain ⟨nonce, code, suicided⟩ := Txn.subBalance_reads (s := msg.«from») debited
  have bumped := Txn.dormant_incrNonce (code.trans noCode) (suicided.trans alive)
  have increment : (txn.getNonce msg.«from» + 1).toNat = (t.txn.getNonce msg.«from»).toNat + 1 := by
    have one : (1 : Uint64).toNat = 1 := rfl
    rw [nonce, BitVec.toNat_add, one, Nat.mod_eq_of_lt below]
  have nonzero : txn.getNonce msg.«from» + 1 ≠ 0 := fun zero => by
    rw [zero] at increment
    exact Nat.succ_ne_zero _ increment.symm
  unfold write at h
  rw [pre] at h
  obtain ⟨⟨t₂, output⟩, applied, h⟩ := bind_eq_ok.mp h
  obtain rfl := pure_eq_ok.mp h
  have applied' := apply_dormant wellFormed nonzero applied (sender ▸ bumped)
  rw [sender] at applied'
  rw [← increment]
  exact congrArg BitVec.toNat
    (((applied'.addBalance _).addBalance _).cleanDeleteObjects nonzero _).getNonce

/-- No account of the overlay reads as self-destructed: the condition of the nonce law on the
sender, for every sender. -/
def NoSuicides (t : Transition) : Prop := ∀ a, t.txn.hasSuicided a = false

theorem newTransition_noSuicides (config : Config) : NoSuicides (newTransition config) := by
  intro a
  unfold Txn.hasSuicided Txn.getStateObject
  cases (newTransition config).txn.snapshot.getAccount a <;> rfl

/-- `Write` keeps `NoSuicides`: a rejection only debits the sender, and an accepted message
ends in `CleanDeleteObjects`, which deletes every object marked self-destructed. So every
Transition `Write` reaches from `NewTransition` meets the nonce law's condition. -/
theorem write_noSuicides {env : Env} {fuel : Nat} {t : Transition} {msg : Message}
    {r : Transition × Except Error Output} (noSuicides : NoSuicides t)
    (h : t.write env fuel msg = .ok r) : NoSuicides r.1 := by
  unfold write at h
  split at h
  · rename_i t₁ err rejected
    obtain rfl := pure_eq_ok.mp h
    rcases preCheck_error_cases t msg rejected with rfl | ⟨txn, debited, rfl⟩
    · exact noSuicides
    · exact fun a => (Txn.subBalance_reads debited).2.2.trans (noSuicides a)
  · obtain ⟨⟨t₂, output⟩, -, h⟩ := bind_eq_ok.mp h
    obtain rfl := pure_eq_ok.mp h
    exact fun _ => Txn.hasSuicided_cleanDeleteObjects _

end Transition

/-- A Frontier Transition over a backend whose only account, at 1, has the nonce `nonce`, no
balance and no code. -/
def senderTransition (nonce : Uint64) : Transition :=
  newTransition ⟨fun _ => 0, ⟨0, 0, 0, 0x30, 0, 0, 0, 0, 0⟩, Revision.frontier,
    ⟨fun _ _ _ => 0, fun a => if a = 1 then
      some ⟨nonce, 0, EmptyRootHash, EmptyCodeHash, []⟩ else none⟩, []⟩

set_option maxRecDepth 4000 in
/-- A call from 1 at nonce 5 to the empty account 2 leaves the nonce at 6. -/
theorem write_from_nonce_five :
    ∃ r, (senderTransition 5).write tableEnv 20 ⟨5, 0, 100000, some 2, 0, [], 1⟩ = .ok r ∧
      (r.1.txn.getNonce 1).toNat = ((senderTransition 5).txn.getNonce 1).toNat + 1 :=
  have ran : (senderTransition 5).write tableEnv 20 ⟨5, 0, 100000, some 2, 0, [], 1⟩ = .ok _ := rfl
  ⟨_, ran, Transition.write_increments_nonce (dispatchTable_wellFormed _) (by rfl) (by rfl) (by rfl)
    (by decide) ran⟩

set_option maxRecDepth 4000 in
/-- From the last nonce `2⁶⁴ - 1` the same call is accepted, and `Write` leaves the nonce at
0: the `uint64` increment wraps. -/
theorem write_wraps_last_nonce :
    ((senderTransition 0xffffffffffffffff).preCheck
        ⟨0xffffffffffffffff, 0, 100000, some 2, 0, [], 1⟩).2 =
      .ok ⟨0xffffffffffffffff, 0, 79000, some 2, 0, [], 1⟩ ∧
      (senderTransition 0xffffffffffffffff).txn.getCode 1 = [] ∧
      (senderTransition 0xffffffffffffffff).txn.hasSuicided 1 = false ∧
      ∃ r, (senderTransition 0xffffffffffffffff).write tableEnv 20
          ⟨0xffffffffffffffff, 0, 100000, some 2, 0, [], 1⟩ = .ok r ∧
        ((senderTransition 0xffffffffffffffff).txn.getNonce 1).toNat = 2 ^ 64 - 1 ∧
        (r.1.txn.getNonce 1).toNat = 0 :=
  ⟨rfl, rfl, rfl, _, rfl, rfl, rfl⟩

end GoEvm
