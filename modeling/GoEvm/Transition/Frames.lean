import GoEvm.Transition
import GoEvm.Txn.Frame
import GoEvm.Evm.Dispatch
import GoEvm.Transition.Create

/-! The overlay across the frames of `Callx`. A frame only appends to the trees the
overlay has recorded and keeps its backend, its revision and the configuration, whatever it
runs and whatever it calls: `callx_extends`, by induction on the fuel, with the interpreter's
host effects as the step. A frame rewinds to its snapshot the tree it took it of, which is
still recorded at the snapshot's id. A frame that returns an error therefore leaves the
live tree its snapshot recorded, but for three exits: the collision test of a creation,
which returns before the snapshot; a value transfer its caller cannot pay, which returns
after the snapshot without a rewind; and, before Homestead, the deposit of code the gas
left cannot pay for, which keeps the init code's effects. -/
namespace GoEvm

open Evm

namespace Transition

/-- `t'` is `t` later in the same message: the configuration, the backend and the revision
stay, and the trees recorded in `t` are recorded first in `t'`. -/
def Extends (t t' : Transition) : Prop :=
  t'.config = t.config ∧ t'.txn.snapshot = t.txn.snapshot ∧ t'.txn.rev = t.txn.rev ∧
    t.txn.snapshots <+: t'.txn.snapshots

theorem Extends.refl (t : Transition) : Extends t t := ⟨rfl, rfl, rfl, List.prefix_refl _⟩

theorem Extends.trans {t t' t'' : Transition} (first : Extends t t') (second : Extends t' t'') :
    Extends t t'' :=
  ⟨second.1.trans first.1, second.2.1.trans first.2.1, second.2.2.1.trans first.2.2.1,
    first.2.2.2.trans second.2.2.2⟩

theorem Extends.ofRewrites {t : Transition} {txn : Txn} (rewrites : Txn.Rewrites t.txn txn) :
    Extends t (t.withTxn txn) :=
  ⟨rfl, rewrites.1, rewrites.2.2, rewrites.2.1 ▸ List.prefix_refl _⟩

theorem takeSnapshot_extends (t : Transition) : Extends t (t.withTxn t.txn.takeSnapshot.1) :=
  ⟨rfl, rfl, rfl, List.prefix_append _ _⟩

variable {env : Env} {call : Transition → Contract → Except Fault CallResult} {fuel : Nat}
  {t t' : Transition} {c : Contract}

theorem transfer_extends {sender recipient : Address} {amount : Int}
    (h : t.transfer sender recipient amount = .ok t') : Extends t t' := by
  obtain ⟨txn, debited, h⟩ := bind_eq_ok.mp h
  obtain rfl := pure_eq_ok.mp h
  exact .ofRewrites ((t.txn.subBalance_rewrites sender debited).trans
    (txn.upsertAccount_rewrites recipient true _))

/-- A transfer fails only for an amount above the sender's balance. -/
theorem transfer_error {sender recipient : Address} {amount : Int} {err : Error}
    (h : t.transfer sender recipient amount = .error err) :
    err = .notEnoughFunds ∧ t.txn.getBalance sender < amount := by
  unfold transfer Txn.subBalance at h
  split at h
  · cases h
  split at h
  · cases h
    exact ⟨rfl, ‹_›⟩
  · cases h

theorem selfdestruct_rewrites (address beneficiary : Address) :
    Txn.Rewrites t.txn (t.selfdestruct address beneficiary).txn := by
  unfold selfdestruct
  dsimp only
  split <;> simp [Txn.Rewrites, withTxn, Txn.suicide, Txn.addBalance, Txn.addRefund]

/-- Every host effect of a frame extends, given that the calls it makes do. -/
theorem hostEffect_extends (calls : ∀ t c r, call t c = .ok r → Extends t r.1) {static : Bool}
    {address : Address} (effect : HostEffect (transitionHost call) static address t t') :
    Extends t t' := by
  cases effect with
  | setStorage key value _ => exact .ofRewrites (t.txn.setStorage_rewrites address key value)
  | emitLog _ _ _ => exact .ofRewrites ⟨rfl, rfl, rfl⟩
  | selfdestruct beneficiary _ => exact .ofRewrites (selfdestruct_rewrites address beneficiary)
  | call _ _ _ returned => exact calls _ _ _ returned

variable (wellFormed : env.WellFormed) (calls : ∀ t c r, call t c = .ok r → Extends t r.1)
include wellFormed calls

theorem run_extends {r : Transition × Bytes × Uint64 × Option Error}
    (h : t.run env call fuel c = .ok r) : Extends t r.1 := by
  unfold Transition.run at h
  split at h
  · obtain rfl := pure_eq_ok.mp h
    exact .refl t
  split at h
  · split at h
    obtain rfl := pure_eq_ok.mp h
    exact .refl t
  · exact evmRun_hostRel Extends.refl (fun first second => first.trans second) wellFormed
      (fun _ _ effect => hostEffect_extends calls effect) h

omit wellFormed calls in
/-- A rewind to the snapshot taken of `t` restores `t`'s live tree: the tree is still
recorded at the snapshot's id, and the backend and the revision are `t`'s. -/
theorem revert_restores {t₁ : Transition} {txn : Txn}
    (later : Extends (t.withTxn t.txn.takeSnapshot.1) t₁)
    (h : t₁.txn.revertToSnapshot t.txn.snapshots.length = .ok txn) :
    txn = { t.txn with snapshots := txn.snapshots } ∧ Extends t (t₁.withTxn txn) := by
  obtain ⟨tree, recorded, rfl⟩ := t₁.txn.revertToSnapshot_eq h
  obtain ⟨config, backend, rev, rest, grown⟩ := later
  have grown : t₁.txn.snapshots = t.txn.snapshots ++ t.txn.txn :: rest := by
    simpa [withTxn, Txn.takeSnapshot] using grown.symm
  rw [grown, List.getElem?_append_right (Nat.le_refl _)] at recorded
  obtain rfl : t.txn.txn = tree := by simpa using recorded
  refine ⟨?_, config, backend, rev, ⟨t.txn.txn :: rest, by simp [withTxn, grown]⟩⟩
  cases t₁
  simp_all [withTxn, Txn.takeSnapshot]

omit wellFormed calls in
theorem revertFrame_eq {t₁ t₂ : Transition} {id : Nat} {ret ret' : Bytes} {err : Error}
    (h : t₁.revertFrame id ret err = .ok (t₂, ret')) :
    ∃ txn, t₁.txn.revertToSnapshot id = .ok txn ∧ t₂ = t₁.withTxn txn := by
  obtain ⟨txn, reverted, h⟩ := bind_eq_ok.mp h
  exact ⟨txn, reverted, (Prod.mk.inj (pure_eq_ok.mp h)).1.symm⟩

omit wellFormed calls in
/-- How `applyCall` returns, from `t₁`, the overlay it takes the snapshot of `t` in and
touches the recipient in: with the transfer's error on `t₁`, or with the frame run on the
overlay the transfer leaves, rewound to the snapshot when the run fails. -/
theorem applyCall_returns {callType : CallKind} {r : CallResult}
    (h : t.applyCall env call fuel c callType = .ok r) :
    let t₁ := t.withTxn (t.txn.takeSnapshot.1.touchAccount c.address)
    let moved := if callType = .call then t₁.transfer c.caller c.address c.value else pure t₁
    (∃ err, moved = .error err ∧ r.1 = t₁ ∧ r.2.2.2.2 = some err) ∨
    ∃ t₂ out, moved = .ok t₂ ∧ t₂.run env call fuel c = .ok out ∧
      (out.2.2.2 = none ∧ r.1 = out.1 ∧ r.2.2.2.2 = none ∨
        ∃ err txn, out.2.2.2 = some err ∧
          out.1.txn.revertToSnapshot t.txn.snapshots.length = .ok txn ∧
          r.1 = out.1.withTxn txn ∧ r.2.2.2.2 = some err) := by
  unfold applyCall at h
  simp only [Txn.takeSnapshot] at h
  split at h
  · rename_i err moved
    obtain rfl := pure_eq_ok.mp h
    exact .inl ⟨err, moved, rfl, rfl⟩
  · rename_i t₂ moved
    obtain ⟨out, ran, h⟩ := bind_eq_ok.mp h
    refine .inr ⟨t₂, out, moved, ran, ?_⟩
    split at h
    · rename_i succeeded
      obtain rfl := pure_eq_ok.mp h
      exact .inl ⟨succeeded, rfl, rfl⟩
    · rename_i err failed
      obtain ⟨⟨t₃, ret⟩, reverted, h⟩ := bind_eq_ok.mp h
      obtain rfl := pure_eq_ok.mp h
      obtain ⟨txn, rewound, rfl⟩ := revertFrame_eq reverted
      exact .inr ⟨err, txn, failed, rewound, rfl, rfl⟩

omit wellFormed calls in
theorem moved_extends {callType : CallKind} {t₂ : Transition}
    (moved : (if callType = .call then t.transfer c.caller c.address c.value else pure t) = .ok t₂) :
    Extends t t₂ := by
  split at moved
  · exact transfer_extends moved
  · obtain rfl := pure_eq_ok.mp moved
    exact .refl t

theorem applyCall_extends {callType : CallKind} {r : CallResult}
    (h : t.applyCall env call fuel c callType = .ok r) : Extends t r.1 := by
  have touched : Extends t (t.withTxn (t.txn.takeSnapshot.1.touchAccount c.address)) :=
    (takeSnapshot_extends t).trans (.ofRewrites (Txn.upsertAccount_rewrites _ _ _ _))
  rcases applyCall_returns h with ⟨err, -, unpaid, -⟩ | ⟨t₂, out, moved, ran, ended⟩
  · exact unpaid ▸ touched
  have later := (moved_extends moved).trans (run_extends wellFormed calls ran)
  rcases ended with ⟨-, succeeded, -⟩ | ⟨err, txn, -, rewound, reverted, -⟩
  · exact succeeded ▸ touched.trans later
  · exact reverted ▸ (revert_restores (((Extends.ofRewrites
      (Txn.upsertAccount_rewrites _ _ _ _))).trans later) rewound).2

omit wellFormed calls in
/-- `depositCode` ends in a later overlay of the Transition `t` the snapshot was taken of;
an error it returns comes with the rewind to the snapshot, or, before Homestead, is the
deposit's out of gas with nothing undone. -/
theorem depositCode_spec {t₁ : Transition} {address : Address} {ret : Bytes} {gasLeft : Uint64}
    {r : CallResult} (later : Extends (t.withTxn t.txn.takeSnapshot.1) t₁)
    (h : t₁.depositCode env t.txn.snapshots.length address ret gasLeft = .ok r) :
    Extends t r.1 ∧ ∀ err, r.2.2.2.2 = some err →
      r.1.txn = { t.txn with snapshots := r.1.txn.snapshots } ∨
        err = .codeStoreOutOfGas ∧ t.config.rev < Revision.homestead := by
  have rewind : ∀ {txn : Txn} {e : Error} {r : CallResult}, r.1 = t₁.withTxn txn →
      r.2.2.2.2 = some e → t₁.txn.revertToSnapshot t.txn.snapshots.length = .ok txn →
      Extends t r.1 ∧ ∀ err, r.2.2.2.2 = some err →
        r.1.txn = { t.txn with snapshots := r.1.txn.snapshots } ∨
          err = .codeStoreOutOfGas ∧ t.config.rev < Revision.homestead := by
    intro txn e r rewound _ reverted
    obtain ⟨restored, extended⟩ := revert_restores later reverted
    exact ⟨rewound ▸ extended, fun _ _ => .inl (rewound ▸ restored)⟩
  unfold depositCode at h
  split at h
  · obtain ⟨txn, reverted, h⟩ := bind_eq_ok.mp h
    obtain rfl := pure_eq_ok.mp h
    exact rewind rfl rfl reverted
  dsimp only at h
  split at h
  · split at h
    · obtain ⟨txn, reverted, h⟩ := bind_eq_ok.mp h
      obtain rfl := pure_eq_ok.mp h
      exact rewind rfl rfl reverted
    · rename_i frontier
      obtain rfl := pure_eq_ok.mp h
      refine ⟨(takeSnapshot_extends t).trans later, fun err failed =>
        .inr ⟨(Option.some.inj failed).symm, ?_⟩⟩
      simp only [isRevision, later.1, decide_eq_true_eq] at frontier
      exact Nat.lt_of_not_le frontier
  · obtain rfl := pure_eq_ok.mp h
    exact ⟨(takeSnapshot_extends t).trans (later.trans (.ofRewrites (Txn.upsertAccount_rewrites _ _ _ _))),
      fun _ failed => Option.noConfusion failed⟩

omit wellFormed calls in
/-- The account a creation sets up from Spurious Dragon on is a write of the live tree, and
keeps every balance. -/
theorem settle_extends (s : Transition) (address : Address) :
    let settled := if s.isRevision Revision.spuriousDragon then
      s.withTxn ((s.txn.createAccount address).incrNonce address) else s
    Extends s settled ∧ ∀ a, settled.txn.getBalance a = s.txn.getBalance a := by
  intro settled
  by_cases dragon : s.isRevision Revision.spuriousDragon
  · simp only [settled, dragon, if_true]
    exact ⟨.ofRewrites (by simp [Txn.Rewrites, Txn.createAccount, Txn.incrNonce]), fun a => by
      simp only [withTxn, Txn.getBalance_incrNonce, Txn.getBalance_createAccount]⟩
  · simp only [settled, dragon]
    exact ⟨.refl s, fun _ => rfl⟩

/-- What `applyCreate` returns: a later overlay; and with an error, the rewind to the
snapshot taken after the caller's nonce increment, the collision with that increment only,
the error of a transfer the caller cannot pay, or, before Homestead, the deposit's out of gas
with nothing undone. -/
theorem applyCreate_spec {r : CallResult} (h : t.applyCreate env call fuel c = .ok r) :
    Extends t r.1 ∧ ∀ err, r.2.2.2.2 = some err →
      r.1.txn = { (t.txn.incrNonce c.caller) with snapshots := r.1.txn.snapshots } ∨
      (err = .addressCollision ∧ r.1 = t.withTxn (t.txn.incrNonce c.caller)) ∨
      (err = .notEnoughFunds ∧ t.txn.getBalance c.caller < c.value) ∨
      (err = .codeStoreOutOfGas ∧ t.config.rev < Revision.homestead) := by
  unfold applyCreate at h
  obtain ⟨address, -, h⟩ := bind_eq_ok.mp h
  dsimp only at h
  have bumped : Extends t (t.withTxn (t.txn.incrNonce c.caller)) :=
    .ofRewrites (Txn.upsertAccount_rewrites _ _ _ _)
  split at h
  · obtain rfl := pure_eq_ok.mp h
    exact ⟨bumped, fun err collided => .inr (.inl ⟨(Option.some.inj collided).symm, rfl⟩)⟩
  simp only [Txn.takeSnapshot] at h
  obtain ⟨settled, balances⟩ := settle_extends
    ((t.withTxn (t.txn.incrNonce c.caller)).withTxn (t.txn.incrNonce c.caller).takeSnapshot.1) address
  split at h
  · rename_i err unpaid
    obtain rfl := pure_eq_ok.mp h
    refine ⟨bumped.trans ((takeSnapshot_extends _).trans settled), fun err' failed => ?_⟩
    obtain ⟨rfl, short⟩ := transfer_error unpaid
    obtain rfl := Option.some.inj failed
    refine .inr (.inr (.inl ⟨rfl, ?_⟩))
    rw [← (balances c.caller).trans ((Txn.takeSnapshot_getBalance _ _).trans
      (Txn.getBalance_incrNonce _ _ _))]
    exact short
  · rename_i t₁ moved
    obtain ⟨out, ran, h⟩ := bind_eq_ok.mp h
    have later := settled.trans ((transfer_extends moved).trans (run_extends wellFormed calls ran))
    split at h
    · obtain ⟨⟨t₂, ret⟩, reverted, h⟩ := bind_eq_ok.mp h
      obtain rfl := pure_eq_ok.mp h
      obtain ⟨txn, rewound, rfl⟩ := revertFrame_eq reverted
      obtain ⟨restored, extended⟩ := revert_restores later rewound
      exact ⟨bumped.trans extended, fun _ _ => .inl restored⟩
    · obtain ⟨extended, errors⟩ := depositCode_spec later h
      refine ⟨bumped.trans extended, fun err failed => ?_⟩
      rcases errors err failed with restored | frontier
      · exact .inl restored
      · exact .inr (.inr (.inr frontier))

/-- How `applyCall` returns an error: with the rewind to the snapshot, or with the error of
a transfer the caller cannot pay. -/
theorem applyCall_error {r : CallResult} {err : Error}
    (h : t.applyCall env call fuel c c.type = .ok r) (failed : r.2.2.2.2 = some err) :
    r.1.txn = { t.txn with snapshots := r.1.txn.snapshots } ∨
      err = .notEnoughFunds ∧ t.txn.getBalance c.caller < c.value := by
  have touched : Extends (t.withTxn t.txn.takeSnapshot.1)
      (t.withTxn (t.txn.takeSnapshot.1.touchAccount c.address)) :=
    .ofRewrites (Txn.upsertAccount_rewrites _ _ _ _)
  rcases applyCall_returns h with ⟨err', unpaid, -, failed'⟩ | ⟨t₂, out, moved, ran, ended⟩
  · obtain rfl := Option.some.inj (failed'.symm.trans failed)
    split at unpaid
    · obtain ⟨rfl, short⟩ := transfer_error unpaid
      refine .inr ⟨rfl, ?_⟩
      simpa only [withTxn, Txn.getBalance_touchAccount, Txn.takeSnapshot_getBalance] using short
    · cases unpaid
  have later := touched.trans ((moved_extends moved).trans (run_extends wellFormed calls ran))
  rcases ended with ⟨-, -, succeeded⟩ | ⟨_, txn, -, rewound, reverted, -⟩
  · exact absurd (succeeded.symm.trans failed) nofun
  · exact .inl (reverted ▸ (revert_restores later rewound).1)

end Transition

/-- Every frame `Callx` runs leaves a later overlay of the one it was given: the recorded
trees only grow, and the backend, the revision and the configuration stay. -/
theorem callx_extends {env : Env} (wellFormed : env.WellFormed) :
    ∀ {fuel : Nat} {t : Transition} {c : Contract} {r : CallResult},
      callx env fuel t c = .ok r → Transition.Extends t r.1
  | 0, _, _, _, h => absurd h throw_ne_ok
  | fuel + 1, t, c, r, h => by
      have calls : ∀ t c r, callx env fuel t c = .ok r → Transition.Extends t r.1 :=
        fun _ _ _ => callx_extends wellFormed
      unfold callx at h
      split at h
      · exact (Transition.applyCreate_spec wellFormed calls h).1
      · exact Transition.applyCall_extends wellFormed calls h

/-- The block context the Transition gives its frames is its configuration's, which no host
effect changes, a call included. -/
theorem transitionHost_keepsContextWords {env : Env} (wellFormed : env.WellFormed) (fuel : Nat) :
    KeepsContextWords (transitionHost (callx env fuel)) := by
  intro static address t t' effect context
  have kept := (Transition.hostEffect_extends (fun _ _ _ => callx_extends wellFormed) effect).1
  show ContextWords t'.getTxContext
  rw [Transition.getTxContext, kept]
  exact context

/-- Every frame the interpreter dispatches at over the Transition, at any depth of `Callx`,
holds only words on its stack when the frame starts with a value that is a word and the
block context is one of words. -/
theorem callx_dispatch_words {env : Env} (wellFormed : env.WellFormed) {fuel : Nat}
    {t : Transition} {typ : CallKind} {recipient sender codeAddress : Address} {value : Int}
    {input : Bytes} {gas : Uint64} {depth : Nat} {static : Bool} {c : State Transition}
    (valueWord : IsWord value) (contextWord : ContextWords t.getTxContext)
    (reached : Dispatches env.toRuntime (transitionHost (callx env fuel))
      (initialState (transitionHost (callx env fuel)) t.config.rev t typ recipient sender value
        input gas depth static codeAddress) c) : Words c.stack :=
  (Dispatches.induction (WordFrame _) ⟨words_nil, valueWord, contextWord⟩
    (fun _ framed => framed.turn wellFormed (transitionHost_keepsContextWords wellFormed fuel))
    reached).1

/-- A frame `Callx` runs that returns an error leaves the overlay as its snapshot recorded
it: the live tree, the backend and the revision, and so every read. A creation takes its
snapshot after the caller's nonce increment. Three exits differ: the collision test of a
creation returns before the snapshot, with the nonce increment only; a value transfer the
caller cannot pay returns its error after the snapshot, without a rewind; and before
Homestead a deposit of code the gas left cannot pay for keeps the init code's effects. -/
theorem callx_error_restores {env : Env} (wellFormed : env.WellFormed) {fuel : Nat}
    {t t' : Transition} {c : Contract} {ret : Bytes} {gasLeft : Uint64} {address : Address}
    {err : Error} (h : callx env fuel t c = .ok (t', ret, gasLeft, address, some err)) :
    let frame := if c.type = .create ∨ c.type = .create2 then t.txn.incrNonce c.caller else t.txn
    t'.txn = { frame with snapshots := t'.txn.snapshots } ∨
      (err = .addressCollision ∧ t' = t.withTxn frame) ∨
      (err = .notEnoughFunds ∧ t.txn.getBalance c.caller < c.value) ∨
      (err = .codeStoreOutOfGas ∧ t.config.rev < Revision.homestead) := by
  cases fuel with
  | zero => exact absurd h throw_ne_ok
  | succ fuel =>
      have calls : ∀ t c r, callx env fuel t c = .ok r → Transition.Extends t r.1 :=
        fun _ _ _ => callx_extends wellFormed
      unfold callx at h
      split at h
      · rename_i creation
        simp only [Bool.or_eq_true, decide_eq_true_eq] at creation
        simp only [creation, if_true]
        exact (Transition.applyCreate_spec wellFormed calls h).2 err rfl
      · rename_i creation
        simp only [Bool.or_eq_true, decide_eq_true_eq] at creation
        simp only [creation, if_false]
        rcases Transition.applyCall_error wellFormed calls h rfl with restored | unpaid
        · exact .inl restored
        · exact .inr (.inr (.inl unpaid))

set_option maxRecDepth 4000 in
/-- A creation whose init code is the undefined opcode `0xfe` fails, and leaves the overlay
as its snapshot, taken after the caller's nonce increment, recorded it. -/
theorem undefined_creation_restores :
    ∃ t', callx creationEnv 20 storedTransition ⟨.create, 0, 0, 1, 0, 0, [0xfe], 100, false, 0⟩ =
        .ok (t', [], 0, 0xc0, some .opCodeNotFound) ∧
      t'.txn = { (storedTransition.txn.incrNonce 1) with snapshots := t'.txn.snapshots } := by
  obtain ⟨t', ran⟩ : ∃ t', callx creationEnv 20 storedTransition
      ⟨.create, 0, 0, 1, 0, 0, [0xfe], 100, false, 0⟩ = .ok (t', [], 0, 0xc0, some .opCodeNotFound) :=
    ⟨_, rfl⟩
  refine ⟨t', ran, ?_⟩
  rcases callx_error_restores (dispatchTable_wellFormed _) ran with restored | ⟨bad, -⟩ | ⟨bad, -⟩ | ⟨bad, -⟩
  · exact restored
  all_goals cases bad

set_option maxRecDepth 4000 in
/-- A Frontier creation whose init code `PUSH1 1, PUSH1 0, SSTORE, PUSH1 1, PUSH1 0, RETURN`
writes 1 over the 7 the pre-state holds in slot 0 and returns one byte of code with 85 gas
left, less than the 200 the deposit costs: the frame returns the deposit's error, and slot 0
reads 1, where it read 7 when the snapshot was taken. -/
theorem frontier_deposit_keeps_writes :
    ∃ t', callx creationEnv 20 storedTransition
        ⟨.create, 0, 0, 1, 0, 0, [0x60, 1, 0x60, 0, 0x55, 0x60, 1, 0x60, 0, 0xf3], 5100, false, 0⟩ =
        .ok (t', [], 85, 0xc0, some .codeStoreOutOfGas) ∧
      (storedTransition.txn.incrNonce 1).getState 0xc0 0 = 7 ∧ t'.txn.getState 0xc0 0 = 1 :=
  ⟨_, rfl, rfl, rfl⟩

end GoEvm
