import GoEvm.Transition.Frames
import GoEvm.Transition.Gas

/-! Static frames. A frame run with the static flag writes nothing: SSTORE, LOGn,
SELFDESTRUCT and CREATE exit with the write-protection error there, and the calls it makes
are static too, entered as a CALL without value, a CALLCODE or a DELEGATECALL
(`HostEffect.call`). Entering such a frame takes a snapshot, touches the recipient and moves
no value; a failed run is rewound. So by induction on the fuel of `Callx`, a static frame
and every frame it calls only touch accounts, and over a backend whose empty storage root
holds no slot, every read of the overlay after the frame is the read before it. -/
namespace GoEvm

open Evm

namespace Transition

/-- How a frame with the static flag is entered: as a CALL without value, a CALLCODE or a
DELEGATECALL. -/
def StaticEntry (c : Contract) : Prop :=
  c.type = .call ∧ c.value = 0 ∨ c.type = .callCode ∨ c.type = .delegateCall

/-- A transfer of nothing touches the recipient. -/
theorem transfer_zero (t : Transition) (sender recipient : Address) :
    t.transfer sender recipient 0 = .ok (t.withTxn (t.txn.touchAccount recipient)) := by
  simp [transfer, Txn.subBalance, Txn.addBalance_zero, bind, Except.bind, pure, Except.pure]

/-- A frame entered as a static one moves no value: its transfer step only touches. -/
theorem StaticEntry.moved {c : Contract} (entry : StaticEntry c) (t₁ : Transition) :
    ∃ t₂, (if c.type = .call then t₁.transfer c.caller c.address c.value else pure t₁) = .ok t₂ ∧
      Txn.Touched t₁.txn t₂.txn ∧ t₂.config = t₁.config := by
  rcases entry with ⟨call, zero⟩ | callCode | delegateCall
  · exact ⟨t₁.withTxn (t₁.txn.touchAccount c.address), by rw [if_pos call, zero, transfer_zero],
      Txn.touchAccount_touched _ _, rfl⟩
  · exact ⟨t₁, by rw [if_neg (by rw [callCode]; decide)]; rfl, .refl _, rfl⟩
  · exact ⟨t₁, by rw [if_neg (by rw [delegateCall]; decide)]; rfl, .refl _, rfl⟩

/-- `h'` follows `h` within a static frame: over a configuration with no cheatcodes, the
accounts are only touched, and the configuration stays. -/
def TouchesOnly (h h' : Transition) : Prop :=
  h.config.cheatcodes = [] → Txn.Touched h.txn h'.txn ∧ h'.config = h.config

theorem TouchesOnly.refl (h : Transition) : TouchesOnly h h := fun _ => ⟨.refl _, rfl⟩

theorem TouchesOnly.trans {h₁ h₂ h₃ : Transition} (first : TouchesOnly h₁ h₂)
    (second : TouchesOnly h₂ h₃) : TouchesOnly h₁ h₃ := fun noCheats =>
  let ⟨touched, config⟩ := first noCheats
  let ⟨touched', config'⟩ := second (config ▸ noCheats)
  ⟨touched.trans touched', config'.trans config⟩

variable {env : Env} {fuel : Nat} {t : Transition} {c : Contract}

/-- The host effects a frame with the static flag can make, when the static frames it calls
only touch accounts: calls that only touch accounts, over a configuration with no
cheatcodes. -/
theorem hostEffect_touched (wellFormed : env.WellFormed)
    (calls : ∀ t c r, callx env fuel t c = .ok r → c.static = true → StaticEntry c →
      t.config.cheatcodes = [] → Txn.Touched t.txn r.1.txn)
    {address : Address} {h h' : Transition}
    (effect : HostEffect (transitionHost (callx env fuel)) true address h h') :
    TouchesOnly h h' := by
  intro noCheats
  cases effect with
  | setStorage _ _ writable => cases writable
  | emitLog _ _ writable => cases writable
  | selfdestruct _ writable => cases writable
  | @call kind _ _ value _ _ _ _ _ _ _ _ inherited restricted _ returned =>
      have static := inherited rfl
      have entry : ∀ c : Contract, c.type = kind → c.value = value.toNat → StaticEntry c := by
        intro c kind' value'
        rcases restricted static with ⟨call, rfl⟩ | callCode | delegateCall
        · exact .inl ⟨kind'.trans call, by simp [value']⟩
        · exact .inr (.inl (kind'.trans callCode))
        · exact .inr (.inr (kind'.trans delegateCall))
      exact ⟨calls _ _ _ returned static (entry _ rfl rfl) noCheats,
        (callx_extends wellFormed returned).1⟩

/-- The run of a frame with the static flag and no cheatcodes only touches accounts, when
the static frames it calls do. -/
theorem run_touched (wellFormed : env.WellFormed)
    (calls : ∀ t c r, callx env fuel t c = .ok r → c.static = true → StaticEntry c →
      t.config.cheatcodes = [] → Txn.Touched t.txn r.1.txn)
    (static : c.static = true) (noCheats : t.config.cheatcodes = [])
    {r : Transition × Bytes × Uint64 × Option Error}
    (h : t.run env (callx env fuel) fuel c = .ok r) : Txn.Touched t.txn r.1.txn := by
  unfold Transition.run at h
  rw [noCheats] at h
  split at h
  · cases ‹List.any [] _ = true›
  split at h
  · split at h
    obtain rfl := pure_eq_ok.mp h
    exact .refl _
  · rw [static] at h
    exact (evmRun_hostRel TouchesOnly.refl TouchesOnly.trans wellFormed
      (fun _ _ effect => hostEffect_touched wellFormed calls effect) h noCheats).1

end Transition

/-- A frame run with the static flag, entered as the interpreter enters one, over a
configuration with no cheatcodes, and every frame it calls, only touch accounts: every
object of the overlay reads as before or was absent and is now a new, empty one, and the
logs and the refund stay. -/
theorem callx_static_touched {env : Env} (wellFormed : env.WellFormed) :
    ∀ {fuel : Nat} {t : Transition} {c : Contract} {r : CallResult}, callx env fuel t c = .ok r →
      c.static = true → Transition.StaticEntry c → t.config.cheatcodes = [] →
      Txn.Touched t.txn r.1.txn
  | 0, _, _, _, h, _, _, _ => absurd h throw_ne_ok
  | fuel + 1, t, c, r, h, static, entry, noCheats => by
      have calls : ∀ t c r, callx env fuel t c = .ok r → c.static = true →
          Transition.StaticEntry c → t.config.cheatcodes = [] → Txn.Touched t.txn r.1.txn :=
        fun _ _ _ => callx_static_touched wellFormed
      have notCreation : (c.type = .create || c.type = .create2) = false := by
        rcases entry with ⟨call, -⟩ | callCode | delegateCall <;> simp [*]
      unfold callx at h
      rw [notCreation, if_neg Bool.false_ne_true] at h
      have touched : Txn.Touched t.txn (t.txn.takeSnapshot.1.touchAccount c.address) :=
        t.txn.takeSnapshot_touched.trans (Txn.touchAccount_touched _ _)
      rcases Transition.applyCall_returns h with ⟨err, unpaid, -⟩ | ⟨t₂, out, moved, ran, ended⟩
      · obtain ⟨_, entered, -⟩ := entry.moved (t.withTxn (t.txn.takeSnapshot.1.touchAccount c.address))
        exact absurd (unpaid.symm.trans entered) nofun
      obtain ⟨_, entered, entry', config⟩ := entry.moved (t.withTxn (t.txn.takeSnapshot.1.touchAccount c.address))
      obtain rfl := Except.ok.inj (entered.symm.trans moved)
      have ran' := Transition.run_touched wellFormed calls static (config ▸ noCheats) ran
      rcases ended with ⟨-, succeeded, -⟩ | ⟨_, txn, -, rewound, reverted, -⟩
      · exact succeeded ▸ touched.trans (entry'.trans ran')
      · have later : Transition.Extends (t.withTxn t.txn.takeSnapshot.1) out.1 :=
          (Transition.Extends.ofRewrites (Txn.upsertAccount_rewrites _ _ _ _)).trans
            ((Transition.moved_extends moved).trans
              (Transition.run_extends wellFormed (fun _ _ _ => callx_extends wellFormed) ran))
        obtain ⟨restored, -⟩ := Transition.revert_restores later rewound
        exact reverted ▸ .of_restored restored

/-- A frame run with the static flag, entered as the interpreter enters one, over a
configuration with no cheatcodes, and every frame it calls, change no read of the overlay
when the backend's empty storage root holds no slot: no balance, nonce, code, code hash,
storage slot or suicide flag, no log and no refund. The overlay's only change is accounts
touched: every object reads as before, or was absent and is now a new, empty one. -/
theorem static_frame_reads {env : Env} (wellFormed : env.WellFormed) {fuel : Nat}
    {t : Transition} {c : Contract} {r : CallResult} (static : c.static = true)
    (entry : Transition.StaticEntry c) (noCheats : t.config.cheatcodes = [])
    (emptyRoot : ∀ a key, t.txn.snapshot.getStorage a EmptyRootHash key = 0)
    (h : callx env fuel t c = .ok r) : Txn.Touched t.txn r.1.txn ∧ Txn.SameReads t.txn r.1.txn :=
  have touched := callx_static_touched wellFormed h static entry noCheats
  ⟨touched, touched.sameReads emptyRoot⟩

/-- A Byzantium Transition over a backend whose only account, at `0xaa`, holds the code
`PUSH1 1, PUSH1 0, SSTORE`. -/
def guardedTransition : Transition :=
  newTransition ⟨fun _ => 0, ⟨0, 0, 0, 0x30, 0, 0, 0, 0, 0⟩, Revision.byzantium,
    ⟨fun _ _ _ => 0,
     fun a => if a = 0xaa then some ⟨0, 0, EmptyRootHash, 0, [0x60, 1, 0x60, 0, 0x55]⟩ else none⟩,
    []⟩

set_option maxRecDepth 4000 in
/-- A static call of `0xaa` runs into its SSTORE, which exits with the write-protection
error, and the overlay after the frame reads as the one before. -/
theorem static_sstore_reads :
    ∃ r, callx tableEnv 20 guardedTransition ⟨.call, 0xaa, 0xaa, 1, 1, 0, [], 10000, true, 0⟩ =
        .ok r ∧ r.2.2.2.2 = some .writeProtection ∧
      Txn.Touched guardedTransition.txn r.1.txn ∧ Txn.SameReads guardedTransition.txn r.1.txn := by
  have ran : callx tableEnv 20 guardedTransition ⟨.call, 0xaa, 0xaa, 1, 1, 0, [], 10000, true, 0⟩ =
      .ok _ := rfl
  exact ⟨_, ran, rfl, static_frame_reads (dispatchTable_wellFormed _) rfl (.inl ⟨rfl, rfl⟩) rfl
    (fun _ _ => rfl) ran⟩

end GoEvm
