import GoEvm.Evm.Spend
import GoEvm.Evm.Flow
import GoEvm.Evm.Panic

/-! The loop halts. `state.Run` turns until the frame stops, and every turn that does not stop
it burns gas: the loop charges the handler's base gas, and the handlers registered with none
charge by themselves (BALANCE, EXTCODESIZE, EXTCODECOPY, EXTCODEHASH, SLOAD, SSTORE, the call
opcodes) or stop the frame (STOP, RETURN, REVERT, SELFDESTRUCT). From Tangerine Whistle on, over
a host whose calls return at most the gas they are given, a call gives back less than it charged,
since its stipend is within its base cost. So a run turns at most once more than the frame has
gas, and the model's fuel is no bound on it: with more fuel than gas the loop does not run out
of it, over a host whose calls do not, and every larger fuel gives the same result. -/
namespace GoEvm.Evm

variable {σ : Type}

/-- The instructions whose handlers charge by themselves, or stop the frame. -/
def Instr.charges : Instr → Bool
  | .balance | .extcodesize | .extcodecopy | .extcodehash | .sload | .sstore | .call _ | .stop
  | .halt _ | .selfdestruct => true
  | _ => false

/-- A table each of whose handlers has a base gas, or charges by itself. -/
def Runtime.Burns (rt : Runtime) : Prop :=
  ∀ op handler, rt.dispatchTable op = some handler →
    0 < handler.gas.toNat ∨ handler.inst.charges = true

set_option maxRecDepth 4000 in
/-- The table modelled from the spec registers with no base gas only handlers that charge. -/
theorem dispatchTable_burns (keccak256 : Bytes → Hash) : Runtime.Burns ⟨dispatchTable, keccak256⟩ := by
  intro op handler registered
  obtain ⟨_, mem⟩ := mem_of_lookup registered
  have entries : ∀ entry ∈ dispatchEntries, 0 < entry.2.gas.toNat ∨ entry.2.inst.charges = true := by
    decide
  exact entries _ mem

theorem silentHost_honest : silentHost.Honest fun _ => True where
  returns _ _ _ _ _ _ _ _ _ _ _ _ _ _ _ _ _ called := by
    obtain ⟨⟩ := pure_eq_ok.mp called
    exact Nat.zero_le _
  kept _ _ _ _ _ _ := trivial

theorem silentHost_finishes (h : Unit) : silentHost.Finishes h :=
  fun _ _ _ _ _ _ _ _ _ _ => pure_ne_fuel _

section Frame

variable {c c' : State σ}

theorem consumeGas_stops {g : Uint64} (charged : c.consumeGas g = (c', false)) : c'.stop = true := by
  unfold State.consumeGas at charged
  split at charged
  · exact (Prod.mk.inj charged).1 ▸ rfl
  · exact nomatch (Prod.mk.inj charged).2

/-- A charge of at least one gas that leaves the frame running took gas. -/
theorem consumeGas_burns {g : Uint64} {b : Bool} (positive : g ≠ 0)
    (charged : c.consumeGas g = (c', b)) (running : c'.stop = false) : c'.gas.toNat < c.gas.toNat := by
  cases b
  · exact absurd (consumeGas_stops charged) (by rw [running]; decide)
  · have paid := consumeGas_charged charged
    have : g.toNat ≠ 0 := fun zero => positive (BitVec.eq_of_toNat_eq zero)
    omega

theorem checkMemory_stops {offset size : Int} (checked : c.checkMemory offset size = (c', false)) :
    c'.stop = true := by
  unfold State.checkMemory at checked
  dsimp only at checked
  split_ifs at checked
  · exact nomatch (Prod.mk.inj checked).2
  · exact (Prod.mk.inj checked).1 ▸ rfl
  · exact (Prod.mk.inj checked).1 ▸ rfl
  · split at checked
    · exact (Prod.mk.inj checked).1 ▸ rfl
    · exact nomatch (Prod.mk.inj checked).2
  · exact nomatch (Prod.mk.inj checked).2

theorem get2_stops {dst : Bytes} {offset length : Int}
    (got : c.get2 dst offset length = .ok (c', none)) : c'.stop = true := by
  unfold State.get2 at got
  split at got
  · cases (Prod.mk.inj (pure_eq_ok.mp got)).2
  split at got
  · obtain ⟨rfl, -⟩ := Prod.mk.inj (pure_eq_ok.mp got)
    exact checkMemory_stops ‹_›
  · obtain ⟨_, -, got⟩ := bind_eq_ok.mp got
    cases (Prod.mk.inj (pure_eq_ok.mp got)).2

/-- A handler that returns a stopped frame does not leave it running. -/
theorem stopped_ne {c₁ : State σ} (stop : c₁.stop = true)
    (h : (pure c₁ : Except Fault (State σ)) = .ok c') (running : c'.stop = false) : False := by
  rw [← pure_eq_ok.mp h, stop] at running
  cases running

/-- A value transfer's stipend is less than the base cost paid for it, and a call without one
has a base cost. -/
theorem stipend_below (rev : Revision) (op : OpCode) (transfersValue present : Bool) (gas : Uint64) :
    (if transfersValue then gas + 2300 else gas).toNat < gas.toNat + callBaseGas rev op transfersValue present := by
  have base : (if transfersValue then 9040 else 40) ≤ callBaseGas rev op transfersValue present := by
    unfold callBaseGas
    split_ifs <;> simp_all
  cases transfersValue
  · simp only [Bool.false_eq_true, if_false] at base ⊢
    omega
  · refine (toNat_add_le _ _).trans_lt ?_
    simp only [show (2300 : Uint64).toNat = 2300 from rfl, if_true] at base ⊢
    omega

end Frame

/-! The handlers that charge by themselves, or stop the frame. -/

section Handlers

variable {host : Host σ} {c c' : State σ}

theorem opSload_burns (h : opSload host c = .ok c') (running : c'.stop = false) :
    c'.gas.toNat < c.gas.toNat := by
  simp only [opSload, bind_eq_ok, deref_eq_ok] at h
  obtain ⟨_, -, h⟩ := h
  split at h <;> rename_i c₁ charged <;> obtain rfl := pure_eq_ok.mp h <;>
    have burnt := consumeGas_burns (by split_ifs <;> decide) charged running <;> exact burnt

/-- The handlers that pop an address and charge before they push what the host says of it. -/
theorem popAddr_charge_burns {p : Address × Bool × State σ} {gas : Uint64} {read : State σ → Int}
    (positive : gas ≠ 0)
    (h : (match p with
      | (_, _, c) => match c.consumeGas gas with
        | (c, false) => pure c
        | (c, true) => pure (c.push1 (read c)) : Except Fault (State σ)) = .ok c')
    (popped : c.popAddr = p) (running : c'.stop = false) : c'.gas.toNat < c.gas.toNat := by
  obtain ⟨addr, found, c₁⟩ := p
  have same : c₁.gas = c.gas := congrArg (·.1) (popAddr_agree popped)
  dsimp only at h
  split at h <;> rename_i c₂ charged <;> obtain rfl := pure_eq_ok.mp h <;>
    have burnt := consumeGas_burns positive charged running <;> exact same ▸ burnt

theorem opExtCodeHash_burns (h : opExtCodeHash host c = .ok c') (running : c'.stop = false) :
    c'.gas.toNat < c.gas.toNat := by
  unfold opExtCodeHash at h
  split at h
  · exact (stopped_ne rfl h running).elim
  · exact popAddr_charge_burns (by split_ifs <;> decide) h rfl running

/-- The copy shape with an access charge of at least one gas. -/
theorem copyToMemory_burns {c₁ : State σ} {memOffset dataOffset length : Int} {extraGas : Uint64}
    {source : State σ → Bytes} (positive : extraGas ≠ 0) (first : Spends c c₁)
    (h : copyToMemory c₁ memOffset dataOffset length extraGas source = .ok c')
    (running : c'.stop = false) : c'.gas.toNat < c.gas.toNat := by
  unfold copyToMemory at h
  split at h <;> rename_i c₂ checked
  · exact (stopped_ne (checkMemory_stops checked) h running).elim
  dsimp only at h
  have first := spends_local.checked first checked
  split at h <;> rename_i c₃ charged
  · exact (stopped_ne (consumeGas_stops charged) h running).elim
  have second := spends_local.charged first charged
  split at h <;> rename_i c₄ extra
  · exact (stopped_ne (consumeGas_stops extra) h running).elim
  split at h
  · obtain rfl := pure_eq_ok.mp h
    exact (consumeGas_burns positive extra running).trans_le second.gas
  · simp only [bind_eq_ok, pure_eq_ok] at h
    obtain ⟨_, -, _, -, rfl⟩ := h
    exact (consumeGas_burns positive extra running).trans_le second.gas

theorem opExtCodeCopy_burns (h : opExtCodeCopy host c = .ok c') (running : c'.stop = false) :
    c'.gas.toNat < c.gas.toNat := by
  simp only [opExtCodeCopy, bind_eq_ok, deref_eq_ok, State.popAddr_snd] at h
  obtain ⟨_, -, _, -, _, -, copied⟩ := h
  exact copyToMemory_burns (by split_ifs <;> decide)
    (spends_local.agree (Agree.refl c).pop.pop.pop.pop) copied running

theorem sstoreCost_ne_zero (c : State σ) (legacyGasMetering : Bool) (status : StorageStatus) :
    sstoreCost c legacyGasMetering status ≠ 0 := by
  cases status <;> simp only [sstoreCost] <;> first | decide | split_ifs <;> decide

theorem opSStore_burns (h : opSStore host c = .ok c') (running : c'.stop = false) :
    c'.gas.toNat < c.gas.toNat := by
  unfold opSStore at h
  split at h
  · exact (stopped_ne rfl h running).elim
  split at h
  · exact (stopped_ne rfl h running).elim
  simp only [bind_eq_ok] at h
  obtain ⟨⟨key, c₁⟩, first, ⟨val, c₂⟩, second, h⟩ := h
  obtain rfl := popHash_ok first
  obtain rfl := popHash_ok second
  obtain rfl := pure_eq_ok.mp h
  have burnt := consumeGas_burns (sstoreCost_ne_zero _ _ _) Prod.mk.eta.symm running
  simpa only [State.pop_gas] using burnt

/-- The end of a call opcode from Tangerine Whistle, over a host whose calls return at most the
gas they are given: the frame gets back less than it was charged. -/
theorem callChild_charge_burns {op : OpCode} {callType : CallKind} {c₃ : State σ}
    {recipient caller codeAddress : Address} {value : Option Int} {transfersValue present isStatic : Bool}
    {args : Bytes} {retOffset retSize initialGas : Int} {gas total : Uint64}
    (returns : host.Returns c.host) (tangerineWhistle : Revision.tangerineWhistle ≤ c.rev)
    (split : callGas c (BitVec.ofNat 64 (callBaseGas c.rev op transfersValue present)) initialGas =
      some (gas, total))
    (charged : c.consumeGas total = (c₃, true))
    (h : callChild host callType c₃ recipient caller codeAddress value transfersValue isStatic args
      retOffset retSize (if transfersValue then gas + 2300 else gas) = .ok c') :
    c'.gas.toNat < c.gas.toNat := by
  have paid := consumeGas_charged charged
  have exact := callGas_exact tangerineWhistle (callBaseGas_le _ _ _ _) split (by omega)
  have stipend := stipend_below c.rev op transfersValue present gas
  have host₃ : c₃.host = c.host := (keeps_of_fst (consumeGas_keeps _) charged).2.2.2.1
  have credited := (callChild_spends (by rw [host₃]; exact returns) h).1
  omega

theorem opCallBody_burns {op : OpCode} (returns : host.Returns c.host)
    (tangerineWhistle : Revision.tangerineWhistle ≤ c.rev) (h : opCallBody host op c = .ok c')
    (running : c'.stop = false) : c'.gas.toNat < c.gas.toNat := by
  unfold opCallBody at h
  simp only [bind_eq_ok, deref_eq_ok, State.popAddr_snd] at h
  obtain ⟨callType, -, _, -, _, -, _, -, _, -, _, -, ⟨c₁, out⟩, got, h⟩ := h
  have spent := spends_local.got (spends_local.agree ((Agree.refl c).pop.pop.popIf _).pop.pop.pop.pop) got
  have pops := ((Pops.refl c).pop.pop.popIf _).pop.pop.pop.pop.keeps (get2_keeps got)
  cases out with
  | none => exact (stopped_ne (get2_stops got) h running).elim
  | some args =>
      dsimp only at h
      split at h <;> rename_i c₂ checked
      · exact (stopped_ne (checkMemory_stops checked) h running).elim
      have spent := spends_local.checked spent checked
      have host₂ : c₂.host = c.host := (pops.keeps (keeps_of_fst (checkMemory_keeps _ _) checked)).2.2.2.1
      rw [callBaseGas_eq] at h
      split at h
      · exact (stopped_ne rfl h running).elim
      rename_i gas total split
      split at h <;> rename_i c₃ charged
      · exact (stopped_ne (consumeGas_stops charged) h running).elim
      · exact (callChild_charge_burns (by rw [host₂]; exact returns)
          (by rw [spent.rev]; exact tangerineWhistle) split charged h).trans_le spent.gas

theorem opCall_burns {op : OpCode} (returns : host.Returns c.host)
    (tangerineWhistle : Revision.tangerineWhistle ≤ c.rev) (h : opCall host op c = .ok c')
    (running : c'.stop = false) : c'.gas.toNat < c.gas.toNat := by
  unfold opCall at h
  dsimp only at h
  split at h
  · simp only [bind_eq_ok, map_eq_ok] at h
    obtain ⟨_, ⟨v, -, rfl⟩, h⟩ := h
    split at h
    · exact (stopped_ne rfl h running).elim
    split at h
    · exact (stopped_ne rfl h running).elim
    split at h
    · exact (stopped_ne rfl h running).elim
    exact opCallBody_burns (c := c.resetReturnData) returns tangerineWhistle h running
  · simp only [pure_bind, Bool.false_eq_true, if_false] at h
    split at h
    · exact (stopped_ne rfl h running).elim
    split at h
    · exact (stopped_ne rfl h running).elim
    exact opCallBody_burns (c := c.resetReturnData) returns tangerineWhistle h running

theorem opHalt_stops {op : OpCode} (h : opHalt op c = .ok c') : c'.stop = true := by
  unfold opHalt at h
  split at h
  · exact pure_eq_ok.mp h ▸ rfl
  simp only [bind_eq_ok, deref_eq_ok] at h
  obtain ⟨_, -, _, -, ⟨c₁, out⟩, got, h⟩ := h
  cases out with
  | none =>
      obtain rfl := pure_eq_ok.mp h
      have stopped := get2_stops got
      exact stopped
  | some ret =>
      obtain rfl := pure_eq_ok.mp h
      split <;> rfl

theorem opSelfDestruct_stops (h : opSelfDestruct host c = .ok c') : c'.stop = true := by
  unfold opSelfDestruct at h
  split at h
  · exact pure_eq_ok.mp h ▸ rfl
  split at h
  dsimp only at h
  split at h <;> rename_i c₂ charged <;> obtain rfl := pure_eq_ok.mp h
  exacts [consumeGas_stops charged, rfl]

/-- Every handler that charges by itself takes gas whenever it leaves the frame running. -/
theorem Instr.exec_burns {i : Instr} {keccak256 : Bytes → Hash} (charges : i.charges = true)
    (returns : host.Returns c.host) (tangerineWhistle : Revision.tangerineWhistle ≤ c.rev)
    (h : i.exec host keccak256 c = .ok c') (running : c'.stop = false) :
    c'.gas.toNat < c.gas.toNat := by
  cases i with
  | balance | extcodesize => exact popAddr_charge_burns (by split_ifs <;> decide) h rfl running
  | extcodecopy => exact opExtCodeCopy_burns h running
  | extcodehash => exact opExtCodeHash_burns h running
  | sload => exact opSload_burns h running
  | sstore => exact opSStore_burns h running
  | call op => exact opCall_burns returns tangerineWhistle h running
  | stop => exact (stopped_ne rfl h running).elim
  | halt op => exact absurd (opHalt_stops h) (by rw [running]; decide)
  | selfdestruct => exact absurd (opSelfDestruct_stops h) (by rw [running]; decide)
  | _ => exact nomatch charges

end Handlers

/-! A turn, a run, and `EVM.Run`. -/

section Dispatch

variable {rt : Runtime} {host : Host σ} {c c' : State σ}

/-- A turn of the loop that does not stop the frame burns gas, with a table that charges every
handler. -/
theorem step_burns (burns : rt.Burns) (returns : host.Returns c.host)
    (tangerineWhistle : Revision.tangerineWhistle ≤ c.rev) (h : step rt host c = .ok c')
    (running : c'.stop = false) : c'.gas.toNat < c.gas.toNat := by
  obtain ⟨op, handler, c₁, c₂, -, -, registered, charged, executed, going, rfl⟩ := step_going h running
  have first := spends_local.charged (.refl c) charged
  have host₁ : c₁.host = c.host := (keeps_of_fst (consumeGas_keeps _) charged).2.2.2.1
  have returns₁ : host.Returns c₁.host := host₁ ▸ returns
  have tangerineWhistle₁ : Revision.tangerineWhistle ≤ c₁.rev := first.rev ▸ tangerineWhistle
  rcases burns op handler registered with positive | charges
  · have paid := consumeGas_charged charged
    have spent := (Instr.exec_spends returns₁ tangerineWhistle₁ executed).gas
    show c₂.gas.toNat < c.gas.toNat
    omega
  · exact (Instr.exec_burns charges returns₁ tangerineWhistle₁ executed going).trans_le first.gas

/-- From Tangerine Whistle on, over a host honest from the host state it starts with, whose calls
from those states do not run out of fuel, and a table that charges every handler, `Run` turns at
most once more than the frame has gas: with more fuel than gas it does not run out of fuel, and
every larger fuel gives the same result. -/
theorem run_halts (wellFormed : rt.WellFormed) (burns : rt.Burns) {Kept : σ → Prop}
    (honest : host.Honest Kept) (finishes : ∀ h, Kept h → host.Finishes h) :
    ∀ {fuel : Nat} {c : State σ}, Kept c.host → Revision.tangerineWhistle ≤ c.rev →
      c.gas.toNat < fuel →
        run rt host fuel c ≠ .error .fuel ∧ ∀ k, run rt host (fuel + k) c = run rt host fuel c
  | 0, _, _, _, bound => absurd bound (Nat.not_lt_zero _)
  | fuel + 1, c, start, tangerineWhistle, bound => by
      simp only [show ∀ k, fuel + 1 + k = fuel + k + 1 from fun k => by omega, run]
      split
      · exact ⟨pure_ne_fuel _, fun _ => rfl⟩
      split
      · exact ⟨pure_ne_fuel _, fun _ => rfl⟩
      have finished : step rt host c ≠ .error .fuel := step_ne_fuel (finishes _ start)
      cases stepped : step rt host c with
      | error e => exact ⟨fun failed => finished (stepped.trans failed), fun _ => rfl⟩
      | ok c₁ =>
          show (if c₁.stop then pure c₁ else run rt host fuel c₁) ≠ .error .fuel ∧
            ∀ k, (if c₁.stop then pure c₁ else run rt host (fuel + k) c₁) =
              if c₁.stop then pure c₁ else run rt host fuel c₁
          split
          · exact ⟨pure_ne_fuel _, fun _ => rfl⟩
          rename_i going
          have burnt := step_burns burns (honest.returns _ start) tangerineWhistle stepped
            (Bool.eq_false_iff.mpr going)
          have spent := step_spends (honest.returns _ start) tangerineWhistle stepped
          have next : Kept c₁.host := (step_effect wellFormed stepped).hostState.elim
            (fun same => same ▸ start) (honest.kept _ _ _ _ · start)
          exact run_halts wellFormed burns honest finishes next (spent.rev ▸ tangerineWhistle)
            (by omega)

/-- `EVM.Run` halts from Tangerine Whistle on, over a host honest from the host state it is
given, whose calls from the states it keeps do not run out of fuel, with a table that charges
every handler: with one turn of fuel more than the gas it does not end in the fuel fault, and
every larger fuel gives the same result. -/
theorem evmRun_halts (wellFormed : rt.WellFormed) (burns : rt.Burns) {Kept : σ → Prop}
    (honest : host.Honest Kept) (finishes : ∀ h, Kept h → host.Finishes h) {rev : Revision} {h : σ}
    {typ : CallKind} {recipient sender codeAddress : Address} {value : Int} {input : Bytes}
    {gas : Uint64} {depth : Nat} {static : Bool} (start : Kept h)
    (tangerineWhistle : Revision.tangerineWhistle ≤ rev) :
    evmRun rt host rev (gas.toNat + 1) h typ recipient sender value input gas depth static
        codeAddress ≠ .error .fuel ∧
      ∀ k, evmRun rt host rev (gas.toNat + 1 + k) h typ recipient sender value input gas depth
          static codeAddress =
        evmRun rt host rev (gas.toNat + 1) h typ recipient sender value input gas depth static
          codeAddress := by
  obtain ⟨finished, stable⟩ := run_halts wellFormed burns honest finishes start tangerineWhistle
    (show (initialState host rev h typ recipient sender value input gas depth static
      codeAddress).gas.toNat < gas.toNat + 1 from Nat.lt_add_one _)
  unfold evmRun
  exact ⟨ne_fuel_bind finished fun _ _ => pure_ne_fuel _, fun k => by rw [stable k]⟩

/-- `JUMPDEST, PUSH1 0, JUMP` loops until its 100 gas runs out: with 101 turns of fuel, and with
every fuel above, `EVM.Run` returns the out-of-gas error. -/
theorem jump_loop_halts :
    (evmRun ⟨dispatchTable, fun _ => 0⟩ silentHost Revision.istanbul ((100 : Uint64).toNat + 1) ()
        .create 0 0 0 [0x5b, 0x60, 0x00, 0x56] 100 0 false 0 ≠ .error .fuel ∧
      ∀ k, evmRun ⟨dispatchTable, fun _ => 0⟩ silentHost Revision.istanbul
          ((100 : Uint64).toNat + 1 + k) () .create 0 0 0 [0x5b, 0x60, 0x00, 0x56] 100 0 false 0 =
        evmRun ⟨dispatchTable, fun _ => 0⟩ silentHost Revision.istanbul ((100 : Uint64).toNat + 1)
          () .create 0 0 0 [0x5b, 0x60, 0x00, 0x56] 100 0 false 0) ∧
    evmRun ⟨dispatchTable, fun _ => 0⟩ silentHost Revision.istanbul ((100 : Uint64).toNat + 1) ()
        .create 0 0 0 [0x5b, 0x60, 0x00, 0x56] 100 0 false 0 = .ok ((), [], 0, some .outOfGas) :=
  ⟨evmRun_halts (dispatchTable_wellFormed _) (dispatchTable_burns _) silentHost_honest
    (fun h _ => silentHost_finishes h) trivial (by decide), rfl⟩

end Dispatch

end GoEvm.Evm
