import GoEvm.Evm.Local
import GoEvm.Evm.Call

/-! The gas of a frame. A handler takes gas only through `consumeGas`, which never takes more
than the frame has, and gives gas back only where a call or a creation set it aside, with what
the callee returns. `Spends` says once, for every handler, what that leaves: at most the gas
the handler found, at the same revision. It is a `Local` relation, so every handler but the
jumps, PUSH, CREATE and CALL spends by GoEvm.Evm.Local; those five are proved here. From
Tangerine Whistle on, over a host whose calls return at most the gas they are given, every
handler, every turn of `Run` and every run spends: no frame ends with more gas than it started
with. The call opcodes need the revision: before Tangerine Whistle their charge is a `uint64`
sum that wraps, and the callee can be handed more gas than the caller has. -/
namespace GoEvm.Evm

variable {σ : Type}

/-- The host's calls from the state `h` return at most the gas they are given. -/
def Host.Returns (host : Host σ) (h : σ) : Prop :=
  ∀ kind recipient sender value input gas depth static salt codeAddress h' ret gasLeft addr err,
    host.call h kind recipient sender value input gas depth static salt codeAddress =
      .ok (h', ret, gasLeft, addr, err) → gasLeft.toNat ≤ gas.toNat

/-- A set of host states that the host's effects keep, and from which its calls return at
most the gas they are given. -/
structure Host.Honest (host : Host σ) (Kept : σ → Prop) : Prop where
  returns : ∀ h, Kept h → host.Returns h
  kept : ∀ static address h h', HostEffect host static address h h' → Kept h → Kept h'

/-- `c'` has at most the gas of `c`, at the same revision. -/
structure Spends (c c' : State σ) : Prop where
  gas : c'.gas.toNat ≤ c.gas.toNat
  rev : c'.rev = c.rev

section Frame

variable {c c' c'' : State σ}

theorem Spends.refl (c : State σ) : Spends c c := ⟨Nat.le_refl _, rfl⟩

theorem Spends.trans (first : Spends c c') (second : Spends c' c'') : Spends c c'' :=
  ⟨second.gas.trans first.gas, second.rev.trans first.rev⟩

/-- A frame with the gas and the revision of `c`. -/
theorem Spends.same (gas : c'.gas = c.gas) (rev : c'.rev = c.rev) : Spends c c' :=
  ⟨(congrArg BitVec.toNat gas).le, rev⟩

theorem consumeGas_spends (g : Uint64) : Spends c (c.consumeGas g).1 := by
  rw [State.consumeGas_toNat]
  split
  · exact .same rfl rfl
  · exact ⟨(Nat.mod_le _ _).trans (Nat.sub_le _ _), rfl⟩

theorem spends_local : Local (Spends (σ := σ)) :=
  .ofFields (fun gas rev _ _ => .same gas rev) (fun _ g => consumeGas_spends g) Spends.trans

theorem toNat_add_le (a b : Uint64) : (a + b).toNat ≤ a.toNat + b.toNat := by
  rw [BitVec.toNat_add]
  exact Nat.mod_le _ _

/-- A charge the frame could pay took exactly the charge. -/
theorem consumeGas_charged {g : Uint64} (h : c.consumeGas g = (c', true)) :
    c'.gas.toNat + g.toNat = c.gas.toNat := by
  have := c.gas.isLt
  rw [State.consumeGas_toNat] at h
  split at h
  · cases h
  · obtain ⟨rfl, -⟩ := Prod.mk.inj h
    show (BitVec.ofNat 64 (c.gas.toNat - g.toNat)).toNat + _ = _
    rw [BitVec.toNat_ofNat, Nat.mod_eq_of_lt (by omega)]
    omega

end Frame

/-! The handlers that move `ip`. -/

section Handlers

variable {host : Host σ} {c c' : State σ}

theorem opJump_spends (h : opJump c = .ok c') : Spends c c' := by
  simp only [opJump, bind_eq_ok, deref_eq_ok, pure_eq_ok] at h
  obtain ⟨_, -, rfl⟩ := h
  exact (spends_local.agree (Agree.refl c).pop).trans (by unfold jumpTo; split <;> exact .same rfl rfl)

theorem opJumpi_spends (h : opJumpi c = .ok c') : Spends c c' := by
  simp only [opJumpi, bind_eq_ok, deref_eq_ok, pure_eq_ok] at h
  obtain ⟨_, -, _, -, rfl⟩ := h
  have popped : Spends c c.pop.2.pop.2 := spends_local.agree (Agree.refl c).pop.pop
  split
  · exact popped.trans (by unfold jumpTo; split <;> exact .same rfl rfl)
  · exact popped

theorem opPush_spends {n : Nat} (h : opPush n c = .ok c') : Spends c c' := by
  unfold opPush at h
  dsimp only at h
  split at h <;> simp only [bind_eq_ok, pure_eq_ok] at h
  · obtain ⟨_, -, _, rfl, rfl⟩ := h
    exact .same rfl rfl
  · obtain ⟨_, -, _, rfl, rfl⟩ := h
    exact .same rfl rfl

/-! The handlers that call the host: the gas they set aside is charged first, and what comes
back is at most that gas. -/

/-- `createChild`, over a host whose calls from the frame's host state return at most the gas
they are given: the frame gets back at most the gas it set aside. -/
theorem createChild_spends {op : OpCode} {value salt : Option Int} {input : Bytes} {gas : Uint64}
    (returns : host.Returns c.host) (h : createChild host op c value input salt gas = .ok c') :
    c'.gas.toNat ≤ c.gas.toNat + gas.toNat ∧ c'.rev = c.rev := by
  unfold createChild at h
  split at h
  · obtain rfl := pure_eq_ok.mp h
    exact ⟨toNat_add_le _ _, rfl⟩
  · simp only [bind_eq_ok] at h
    obtain ⟨_, -, ⟨h', retValue, gasLeft, codeAddress, err⟩, called, h⟩ := h
    obtain rfl := pure_eq_ok.mp h
    have returned := returns _ _ _ _ _ _ _ _ _ _ _ _ _ _ _ called
    exact ⟨(toNat_add_le c.gas gasLeft).trans (by omega), rfl⟩

theorem opCreate_spends {op : OpCode} (returns : host.Returns c.host)
    (h : opCreate host op c = .ok c') : Spends c c' := by
  unfold opCreate at h
  split at h
  · exact pure_eq_ok.mp h ▸ .same rfl rfl
  split at h
  · exact pure_eq_ok.mp h ▸ .same rfl rfl
  simp only [bind_eq_ok, deref_eq_ok] at h
  obtain ⟨_, -, _, -, ⟨c₁, out⟩, got, h⟩ := h
  have reset : Agree c c.resetReturnData := rfl
  have spent := spends_local.got (spends_local.agree (reset.pop.pop.pop.popIf _)) got
  have resetPops : Pops c c.resetReturnData := ⟨rfl, rfl, rfl, rfl, 0, rfl⟩
  have pops := (resetPops.pop.pop.pop.popIf _).keeps (get2_keeps got)
  cases out with
  | none => exact pure_eq_ok.mp h ▸ spent.trans (.same rfl rfl)
  | some input =>
      dsimp only at h
      split at h
      · exact pure_eq_ok.mp h ▸ spent.trans (.same rfl rfl)
      split at h <;> rename_i c₂ charged <;> have spent := spends_local.chargedIf spent charged
      · exact pure_eq_ok.mp h ▸ spent.trans (.same rfl rfl)
      have pops := pops.keeps (keeps_of_fst (charge_keeps _) charged)
      split at h <;> rename_i c₃ reserved <;> have kept := spends_local.charged spent reserved
      · exact pure_eq_ok.mp h ▸ kept.trans (.same rfl rfl)
      · have paid := consumeGas_charged reserved
        have host₃ : c₃.host = c.host := (pops.keeps (keeps_of_fst (consumeGas_keeps _) reserved)).2.2.2.1
        obtain ⟨credited, rev⟩ := createChild_spends (by rw [host₃]; exact returns) h
        have := spent.gas
        exact ⟨by omega, rev.trans kept.rev⟩

/-- From Tangerine Whistle, `callGas` sets aside at most what the base cost leaves, and charges
the base cost and that gas. -/
theorem callGas_le {gasCost gas total : Uint64} {initialGas : Int}
    (tangerineWhistle : Revision.tangerineWhistle ≤ c.rev)
    (split : callGas c gasCost initialGas = some (gas, total)) :
    gas.toNat ≤ (c.gas - gasCost).toNat ∧ total = gasCost + gas := by
  unfold callGas at split
  simp only [State.isRevision, tangerineWhistle, decide_True, if_true, Option.some.injEq,
    Prod.mk.injEq] at split
  obtain ⟨rfl, rfl⟩ := split
  refine ⟨?_, rfl⟩
  generalize c.gas - gasCost = avail
  have kept : (avail - avail / 64).toNat ≤ avail.toNat := by
    have e64 : (64 : Uint64).toNat = 64 := rfl
    rw [BitVec.toNat_sub_of_le (BitVec.le_def.mpr (by rw [BitVec.toNat_udiv, e64]; exact Nat.div_le_self _ _))]
    exact Nat.sub_le _ _
  split
  · exact kept
  · rename_i capped
    simp only [Bool.or_eq_true, Bool.not_eq_true', decide_eq_true_eq, not_or, BitVec.not_lt] at capped
    exact (BitVec.le_def.mp capped.2).trans kept

/-- From Tangerine Whistle, a call charge the frame pays is exact: the base cost and the gas
set aside, with no wrap. -/
theorem callGas_exact {base : Nat} {gas total : Uint64} {initialGas : Int}
    (tangerineWhistle : Revision.tangerineWhistle ≤ c.rev) (small : base ≤ 34700)
    (split : callGas c (BitVec.ofNat 64 base) initialGas = some (gas, total))
    (paid : total.toNat ≤ c.gas.toNat) : total.toNat = base + gas.toNat := by
  have := c.gas.isLt
  by_cases short : c.gas.toNat < base
  · obtain ⟨g, t, split', over⟩ := callGas_of_short initialGas tangerineWhistle short small
    rw [split] at split'
    obtain ⟨-, rfl⟩ := Prod.mk.inj (Option.some.inj split')
    omega
  · obtain ⟨within, rfl⟩ := callGas_le tangerineWhistle split
    have exact : (BitVec.ofNat 64 base).toNat = base := by
      rw [BitVec.toNat_ofNat, Nat.mod_eq_of_lt (by omega)]
    rw [BitVec.toNat_sub_of_le (BitVec.le_def.mpr (by omega)), exact] at within
    rw [BitVec.toNat_add, exact, Nat.mod_eq_of_lt (by omega)]

/-- The stipend a value transfer adds to the callee's gas is within the base cost paid for
it. -/
theorem stipend_within (rev : Revision) (op : OpCode) (transfersValue present : Bool)
    (gas : Uint64) : (if transfersValue then gas + 2300 else gas).toNat ≤
      gas.toNat + callBaseGas rev op transfersValue present := by
  cases transfersValue
  · exact Nat.le_add_right _ _
  · have : 9000 ≤ callBaseGas rev op true present := by
      unfold callBaseGas
      simp
    exact (toNat_add_le _ _).trans (by simp only [show (2300 : Uint64).toNat = 2300 from rfl]; omega)

/-- `callChild`, over a host whose calls from the frame's host state return at most the gas
they are given: the frame gets back at most the gas it set aside. -/
theorem callChild_spends {callType : CallKind} {recipient caller codeAddress : Address}
    {value : Option Int} {transfersValue isStatic : Bool} {args : Bytes} {retOffset retSize : Int}
    {gas : Uint64} (returns : host.Returns c.host)
    (h : callChild host callType c recipient caller codeAddress value transfersValue isStatic args
      retOffset retSize gas = .ok c') :
    c'.gas.toNat ≤ c.gas.toNat + gas.toNat ∧ c'.rev = c.rev := by
  unfold callChild at h
  split at h
  · obtain rfl := pure_eq_ok.mp h
    exact ⟨toNat_add_le _ _, rfl⟩
  dsimp only at h
  split at h
  · obtain rfl := pure_eq_ok.mp h
    exact ⟨toNat_add_le _ _, rfl⟩
  simp only [bind_eq_ok] at h
  obtain ⟨⟨h', retValue, gasLeft, _, err⟩, called, h⟩ := h
  have returned := returns _ _ _ _ _ _ _ _ _ _ _ _ _ _ _ called
  have credited : c'.gas = c.gas + gasLeft ∧ c'.rev = c.rev := by
    split at h <;> simp only [bind_eq_ok, pure_eq_ok] at h
    · obtain ⟨_, -, rfl⟩ := h
      exact ⟨rfl, rfl⟩
    · obtain ⟨_, -, _, -, rfl⟩ := h
      exact ⟨rfl, rfl⟩
  rw [credited.1]
  exact ⟨(toNat_add_le c.gas gasLeft).trans (by omega), credited.2⟩

/-- The end of a call opcode from Tangerine Whistle: the charge of the base cost and the gas
set aside, then the child with that gas and the stipend. -/
theorem callChild_charge_spends {op : OpCode} {callType : CallKind} {c₃ : State σ}
    {recipient caller codeAddress : Address} {value : Option Int} {transfersValue present isStatic : Bool}
    {args : Bytes} {retOffset retSize initialGas : Int} {gas total : Uint64}
    (returns : host.Returns c.host) (tangerineWhistle : Revision.tangerineWhistle ≤ c.rev)
    (split : callGas c (BitVec.ofNat 64 (callBaseGas c.rev op transfersValue present)) initialGas =
      some (gas, total))
    (charged : c.consumeGas total = (c₃, true))
    (h : callChild host callType c₃ recipient caller codeAddress value transfersValue isStatic args
      retOffset retSize (if transfersValue then gas + 2300 else gas) = .ok c') : Spends c c' := by
  have paid := consumeGas_charged charged
  have exact := callGas_exact tangerineWhistle (callBaseGas_le _ _ _ _) split (by omega)
  have stipend := stipend_within c.rev op transfersValue present gas
  have host₃ : c₃.host = c.host := (keeps_of_fst (consumeGas_keeps _) charged).2.2.2.1
  obtain ⟨credited, rev⟩ := callChild_spends (by rw [host₃]; exact returns) h
  exact ⟨by omega, rev.trans (spends_local.charged (.refl c) charged).rev⟩

theorem opCallBody_spends {op : OpCode} (returns : host.Returns c.host)
    (tangerineWhistle : Revision.tangerineWhistle ≤ c.rev) (h : opCallBody host op c = .ok c') :
    Spends c c' := by
  unfold opCallBody at h
  simp only [bind_eq_ok, deref_eq_ok, State.popAddr_snd] at h
  obtain ⟨callType, -, _, -, _, -, _, -, _, -, _, -, ⟨c₁, out⟩, got, h⟩ := h
  have spent := spends_local.got (spends_local.agree ((Agree.refl c).pop.pop.popIf _).pop.pop.pop.pop) got
  have pops := ((Pops.refl c).pop.pop.popIf _).pop.pop.pop.pop.keeps (get2_keeps got)
  cases out with
  | none => exact pure_eq_ok.mp h ▸ spent
  | some args =>
      dsimp only at h
      split at h <;> rename_i c₂ checked <;> have spent := spends_local.checked spent checked
      · exact pure_eq_ok.mp h ▸ spent
      have host₂ : c₂.host = c.host := (pops.keeps (keeps_of_fst (checkMemory_keeps _ _) checked)).2.2.2.1
      rw [callBaseGas_eq] at h
      split at h
      · exact pure_eq_ok.mp h ▸ spent.trans (.same rfl rfl)
      rename_i gas total split
      split at h <;> rename_i c₃ charged
      · exact pure_eq_ok.mp h ▸ spends_local.charged spent charged
      · exact spent.trans (callChild_charge_spends (by rw [host₂]; exact returns)
          (by rw [spent.rev]; exact tangerineWhistle) split charged h)

theorem opCall_spends {op : OpCode} (returns : host.Returns c.host)
    (tangerineWhistle : Revision.tangerineWhistle ≤ c.rev) (h : opCall host op c = .ok c') :
    Spends c c' := by
  have reset : Spends c c.resetReturnData := .same rfl rfl
  unfold opCall at h
  dsimp only at h
  split at h
  · simp only [bind_eq_ok, map_eq_ok] at h
    obtain ⟨_, ⟨v, -, rfl⟩, h⟩ := h
    split at h
    · exact pure_eq_ok.mp h ▸ .same rfl rfl
    split at h
    · exact pure_eq_ok.mp h ▸ .same rfl rfl
    split at h
    · exact pure_eq_ok.mp h ▸ .same rfl rfl
    exact reset.trans (opCallBody_spends returns tangerineWhistle h)
  · simp only [pure_bind, Bool.false_eq_true, if_false] at h
    split at h
    · exact pure_eq_ok.mp h ▸ .same rfl rfl
    split at h
    · exact pure_eq_ok.mp h ▸ .same rfl rfl
    exact reset.trans (opCallBody_spends returns tangerineWhistle h)

end Handlers

/-! Every handler, one turn of the loop, and a run. -/

section Dispatch

variable {host : Host σ} {c c' : State σ}

/-- Every handler spends from Tangerine Whistle on, over a host whose calls from the frame's
host state return at most the gas they are given. -/
theorem Instr.exec_spends {i : Instr} {keccak256 : Bytes → Hash} (returns : host.Returns c.host)
    (tangerineWhistle : Revision.tangerineWhistle ≤ c.rev) (h : i.exec host keccak256 c = .ok c') :
    Spends c c' := by
  cases i with
  | jump => exact opJump_spends h
  | jumpi => exact opJumpi_spends h
  | push n => exact opPush_spends h
  | create op => exact opCreate_spends returns h
  | call op => exact opCall_spends returns tangerineWhistle h
  | _ => exact Instr.exec_local spends_local (by exact trivial) h

variable {rt : Runtime}

/-- One turn of the loop: the base gas of the handler, the handler, and the stack test. -/
theorem step_spends (returns : host.Returns c.host)
    (tangerineWhistle : Revision.tangerineWhistle ≤ c.rev) (h : step rt host c = .ok c') :
    Spends c c' := by
  simp only [step, bind_eq_ok] at h
  obtain ⟨_, -, h⟩ := h
  split at h
  · exact pure_eq_ok.mp h ▸ .same rfl rfl
  split at h
  · exact pure_eq_ok.mp h ▸ .same rfl rfl
  split at h <;> rename_i c₁ charged <;> have first := spends_local.charged (.refl c) charged
  · exact pure_eq_ok.mp h ▸ first.trans (.same rfl rfl)
  obtain ⟨c₂, executed, h⟩ := bind_eq_ok.mp h
  have host₁ : c₁.host = c.host := (keeps_of_fst (consumeGas_keeps _) charged).2.2.2.1
  have second := first.trans (Instr.exec_spends (by rw [host₁]; exact returns)
    (by rw [first.rev]; exact tangerineWhistle) executed)
  split at h <;> exact pure_eq_ok.mp h ▸ second.trans (.same rfl rfl)

/-- A run from Tangerine Whistle on, over a host honest from the host state it starts with:
the frame stops with at most the gas it started with. -/
theorem run_spends (wellFormed : rt.WellFormed) {Kept : σ → Prop} (honest : host.Honest Kept) :
    ∀ {fuel : Nat} {c c' : State σ}, Kept c.host → Revision.tangerineWhistle ≤ c.rev →
      run rt host fuel c = .ok c' → Spends c c'
  | 0, _, _, _, _, h => absurd h throw_ne_ok
  | fuel + 1, c, c', start, tangerineWhistle, h => by
      unfold run at h
      split at h
      · exact pure_eq_ok.mp h ▸ .refl c
      split at h
      · exact pure_eq_ok.mp h ▸ .same rfl rfl
      obtain ⟨c₁, stepped, h⟩ := bind_eq_ok.mp h
      have first := step_spends (honest.returns _ start) tangerineWhistle stepped
      have next : Kept c₁.host := (step_effect wellFormed stepped).hostState.elim
        (fun same => same ▸ start) (honest.kept _ _ _ _ · start)
      split at h
      · exact pure_eq_ok.mp h ▸ first
      · exact first.trans (run_spends wellFormed honest next
          (by rw [first.rev]; exact tangerineWhistle) h)

/-- `EVM.Run` from Tangerine Whistle on, over a host honest from the host state it is given:
the gas left it returns is at most the gas it was given. -/
theorem evmRun_spends (wellFormed : rt.WellFormed) {Kept : σ → Prop} (honest : host.Honest Kept)
    {rev : Revision} {fuel : Nat} {h : σ} {typ : CallKind} {recipient sender codeAddress : Address}
    {value : Int} {input : Bytes} {gas : Uint64} {depth : Nat} {static : Bool}
    {r : σ × Bytes × Uint64 × Option Error} (start : Kept h)
    (tangerineWhistle : Revision.tangerineWhistle ≤ rev)
    (ran : evmRun rt host rev fuel h typ recipient sender value input gas depth static
      codeAddress = .ok r) : r.2.2.1.toNat ≤ gas.toNat := by
  obtain ⟨s, stopped, returned⟩ := bind_eq_ok.mp ran
  obtain rfl := pure_eq_ok.mp returned
  have spent := run_spends wellFormed honest start tangerineWhistle stopped
  dsimp only
  split
  · exact Nat.zero_le _
  · exact spent.gas

end Dispatch

end GoEvm.Evm