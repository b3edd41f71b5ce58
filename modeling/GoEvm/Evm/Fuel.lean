import GoEvm.Evm.Run
import GoEvm.Evm.Frame

/-! The loop's fuel and the host's calls. Fuel is this model's bound on the loop, not a
part of the Go code, so a result the loop reaches is reached again with more fuel; and the
host enters a call only through CREATE, CREATE2 and the four call opcodes, taking the
result of `Host.Call` as it is, so a host whose calls answer every call the first one answers
at a depth of at most 1024, as it does, gives the same result too. This is what lets `Callx` run its frames with more
fuel for the frames they call. -/
namespace GoEvm.Evm

variable {σ : Type} {host : Host σ}
  {call : σ → CallKind → Address → Address → Hash → Bytes → Uint64 → Nat → Bool → Hash →
    Address → Except Fault (σ × Bytes × Uint64 × Address × Option Error)}

/-- `call` answers every call `host` answers at a depth of at most 1024, as `host` does. A
frame calls its host only below depth 1024, at its own depth plus one. -/
def Host.CallsAs (host : Host σ) (call : σ → CallKind → Address → Address → Hash → Bytes →
    Uint64 → Nat → Bool → Hash → Address → Except Fault (σ × Bytes × Uint64 × Address × Option Error)) :
    Prop :=
  ∀ h kind recipient sender value input gas depth static salt codeAddress r, depth ≤ 1024 →
    host.call h kind recipient sender value input gas depth static salt codeAddress = .ok r →
      call h kind recipient sender value input gas depth static salt codeAddress = .ok r

variable {c c' : State σ}

/-- A branch on one condition keeps an `ok` result that each side keeps. -/
theorem ite_ok {ε α : Type} {p : Prop} [Decidable p] {x y x' y' : Except ε α} {a : α}
    (pos : x = .ok a → x' = .ok a) (neg : y = .ok a → y' = .ok a)
    (h : (if p then x else y) = .ok a) : (if p then x' else y') = .ok a := by
  split
  · exact pos (by rwa [if_pos ‹p›] at h)
  · exact neg (by rwa [if_neg ‹¬p›] at h)

/-- The call handlers' last step: a child frame entered through `Host.Call`. -/
theorem callChild_withCall (calls : host.CallsAs call) {callType : CallKind}
    {recipient caller codeAddress : Address} {value : Option Int} {transfersValue isStatic : Bool}
    {args : Bytes} {retOffset retSize : Int} {gas : Uint64}
    (h : callChild host callType c recipient caller codeAddress value transfersValue isStatic args
      retOffset retSize gas = .ok c') :
    callChild { host with call } callType c recipient caller codeAddress value transfersValue
      isStatic args retOffset retSize gas = .ok c' := by
  unfold callChild at h ⊢
  refine ite_ok id (fun h => ?_) h
  dsimp only at h ⊢
  by_cases deep : 1024 ≤ c.depth
  · rwa [if_pos deep] at h ⊢
  rw [if_neg deep] at h ⊢
  obtain ⟨r, called, h⟩ := bind_eq_ok.mp h
  exact bind_eq_ok.mpr ⟨r, calls _ _ _ _ _ _ _ _ _ _ _ _ (by omega) called, h⟩

theorem opCallBody_withCall (calls : host.CallsAs call) {op : OpCode}
    (h : opCallBody host op c = .ok c') : opCallBody { host with call } op c = .ok c' := by
  unfold opCallBody at h ⊢
  simp only [bind_eq_ok] at h ⊢
  obtain ⟨callType, kind, g, hg, i, hi, s, hs, o, ho, z, hz, ⟨c₁, out⟩, got, h⟩ := h
  refine ⟨callType, kind, g, hg, i, hi, s, hs, o, ho, z, hz, ⟨c₁, out⟩, got, ?_⟩
  rcases out with _ | args
  · exact h
  rcases checked : c₁.checkMemory o z with ⟨c₂, _ | _⟩ <;> simp only [checked] at h ⊢
  · exact h
  split at h <;> rename_i charge <;> simp only [charge]
  · exact h
  rename_i cost
  rcases charged : c₂.consumeGas cost with ⟨c₃, _ | _⟩ <;> simp only [charged] at h ⊢
  · exact h
  · exact callChild_withCall calls h

theorem opCall_withCall (calls : host.CallsAs call) {op : OpCode}
    (h : opCall host op c = .ok c') : opCall { host with call } op c = .ok c' := by
  unfold opCall at h ⊢
  dsimp only at h ⊢
  refine ite_ok (fun h => ?_) (fun h => ?_) h <;>
  · obtain ⟨v, peeked, h⟩ := bind_eq_ok.mp h
    exact bind_eq_ok.mpr ⟨v, peeked, ite_ok id (ite_ok id (ite_ok id (opCallBody_withCall calls))) h⟩

/-- The creation handlers' last step: a child frame entered through `Host.Call`. -/
theorem createChild_withCall (calls : host.CallsAs call) {op : OpCode} {value salt : Option Int}
    {input : Bytes} {gas : Uint64}
    (h : createChild host op c value input salt gas = .ok c') :
    createChild { host with call } op c value input salt gas = .ok c' := by
  unfold createChild at h ⊢
  by_cases deep : 1024 ≤ c.depth
  · rwa [if_pos deep] at h ⊢
  rw [if_neg deep] at h ⊢
  obtain ⟨callType, kind, h⟩ := bind_eq_ok.mp h
  obtain ⟨r, called, h⟩ := bind_eq_ok.mp h
  exact bind_eq_ok.mpr ⟨callType, kind,
    bind_eq_ok.mpr ⟨r, calls _ _ _ _ _ _ _ _ _ _ _ _ (by omega) called, h⟩⟩

theorem opCreate_withCall (calls : host.CallsAs call) {op : OpCode}
    (h : opCreate host op c = .ok c') : opCreate { host with call } op c = .ok c' := by
  unfold opCreate at h ⊢
  refine ite_ok id (ite_ok id (fun h => ?_)) h
  simp only [bind_eq_ok] at h ⊢
  obtain ⟨o, ho, l, hl, ⟨c₁, out⟩, got, h⟩ := h
  refine ⟨o, ho, l, hl, ⟨c₁, out⟩, got, ?_⟩
  rcases out with _ | input
  · exact h
  refine ite_ok id (fun h => ?_) h
  split at h
  · exact h
  split at h
  · exact h
  · exact createChild_withCall calls h

/-- Every handler: only CREATE, CREATE2 and the call opcodes call the host. -/
theorem Instr.exec_withCall (calls : host.CallsAs call) {i : Instr} {keccak256 : Bytes → Hash}
    (h : i.exec host keccak256 c = .ok c') : i.exec { host with call } keccak256 c = .ok c' := by
  cases i with
  | create op => exact opCreate_withCall calls h
  | call op => exact opCall_withCall calls h
  | _ => exact h

variable {rt : Runtime}

/-- One turn of the loop. -/
theorem step_withCall (calls : host.CallsAs call) (h : step rt host c = .ok c') :
    step rt { host with call } c = .ok c' := by
  simp only [step, bind_eq_ok] at h ⊢
  obtain ⟨op, fetched, h⟩ := h
  refine ⟨op, fetched, ?_⟩
  split at h
  · exact h
  refine ite_ok id (fun h => ?_) h
  split at h
  · exact h
  obtain ⟨c₂, executed, h⟩ := bind_eq_ok.mp h
  exact bind_eq_ok.mpr ⟨c₂, Instr.exec_withCall calls executed, h⟩

/-- `Run` reaches the frame it stops at again with more fuel, over a host whose calls answer
as the first host's do. -/
theorem run_mono (calls : host.CallsAs call) :
    ∀ {fuel fuel' : Nat} {c c' : State σ}, fuel ≤ fuel' → run rt host fuel c = .ok c' →
      run rt { host with call } fuel' c = .ok c'
  | 0, _, _, _, _, h => absurd h throw_ne_ok
  | _ + 1, 0, _, _, more, _ => absurd more (Nat.not_succ_le_zero _)
  | fuel + 1, fuel' + 1, c, c', more, h => by
      unfold run at h ⊢
      refine ite_ok id (ite_ok id (fun h => ?_)) h
      obtain ⟨c₁, stepped, h⟩ := bind_eq_ok.mp h
      exact bind_eq_ok.mpr ⟨c₁, step_withCall calls stepped,
        ite_ok id (run_mono calls (Nat.le_of_succ_le_succ more)) h⟩

/-- The same for `EVM.Run`. -/
theorem evmRun_mono (calls : host.CallsAs call) {rev : Revision} {fuel fuel' : Nat} {h : σ}
    {typ : CallKind} {recipient sender codeAddress : Address} {value : Int} {input : Bytes}
    {gas : Uint64} {depth : Nat} {static : Bool} {r : σ × Bytes × Uint64 × Option Error}
    (more : fuel ≤ fuel')
    (ran : evmRun rt host rev fuel h typ recipient sender value input gas depth static
      codeAddress = .ok r) :
    evmRun rt { host with call } rev fuel' h typ recipient sender value input gas depth static
      codeAddress = .ok r := by
  obtain ⟨s, stopped, returned⟩ := bind_eq_ok.mp ran
  exact bind_eq_ok.mpr ⟨s, run_mono calls more stopped, returned⟩

end GoEvm.Evm
