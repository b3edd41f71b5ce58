import GoEvm.Transition.Create
import GoEvm.Evm.Fuel

/-! `Callx`'s fuel. A frame's interpreter loop and the frames it calls run on fuel, a bound
of this model that the Go code does not have. A frame reaches its result again with more
fuel: its loop does (`Evm.run_mono`), and by induction on the fuel so do the frames it
calls, which its host enters through `Callx` with one unit less. So `Apply` and `Write`
give the same result for every fuel past one that suffices. -/
namespace GoEvm

open Evm

namespace Transition

variable {env : Env} {call call' : Transition → Contract → Except Fault CallResult}
  {fuel fuel' : Nat} {t : Transition} {c : Contract}

section Frames

variable (calls : ∀ t c r, c.depth ≤ 1024 → call t c = .ok r → call' t c = .ok r)
  (more : fuel ≤ fuel')
include calls more

/-- A frame's `run` with more fuel, over frames that answer as before at every depth a frame
can call at. -/
theorem run_mono {r : Transition × Bytes × Uint64 × Option Error}
    (h : t.run env call fuel c = .ok r) : t.run env call' fuel' c = .ok r := by
  unfold Transition.run at h ⊢
  exact ite_ok id (ite_ok id
    (evmRun_mono (fun _ _ _ _ _ _ _ _ _ _ _ _ deep called => calls _ _ _ deep called) more)) h

theorem applyCall_mono {callType : CallKind} {r : CallResult}
    (h : t.applyCall env call fuel c callType = .ok r) :
    t.applyCall env call' fuel' c callType = .ok r := by
  unfold applyCall at h ⊢
  dsimp only at h ⊢
  split at h
  · exact h
  obtain ⟨out, ran, h⟩ := bind_eq_ok.mp h
  exact bind_eq_ok.mpr ⟨out, run_mono calls more ran, h⟩

theorem applyCreate_mono {r : CallResult} (h : t.applyCreate env call fuel c = .ok r) :
    t.applyCreate env call' fuel' c = .ok r := by
  unfold applyCreate at h ⊢
  obtain ⟨address, addressed, h⟩ := bind_eq_ok.mp h
  refine bind_eq_ok.mpr ⟨address, addressed, ite_ok id (fun h => ?_) h⟩
  dsimp only at h ⊢
  split at h
  · exact h
  obtain ⟨out, ran, h⟩ := bind_eq_ok.mp h
  exact bind_eq_ok.mpr ⟨out, run_mono calls more ran, h⟩

end Frames

end Transition

/-- `Callx` reaches its result again with more fuel. -/
theorem callx_mono {env : Env} :
    ∀ {fuel fuel' : Nat} {t : Transition} {c : Contract} {r : CallResult}, fuel ≤ fuel' →
      callx env fuel t c = .ok r → callx env fuel' t c = .ok r
  | 0, _, _, _, _, _, h => absurd h throw_ne_ok
  | _ + 1, 0, _, _, _, more, _ => absurd more (Nat.not_succ_le_zero _)
  | fuel + 1, fuel' + 1, t, c, r, more, h => by
      have more := Nat.le_of_succ_le_succ more
      have calls : ∀ t c r, c.depth ≤ 1024 → callx env fuel t c = .ok r → callx env fuel' t c = .ok r :=
        fun _ _ _ _ => callx_mono more
      unfold callx at h ⊢
      exact ite_ok (Transition.applyCreate_mono calls more) (Transition.applyCall_mono calls more) h

namespace Transition

/-- `Apply` reaches its result again with more fuel. -/
theorem apply_mono {env : Env} {fuel fuel' : Nat} {t : Transition} {msg : Message}
    {r : Transition × Output} (more : fuel ≤ fuel') (h : t.apply env fuel msg = .ok r) :
    t.apply env fuel' msg = .ok r := by
  have calls : ∀ t c r, c.depth ≤ 1024 → callx env fuel t c = .ok r → callx env fuel' t c = .ok r :=
    fun _ _ _ _ => callx_mono more
  unfold apply at h ⊢
  dsimp only at h ⊢
  revert h
  cases msg.«to» with
  | none =>
      intro h
      obtain ⟨out, ran, h⟩ := bind_eq_ok.mp h
      exact bind_eq_ok.mpr ⟨out, applyCreate_mono calls more ran, h⟩
  | some recipient =>
      intro h
      obtain ⟨out, ran, h⟩ := bind_eq_ok.mp h
      exact bind_eq_ok.mpr ⟨out, applyCall_mono calls more ran, h⟩

/-- `Write` gives the same result for every fuel past one that suffices: the fuel bounds the
model's loops and nothing else. -/
theorem write_fuel_mono {env : Env} {fuel fuel' : Nat} {t : Transition} {msg : Message}
    {r : Transition × Except Error Output} (more : fuel ≤ fuel') (h : t.write env fuel msg = .ok r) :
    t.write env fuel' msg = .ok r := by
  unfold write at h ⊢
  split at h
  · exact h
  obtain ⟨out, applied, h⟩ := bind_eq_ok.mp h
  exact bind_eq_ok.mpr ⟨out, apply_mono more applied, h⟩

end Transition

end GoEvm
