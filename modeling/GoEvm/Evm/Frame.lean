import GoEvm.Evm.State

/-! What the frame operations of `evm/state.go` do to the parts of the frame the results
about handlers follow: the stack, the host state and the static flag. Stated once here, so
that the proofs about handlers never unfold them. -/
namespace GoEvm

theorem bind_eq_ok {ε α β : Type} {x : Except ε α} {f : α → Except ε β} {b : β} :
    x >>= f = .ok b ↔ ∃ a, x = .ok a ∧ f a = .ok b := by
  cases x <;> simp [bind, Except.bind]

@[simp] theorem ok_bind {ε α β : Type} {a : α} {f : α → Except ε β} :
    (Except.ok a >>= f) = f a := rfl

theorem pure_eq_ok {ε α : Type} {a b : α} : (pure a : Except ε α) = .ok b ↔ a = b := by
  simp [pure, Except.pure]

theorem map_eq_ok {ε α β : Type} {x : Except ε α} {f : α → β} {b : β} :
    f <$> x = .ok b ↔ ∃ a, x = .ok a ∧ f a = b := by
  cases x <;> simp [Functor.map, Except.map]

theorem throw_ne_ok {ε α : Type} {e : ε} {b : α} : (throw e : Except ε α) ≠ .ok b := by
  simp [throw, throwThe, MonadExceptOf.throw, Except.error]

namespace Evm

theorem deref_eq_ok {o : Option Int} {v : Int} : deref o = .ok v ↔ o = some v := by
  cases o with
  | none => exact ⟨fun h => absurd h throw_ne_ok, nofun⟩
  | some w => simp [deref, pure, Except.pure]

theorem slice_eq_ok {s out : Bytes} {lo hi : Nat} (h : slice s lo hi = .ok out) :
    out.length ≤ hi - lo := by
  unfold slice at h
  split at h
  · rw [pure_eq_ok] at h
    subst h
    simp only [List.length_take, List.length_drop]
    exact Nat.min_le_left _ _
  · exact absurd h throw_ne_ok

namespace State

variable {σ : Type} (c : State σ)

@[simp] theorem pop_stack : c.pop.2.stack = c.stack.tail := by
  unfold pop; split <;> simp_all

@[simp] theorem pop_fst : c.pop.1 = c.stack.head? := by
  unfold pop; split <;> simp_all

/-- Everything but the stack is untouched by `pop`. -/
theorem pop_eq : c.pop.2 = { c with stack := c.stack.tail } := by
  rcases c with ⟨⟩
  unfold pop; split <;> simp_all

theorem pop_cons {v : Int} {rest : List Int} (stack : c.stack = v :: rest) :
    c.pop = (some v, { c with stack := rest }) := by
  simp [pop, stack]

@[simp] theorem pop_value : c.pop.2.value = c.value := by simp [pop_eq]
@[simp] theorem pop_static : c.pop.2.static = c.static := by simp [pop_eq]
@[simp] theorem pop_host : c.pop.2.host = c.host := by simp [pop_eq]
@[simp] theorem pop_address : c.pop.2.address = c.address := by simp [pop_eq]

/-! The updates that only write the stack, the return data or the halt flags. -/

@[simp] theorem push1_stack (v : Int) : (c.push1 v).stack = v :: c.stack := rfl
@[simp] theorem push1_value (v : Int) : (c.push1 v).value = c.value := rfl
@[simp] theorem push1_static (v : Int) : (c.push1 v).static = c.static := rfl
@[simp] theorem push1_host (v : Int) : (c.push1 v).host = c.host := rfl
@[simp] theorem push1_address (v : Int) : (c.push1 v).address = c.address := rfl
@[simp] theorem setTop_stack (v : Int) : (c.setTop v).stack = v :: c.stack.tail := rfl
@[simp] theorem setTop_value (v : Int) : (c.setTop v).value = c.value := rfl
@[simp] theorem setTop_static (v : Int) : (c.setTop v).static = c.static := rfl
@[simp] theorem setTop_host (v : Int) : (c.setTop v).host = c.host := rfl
@[simp] theorem setTop_address (v : Int) : (c.setTop v).address = c.address := rfl
@[simp] theorem exit_stack (e : Error) : (c.exit e).stack = c.stack := rfl
@[simp] theorem exit_value (e : Error) : (c.exit e).value = c.value := rfl
@[simp] theorem exit_static (e : Error) : (c.exit e).static = c.static := rfl
@[simp] theorem exit_host (e : Error) : (c.exit e).host = c.host := rfl
@[simp] theorem exit_address (e : Error) : (c.exit e).address = c.address := rfl
@[simp] theorem halt_stack : c.halt.stack = c.stack := rfl
@[simp] theorem halt_value : c.halt.value = c.value := rfl
@[simp] theorem halt_static : c.halt.static = c.static := rfl
@[simp] theorem halt_host : c.halt.host = c.host := rfl
@[simp] theorem halt_address : c.halt.address = c.address := rfl
@[simp] theorem resetReturnData_stack : c.resetReturnData.stack = c.stack := rfl
@[simp] theorem resetReturnData_value : c.resetReturnData.value = c.value := rfl
@[simp] theorem resetReturnData_static : c.resetReturnData.static = c.static := rfl
@[simp] theorem resetReturnData_host : c.resetReturnData.host = c.host := rfl
@[simp] theorem resetReturnData_address : c.resetReturnData.address = c.address := rfl
@[simp] theorem top_eq : c.top = c.stack.head? := rfl

/-- `popAddr` pops as `pop` does. -/
@[simp] theorem popAddr_snd : c.popAddr.2.2 = c.pop.2 := by
  unfold popAddr; split <;> rename_i h <;> simp [h]

theorem popAddr_stack : c.popAddr.2.2.stack = c.stack.tail := by simp

/-! The gas charge and the memory check write the gas, the memory and the halt flags. -/

@[simp] theorem consumeGas_stack (gas : Uint64) : (c.consumeGas gas).1.stack = c.stack := by
  unfold consumeGas; split <;> rfl

@[simp] theorem consumeGas_value (gas : Uint64) : (c.consumeGas gas).1.value = c.value := by
  unfold consumeGas; split <;> rfl

@[simp] theorem consumeGas_static (gas : Uint64) : (c.consumeGas gas).1.static = c.static := by
  unfold consumeGas; split <;> rfl

@[simp] theorem consumeGas_host (gas : Uint64) : (c.consumeGas gas).1.host = c.host := by
  unfold consumeGas; split <;> rfl

@[simp] theorem consumeGas_ip (gas : Uint64) : (c.consumeGas gas).1.ip = c.ip := by
  unfold consumeGas; split <;> rfl

@[simp] theorem consumeGas_address (gas : Uint64) :
    (c.consumeGas gas).1.address = c.address := by
  unfold consumeGas; split <;> rfl

/-- A charge below `2⁶⁴`, in exact arithmetic: the frame exits when its gas is short and is
charged the amount otherwise. -/
theorem consumeGas_ofNat {g : Nat} (small : g < 2 ^ 64) :
    c.consumeGas (BitVec.ofNat 64 g) = if c.gas.toNat < g then (c.exit .outOfGas, false)
      else ({ c with gas := BitVec.ofNat 64 (c.gas.toNat - g) }, true) := by
  have lt : c.gas < BitVec.ofNat 64 g ↔ c.gas.toNat < g := by
    rw [BitVec.lt_def, BitVec.toNat_ofNat, Nat.mod_eq_of_lt small]
  unfold consumeGas
  by_cases short : c.gas.toNat < g
  · rw [if_pos (lt.mpr short), if_pos short]
  · have charged : c.gas - BitVec.ofNat 64 g = BitVec.ofNat 64 (c.gas.toNat - g) := by
      apply BitVec.eq_of_toNat_eq
      simp only [BitVec.toNat_sub, BitVec.toNat_ofNat]
      have := c.gas.isLt
      omega
    rw [if_neg (mt lt.mp short), if_neg short, charged]

/-- The same for any `uint64` charge. -/
theorem consumeGas_toNat (g : Uint64) :
    c.consumeGas g = if c.gas.toNat < g.toNat then (c.exit .outOfGas, false)
      else ({ c with gas := BitVec.ofNat 64 (c.gas.toNat - g.toNat) }, true) := by
  rw [← c.consumeGas_ofNat g.isLt, BitVec.ofNat_toNat, BitVec.setWidth_eq]

/-- `checkMemory` writes only the gas, the memory and the halt flags. -/
theorem checkMemory_frame (offset size : Int) :
    (c.checkMemory offset size).1.stack = c.stack ∧ (c.checkMemory offset size).1.value = c.value ∧
      (c.checkMemory offset size).1.static = c.static ∧
      (c.checkMemory offset size).1.host = c.host ∧
      (c.checkMemory offset size).1.address = c.address := by
  unfold checkMemory consumeGas
  dsimp only
  split_ifs <;> exact ⟨rfl, rfl, rfl, rfl, rfl⟩

@[simp] theorem checkMemory_stack (offset size : Int) :
    (c.checkMemory offset size).1.stack = c.stack := (c.checkMemory_frame offset size).1

@[simp] theorem checkMemory_value (offset size : Int) :
    (c.checkMemory offset size).1.value = c.value := (c.checkMemory_frame offset size).2.1

@[simp] theorem checkMemory_static (offset size : Int) :
    (c.checkMemory offset size).1.static = c.static := (c.checkMemory_frame offset size).2.2.1

@[simp] theorem checkMemory_host (offset size : Int) :
    (c.checkMemory offset size).1.host = c.host := (c.checkMemory_frame offset size).2.2.2.1

@[simp] theorem checkMemory_address (offset size : Int) :
    (c.checkMemory offset size).1.address = c.address := (c.checkMemory_frame offset size).2.2.2.2

/-- `get2` leaves the frame as it is for an empty range and as `checkMemory` leaves it
otherwise, and the bytes it returns are `dst` and at most `length` more. -/
theorem get2_spec {dst : Bytes} {offset length : Int} {c' : State σ} {out : Option Bytes}
    (h : c.get2 dst offset length = .ok (c', out)) :
    (c' = c ∨ c' = (c.checkMemory offset length).1) ∧
      ∀ bytes, out = some bytes → bytes.length ≤ dst.length + (uint64 length).toNat := by
  unfold get2 at h
  split at h
  · obtain ⟨rfl, rfl⟩ := Prod.mk.inj (pure_eq_ok.mp h)
    exact ⟨.inl rfl, by simp⟩
  · split at h <;> rename_i c'' hc
    · obtain ⟨rfl, rfl⟩ := Prod.mk.inj (pure_eq_ok.mp h)
      exact ⟨.inr (by rw [hc]), by simp⟩
    · obtain ⟨bytes, sliced, h⟩ := bind_eq_ok.mp h
      obtain ⟨rfl, rfl⟩ := Prod.mk.inj (pure_eq_ok.mp h)
      have := slice_eq_ok sliced
      refine ⟨.inr (by rw [hc]), ?_⟩
      rintro _ ⟨⟩
      simp only [List.length_append]
      omega

theorem get2_stack {dst : Bytes} {offset length : Int} {c' : State σ} {out : Option Bytes}
    (h : c.get2 dst offset length = .ok (c', out)) : c'.stack = c.stack := by
  rcases (c.get2_spec h).1 with rfl | rfl <;> simp

@[simp] theorem checkMemory_zero (offset : Int) : c.checkMemory offset 0 = (c, true) := rfl

@[simp] theorem consumeGas_zero : c.consumeGas 0 = (c, true) := by
  simp [consumeGas, BitVec.le_def]

end State

end Evm

end GoEvm
