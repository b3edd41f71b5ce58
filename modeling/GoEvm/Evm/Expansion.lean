import GoEvm.Evm.Flow

/-! The size of a frame's memory and its price. `checkMemory` is the only code that resizes
the memory: it grows it to a whole number `w` of words, after recording in `lastGasCost` the
cost `3w + w²/512` it charges the increment of, in `uint64`, and its operand limits cap the
end of a range at `2 · 0xffffffffe0` bytes. Every other write into memory keeps its length. So
at every frame `Run` dispatches at, from the frame `EVM.Run` starts, whatever the table and the
host, the memory is a whole number of words within that cap, which is what MSIZE pushes, and
`lastGasCost` is the cost of those words, from which the next expansion is charged. A frame
that ran out of gas in a memory check has recorded the cost of the memory it did not get; it
has stopped. -/
namespace GoEvm.Evm

variable {σ : Type}

/-- The cost `checkMemory` records for `w` words: `3w + w²/512`, in `uint64`. -/
def memoryGas (w : Uint64) : Uint64 := 3 * w + w * w / 512

/-- The memory of a frame is a whole number of words, at most the `2 · 0xffffffffe0` bytes
`checkMemory` grows it to, and while the frame runs, `lastGasCost` is the cost of its words. -/
structure State.Priced (c : State σ) : Prop where
  words : c.memory.length % 32 = 0
  within : c.memory.length ≤ 2 * 0xffffffffe0
  cost : c.stop = false → c.lastGasCost = memoryGas (BitVec.ofNat 64 (c.memory.length / 32))

theorem initialState_priced (host : Host σ) (rev : Revision) (h : σ) (typ : CallKind)
    (recipient sender : Address) (value : Int) (input : Bytes) (gas : Uint64) (depth : Nat)
    (static : Bool) (codeAddress : Address) :
    (initialState host rev h typ recipient sender value input gas depth static codeAddress).Priced :=
  ⟨rfl, Nat.zero_le _, fun _ => show (0 : Uint64) = memoryGas (BitVec.ofNat 64 (0 / 32)) by decide⟩

namespace State.Priced

variable {c c' : State σ}

/-- `Priced` reads the memory's length, the last cost and the stop flag, the end of the
ledger. -/
theorem congr (priced : c.Priced) (same : c'.ledger.2.2.2.2 = c.ledger.2.2.2.2) : c'.Priced := by
  simp only [State.ledger, Prod.mk.injEq] at same
  obtain ⟨length, cost, stop⟩ := same
  exact ⟨length ▸ priced.words, length ▸ priced.within,
    fun running => by rw [length, cost]; exact priced.cost (stop ▸ running)⟩

/-- A stopped frame whose memory has the length of a priced one. -/
theorem stopped (priced : c.Priced) (length : c'.memory.length = c.memory.length)
    (stop : c'.stop = true) : c'.Priced :=
  ⟨length ▸ priced.words, length ▸ priced.within, fun running => absurd (stop.symm.trans running) (by decide)⟩

end State.Priced

@[simp] theorem State.consumeGas_memory (c : State σ) (gas : Uint64) :
    (c.consumeGas gas).1.memory = c.memory := by
  unfold State.consumeGas; split <;> rfl

@[simp] theorem State.consumeGas_lastGasCost (c : State σ) (gas : Uint64) :
    (c.consumeGas gas).1.lastGasCost = c.lastGasCost := by
  unfold State.consumeGas; split <;> rfl

@[simp] theorem length_extendByteSlice (b : Bytes) (n : Nat) : (State.extendByteSlice b n).length = n := by
  unfold State.extendByteSlice
  split <;> simp only [List.length_take, List.length_append, List.length_replicate] <;> omega

/-- The end of a range `checkMemory` admits and the words it grows the memory to: the
`uint64` sums do not wrap. -/
theorem admittedWords {o s : Uint64} (fo : o.toNat ≤ 0xffffffffe0) (fs : s.toNat ≤ 0xffffffffe0) :
    (o + s).toNat = o.toNat + s.toNat ∧
      ((o + s + 31) / 32).toNat = (o.toNat + s.toNat + 31) / 32 ∧
      ((o + s + 31) / 32 * 32).toNat = 32 * ((o.toNat + s.toNat + 31) / 32) := by
  have e31 : (31 : Uint64).toNat = 31 := rfl
  have e32 : (32 : Uint64).toNat = 32 := rfl
  simp only [BitVec.toNat_add, BitVec.toNat_udiv, BitVec.toNat_mul, e31, e32]
  omega

/-- A memory check keeps a frame priced: it grows the memory to the words of the range's
end, at most `2 · 0xffffffffe0` bytes, and records their cost; or the frame stops first. -/
theorem checkMemory_priced {c : State σ} (offset size : Int) (priced : c.Priced) :
    (c.checkMemory offset size).1.Priced := by
  unfold State.checkMemory
  dsimp only
  split_ifs with zero range limit grows
  · exact priced
  · exact priced.stopped rfl rfl
  · exact priced.stopped rfl rfl
  · simp only [Bool.or_eq_true, decide_eq_true_eq, not_or, BitVec.not_lt] at limit
    have e : (0xffffffffe0 : Uint64).toNat = 0xffffffffe0 := rfl
    rw [BitVec.le_def, e, BitVec.le_def, e] at limit
    obtain ⟨sum, words, grown⟩ := admittedWords limit.1 limit.2
    rw [BitVec.lt_def, BitVec.toNat_ofNat, Nat.mod_eq_of_lt (by have := priced.within; omega),
      sum] at grows
    split <;> rename_i c₁ charged <;>
      have memory : c₁.memory = c.memory := by simpa using (congrArg (·.1.memory) charged).symm
    · exact priced.stopped (by rw [State.exit, memory]) rfl
    · have cost := congrArg (·.1.lastGasCost) charged
      simp only [State.consumeGas_lastGasCost] at cost
      refine ⟨?_, ?_, fun _ => ?_⟩ <;> simp only [length_extendByteSlice, grown]
      · omega
      · omega
      · rw [← cost, Nat.mul_div_cancel_left _ (by decide), memoryGas]
        congr <;> apply BitVec.eq_of_toNat_eq <;> simp only [BitVec.toNat_ofNat, words] <;> omega
  · exact priced

/-- The relation "priced before, priced after" is local, and survives a change of the gas. -/
theorem priced_local : Local (fun c c' : State σ => c.Priced → c'.Priced) where
  agree same priced := priced.congr (congrArg (·.2.2.2.2) same)
  charge c gas priced := by
    unfold State.consumeGas
    split
    exacts [priced.stopped rfl rfl, priced.congr rfl]
  checkMemory _ offset size := checkMemory_priced offset size
  exit _ _ priced := priced.stopped rfl rfl
  halt _ priced := priced.stopped rfl rfl
  trans first second := second ∘ first

theorem priced_credit {c c' : State σ} (same : c'.ledger.2 = c.ledger.2) (priced : c.Priced) :
    c'.Priced :=
  priced.congr (congrArg (·.2.2.2) same)

section Dispatch

variable {rt : Runtime} {host : Host σ} {c c' : State σ}

theorem opJump_priced (h : opJump c = .ok c') (priced : c.Priced) : c'.Priced := by
  simp only [opJump, bind_eq_ok, deref_eq_ok, pure_eq_ok] at h
  obtain ⟨_, -, rfl⟩ := h
  have popped := priced_local.agree (Agree.refl c).pop priced
  unfold jumpTo
  split
  exacts [popped.congr rfl, popped.stopped rfl rfl]

theorem opJumpi_priced (h : opJumpi c = .ok c') (priced : c.Priced) : c'.Priced := by
  simp only [opJumpi, bind_eq_ok, deref_eq_ok, pure_eq_ok] at h
  obtain ⟨_, -, _, -, rfl⟩ := h
  have popped := priced_local.agree (Agree.refl c).pop.pop priced
  split
  · unfold jumpTo
    split
    exacts [popped.congr rfl, popped.stopped rfl rfl]
  · exact popped

theorem opPush_priced {n : Nat} (h : opPush n c = .ok c') (priced : c.Priced) : c'.Priced := by
  unfold opPush at h
  dsimp only at h
  split at h <;> simp only [bind_eq_ok, pure_eq_ok] at h <;> obtain ⟨_, -, _, rfl, rfl⟩ := h <;>
    exact priced.congr rfl

/-- Every handler keeps a frame priced. -/
theorem Instr.exec_priced {i : Instr} {keccak256 : Bytes → Hash}
    (h : i.exec host keccak256 c = .ok c') (priced : c.Priced) : c'.Priced := by
  cases i with
  | jump => exact opJump_priced h priced
  | jumpi => exact opJumpi_priced h priced
  | push n => exact opPush_priced h priced
  | create op => exact opCreate_local priced_local priced_credit h priced
  | call op => exact opCall_local priced_local priced_credit h priced
  | _ => exact Instr.exec_local priced_local (by exact trivial) h priced

/-- One turn of the loop that does not stop the frame keeps it priced. -/
theorem step_priced (h : step rt host c = .ok c') (running : c'.stop = false) (priced : c.Priced) :
    c'.Priced := by
  obtain ⟨-, handler, c₁, c₂, -, -, -, charged, executed, -, rfl⟩ := step_going h running
  exact (Instr.exec_priced executed (priced_local.charged (priced_local.refl c) charged priced)).congr rfl

/-- At every frame `Run` dispatches at, from the frame `EVM.Run` starts, whatever the table
and the host, the memory is a whole number of words, at most `2 · 0xffffffffe0` bytes, and
`lastGasCost` is the `uint64` cost `3w + w²/512` of its `w` words. -/
theorem dispatch_memory_priced {rev : Revision} {h : σ} {typ : CallKind}
    {recipient sender codeAddress : Address} {value : Int} {input : Bytes} {gas : Uint64}
    {depth : Nat} {static : Bool}
    (reached : Dispatches rt host (initialState host rev h typ recipient sender value input gas
      depth static codeAddress) c) :
    c.memory.length % 32 = 0 ∧ c.memory.length ≤ 2 * 0xffffffffe0 ∧
      c.lastGasCost = memoryGas (BitVec.ofNat 64 (c.memory.length / 32)) := by
  have priced : c.Priced :=
    Dispatches.induction State.Priced (initialState_priced ..)
      (fun _ priced stepped running _ => step_priced stepped running priced) reached
  exact ⟨priced.words, priced.within, priced.cost reached.dispatching.1⟩

/-- `PUSH1 7, PUSH1 0, MSTORE8, MSIZE, STOP` with the table of the spec: MSIZE is dispatched
with one word of memory, whose cost `3` is recorded. -/
theorem mstore8_memory_priced :
    ∃ c, Dispatches ⟨dispatchTable, fun _ => 0⟩ silentHost
      (initialState silentHost Revision.istanbul () .create 0 0 0
        [0x60, 0x07, 0x60, 0x00, 0x53, 0x59, 0x00] 100 0 false 0) c ∧
      c.ip = 5 ∧ c.memory.length = 32 ∧ c.lastGasCost = 3 ∧
      (c.memory.length % 32 = 0 ∧ c.memory.length ≤ 2 * 0xffffffffe0 ∧
        c.lastGasCost = memoryGas (BitVec.ofNat 64 (c.memory.length / 32))) := by
  obtain ⟨c, reached, ip, length, cost⟩ : ∃ c, Dispatches ⟨dispatchTable, fun _ => 0⟩ silentHost
      (initialState silentHost Revision.istanbul () .create 0 0 0
        [0x60, 0x07, 0x60, 0x00, 0x53, 0x59, 0x00] 100 0 false 0) c ∧
      c.ip = 5 ∧ c.memory.length = 32 ∧ c.lastGasCost = 3 :=
    ⟨_, .next (.next (.next (.start rfl (by decide)) rfl rfl (by decide)) rfl rfl (by decide)) rfl rfl
      (by decide), rfl, rfl, rfl⟩
  exact ⟨c, reached, ip, length, cost, dispatch_memory_priced reached⟩

end Dispatch

end GoEvm.Evm
