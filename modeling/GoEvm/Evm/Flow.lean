import GoEvm.Evm.Local
import GoEvm.Evm.Dispatch

/-! Where the loop reads its opcodes. `Run` reads the opcode at `ip`, and every handler but
three leaves `ip` where it was, so that the loop's increment moves to the next byte:
`opPush(n)` moves `ip` past its `n` immediate bytes, and JUMP and JUMPI set it to one before a
destination `validJumpdest` accepts, through `int(dest.Uint64() - 1)`, which is `-1` for the
destination 0. The jump bitmap, not under src/, is `bitmapIsSet` from the spec, whose scan
marks JUMPDEST bytes at instruction boundaries. So with a table that registers each PUSH at
its own opcode, every frame `Run` dispatches at, from the frame `EVM.Run` starts, sits at an
instruction boundary of its code: the loop never runs the immediate of a PUSH as an opcode,
and a JUMP that the loop goes on after lands on a JUMPDEST. -/
namespace GoEvm.Evm

variable {σ : Type}

/-- The length of the instruction an opcode starts: a PUSH with its immediate bytes, one byte
otherwise, as the bitmap's scan skips them. -/
def opLength (op : OpCode) : Nat :=
  if 0x60 ≤ op.toNat ∧ op.toNat ≤ 0x7f then op.toNat - 0x5e else 1

/-- The instruction boundaries of a code: its start, and the end of every instruction that
starts at a boundary. -/
inductive Boundary (code : Bytes) : Nat → Prop
  | start : Boundary code 0
  | next {i : Nat} {op : OpCode} (boundary : Boundary code i) (read : code[i]? = some op) :
      Boundary code (i + opLength op)

/-- The scan of the bitmap from a boundary marks JUMPDEST bytes at boundaries only. -/
theorem scanJumpdests_boundary {code : Bytes} {i : Nat} :
    ∀ {fuel j : Nat} {rest : Bytes}, code.drop j = rest → Boundary code j →
      i ∈ scanJumpdests fuel rest j → Boundary code i ∧ code[i]? = some 0x5b
  | 0, _, _, _, _, mem => nomatch mem
  | _ + 1, _, [], _, _, mem => nomatch mem
  | fuel + 1, j, op :: rest, suffix, boundary, mem => by
      have read : code[j]? = some op := by rw [← List.head?_drop, suffix]; rfl
      have after : code.drop (j + 1) = rest := by rw [← List.drop_drop, suffix]; rfl
      have next := boundary.next read
      unfold scanJumpdests at mem
      by_cases push : 0x60 ≤ op.toNat ∧ op.toNat ≤ 0x7f
      · rw [if_pos push, show j + op.toNat - 0x5e = j + 1 + (op.toNat - 0x5f) by omega] at mem
        have skip : j + opLength op = j + 1 + (op.toNat - 0x5f) := by
          rw [opLength, if_pos push]
          omega
        refine scanJumpdests_boundary ?_ (skip ▸ next) mem
        rw [← List.drop_drop, after]
      · rw [if_neg push] at mem
        have plain : opLength op = 1 := if_neg push
        rcases List.mem_append.mp mem with here | later
        · split_ifs at here with dest
          · obtain rfl := List.mem_singleton.mp here
            exact ⟨boundary, dest ▸ read⟩
          · exact absurd here (List.not_mem_nil _)
        · exact scanJumpdests_boundary after (plain ▸ next) later

theorem bitmapIsSet_boundary {code : Bytes} {i : Nat} (set : bitmapIsSet code i = true) :
    Boundary code i ∧ code[i]? = some 0x5b :=
  scanJumpdests_boundary rfl .start (of_decide_eq_true set)

/-! The jumps. -/

/-- `ip` one before a position the jump bitmap marks: the loop's increment lands on it. -/
def Lands (code : Bytes) (ip : Int) : Prop := 0 ≤ ip + 1 ∧ bitmapIsSet code (ip + 1).toNat = true

/-- A destination of fewer than 63 bits has a `Uint64()` below `2^62`. -/
theorem uint64_toNat_lt {x : Int} (short : bitLen x < 63) : (uint64 x).toNat < 2 ^ 62 := by
  unfold bitLen at short
  rw [uint64, BitVec.toNat_ofNat]
  split_ifs at short with zero
  · simp [zero]
  · have := (Nat.log2_lt (Int.natAbs_ne_zero.mpr zero)).mp (by omega : x.natAbs.log2 < 62)
    rw [Nat.mod_eq_of_lt (by omega)]
    exact this

/-- `int(u - 1)` then the loop's increment is `u` again for a `uint64` below `2^63`, also for
`u = 0`, whose predecessor wraps to `-1`. -/
theorem toInt_sub_one_add_one {u : Uint64} (small : u.toNat < 2 ^ 63) :
    (u - 1).toInt + 1 = u.toNat := by
  have one : (1 : Uint64).toNat = 1 := rfl
  rw [BitVec.toInt_eq_toNat_cond, BitVec.toNat_sub, one]
  split <;> omega

/-- A jump `validJumpdest` accepts lands, after the loop's increment, on a position the bitmap
marks; any other stops the frame. The code stays. -/
theorem jumpTo_lands (c : State σ) (dest : Int) :
    (jumpTo c dest).code = c.code ∧ ((jumpTo c dest).stop = true ∨ Lands c.code (jumpTo c dest).ip) := by
  unfold jumpTo
  split
  · rename_i valid
    refine ⟨rfl, .inr ?_⟩
    unfold State.validJumpdest at valid
    dsimp only at valid
    split at valid
    · exact absurd valid Bool.false_ne_true
    rename_i inside
    simp only [Bool.or_eq_true, decide_eq_true_eq, not_or, not_le] at inside
    show 0 ≤ (uint64 dest - 1).toInt + 1 ∧ bitmapIsSet c.code ((uint64 dest - 1).toInt + 1).toNat = true
    have small := uint64_toNat_lt inside.1
    rw [toInt_sub_one_add_one (by omega), Int.toNat_natCast]
    exact ⟨Int.natCast_nonneg _, valid⟩
  · exact ⟨rfl, .inl rfl⟩

/-! Where each handler leaves the code and `ip`. -/

/-- `c'` has the code and the `ip` of `c`. -/
structure Stays (c c' : State σ) : Prop where
  code : c'.code = c.code
  ip : c'.ip = c.ip

theorem stays_local : Local (Stays (σ := σ)) :=
  .ofFields (fun _ _ code ip => ⟨code, ip⟩) (fun c g => ⟨c.consumeGas_code g, c.consumeGas_ip g⟩)
    fun first second => ⟨second.code.trans first.code, second.ip.trans first.ip⟩

/-- The gas a child frame returns is credited back where the code and `ip` are. -/
theorem stays_credit {c c' : State σ} (same : c'.ledger.2 = c.ledger.2) : Stays c c' :=
  ⟨congrArg (·.2.1) same, congrArg (·.2.2.1) same⟩

/-- How far a handler moves `ip` on its own: the immediate of a PUSH. -/
def Instr.pushWidth : Instr → Nat
  | .push n => n
  | _ => 0

section Handlers

variable {host : Host σ} {c c' : State σ}

theorem opJump_moves (h : opJump c = .ok c') : c'.code = c.code ∧ (c'.stop = true ∨ Lands c.code c'.ip) := by
  simp only [opJump, bind_eq_ok, deref_eq_ok, pure_eq_ok] at h
  obtain ⟨_, -, rfl⟩ := h
  simpa only [State.pop_code] using jumpTo_lands c.pop.2 _

theorem opJumpi_moves (h : opJumpi c = .ok c') :
    c'.code = c.code ∧ (c'.stop = true ∨ c'.ip = c.ip ∨ Lands c.code c'.ip) := by
  simp only [opJumpi, bind_eq_ok, deref_eq_ok, pure_eq_ok] at h
  obtain ⟨_, -, _, -, rfl⟩ := h
  split
  · obtain ⟨code, moved⟩ := jumpTo_lands c.pop.2.pop.2 _
    simp only [State.pop_code] at code moved
    exact ⟨code, moved.imp_right .inr⟩
  · exact ⟨by simp, .inr (.inl (by simp))⟩

theorem opPush_moves {n : Nat} (h : opPush n c = .ok c') : c'.code = c.code ∧ c'.ip = c.ip + n := by
  unfold opPush at h
  dsimp only at h
  split at h <;> simp only [bind_eq_ok, pure_eq_ok] at h <;> obtain ⟨_, -, _, rfl, rfl⟩ := h <;>
    exact ⟨rfl, rfl⟩

/-- A handler that leaves `ip` where it was. -/
theorem Stays.moves {i : Instr} (stays : Stays c c') (width : i.pushWidth = 0) :
    c'.code = c.code ∧ (c'.stop = true ∨ c'.ip = c.ip + i.pushWidth ∨ Lands c.code c'.ip) :=
  ⟨stays.code, .inr (.inl (by simp [width, stays.ip]))⟩

/-- Where every handler leaves the code and `ip`: the code stays, and `ip` moves past the
immediate of a PUSH, stays where it was for every other handler, or, after a jump, is one
before a position the bitmap marks, unless the frame has stopped. -/
theorem Instr.exec_moves {i : Instr} {keccak256 : Bytes → Hash} (h : i.exec host keccak256 c = .ok c') :
    c'.code = c.code ∧ (c'.stop = true ∨ c'.ip = c.ip + i.pushWidth ∨ Lands c.code c'.ip) := by
  cases i with
  | jump =>
      obtain ⟨code, moved⟩ := opJump_moves h
      exact ⟨code, moved.imp_right .inr⟩
  | jumpi =>
      obtain ⟨code, moved⟩ := opJumpi_moves h
      exact ⟨code, by simpa only [Instr.pushWidth, Nat.cast_zero, Int.add_zero] using moved⟩
  | push n =>
      obtain ⟨code, moved⟩ := opPush_moves h
      exact ⟨code, .inr (.inl moved)⟩
  | create op => exact (opCreate_local stays_local stays_credit h).moves rfl
  | call op => exact (opCall_local stays_local stays_credit h).moves rfl
  | _ => exact (Instr.exec_local stays_local (by exact trivial) h).moves rfl

end Handlers

/-! One turn of the loop, and the frames it dispatches at. -/

/-- The table moves `ip` past exactly the immediate of the instruction each opcode starts: it
registers the PUSH handlers at their own opcodes, and no other. -/
def Runtime.Aligned (rt : Runtime) : Prop :=
  ∀ op handler, rt.dispatchTable op = some handler → handler.inst.pushWidth + 1 = opLength op

theorem lookup_mem {β : Type} {a : OpCode} {b : β} :
    ∀ {entries : List (OpCode × β)}, entries.lookup a = some b → (a, b) ∈ entries
  | [], h => nomatch h
  | (op, b') :: rest, h => by
      rw [List.lookup_cons] at h
      split at h
      · rename_i same
        obtain rfl := Option.some.inj h
        obtain rfl := beq_iff_eq.mp same
        exact .head _
      · exact .tail _ (lookup_mem h)

set_option maxRecDepth 4000 in
/-- The table modelled from the spec registers PUSH1 to PUSH32 at `0x60` to `0x7f` and no other
PUSH. -/
theorem dispatchTable_aligned (keccak256 : Bytes → Hash) :
    Runtime.Aligned ⟨dispatchTable, keccak256⟩ := by
  intro op handler registered
  have entries : ∀ entry ∈ dispatchEntries, entry.2.inst.pushWidth + 1 = opLength entry.1 := by
    decide
  exact entries _ (lookup_mem registered)

section Dispatch

variable {rt : Runtime} {host : Host σ} {c c' : State σ}

theorem opAt_read {op : OpCode} (h : opAt c = .ok op) : c.code[c.ip.toNat]? = some op := by
  unfold opAt at h
  split at h
  · split at h
    · rename_i read
      rw [read, pure_eq_ok.mp h]
    · exact absurd h throw_ne_ok
  · exact absurd h throw_ne_ok

/-- A turn of the loop that does not stop the frame: the loop read the opcode at `ip`, found its
handler, charged the base gas, ran the handler, and moved `ip` on by one. -/
theorem step_going (h : step rt host c = .ok c') (running : c'.stop = false) :
    ∃ op handler c₁ c₂, c.code[c.ip.toNat]? = some op ∧ 0 ≤ c.ip ∧
      rt.dispatchTable op = some handler ∧ c.consumeGas handler.gas = (c₁, true) ∧
      handler.inst.exec host rt.keccak256 c₁ = .ok c₂ ∧ c₂.stop = false ∧
      c' = { c₂ with ip := c₂.ip + 1 } := by
  have stopped : ∀ {c₁ : State σ} {e : Error}, c' = c₁.exit e → False := by
    rintro c₁ e rfl
    cases running
  simp only [step, bind_eq_ok] at h
  obtain ⟨op, fetched, h⟩ := h
  split at h
  · exact (stopped (pure_eq_ok.mp h).symm).elim
  rename_i handler registered
  split at h
  · exact (stopped (pure_eq_ok.mp h).symm).elim
  split at h <;> rename_i c₁ charged
  · exact (stopped (pure_eq_ok.mp h).symm).elim
  obtain ⟨c₂, executed, h⟩ := bind_eq_ok.mp h
  split at h
  · exact (stopped (pure_eq_ok.mp h).symm).elim
  obtain rfl := pure_eq_ok.mp h
  exact ⟨op, handler, c₁, c₂, opAt_read fetched, opAt_nonneg fetched, registered, charged, executed,
    running, rfl⟩

/-- One turn of the loop that does not stop the frame, with an aligned table: the code stays,
and `ip` moves from the opcode the loop read to the next instruction, or to a position the
bitmap marks. -/
theorem step_moves (aligned : rt.Aligned) (h : step rt host c = .ok c') (running : c'.stop = false) :
    c'.code = c.code ∧ ∃ op, c.code[c.ip.toNat]? = some op ∧ 0 ≤ c.ip ∧
      (c'.ip = c.ip + opLength op ∨ 0 ≤ c'.ip ∧ bitmapIsSet c.code c'.ip.toNat = true) := by
  obtain ⟨op, handler, c₁, c₂, read, nonneg, registered, charged, executed, going, rfl⟩ :=
    step_going h running
  have charged : Stays c c₁ := stays_local.charged (stays_local.refl c) charged
  obtain ⟨code, moved⟩ := Instr.exec_moves executed
  have width := aligned op handler registered
  refine ⟨code.trans charged.code, op, read, nonneg, ?_⟩
  rcases moved with halted | pushed | lands
  · exact absurd halted (by simp [going])
  · left
    show c₂.ip + 1 = c.ip + opLength op
    rw [pushed, charged.ip, ← width]
    omega
  · exact .inr (charged.code ▸ lands)

/-- One turn from a frame at a boundary of its code to a frame the loop goes on with lands on
a boundary, with an aligned table. -/
theorem step_boundary (aligned : rt.Aligned) (boundary : Boundary c.code c.ip.toNat)
    (h : step rt host c = .ok c') (running : c'.stop = false) :
    0 ≤ c'.ip ∧ Boundary c'.code c'.ip.toNat := by
  obtain ⟨code, op, read, nonneg, next | ⟨landed, marked⟩⟩ := step_moves aligned h running
  · have ip : c'.ip.toNat = c.ip.toNat + opLength op := by omega
    exact ⟨by omega, by rw [ip, code]; exact boundary.next read⟩
  · exact ⟨landed, code ▸ (bitmapIsSet_boundary marked).1⟩

/-- Every frame `Run` dispatches at, from the frame `EVM.Run` starts, with a table that
registers each PUSH at its own opcode, sits at an instruction boundary of its code: the loop
reads no immediate of a PUSH as an opcode. -/
theorem dispatch_at_boundary (aligned : rt.Aligned) {rev : Revision} {h : σ} {typ : CallKind}
    {recipient sender codeAddress : Address} {value : Int} {input : Bytes} {gas : Uint64}
    {depth : Nat} {static : Bool}
    (reached : Dispatches rt host (initialState host rev h typ recipient sender value input gas
      depth static codeAddress) c) :
    0 ≤ c.ip ∧ Boundary c.code c.ip.toNat :=
  Dispatches.induction (fun c => 0 ≤ c.ip ∧ Boundary c.code c.ip.toNat) (by exact ⟨Int.le_refl 0, .start⟩)
    (fun _ placed stepped running _ => step_boundary aligned placed.2 stepped running) reached

/-- `PUSH1 0x5b, STOP` run with the table modelled from the spec: STOP is dispatched at 2, a
boundary, past the JUMPDEST byte inside the PUSH. -/
theorem push_immediate_skipped :
    ∃ c, Dispatches ⟨dispatchTable, fun _ => 0⟩ silentHost
      (initialState silentHost Revision.istanbul () .create 0 0 0 [0x60, 0x5b, 0x00] 100 0 false 0) c ∧
      c.ip = 2 ∧ 0 ≤ c.ip ∧ Boundary c.code c.ip.toNat := by
  obtain ⟨c, reached, ip⟩ : ∃ c, Dispatches ⟨dispatchTable, fun _ => 0⟩ silentHost
      (initialState silentHost Revision.istanbul () .create 0 0 0 [0x60, 0x5b, 0x00] 100 0 false 0) c ∧
      c.ip = 2 :=
    ⟨_, .next (.start rfl (by decide)) rfl rfl (by decide), rfl⟩
  exact ⟨c, reached, ip, dispatch_at_boundary (dispatchTable_aligned _) reached⟩

/-- A turn of the loop that runs JUMP and goes on, whatever the table, leaves `ip` on a JUMPDEST
at an instruction boundary of the code. -/
theorem jump_lands_on_jumpdest {op : OpCode} {handler : Handler}
    (registered : rt.dispatchTable op = some handler) (jumps : handler.inst = .jump)
    (read : c.code[c.ip.toNat]? = some op) (h : step rt host c = .ok c') (running : c'.stop = false) :
    0 ≤ c'.ip ∧ c'.code = c.code ∧ Boundary c.code c'.ip.toNat ∧ c.code[c'.ip.toNat]? = some 0x5b := by
  obtain ⟨op', handler', c₁, c₂, read', -, registered', charged, executed, going, rfl⟩ :=
    step_going h running
  obtain rfl : op' = op := Option.some.inj (read'.symm.trans read)
  obtain rfl : handler' = handler := Option.some.inj (registered'.symm.trans registered)
  have charged : Stays c c₁ := stays_local.charged (stays_local.refl c) charged
  rw [jumps] at executed
  obtain ⟨code, halted | ⟨landed, marked⟩⟩ := opJump_moves executed
  · exact absurd halted (by simp [going])
  · rw [charged.code] at marked
    exact ⟨landed, code.trans charged.code, bitmapIsSet_boundary marked⟩

/-- `JUMPDEST, PUSH1 0, JUMP` at its JUMP, with 0 on the stack: a loop back to the start. -/
def jumpFrame : State Unit :=
  { initialState silentHost Revision.istanbul () .create 0 0 0 [0x5b, 0x60, 0x00, 0x56] 100 0 false 0 with
      ip := 3, stack := [0] }

/-- The JUMP of `jumpFrame` sets `ip` to `int(0 - 1) = -1`, and the turn lands on the JUMPDEST
at 0. -/
theorem jump_to_start_lands :
    ∃ c', step ⟨dispatchTable, fun _ => 0⟩ silentHost jumpFrame = .ok c' ∧ c'.ip = 0 ∧
      0 ≤ c'.ip ∧ c'.code = jumpFrame.code ∧ Boundary jumpFrame.code c'.ip.toNat ∧
      jumpFrame.code[c'.ip.toNat]? = some 0x5b := by
  have stepped : step ⟨dispatchTable, fun _ => 0⟩ silentHost jumpFrame = .ok _ := rfl
  exact ⟨_, stepped, rfl, jump_lands_on_jumpdest
    (show dispatchTable 0x56 = some ⟨.jump, 1, 8⟩ by rfl) rfl rfl stepped rfl⟩

/-- A jump to a byte that is not a JUMPDEST, `PUSH1 0, JUMP`, stops the frame with the
invalid-jump error. -/
example : ∃ c', step ⟨dispatchTable, fun _ => 0⟩ silentHost
    { initialState silentHost Revision.istanbul () .create 0 0 0 [0x60, 0x00, 0x56] 100 0 false 0 with
      ip := 2, stack := [0] } = .ok c' ∧ c'.stop = true ∧ c'.err = some .invalidJump :=
  ⟨_, rfl, rfl, rfl⟩

end Dispatch

end GoEvm.Evm
