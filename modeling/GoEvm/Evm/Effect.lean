import GoEvm.Evm.Frame
import GoEvm.Evm.Run

/-! What a handler, and one turn of `Run`'s loop, can do to the frame. It is stated once,
for every handler, as an `Effect`: the value, the static flag and the address stay; the host
state stays, or moves by one host call, a write to the frame's own account only outside a
static frame, and a call that enters a `CallEntry` of the frame, out of a static frame only
as a static call; and a stack of words stays one, given a value and a block context of
words, except after a PUSH cut short by the end of the code, which leaves the loop. The results about runs are derived from `step_effect` and never unfold a
handler. -/
namespace GoEvm.Evm

variable {σ : Type}

/-! Stacks of words. -/

/-- Every entry of the stack is a word. -/
def Words (stack : List Int) : Prop := ∀ v ∈ stack, IsWord v

@[simp] theorem words_nil : Words [] := nofun

@[simp] theorem words_cons {v : Int} {stack : List Int} :
    Words (v :: stack) ↔ IsWord v ∧ Words stack :=
  List.forall_mem_cons

theorem Words.tail {stack : List Int} (words : Words stack) : Words stack.tail :=
  fun _ mem => words _ (List.mem_of_mem_tail mem)

theorem Words.drop {stack : List Int} (words : Words stack) (n : Nat) : Words (stack.drop n) :=
  fun _ mem => words _ (List.mem_of_mem_drop mem)

theorem Words.head? {stack : List Int} {v : Int} (words : Words stack)
    (top : stack.head? = some v) : IsWord v :=
  words _ (List.mem_of_mem_head? top)

/-- The `int64` fields of the block context, which TIMESTAMP, NUMBER and GASLIMIT push
signed, are not negative. -/
def ContextWords (ctx : EvmcTxContext) : Prop :=
  0 ≤ ctx.number.toInt ∧ 0 ≤ ctx.timestamp.toInt ∧ 0 ≤ ctx.gasLimit.toInt

theorem isWord_toInt {x : Uint64} (nonneg : 0 ≤ x.toInt) : IsWord x.toInt := by
  refine ⟨nonneg, ?_⟩
  have := x.isLt
  rw [BitVec.toInt_eq_toNat_cond]
  split <;> omega

/-! Host effects. -/

/-- The calls a static frame makes: a CALL that moves no value, a CALLCODE or a
DELEGATECALL, whose value the Transition does not move. -/
def StaticCall (kind : CallKind) (value : Hash) : Prop :=
  kind = .call ∧ value = 0 ∨ kind = .callCode ∨ kind = .delegateCall

/-- The frames a frame at `address` enters through `Host.Call`: a creation with the frame
as its creator, and a call that runs in the frame's own account (CALLCODE, DELEGATECALL) or
in an account with that account's own code (CALL, STATICCALL). -/
def CallEntry (address : Address) : CallKind → Address → Address → Address → Prop
  | .create, _, sender, _ | .create2, _, sender, _ => sender = address
  | _, recipient, _, codeAddress => recipient = address ∨ recipient = codeAddress

/-- The host calls that change the host state `h` of a frame at `address` whose static flag
is `static`: the three writes, to the frame's own account and only when the frame is not
static, and a call that enters a `CallEntry` of the frame, static when the frame is, and then
one of the `StaticCall`s. -/
inductive HostEffect (host : Host σ) (static : Bool) (address : Address) (h : σ) : σ → Prop
  | setStorage (key value : Hash) (writable : static = false) :
      HostEffect host static address h (host.setStorage h address key value).1
  | emitLog (topics : List Hash) (data : Bytes) (writable : static = false) :
      HostEffect host static address h (host.emitLog h address topics data)
  | selfdestruct (beneficiary : Address) (writable : static = false) :
      HostEffect host static address h (host.selfdestruct h address beneficiary)
  | call {kind : CallKind} {recipient sender : Address} {value : Hash} {input : Bytes}
      {gas : Uint64} {depth : Nat} {callStatic : Bool} {salt : Hash} {codeAddress : Address}
      {h' : σ} {result : Bytes × Uint64 × Address × Option Error}
      (inherited : static = true → callStatic = true)
      (restricted : callStatic = true → StaticCall kind value)
      (entered : CallEntry address kind recipient sender codeAddress)
      (returned : host.call h kind recipient sender value input gas depth callStatic salt
        codeAddress = .ok (h', result)) :
      HostEffect host static address h h'

/-- What the results about handlers ask of a table: a PUSH reads at most 32 bytes, and a
call handler is built with one of the four call opcodes. -/
def Instr.WellFormed : Instr → Prop
  | .push n => n ≤ 32
  | .call op => op = OpCode.CALL ∨ op = OpCode.CALLCODE ∨ op = OpCode.DELEGATECALL ∨
      op = OpCode.STATICCALL
  | _ => True

instance : DecidablePred Instr.WellFormed := fun i =>
  match i with
  | .push n => inferInstanceAs (Decidable (n ≤ 32))
  | .call _ => inferInstanceAs (Decidable (_ ∨ _))
  | .stop | .add | .mul | .sub | .div | .sdiv | .mod | .smod | .exp | .addmod | .mulmod
  | .and | .or | .xor | .byte | .not | .iszero | .eq | .lt | .gt | .slt | .sgt | .signextend
  | .shl | .shr | .sar | .mload | .mstore | .mstore8 | .sload | .sstore | .sha3 | .pop
  | .address | .balance | .selfbalance | .chainid | .origin | .caller | .callvalue
  | .calldataload | .calldatasize | .codesize | .extcodesize | .gasprice | .returndatasize
  | .extcodehash | .pc | .msize | .gas | .extcodecopy | .calldatacopy | .returndatacopy
  | .codecopy | .blockhash | .coinbase | .timestamp | .number | .difficulty | .gaslimit
  | .selfdestruct | .jump | .jumpi | .jumpdest | .dup _ | .swap _ | .log _ | .create _
  | .halt _ => isTrue trivial

/-! The frame operations that keep the value, the flag, the host and the stack. -/

section Keeps

variable {c c' : State σ}

/-- `c'` has the value, the flag, the address, the host state and the stack of `c`. -/
def Keeps (c c' : State σ) : Prop :=
  c'.value = c.value ∧ c'.static = c.static ∧ c'.address = c.address ∧ c'.host = c.host ∧
    c'.stack = c.stack

theorem Keeps.refl (c : State σ) : Keeps c c := ⟨rfl, rfl, rfl, rfl, rfl⟩

theorem Keeps.trans {c'' : State σ} (first : Keeps c c') (second : Keeps c' c'') :
    Keeps c c'' :=
  ⟨second.1.trans first.1, second.2.1.trans first.2.1, second.2.2.1.trans first.2.2.1,
    second.2.2.2.1.trans first.2.2.2.1, second.2.2.2.2.trans first.2.2.2.2⟩

theorem consumeGas_keeps (gas : Uint64) : Keeps c (c.consumeGas gas).1 := by
  simp [Keeps]

theorem checkMemory_keeps (offset size : Int) : Keeps c (c.checkMemory offset size).1 := by
  simp [Keeps]

theorem keeps_of_fst {p : State σ × Bool} {b : Bool} (step : Keeps c p.1) (h : p = (c', b)) :
    Keeps c c' := by
  subst h; exact step

theorem get2_keeps {dst : Bytes} {offset length : Int} {out : Option Bytes}
    (h : c.get2 dst offset length = .ok (c', out)) : Keeps c c' := by
  rcases (c.get2_spec h).1 with rfl | rfl
  exacts [.refl _, checkMemory_keeps offset length]

theorem popHash_ok {key : Hash} (h : c.popHash = .ok (key, c')) : c' = c.pop.2 := by
  unfold State.popHash at h
  split at h
  · rename_i c'' popped
    obtain ⟨-, rfl⟩ := Prod.mk.inj (pure_eq_ok.mp h)
    rw [popped]
  · exact absurd h throw_ne_ok

theorem copyToMemory_keeps {memOffset dataOffset length : Int} {extraGas : Uint64}
    {source : State σ → Bytes} (h : copyToMemory c memOffset dataOffset length extraGas source =
      .ok c') : Keeps c c' := by
  unfold copyToMemory at h
  split at h <;> rename_i c₁ checked <;>
    have first := keeps_of_fst (checkMemory_keeps _ _) checked
  · exact pure_eq_ok.mp h ▸ first
  dsimp only at h
  split at h <;> rename_i c₂ charged <;>
    have second := first.trans (keeps_of_fst (consumeGas_keeps _) charged)
  · exact pure_eq_ok.mp h ▸ second
  split at h <;> rename_i c₃ extra <;>
    have third := second.trans (keeps_of_fst (consumeGas_keeps _) extra)
  · exact pure_eq_ok.mp h ▸ third
  split at h
  · exact pure_eq_ok.mp h ▸ third
  · simp only [bind_eq_ok, pure_eq_ok] at h
    obtain ⟨_, _, _, _, rfl⟩ := h
    exact third

theorem copyAt_length (dst src : Bytes) {o : Nat} (within : o ≤ dst.length) :
    (copyAt dst o src).length = dst.length := by
  simp only [copyAt, List.length_append, List.length_take, List.length_drop]
  omega

theorem setBytes_fill_length {dst out : Bytes} {start n : Nat}
    (h : setBytes.fill dst start n = .ok out) : out.length = dst.length := by
  unfold setBytes.fill at h
  split at h
  · obtain rfl := pure_eq_ok.mp h
    simp only [List.length_append, List.length_take, List.length_replicate, List.length_drop]
    omega
  · exact absurd h throw_ne_ok

/-- `setBytes` writes into `dst` and never changes its length. -/
theorem setBytes_length {dst input out : Bytes} {size : Uint64} {dataOffset : Int}
    (h : setBytes dst input size dataOffset = .ok out) : out.length = dst.length := by
  unfold setBytes at h
  split at h
  · exact setBytes_fill_length h
  · dsimp only at h
    have copied : (if 0 < min size.toNat (input.length - min (uint64 dataOffset).toNat
        input.length) then copyAt dst 0 ((input.drop (min (uint64 dataOffset).toNat
          input.length)).take (min size.toNat (input.length - min (uint64 dataOffset).toNat
            input.length))) else dst).length = dst.length := by
      split <;> simp [copyAt_length]
    split at h
    · rw [setBytes_fill_length h, copied]
    · rw [← pure_eq_ok.mp h, copied]

theorem jumpTo_keeps (dest : Int) : Keeps c (jumpTo c dest) := by
  unfold jumpTo; split <;> exact ⟨rfl, rfl, rfl, rfl, rfl⟩

end Keeps

/-- What a handler does to the frame `c` it returns as `c'`. -/
structure Effect (host : Host σ) (c c' : State σ) : Prop where
  value : c'.value = c.value
  static : c'.static = c.static
  address : c'.address = c.address
  hostState : c'.host = c.host ∨ HostEffect host c.static c.address c.host c'.host
  words : Words c.stack → IsWord c.value → ContextWords (host.getTxContext c.host) →
    Words c'.stack ∨ (c'.code.length : Int) ≤ c'.ip + 1

section Shapes

variable {host : Host σ} {c c' : State σ}

/-- A handler that leaves the value, the flag, the address and the host as they were and a
stack of words. -/
theorem Effect.ofKeeps (value : c'.value = c.value) (static : c'.static = c.static)
    (address : c'.address = c.address) (kept : c'.host = c.host)
    (words : Words c.stack → IsWord c.value → ContextWords (host.getTxContext c.host) →
      Words c'.stack) : Effect host c c' :=
  ⟨value, static, address, .inl kept, fun stack value context => .inl (words stack value context)⟩

/-- A handler that only pops. -/
theorem Effect.ofSuffix (value : c'.value = c.value) (static : c'.static = c.static)
    (address : c'.address = c.address) (kept : c'.host = c.host)
    (suffix : ∃ n, c'.stack = c.stack.drop n) : Effect host c c' :=
  .ofKeeps value static address kept fun words _ _ => by
    obtain ⟨n, stack⟩ := suffix
    exact stack ▸ words.drop n

theorem Keeps.effect (keeps : Keeps c c') : Effect host c c' :=
  .ofKeeps keeps.1 keeps.2.1 keeps.2.2.1 keeps.2.2.2.1 fun words _ _ => keeps.2.2.2.2 ▸ words

theorem exit_effect (e : Error) : Effect host c (c.exit e) :=
  .ofSuffix rfl rfl rfl rfl ⟨0, rfl⟩

theorem push1_effect {v : Int} (word : IsWord c.value →
    ContextWords (host.getTxContext c.host) → IsWord v) : Effect host c (c.push1 v) :=
  .ofKeeps rfl rfl rfl rfl fun words value context => by
    simpa only [State.push1_stack, words_cons] using ⟨word value context, words⟩

/-- The handlers that push one value read from the frame or the context. -/
theorem pure_push1_effect {v : Int} (h : (pure (c.push1 v) : Except Fault (State σ)) = .ok c')
    (word : IsWord c.value → ContextWords (host.getTxContext c.host) → IsWord v) :
    Effect host c c' := by
  obtain rfl := pure_eq_ok.mp h
  exact push1_effect word

/-- The same handlers gated on a revision. -/
theorem gated_push1_effect {gate : Bool} {e : Error} {v : Int}
    (h : (if gate then pure (c.exit e) else pure (c.push1 v) : Except Fault (State σ)) = .ok c')
    (word : IsWord c.value → ContextWords (host.getTxContext c.host) → IsWord v) :
    Effect host c c' := by
  split at h <;> obtain rfl := pure_eq_ok.mp h
  exacts [exit_effect e, push1_effect word]

theorem binaryOp_effect {f : Int → Int → Int} (h : binaryOp f c = .ok c')
    (closed : ∀ a b, IsWord a → IsWord b → IsWord (f a b)) : Effect host c c' := by
  simp only [binaryOp, bind_eq_ok, deref_eq_ok, pure_eq_ok, State.pop_fst, State.top_eq,
    State.pop_stack] at h
  obtain ⟨a, first, b, second, rfl⟩ := h
  refine .ofKeeps (by simp) (by simp) (by simp) (by simp) fun words _ _ => ?_
  simpa only [State.setTop_stack, State.pop_stack, words_cons] using
    ⟨closed a b (words.head? first) (words.tail.head? second), words.tail.tail⟩

theorem unaryOp_effect {f : Int → Int} (h : unaryOp f c = .ok c')
    (closed : ∀ a, IsWord a → IsWord (f a)) : Effect host c c' := by
  simp only [unaryOp, bind_eq_ok, deref_eq_ok, pure_eq_ok, State.top_eq] at h
  obtain ⟨a, top, rfl⟩ := h
  refine .ofKeeps rfl rfl rfl rfl fun words _ _ => ?_
  simpa only [State.setTop_stack, words_cons] using ⟨closed a (words.head? top), words.tail⟩

theorem modOp_effect {f : Int → Int → Int} (h : modOp f c = .ok c') : Effect host c c' := by
  simp only [modOp, bind_eq_ok, deref_eq_ok, pure_eq_ok] at h
  obtain ⟨_, _, _, _, _, _, rfl⟩ := h
  refine .ofKeeps (by simp) (by simp) (by simp) (by simp) fun words _ _ => ?_
  simpa only [State.setTop_stack, State.pop_stack, words_cons] using
    ⟨isWord_ite isWord_zero (toU256_isWord _), words.tail.tail.tail⟩

theorem shiftOp_effect {overflow : Int → Int} {f : Int → Nat → Int}
    (h : shiftOp overflow f c = .ok c') (overflowed : ∀ v, IsWord (overflow v))
    (closed : ∀ v n, IsWord (f v n)) : Effect host c c' := by
  unfold shiftOp at h
  split at h
  · obtain rfl := pure_eq_ok.mp h
    exact exit_effect _
  · simp only [bind_eq_ok, deref_eq_ok, pure_eq_ok] at h
    obtain ⟨_, _, _, _, rfl⟩ := h
    refine .ofKeeps (by simp) (by simp) (by simp) (by simp) fun words _ _ => ?_
    simpa only [State.setTop_stack, State.pop_stack, words_cons] using
      ⟨isWord_ite (overflowed _) (closed _ _), words.tail.tail⟩

/-- `c'` is `c` with operands popped and its gas, memory or halt flags written: the value,
the flag, the address and the host state are `c`'s, and the stack a suffix of `c`'s. -/
def Pops (c c' : State σ) : Prop :=
  c'.value = c.value ∧ c'.static = c.static ∧ c'.address = c.address ∧ c'.host = c.host ∧
    ∃ n, c'.stack = c.stack.drop n

theorem Pops.refl (c : State σ) : Pops c c := ⟨rfl, rfl, rfl, rfl, 0, rfl⟩

theorem Pops.pop {c₁ : State σ} (pops : Pops c c₁) : Pops c c₁.pop.2 := by
  obtain ⟨value, static, address, kept, n, stack⟩ := pops
  exact ⟨by simp [value], by simp [static], by simp [address], by simp [kept], n + 1,
    by simp [stack, List.tail_drop]⟩

theorem Pops.keeps {c₁ : State σ} (pops : Pops c c₁) (keeps : Keeps c₁ c') : Pops c c' := by
  obtain ⟨value, static, address, kept, n, stack⟩ := pops
  exact ⟨keeps.1.trans value, keeps.2.1.trans static, keeps.2.2.1.trans address,
    keeps.2.2.2.1.trans kept, n, keeps.2.2.2.2.trans stack⟩

theorem Pops.effect (pops : Pops c c') : Effect host c c' :=
  .ofSuffix pops.1 pops.2.1 pops.2.2.1 pops.2.2.2.1 pops.2.2.2.2

/-- A handler that pops, charges, and then ends as another handler does. -/
theorem Effect.ofPops {c₁ : State σ} (pops : Pops c c₁) (effect : Effect host c₁ c') :
    Effect host c c' := by
  obtain ⟨value, static, address, kept, n, stack⟩ := pops
  refine ⟨effect.value.trans value, effect.static.trans static, effect.address.trans address, ?_,
    fun words word context => ?_⟩
  · simpa only [static, address, kept] using effect.hostState
  · exact effect.words (stack ▸ words.drop n) (value ▸ word) (kept ▸ context)

theorem setTop_effect {v : Int} (word : IsWord c.value →
    ContextWords (host.getTxContext c.host) → IsWord v) : Effect host c (c.setTop v) :=
  .ofKeeps rfl rfl rfl rfl fun words value context => by
    simpa only [State.setTop_stack, words_cons] using ⟨word value context, words.tail⟩

end Shapes

/-! The handlers one by one. -/

section Handlers

variable {host : Host σ} {c c' : State σ}

theorem opShl_effect (h : opShl c = .ok c') : Effect host c c' :=
  shiftOp_effect h (fun _ => isWord_zero) (fun _ _ => toU256_isWord _)

theorem opShr_effect (h : opShr c = .ok c') : Effect host c c' :=
  shiftOp_effect h (fun _ => isWord_zero) (fun _ _ => toU256_isWord _)

theorem opSar_effect (h : opSar c = .ok c') : Effect host c c' :=
  shiftOp_effect h (fun _ => isWord_ite isWord_zero isWord_tt256m1) (fun _ _ => toU256_isWord _)

theorem expLoop_isWord (ds : List Uint64) {z : Int} (x : Int) (word : IsWord z) :
    IsWord (expLoop ds z x) := by
  induction ds generalizing z x with
  | nil => exact word
  | cons d ds ih =>
      have squares : ∀ (l : List Nat) (zx : Int × Int), IsWord zx.1 → IsWord (l.foldl
          (fun (zx : Int × Int) i =>
            (if d.getLsbD i then toU256 (zx.1 * zx.2) else zx.1, toU256 (zx.2 * zx.2))) zx).1 := by
        intro l
        induction l with
        | nil => exact fun _ word => word
        | cons i l ih => exact fun zx word => ih _ (isWord_ite (toU256_isWord _) word)
      simp only [expLoop]
      exact ih _ (squares _ _ word)

theorem opExp_effect (h : opExp c = .ok c') : Effect host c c' := by
  simp only [opExp, bind_eq_ok, deref_eq_ok] at h
  obtain ⟨x, -, y, -, h⟩ := h
  split at h <;> rename_i c₁ charged <;> obtain rfl := pure_eq_ok.mp h <;>
    have pops := (Pops.refl c).pop.keeps (keeps_of_fst (consumeGas_keeps _) charged)
  · exact pops.effect
  · exact .ofPops pops (setTop_effect fun _ _ => expLoop_isWord _ _ isWord_one)

theorem opSignExtension_effect (h : opSignExtension c = .ok c') : Effect host c c' := by
  simp only [opSignExtension, bind_eq_ok, deref_eq_ok] at h
  obtain ⟨ext, -, h⟩ := h
  split at h
  · exact pure_eq_ok.mp h ▸ (Pops.refl c).pop.effect
  · split at h
    · exact pure_eq_ok.mp h ▸ (Pops.refl c).pop.effect
    · exact pure_eq_ok.mp h ▸ .ofPops (Pops.refl c).pop (setTop_effect fun _ _ => toU256_isWord _)

theorem opMload_effect (h : opMload c = .ok c') : Effect host c c' := by
  simp only [opMload, bind_eq_ok, deref_eq_ok] at h
  obtain ⟨offset, -, ⟨c₁, out⟩, got, h⟩ := h
  have pops := (Pops.refl c).pop.keeps (get2_keeps got)
  cases out with
  | none => exact pure_eq_ok.mp h ▸ pops.effect
  | some tmp =>
      have short := (c.pop.2.get2_spec got).2 tmp rfl
      have width : (uint64 32).toNat = 32 := rfl
      exact pure_eq_ok.mp h ▸ .ofPops pops
        (push1_effect fun _ _ => isWord_bytesToNat (by simpa [width] using short))

theorem opMStore_effect (h : opMStore c = .ok c') : Effect host c c' := by
  simp only [opMStore, bind_eq_ok, deref_eq_ok] at h
  obtain ⟨offset, -, val, -, h⟩ := h
  split at h <;> rename_i c₁ checked <;>
    have pops := (Pops.refl c).pop.pop.keeps (keeps_of_fst (checkMemory_keeps _ _) checked)
  · exact pure_eq_ok.mp h ▸ pops.effect
  · simp only [bind_eq_ok] at h
    obtain ⟨_, _, _, _, h⟩ := h
    obtain rfl := pure_eq_ok.mp h
    exact Pops.effect (pops.keeps ⟨rfl, rfl, rfl, rfl, rfl⟩)

theorem opMStore8_effect (h : opMStore8 c = .ok c') : Effect host c c' := by
  simp only [opMStore8, bind_eq_ok, deref_eq_ok] at h
  obtain ⟨offset, -, val, -, h⟩ := h
  split at h <;> rename_i c₁ checked <;>
    have pops := (Pops.refl c).pop.pop.keeps (keeps_of_fst (checkMemory_keeps _ _) checked)
  · exact pure_eq_ok.mp h ▸ pops.effect
  · split at h
    · obtain rfl := pure_eq_ok.mp h
      exact Pops.effect (pops.keeps ⟨rfl, rfl, rfl, rfl, rfl⟩)
    · exact absurd h throw_ne_ok

theorem opSload_effect (h : opSload host c = .ok c') : Effect host c c' := by
  simp only [opSload, bind_eq_ok, deref_eq_ok] at h
  obtain ⟨loc, -, h⟩ := h
  split at h <;> rename_i c₁ charged <;> obtain rfl := pure_eq_ok.mp h <;>
    have pops := (Pops.refl c).keeps (keeps_of_fst (consumeGas_keeps _) charged)
  · exact pops.effect
  · exact .ofPops pops (setTop_effect fun _ _ => isWord_hash _)

theorem opSStore_effect (h : opSStore host c = .ok c') : Effect host c c' := by
  unfold opSStore at h
  split at h
  · exact pure_eq_ok.mp h ▸ exit_effect _
  rename_i writable
  split at h
  · exact pure_eq_ok.mp h ▸ exit_effect _
  simp only [bind_eq_ok] at h
  obtain ⟨⟨key, c₁⟩, first, ⟨val, c₂⟩, second, h⟩ := h
  obtain rfl := popHash_ok first
  obtain rfl := popHash_ok second
  obtain rfl := pure_eq_ok.mp h
  refine ⟨by simp, by simp, by simp, .inr ?_, fun words _ _ => .inl (by simpa using words.tail.tail)⟩
  simpa using @HostEffect.setStorage _ host c.static c.address c.host key val
    (by simpa using writable)

theorem opSha3_effect {keccak256 : Bytes → Hash} (h : opSha3 keccak256 c = .ok c') :
    Effect host c c' := by
  simp only [opSha3, bind_eq_ok, deref_eq_ok] at h
  obtain ⟨offset, -, length, -, ⟨c₁, out⟩, got, h⟩ := h
  have pops := (Pops.refl c).pop.pop.keeps (get2_keeps got)
  cases out with
  | none => exact pure_eq_ok.mp h ▸ pops.effect
  | some tmp =>
      dsimp only at h
      split at h <;> rename_i c₂ charged <;> obtain rfl := pure_eq_ok.mp h <;>
        have pops := pops.keeps (keeps_of_fst (consumeGas_keeps _) charged)
      · exact pops.effect
      · exact .ofPops pops (push1_effect fun _ _ => isWord_hash _)

theorem popAddr_pops {addr : Address} {found : Bool} {c₁ : State σ}
    (popped : c.popAddr = (addr, found, c₁)) : Pops c c₁ := by
  have : c₁ = c.pop.2 := by rw [← State.popAddr_snd, popped]
  exact this ▸ (Pops.refl c).pop

theorem opBalance_effect (h : opBalance host c = .ok c') : Effect host c c' := by
  unfold opBalance at h
  split at h
  rename_i c₁ popped
  dsimp only at h
  split at h <;> rename_i c₂ charged <;> obtain rfl := pure_eq_ok.mp h <;>
    have pops := (popAddr_pops popped).keeps (keeps_of_fst (consumeGas_keeps _) charged)
  · exact pops.effect
  · exact .ofPops pops (push1_effect fun _ _ => isWord_hash _)

theorem opExtCodeSize_effect (h : opExtCodeSize host c = .ok c') : Effect host c c' := by
  unfold opExtCodeSize at h
  split at h
  rename_i c₁ popped
  dsimp only at h
  split at h <;> rename_i c₂ charged <;> obtain rfl := pure_eq_ok.mp h <;>
    have pops := (popAddr_pops popped).keeps (keeps_of_fst (consumeGas_keeps _) charged)
  · exact pops.effect
  · exact .ofPops pops (push1_effect fun _ _ => isWord_uint64 _)

theorem opExtCodeHash_effect (h : opExtCodeHash host c = .ok c') : Effect host c c' := by
  unfold opExtCodeHash at h
  split at h
  · exact pure_eq_ok.mp h ▸ exit_effect _
  split at h
  rename_i c₁ popped
  dsimp only at h
  split at h <;> rename_i c₂ charged <;> obtain rfl := pure_eq_ok.mp h <;>
    have pops := (popAddr_pops popped).keeps (keeps_of_fst (consumeGas_keeps _) charged)
  · exact pops.effect
  · exact .ofPops pops (push1_effect fun _ _ => isWord_hash _)

theorem opCallDataLoad_effect (h : opCallDataLoad c = .ok c') : Effect host c c' := by
  simp only [opCallDataLoad, bind_eq_ok, deref_eq_ok, pure_eq_ok] at h
  obtain ⟨offset, -, buf, filled, rfl⟩ := h
  exact setTop_effect fun _ _ => isWord_bytesToNat (by simp [setBytes_length filled])

theorem opCallDataCopy_effect (h : opCallDataCopy c = .ok c') : Effect host c c' := by
  simp only [opCallDataCopy, bind_eq_ok, deref_eq_ok] at h
  obtain ⟨_, -, _, -, _, -, copied⟩ := h
  exact ((Pops.refl c).pop.pop.pop.keeps (copyToMemory_keeps copied)).effect

theorem opCodeCopy_effect (h : opCodeCopy c = .ok c') : Effect host c c' := by
  simp only [opCodeCopy, bind_eq_ok, deref_eq_ok] at h
  obtain ⟨_, -, _, -, _, -, copied⟩ := h
  exact ((Pops.refl c).pop.pop.pop.keeps (copyToMemory_keeps copied)).effect

theorem opExtCodeCopy_effect (h : opExtCodeCopy host c = .ok c') : Effect host c c' := by
  simp only [opExtCodeCopy, bind_eq_ok, deref_eq_ok, State.popAddr_snd] at h
  obtain ⟨_, -, _, -, _, -, copied⟩ := h
  exact ((Pops.refl c).pop.pop.pop.pop.keeps (copyToMemory_keeps copied)).effect

theorem opReturnDataCopy_effect (h : opReturnDataCopy c = .ok c') : Effect host c c' := by
  unfold opReturnDataCopy at h
  split at h
  · exact pure_eq_ok.mp h ▸ exit_effect _
  simp only [bind_eq_ok, deref_eq_ok] at h
  obtain ⟨_, -, _, -, _, -, h⟩ := h
  split at h <;> rename_i c₁ checked <;>
    have pops := (Pops.refl c).pop.pop.pop.keeps (keeps_of_fst (checkMemory_keeps _ _) checked)
  · exact pure_eq_ok.mp h ▸ pops.effect
  split at h <;> rename_i c₂ charged <;>
    have pops := pops.keeps (keeps_of_fst (consumeGas_keeps _) charged)
  · exact pure_eq_ok.mp h ▸ pops.effect
  split at h
  · obtain rfl := pure_eq_ok.mp h
    exact Pops.effect (pops.keeps ⟨rfl, rfl, rfl, rfl, rfl⟩)
  split at h
  · obtain rfl := pure_eq_ok.mp h
    exact Pops.effect (pops.keeps ⟨rfl, rfl, rfl, rfl, rfl⟩)
  simp only [bind_eq_ok] at h
  obtain ⟨_, _, _, _, h⟩ := h
  obtain rfl := pure_eq_ok.mp h
  exact Pops.effect (pops.keeps ⟨rfl, rfl, rfl, rfl, rfl⟩)

theorem opBlockHash_effect (h : opBlockHash host c = .ok c') : Effect host c c' := by
  simp only [opBlockHash, bind_eq_ok, deref_eq_ok] at h
  obtain ⟨num, -, h⟩ := h
  split at h
  · exact pure_eq_ok.mp h ▸ setTop_effect fun _ _ => isWord_zero
  · split at h <;> exact pure_eq_ok.mp h ▸ setTop_effect fun _ _ => by simp

theorem opJump_effect (h : opJump c = .ok c') : Effect host c c' := by
  simp only [opJump, bind_eq_ok, deref_eq_ok, pure_eq_ok] at h
  obtain ⟨dest, -, rfl⟩ := h
  exact ((Pops.refl c).pop.keeps (jumpTo_keeps _)).effect

theorem opJumpi_effect (h : opJumpi c = .ok c') : Effect host c c' := by
  simp only [opJumpi, bind_eq_ok, deref_eq_ok, pure_eq_ok] at h
  obtain ⟨dest, -, cond, -, rfl⟩ := h
  split
  · exact ((Pops.refl c).pop.pop.keeps (jumpTo_keeps _)).effect
  · exact (Pops.refl c).pop.pop.effect

/-- A PUSH of at most 32 bytes pushes a word; one cut short by the end of the code moves
`ip` past it. -/
theorem opPush_effect {n : Nat} (bound : n ≤ 32) (nonneg : 0 ≤ c.ip)
    (h : opPush n c = .ok c') : Effect host c c' := by
  unfold opPush at h
  dsimp only at h
  split at h <;> rename_i short <;> simp only [bind_eq_ok, pure_eq_ok] at h
  · obtain ⟨rest, -, _, rfl, rfl⟩ := h
    exact ⟨rfl, rfl, rfl, .inl rfl, fun _ _ _ => .inr (by simp only [State.push1]; omega)⟩
  · obtain ⟨imm, sliced, _, rfl, rfl⟩ := h
    have := slice_eq_ok sliced
    exact ⟨rfl, rfl, rfl, .inl rfl, fun words _ _ =>
      .inl (by simpa [State.push1] using ⟨isWord_bytesToNat (by omega), words⟩)⟩

theorem getD_mem {stack : List Int} {i : Nat} (within : i < stack.length) :
    stack.getD i 0 ∈ stack := by
  rw [List.getD_eq_getElem?_getD, List.getElem?_eq_getElem within, Option.getD_some]
  exact List.getElem_mem within

theorem peekAt_mem {n : Nat} {v : Int} (h : c.peekAt n = .ok v) : v ∈ c.stack := by
  unfold State.peekAt at h
  split at h
  · obtain rfl := pure_eq_ok.mp h
    exact getD_mem (by omega)
  · exact absurd h throw_ne_ok

theorem opDup_effect {n : Nat} (h : opDup n c = .ok c') : Effect host c c' := by
  unfold opDup at h
  split at h
  · exact pure_eq_ok.mp h ▸ exit_effect _
  · simp only [bind_eq_ok, pure_eq_ok] at h
    obtain ⟨v, peeked, rfl⟩ := h
    exact .ofKeeps rfl rfl rfl rfl fun words _ _ => by
      simpa using ⟨words v (peekAt_mem peeked), words⟩

/-- SWAP exchanges two entries of the stack, both below its length. -/
theorem opSwap_effect {n : Nat} (h : opSwap n c = .ok c') : Effect host c c' := by
  unfold opSwap at h
  split at h
  · exact pure_eq_ok.mp h ▸ exit_effect _
  · rename_i enough
    obtain rfl := pure_eq_ok.mp h
    simp only [State.stackAtLeast, Bool.not_eq_true', decide_eq_false_iff_not, not_not] at enough
    refine .ofKeeps rfl rfl rfl rfl fun words _ _ v mem => ?_
    rcases List.mem_or_eq_of_mem_set mem with mem | rfl
    · rcases List.mem_or_eq_of_mem_set mem with mem | rfl
      exacts [words v mem, words _ (getD_mem (by omega))]
    · exact words _ (getD_mem (by omega))

theorem Pops.popTopics : ∀ {n : Nat} {c₁ c₂ : State σ} {topics : List Hash}, Pops c c₁ →
    popTopics c₁ n = .ok (topics, c₂) → Pops c c₂
  | 0, _, _, _, pops, h => by
      obtain ⟨-, rfl⟩ := Prod.mk.inj (pure_eq_ok.mp h)
      exact pops
  | _ + 1, _, _, _, pops, h => by
      simp only [GoEvm.Evm.popTopics, bind_eq_ok, deref_eq_ok] at h
      obtain ⟨_, -, ⟨_, _⟩, rest, h⟩ := h
      obtain ⟨-, rfl⟩ := Prod.mk.inj (pure_eq_ok.mp h)
      exact Pops.popTopics pops.pop rest

/-- A handler that pops, moves the host state by one host call, and then only charges or
halts. -/
theorem Effect.ofHostCall {c₁ : State σ} {h' : σ} (pops : Pops c c₁)
    (moved : HostEffect host c₁.static c₁.address c₁.host h')
    (keeps : Keeps { c₁ with host := h' } c') : Effect host c c' := by
  obtain ⟨value, static, address, kept, n, stack⟩ := pops
  refine ⟨keeps.1.trans value, keeps.2.1.trans static, keeps.2.2.1.trans address, .inr ?_,
    fun words _ _ => .inl ?_⟩
  · rw [keeps.2.2.2.1, ← static, ← address, ← kept]
    exact moved
  · rw [keeps.2.2.2.2]
    exact stack ▸ words.drop n

theorem opLog_effect {size : Nat} (h : opLog host size c = .ok c') : Effect host c c' := by
  unfold opLog at h
  dsimp only at h
  split at h
  · exact pure_eq_ok.mp h ▸ exit_effect _
  rename_i writable
  split at h
  · exact pure_eq_ok.mp h ▸ exit_effect _
  simp only [bind_eq_ok, deref_eq_ok] at h
  obtain ⟨_, -, _, -, ⟨topics, c₁⟩, popped, ⟨c₂, out⟩, got, h⟩ := h
  have pops := ((Pops.refl c).pop.pop.popTopics popped).keeps (get2_keeps got)
  cases out with
  | none => exact pure_eq_ok.mp h ▸ pops.effect
  | some tmp =>
      have moved : HostEffect host c₂.static c₂.address c₂.host
          (host.emitLog c₂.host c₂.address topics tmp) :=
        .emitLog _ _ (by simpa [pops.2.1] using writable)
      dsimp only at h
      split at h <;> rename_i c₃ charged <;> obtain rfl := pure_eq_ok.mp h
      · exact .ofHostCall pops moved (keeps_of_fst (consumeGas_keeps _) charged)
      · exact .ofHostCall pops moved
          ((keeps_of_fst (consumeGas_keeps _) charged).trans (consumeGas_keeps _))

theorem opSelfDestruct_effect (h : opSelfDestruct host c = .ok c') : Effect host c c' := by
  unfold opSelfDestruct at h
  split at h
  · exact pure_eq_ok.mp h ▸ exit_effect _
  rename_i writable
  split at h
  rename_i c₁ popped
  dsimp only at h
  split at h <;> rename_i c₂ charged <;> obtain rfl := pure_eq_ok.mp h <;>
    have pops := (popAddr_pops popped).keeps (keeps_of_fst (consumeGas_keeps _) charged)
  · exact pops.effect
  · exact .ofHostCall pops (.selfdestruct _ (by simpa [pops.2.1] using writable))
      ⟨rfl, rfl, rfl, rfl, rfl⟩

theorem opHalt_effect {op : OpCode} (h : opHalt op c = .ok c') : Effect host c c' := by
  unfold opHalt at h
  split at h
  · exact pure_eq_ok.mp h ▸ exit_effect _
  simp only [bind_eq_ok, deref_eq_ok] at h
  obtain ⟨_, -, _, -, ⟨c₁, out⟩, got, h⟩ := h
  have pops := (Pops.refl c).pop.pop.keeps (get2_keeps got)
  cases out with
  | none =>
      obtain rfl := pure_eq_ok.mp h
      exact Pops.effect (pops.keeps ⟨rfl, rfl, rfl, rfl, rfl⟩)
  | some ret =>
      obtain rfl := pure_eq_ok.mp h
      split <;> exact Pops.effect (pops.keeps ⟨rfl, rfl, rfl, rfl, rfl⟩)

theorem createChild_effect {op : OpCode} {value salt : Option Int} {input : Bytes} {gas : Uint64}
    (writable : c.static = false) (h : createChild host op c value input salt gas = .ok c') :
    Effect host c c' := by
  unfold createChild at h
  split at h
  · obtain rfl := pure_eq_ok.mp h
    exact ⟨rfl, rfl, rfl, .inl rfl, fun words _ _ => .inl (by simpa using words)⟩
  · simp only [bind_eq_ok] at h
    obtain ⟨callType, -, ⟨h', retValue, gasLeft, codeAddress, err⟩, called, h⟩ := h
    obtain rfl := pure_eq_ok.mp h
    have entered : CallEntry c.address callType 0 c.address 0 := by
      cases callType <;> first | rfl | exact Or.inr rfl
    exact ⟨rfl, rfl, rfl, .inr (.call (by simp [writable]) (by simp) entered called), fun words _ _ =>
      .inl (by simpa using ⟨isWord_ite isWord_zero (isWord_address _), words⟩)⟩

theorem charge_keeps {p : Prop} [Decidable p] (gas : Uint64) :
    Keeps c (if p then c.consumeGas gas else (c, true)).1 := by
  split
  exacts [consumeGas_keeps gas, .refl c]

theorem Pops.popIf {c₁ : State σ} (pops : Pops c c₁) (p : Prop) [Decidable p] :
    Pops c (if p then c₁.pop else (none, c₁)).2 := by
  split
  exacts [pops.pop, pops]

theorem opCreate_effect {op : OpCode} (h : opCreate host op c = .ok c') : Effect host c c' := by
  unfold opCreate at h
  split at h
  · exact pure_eq_ok.mp h ▸ exit_effect _
  rename_i writable
  split at h
  · exact pure_eq_ok.mp h ▸ exit_effect _
  simp only [bind_eq_ok, deref_eq_ok] at h
  obtain ⟨_, -, _, -, ⟨c₁, out⟩, got, h⟩ := h
  have reset : Pops c c.resetReturnData := ⟨rfl, rfl, rfl, rfl, 0, rfl⟩
  have pops := (reset.pop.pop.pop.popIf _).keeps (get2_keeps got)
  cases out with
  | none => exact pure_eq_ok.mp h ▸ .ofPops pops (push1_effect fun _ _ => isWord_zero)
  | some input =>
      dsimp only at h
      split at h
      · exact pure_eq_ok.mp h ▸ .ofPops pops (push1_effect fun _ _ => isWord_zero)
      split at h <;> rename_i c₂ charged <;>
        have pops := pops.keeps (keeps_of_fst (charge_keeps _) charged)
      · exact pure_eq_ok.mp h ▸ .ofPops pops (push1_effect fun _ _ => isWord_zero)
      split at h <;> rename_i c₃ reserved <;>
        have pops := pops.keeps (keeps_of_fst (consumeGas_keeps _) reserved)
      · exact pure_eq_ok.mp h ▸ .ofPops pops (push1_effect fun _ _ => isWord_zero)
      · exact .ofPops pops (createChild_effect (by simpa [pops.2.1] using writable) h)

theorem callChild_effect {callType : CallKind} {recipient caller codeAddress : Address}
    {value : Option Int} {transfersValue isStatic : Bool} {args : Bytes} {retOffset retSize : Int}
    {gas : Uint64} (inherited : c.static = true → isStatic = true)
    (restricted : isStatic = true → callType = .call ∧ (value = none ∨ value = some 0) ∨
      callType = .callCode ∨ callType = .delegateCall)
    (entered : CallEntry c.address callType recipient caller codeAddress)
    (h : callChild host callType c recipient caller codeAddress value transfersValue isStatic args
      retOffset retSize gas = .ok c') : Effect host c c' := by
  unfold callChild at h
  split at h
  · obtain rfl := pure_eq_ok.mp h
    exact ⟨rfl, rfl, rfl, .inl rfl, fun words _ _ => .inl (by simpa using words)⟩
  dsimp only at h
  split at h
  · obtain rfl := pure_eq_ok.mp h
    exact ⟨rfl, rfl, rfl, .inl rfl, fun words _ _ => .inl (by simpa using words)⟩
  simp only [bind_eq_ok] at h
  obtain ⟨⟨h', retValue, gasLeft, _, err⟩, called, h⟩ := h
  have returned : c'.value = c.value ∧ c'.static = c.static ∧ c'.address = c.address ∧
      c'.host = h' ∧ c'.stack = (if err.isSome then 0 else 1) :: c.stack := by
    split at h <;> simp only [bind_eq_ok, pure_eq_ok] at h
    · obtain ⟨_, -, rfl⟩ := h
      simp
    · obtain ⟨_, -, _, -, rfl⟩ := h
      simp
  obtain ⟨value, static, address, kept, stack⟩ := returned
  refine ⟨value, static, address, .inr (kept ▸ .call inherited (fun static => ?_) entered called),
    fun words _ _ => .inl (by simpa [stack] using ⟨isWord_ite isWord_zero isWord_one, words⟩)⟩
  rcases restricted static with ⟨kind, rfl | rfl⟩ | kind | kind
  · exact .inl ⟨kind, rfl⟩
  · exact .inl ⟨kind, by simp [bigToHash]⟩
  · exact .inr (.inl kind)
  · exact .inr (.inr kind)

theorem opCallBody_effect {op : OpCode}
    (wellFormed : op = OpCode.CALL ∨ op = OpCode.CALLCODE ∨ op = OpCode.DELEGATECALL ∨
      op = OpCode.STATICCALL)
    (unprotected : op = OpCode.CALL → c.static = true → c.stack.tail.tail.head? = some 0)
    (h : opCallBody host op c = .ok c') : Effect host c c' := by
  unfold opCallBody at h
  simp only [bind_eq_ok, deref_eq_ok, State.popAddr_snd] at h
  obtain ⟨callType, kind, _, -, _, -, _, -, _, -, _, -, ⟨c₁, out⟩, got, h⟩ := h
  have pops := ((Pops.refl c).pop.pop.popIf _).pop.pop.pop.pop.keeps (get2_keeps got)
  cases out with
  | none => exact pure_eq_ok.mp h ▸ pops.effect
  | some args =>
      dsimp only at h
      split at h <;> rename_i c₂ checked <;>
        have pops := pops.keeps (keeps_of_fst (checkMemory_keeps _ _) checked)
      · exact pure_eq_ok.mp h ▸ pops.effect
      split at h
      · obtain rfl := pure_eq_ok.mp h
        exact Pops.effect (pops.keeps ⟨rfl, rfl, rfl, rfl, rfl⟩)
      split at h <;> rename_i c₃ charged <;>
        have pops := pops.keeps (keeps_of_fst (consumeGas_keeps _) charged)
      · exact pure_eq_ok.mp h ▸ pops.effect
      refine .ofPops pops
        (callChild_effect (fun static => by simp [static]) (fun static => ?_) ?_ h)
      · rcases wellFormed with rfl | rfl | rfl | rfl
        · -- a CALL from a static frame pops a zero value
          have zero := unprotected rfl
            (by simpa [pops.2.1, show OpCode.CALL ≠ OpCode.STATICCALL by decide] using static)
          refine .inl ⟨(Except.ok.inj kind).symm, .inr ?_⟩
          rw [if_neg (by decide), if_pos (by decide)]
          simpa using zero
        · exact .inr (.inl (Except.ok.inj kind).symm)
        · exact .inr (.inr (Except.ok.inj kind).symm)
        · exact .inl ⟨(Except.ok.inj kind).symm, .inl rfl⟩
      · -- CALL and STATICCALL run the recipient's code, CALLCODE and DELEGATECALL run in the frame
        rcases wellFormed with rfl | rfl | rfl | rfl <;> obtain rfl := (Except.ok.inj kind).symm
        · exact Or.inr (if_neg (by decide))
        · exact Or.inl (if_pos (by decide))
        · exact Or.inl (if_pos (by decide))
        · exact Or.inr (if_neg (by decide))

/-- `peekAt(3)`, which CALL reads from a static frame, is the operand it pops as the value. -/
theorem peekAt_three {v : Int} (h : c.peekAt 3 = .ok v) : c.stack.tail.tail.head? = some v := by
  unfold State.peekAt at h
  split at h
  · rename_i within
    obtain rfl := pure_eq_ok.mp h
    match stack : c.stack, within with
    | _ :: _ :: _ :: _, _ => simp [stack]
  · exact absurd h throw_ne_ok

theorem opCall_effect {op : OpCode}
    (wellFormed : op = OpCode.CALL ∨ op = OpCode.CALLCODE ∨ op = OpCode.DELEGATECALL ∨
      op = OpCode.STATICCALL)
    (h : opCall host op c = .ok c') : Effect host c c' := by
  have reset : Pops c c.resetReturnData := ⟨rfl, rfl, rfl, rfl, 0, rfl⟩
  unfold opCall at h
  dsimp only at h
  split at h
  · simp only [bind_eq_ok, map_eq_ok] at h
    obtain ⟨_, ⟨v, peeked, rfl⟩, h⟩ := h
    split at h
    · exact pure_eq_ok.mp h ▸ .ofPops reset (exit_effect _)
    rename_i unprotected
    split at h
    · exact pure_eq_ok.mp h ▸ .ofPops reset (exit_effect _)
    split at h
    · exact pure_eq_ok.mp h ▸ .ofPops reset (exit_effect _)
    have zero : v = 0 := by simpa [bne_iff_ne] using unprotected
    exact .ofPops reset (opCallBody_effect wellFormed (fun _ _ => zero ▸ peekAt_three peeked) h)
  · rename_i unguarded
    simp only [pure_bind, Bool.false_eq_true, if_false] at h
    split at h
    · exact pure_eq_ok.mp h ▸ .ofPops reset (exit_effect _)
    split at h
    · exact pure_eq_ok.mp h ▸ .ofPops reset (exit_effect _)
    exact .ofPops reset (opCallBody_effect wellFormed
      (fun call static => absurd (by rw [call, static]; decide) unguarded) h)

end Handlers

/-! Every handler, and one turn of the loop. -/

/-- A table whose every handler is well formed. -/
def Runtime.WellFormed (rt : Runtime) : Prop :=
  ∀ op handler, rt.dispatchTable op = some handler → handler.inst.WellFormed

section Dispatch

variable {host : Host σ} {c c' : State σ}

/-- Every handler a well-formed table can register has an `Effect`. -/
theorem Instr.exec_effect {i : Instr} {keccak256 : Bytes → Hash} (wellFormed : i.WellFormed)
    (nonneg : 0 ≤ c.ip) (h : i.exec host keccak256 c = .ok c') : Effect host c c' := by
  have byteMask : IsWord 255 := by simp [IsWord]
  cases i with
  | stop => exact pure_eq_ok.mp h ▸ Keeps.effect ⟨rfl, rfl, rfl, rfl, rfl⟩
  | add | mul | sub => exact binaryOp_effect h (fun _ _ _ _ => toU256_isWord _)
  | div | sdiv | mod | smod =>
      exact binaryOp_effect h (fun _ _ _ _ => isWord_ite isWord_zero (toU256_isWord _))
  | exp => exact opExp_effect h
  | addmod | mulmod => exact modOp_effect h
  | and => exact binaryOp_effect h (fun a _ _ word => isWord_land a word)
  | or => exact binaryOp_effect h (fun _ _ left right => isWord_lor left right)
  | xor => exact binaryOp_effect h (fun _ _ left right => isWord_xor left right)
  | byte =>
      exact binaryOp_effect h (fun _ _ _ _ => isWord_ite isWord_zero (isWord_land _ byteMask))
  | not => exact unaryOp_effect h (fun _ _ => toU256_isWord _)
  | iszero => exact unaryOp_effect h (fun _ _ => isWord_ite isWord_one isWord_zero)
  | eq | lt | gt | slt | sgt =>
      exact binaryOp_effect h (fun _ _ _ _ => isWord_ite isWord_one isWord_zero)
  | signextend => exact opSignExtension_effect h
  | shl => exact opShl_effect h
  | shr => exact opShr_effect h
  | sar => exact opSar_effect h
  | mload => exact opMload_effect h
  | mstore => exact opMStore_effect h
  | mstore8 => exact opMStore8_effect h
  | sload => exact opSload_effect h
  | sstore => exact opSStore_effect h
  | sha3 => exact opSha3_effect h
  | pop => exact pure_eq_ok.mp h ▸ (Pops.refl c).pop.effect
  | address | caller | origin | coinbase =>
      exact pure_push1_effect h (fun _ _ => isWord_address _)
  | balance => exact opBalance_effect h
  | selfbalance | chainid => exact gated_push1_effect h (fun _ _ => isWord_hash _)
  | gasprice | difficulty => exact pure_push1_effect h (fun _ _ => isWord_hash _)
  | callvalue => exact pure_push1_effect h (fun value _ => value)
  | calldataload => exact opCallDataLoad_effect h
  | calldatasize | codesize | pc | msize | gas =>
      exact pure_push1_effect h (fun _ _ => isWord_uint64 _)
  | extcodesize => exact opExtCodeSize_effect h
  | returndatasize => exact gated_push1_effect h (fun _ _ => isWord_uint64 _)
  | extcodehash => exact opExtCodeHash_effect h
  | extcodecopy => exact opExtCodeCopy_effect h
  | calldatacopy => exact opCallDataCopy_effect h
  | returndatacopy => exact opReturnDataCopy_effect h
  | codecopy => exact opCodeCopy_effect h
  | blockhash => exact opBlockHash_effect h
  | timestamp => exact pure_push1_effect h (fun _ context => isWord_toInt context.2.1)
  | number => exact pure_push1_effect h (fun _ context => isWord_toInt context.1)
  | gaslimit => exact pure_push1_effect h (fun _ context => isWord_toInt context.2.2)
  | selfdestruct => exact opSelfDestruct_effect h
  | jump => exact opJump_effect h
  | jumpi => exact opJumpi_effect h
  | jumpdest => exact pure_eq_ok.mp h ▸ (Pops.refl c).effect
  | push n => exact opPush_effect wellFormed nonneg h
  | dup n => exact opDup_effect h
  | swap n => exact opSwap_effect h
  | log size => exact opLog_effect h
  | create op => exact opCreate_effect h
  | call op => exact opCall_effect wellFormed h
  | halt op => exact opHalt_effect h

/-- What one turn of `Run`'s loop does to the frame. -/
structure Turn (host : Host σ) (c c' : State σ) : Prop where
  value : c'.value = c.value
  static : c'.static = c.static
  address : c'.address = c.address
  hostState : c'.host = c.host ∨ HostEffect host c.static c.address c.host c'.host
  words : Words c.stack → IsWord c.value → ContextWords (host.getTxContext c.host) →
    c'.stop = false → c'.ip < c'.code.length → Words c'.stack

theorem opAt_nonneg {op : OpCode} (h : opAt c = .ok op) : 0 ≤ c.ip := by
  unfold opAt at h
  split at h
  · assumption
  · exact absurd h throw_ne_ok

/-- A turn that ends in an exit keeps what the frame had before it. -/
theorem Turn.exit {c₁ : State σ} (e : Error) (keeps : Keeps c c₁) : Turn host c (c₁.exit e) :=
  ⟨keeps.1, keeps.2.1, keeps.2.2.1, .inl keeps.2.2.2.1,
    fun _ _ _ running => absurd running (by simp [State.exit])⟩

/-- One turn of the loop with a well-formed table: an exit, or a handler's `Effect` and the
increment of `ip`. -/
theorem step_effect {rt : Runtime} (wellFormed : rt.WellFormed) (h : step rt host c = .ok c') :
    Turn host c c' := by
  simp only [step, bind_eq_ok] at h
  obtain ⟨op, fetched, h⟩ := h
  split at h
  · exact pure_eq_ok.mp h ▸ .exit _ (.refl c)
  rename_i handler registered
  split at h
  · exact pure_eq_ok.mp h ▸ .exit _ (.refl c)
  split at h <;> rename_i c₁ charged <;> have keeps := keeps_of_fst (consumeGas_keeps _) charged
  · exact pure_eq_ok.mp h ▸ .exit _ keeps
  simp only [bind_eq_ok] at h
  obtain ⟨c₂, executed, h⟩ := h
  have started : c₁.ip = c.ip := by rw [← State.consumeGas_ip c handler.gas, charged]
  have effect := Instr.exec_effect (wellFormed op handler registered)
    (started ▸ opAt_nonneg fetched) executed
  obtain ⟨value, static, address, kept, stack⟩ := keeps
  split at h <;> obtain rfl := pure_eq_ok.mp h
  · exact ⟨effect.value.trans value, effect.static.trans static, effect.address.trans address,
      by simpa only [static, address, kept] using effect.hostState,
      fun _ _ _ running => absurd running (by simp [State.exit])⟩
  · refine ⟨effect.value.trans value, effect.static.trans static, effect.address.trans address,
      by simpa only [static, address, kept] using effect.hostState,
      fun words word context _ inside => ?_⟩
    rcases effect.words (stack ▸ words) (value ▸ word) (kept ▸ context) with words | outside
    · exact words
    · exact absurd inside (by simp only; omega)

end Dispatch

end GoEvm.Evm
