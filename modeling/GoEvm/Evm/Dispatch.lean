import GoEvm.Evm.Effect
import GoEvm.Evm.Bounds

/-! The frames `Run` dispatches at, and the stack at each of them. `Dispatches` is the loop
of `run` read as a relation: a frame that has not stopped and whose `ip` is inside the
code, and every frame one turn from such a frame that again has not stopped and is inside
the code; `run_of_dispatches` shows that `run` passes through each of them. Every entry of
the stack at these frames is a word when the value and the block context are words. The
value is the message's, passed through `newContract` as it is: a negative one is pushed by
CALLVALUE as it is. -/
namespace GoEvm.Evm

variable {σ : Type} {rt : Runtime} {host : Host σ} {c₀ c c' : State σ}

/-- The frames at which `run`, started from `c₀`, calls `step`. -/
inductive Dispatches (rt : Runtime) (host : Host σ) (c₀ : State σ) : State σ → Prop
  | start (running : c₀.stop = false) (inside : c₀.ip < c₀.code.length) : Dispatches rt host c₀ c₀
  | next {c c' : State σ} (reached : Dispatches rt host c₀ c) (stepped : step rt host c = .ok c')
      (running : c'.stop = false) (inside : c'.ip < c'.code.length) : Dispatches rt host c₀ c'

theorem Dispatches.dispatching (reached : Dispatches rt host c₀ c) :
    c.stop = false ∧ c.ip < c.code.length := by
  cases reached with
  | start running inside => exact ⟨running, inside⟩
  | next _ _ running inside => exact ⟨running, inside⟩

/-- `run` from `c₀` goes on as `run` from every frame it dispatches at, `k` turns later. -/
theorem run_of_dispatches (reached : Dispatches rt host c₀ c) :
    ∃ k, ∀ fuel, run rt host (fuel + k) c₀ = run rt host fuel c := by
  induction reached with
  | start => exact ⟨0, fun _ => rfl⟩
  | @next c c' reached stepped running _ ih =>
      obtain ⟨k, later⟩ := ih
      obtain ⟨stopped, inside⟩ := reached.dispatching
      refine ⟨k + 1, fun fuel => ?_⟩
      rw [show fuel + (k + 1) = fuel + 1 + k by omega, later (fuel + 1)]
      exact run_succ_of_step stopped inside stepped running

/-- An invariant of the frames `run` dispatches at: true at the start and kept by every
turn from a dispatched frame to a frame the loop dispatches at next. -/
theorem Dispatches.induction (Inv : State σ → Prop) (initial : Inv c₀)
    (preserved : ∀ {c c'}, Dispatches rt host c₀ c → Inv c → step rt host c = .ok c' →
      c'.stop = false → c'.ip < c'.code.length → Inv c')
    (reached : Dispatches rt host c₀ c) : Inv c := by
  induction reached with
  | start => exact initial
  | next reached stepped running inside ih => exact preserved reached ih stepped running inside

/-! The host across a run. -/

section HostRelation

variable {R : σ → σ → Prop}

/-- A reflexive, transitive relation that holds across every host effect a frame with the
run's static flag and address can make holds between the host a run starts with and the host
it stops with; the flag and the address stay. -/
theorem run_hostRel (refl : ∀ h, R h h) (trans : ∀ {h₁ h₂ h₃}, R h₁ h₂ → R h₂ h₃ → R h₁ h₃)
    (wellFormed : rt.WellFormed) :
    ∀ {fuel : Nat} {c c' : State σ}, (∀ h h', HostEffect host c.static c.address h h' → R h h') →
      run rt host fuel c = .ok c' →
        R c.host c'.host ∧ c'.static = c.static ∧ c'.address = c.address
  | 0, _, _, _, h => absurd h throw_ne_ok
  | fuel + 1, c, c', effects, h => by
      unfold run at h
      split at h
      · obtain rfl := pure_eq_ok.mp h
        exact ⟨refl _, rfl, rfl⟩
      split at h
      · obtain rfl := pure_eq_ok.mp h
        exact ⟨refl _, rfl, rfl⟩
      obtain ⟨c₁, stepped, h⟩ := bind_eq_ok.mp h
      have turn := step_effect wellFormed stepped
      have first : R c.host c₁.host :=
        turn.hostState.elim (fun kept => kept ▸ refl _) (effects _ _)
      split at h
      · obtain rfl := pure_eq_ok.mp h
        exact ⟨first, turn.static, turn.address⟩
      · obtain ⟨rest, static, address⟩ := run_hostRel refl trans wellFormed
          (fun h h' e => effects h h' (turn.static ▸ turn.address ▸ e)) h
        exact ⟨trans first rest, static.trans turn.static, address.trans turn.address⟩

/-- The same across `EVM.Run`: its host state is related to the one it was given. -/
theorem evmRun_hostRel (refl : ∀ h, R h h) (trans : ∀ {h₁ h₂ h₃}, R h₁ h₂ → R h₂ h₃ → R h₁ h₃)
    (wellFormed : rt.WellFormed) {rev : Revision} {fuel : Nat} {h : σ} {typ : CallKind}
    {recipient sender codeAddress : Address} {value : Int} {input : Bytes} {gas : Uint64}
    {depth : Nat} {static : Bool} {r : σ × Bytes × Uint64 × Option Error}
    (effects : ∀ h h', HostEffect host static recipient h h' → R h h')
    (ran : evmRun rt host rev fuel h typ recipient sender value input gas depth static
      codeAddress = .ok r) : R h r.1 := by
  obtain ⟨s, stopped, returned⟩ := bind_eq_ok.mp ran
  obtain rfl := pure_eq_ok.mp returned
  exact (run_hostRel refl trans wellFormed effects stopped).1

end HostRelation

/-- A call frame whose code address holds no code stops at once, and `EVM.Run` returns the
host state it was given. -/
theorem evmRun_of_no_code {rev : Revision} {fuel : Nat} {h : σ} {typ : CallKind}
    {recipient sender codeAddress : Address} {value : Int} {input : Bytes} {gas : Uint64}
    {depth : Nat} {static : Bool} {r : σ × Bytes × Uint64 × Option Error}
    (call : ¬(typ = .create || typ = .create2) = true) (noCode : host.getCode h codeAddress = [])
    (ran : evmRun rt host rev fuel h typ recipient sender value input gas depth static
      codeAddress = .ok r) : r.1 = h := by
  obtain ⟨s, stopped, returned⟩ := bind_eq_ok.mp ran
  obtain rfl := pure_eq_ok.mp returned
  cases fuel with
  | zero => exact absurd stopped throw_ne_ok
  | succ fuel =>
      have empty : (initialState host rev h typ recipient sender value input gas depth static
          codeAddress).code = [] := by
        show (if (typ = .create || typ = .create2) = true then input
          else host.getCode h codeAddress) = []
        rw [if_neg call, noCode]
      unfold run at stopped
      split at stopped
      · exact absurd ‹_› Bool.false_ne_true
      split at stopped
      · obtain rfl := pure_eq_ok.mp stopped
        rfl
      · rename_i inside
        rw [empty] at inside
        exact absurd (Int.le_refl 0) inside

/-! The stack of words. -/

/-- The block context stays one of words under every host effect of `host`. -/
def KeepsContextWords (host : Host σ) : Prop :=
  ∀ static address h h', HostEffect host static address h h' → ContextWords (host.getTxContext h) →
    ContextWords (host.getTxContext h')

/-- What every dispatched frame keeps: a stack of words, a value that is a word, and a block
context of words. -/
def WordFrame (host : Host σ) (c : State σ) : Prop :=
  Words c.stack ∧ IsWord c.value ∧ ContextWords (host.getTxContext c.host)

theorem WordFrame.turn (wellFormed : rt.WellFormed) (keeps : KeepsContextWords host)
    (framed : WordFrame host c) (stepped : step rt host c = .ok c') (running : c'.stop = false)
    (inside : c'.ip < c'.code.length) : WordFrame host c' := by
  obtain ⟨words, value, context⟩ := framed
  have turn := step_effect wellFormed stepped
  refine ⟨turn.words words value context running inside, turn.value ▸ value, ?_⟩
  rcases turn.hostState with kept | moved
  · exact kept ▸ context
  · exact keeps _ _ _ _ moved context

/-- Every frame `Run` dispatches at, from the frame `EVM.Run` starts with a value that is a
word, over a host whose block context is one of words and stays one, with a well-formed
table, holds only words on its stack. -/
theorem dispatch_stack_words (wellFormed : rt.WellFormed) (keeps : KeepsContextWords host)
    {rev : Revision} {h : σ} {typ : CallKind} {recipient sender codeAddress : Address}
    {value : Int} {input : Bytes} {gas : Uint64} {depth : Nat} {static : Bool}
    (valueWord : IsWord value) (contextWord : ContextWords (host.getTxContext h))
    (reached : Dispatches rt host (initialState host rev h typ recipient sender value input gas
      depth static codeAddress) c) : Words c.stack :=
  (Dispatches.induction (WordFrame host) ⟨words_nil, valueWord, contextWord⟩
    (fun _ framed => framed.turn wellFormed keeps) reached).1

/-! The stack limit. `Run` checks the stack against `stackSize` after every handler and exits
with the stack-overflow error above it, whatever the table and the host. -/

/-- One turn from a frame within the limit ends within it, or exits with the stack-overflow
error. -/
theorem step_stack_limit (bounded : c.stack.length ≤ stackSize) (h : step rt host c = .ok c') :
    c'.stack.length ≤ stackSize ∨ c'.stop = true ∧ c'.err = some .stackOverflow := by
  simp only [step, bind_eq_ok] at h
  obtain ⟨op, -, h⟩ := h
  split at h
  · exact .inl (pure_eq_ok.mp h ▸ bounded)
  split at h
  · exact .inl (pure_eq_ok.mp h ▸ bounded)
  rename_i handler _ _
  split at h <;> rename_i c₁ charged
  · obtain rfl := pure_eq_ok.mp h
    have kept : c₁.stack = c.stack := by rw [← State.consumeGas_stack c handler.gas, charged]
    exact .inl (kept ▸ bounded)
  obtain ⟨c₂, -, h⟩ := bind_eq_ok.mp h
  split at h <;> obtain rfl := pure_eq_ok.mp h
  · exact .inr ⟨rfl, rfl⟩
  · exact .inl (Nat.le_of_not_lt ‹_›)

/-- `Run` started on a stack within the limit stops on a stack within it, or with the
stack-overflow error. -/
theorem run_stack_limit :
    ∀ {fuel : Nat} {c c' : State σ}, c.stack.length ≤ stackSize → run rt host fuel c = .ok c' →
      c'.stack.length ≤ stackSize ∨ c'.err = some .stackOverflow
  | 0, _, _, _, h => absurd h throw_ne_ok
  | fuel + 1, c, c', bounded, h => by
      unfold run at h
      split at h
      · exact .inl (pure_eq_ok.mp h ▸ bounded)
      split at h
      · exact .inl (pure_eq_ok.mp h ▸ bounded)
      obtain ⟨c₁, stepped, h⟩ := bind_eq_ok.mp h
      rcases step_stack_limit bounded stepped with bounded₁ | ⟨stopped, overflow⟩
      · split at h
        · exact .inl (pure_eq_ok.mp h ▸ bounded₁)
        · exact run_stack_limit bounded₁ h
      · rw [if_pos stopped] at h
        exact .inr (pure_eq_ok.mp h ▸ overflow)

/-- `PUSH1 5, STOP` run with the table modelled from the spec stops on one word. -/
theorem push_run_stack_limit :
    ∃ c', run ⟨dispatchTable, fun _ => 0⟩ silentHost 3
        (initialState silentHost Revision.istanbul () .create 0 0 0 [0x60, 5, 0x00] 100 0 false 0) =
          .ok c' ∧ (c'.stack.length ≤ stackSize ∨ c'.err = some .stackOverflow) := by
  have ran : run ⟨dispatchTable, fun _ => 0⟩ silentHost 3
      (initialState silentHost Revision.istanbul () .create 0 0 0 [0x60, 5, 0x00] 100 0 false 0) =
        .ok _ := rfl
  exact ⟨_, ran, run_stack_limit (by decide) ran⟩

/-! The table modelled from the spec, and the two frames below. -/

theorem mem_of_lookup {β : Type} {a : OpCode} {b : β} :
    ∀ {entries : List (OpCode × β)}, entries.lookup a = some b → ∃ op, (op, b) ∈ entries
  | [], h => nomatch h
  | (op, b') :: rest, h => by
      rw [List.lookup_cons] at h
      split at h
      · obtain rfl := Option.some.inj h
        exact ⟨op, .head _⟩
      · obtain ⟨op', mem⟩ := mem_of_lookup h
        exact ⟨op', .tail _ mem⟩

set_option maxRecDepth 4000 in
/-- The table modelled from the spec registers PUSH1 to PUSH32, and its call handlers under
the four call opcodes. -/
theorem dispatchTable_wellFormed (keccak256 : Bytes → Hash) :
    Runtime.WellFormed ⟨dispatchTable, keccak256⟩ := by
  intro op handler registered
  obtain ⟨_, mem⟩ := mem_of_lookup registered
  have entries : ∀ entry ∈ dispatchEntries, entry.2.inst.WellFormed := by decide
  exact entries _ mem

theorem silentHost_keepsContextWords : KeepsContextWords silentHost :=
  fun _ _ _ _ _ context => context

theorem silentHost_contextWords : ContextWords (silentHost.getTxContext ()) := by
  unfold ContextWords; decide

/-- A frame started with the value -1, which is below `2^256` and which `Write` passes from
its message to the frame as it is, runs `CALLVALUE, STOP` and dispatches STOP on a stack
holding -1. -/
theorem negative_value_dispatched :
    ∃ c, Dispatches ⟨dispatchTable, fun _ => 0⟩ silentHost
      (initialState silentHost Revision.istanbul () .create 0 0 (-1) [0x34, 0x00] 100 0 false 0) c ∧
      c.stack = [-1] :=
  ⟨_, .next (.start rfl (by decide)) rfl rfl (by decide), rfl⟩

/-- `PUSH1 5, STOP` run with the table modelled from the spec: STOP is dispatched on the
stack `[5]`, a stack of words. -/
theorem push_dispatched_words :
    ∃ c, Dispatches ⟨dispatchTable, fun _ => 0⟩ silentHost
      (initialState silentHost Revision.istanbul () .create 0 0 0 [0x60, 5, 0x00] 100 0 false 0) c ∧
      c.stack = [5] ∧ Words c.stack := by
  obtain ⟨c, reached, stack⟩ : ∃ c, Dispatches ⟨dispatchTable, fun _ => 0⟩ silentHost
      (initialState silentHost Revision.istanbul () .create 0 0 0 [0x60, 5, 0x00] 100 0 false 0) c ∧
      c.stack = [5] :=
    ⟨_, .next (.start rfl (by decide)) rfl rfl (by decide), rfl⟩
  exact ⟨c, reached, stack, dispatch_stack_words (dispatchTable_wellFormed _)
    silentHost_keepsContextWords isWord_zero silentHost_contextWords reached⟩

end GoEvm.Evm
