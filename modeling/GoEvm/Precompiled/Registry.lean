import GoEvm.Precompiled
import GoEvm.Evm.Frame

/-! The registry of precompiled contracts (`register` and `init` of the state package) with the
contracts of `precompiled/base.go` and of the BN256 file: each contract's gas function as the
code computes it in `uint64`, and its run with the cryptographic kernels as parameters. `ModExp`
and `Blake2f`, which `init` installs at 5 and 9, are not in src/ and stay parameters.

Against the spec's table of the precompiled contracts, the registry charges each listed formula
modulo `2^64` for every input whose length fits in `uint64`, `isPrecompiled` opens each address
from the revision of its row, and a frame that `run` sends to a listed contract is charged that
price: all of its gas when the price is above it or the contract fails, the price otherwise. -/
namespace GoEvm

namespace Precompiled

/-- `baseGasCalc`: the base and the price of each 32-byte word the input starts, in `uint64`. -/
def baseGasCalc (input : Bytes) (base word : Uint64) : Uint64 :=
  base + BitVec.ofNat 64 (input.length + 31) / 32 * word

def Identity.gas (input : Bytes) (_rev : Revision) : Uint64 := baseGasCalc input 15 3

def Identity.run (input : Bytes) : Except Error Bytes := pure input

def Sha256h.gas (input : Bytes) (_rev : Revision) : Uint64 := baseGasCalc input 60 12

/-- `Sha256h.Run`, with `sha256.Sum256` as the parameter `sha256`. -/
def Sha256h.run (sha256 : Bytes → Hash) (input : Bytes) : Except Error Bytes :=
  pure (toBytesBE 32 (sha256 input).toNat)

def Ripemd160h.gas (input : Bytes) (_rev : Revision) : Uint64 := baseGasCalc input 600 120

/-- `Ripemd160h.Run`, with the 20-byte sum of `ripemd160` as the parameter `ripemd160`. -/
def Ripemd160h.run (ripemd160 : Bytes → BitVec 160) (input : Bytes) : Except Error Bytes :=
  pure (leftPad (toBytesBE 20 (ripemd160 input).toNat) 32)

/-- The kernels of `go-eth-bn256` the BN256 contracts call, over its points of G1 and G2:
`Unmarshal`, `Marshal`, `Add`, `ScalarMult` and `PairingCheck`. -/
structure Bn256 (G1 G2 : Type) where
  unmarshalG1 : Bytes → Except Error G1
  unmarshalG2 : Bytes → Except Error G2
  marshal : G1 → Bytes
  add : G1 → G1 → G1
  scalarMult : G1 → Nat → G1
  pairingCheck : List G1 → List G2 → Bool

/-- BN256 kernels over groups of one point, whose pairing check always holds. -/
def unitBn256 : Bn256 Unit Unit :=
  ⟨fun _ => pure (), fun _ => pure (), fun _ => [], fun _ _ => (), fun _ _ => (), fun _ _ => true⟩

variable {G1 G2 : Type}

def Bn256Add.gas (_input : Bytes) (rev : Revision) : Uint64 :=
  if Revision.istanbul ≤ rev then 150 else 500

def Bn256Add.run (k : Bn256 G1 G2) (input : Bytes) : Except Error Bytes := do
  let (val, input) := get input 64
  let b1 ← k.unmarshalG1 val
  let (val, _) := get input 64
  let b2 ← k.unmarshalG1 val
  pure (k.marshal (k.add b1 b2))

def Bn256Mul.gas (_input : Bytes) (rev : Revision) : Uint64 :=
  if Revision.istanbul ≤ rev then 6000 else 40000

def Bn256Mul.run (k : Bn256 G1 G2) (input : Bytes) : Except Error Bytes := do
  let (v, input) := get input 64
  let b0 ← k.unmarshalG1 v
  let (v, _) := get input 32
  pure (k.marshal (k.scalarMult b0 (bytesToNat v)))

def falseBytes : Bytes := List.replicate 32 0

def trueBytes : Bytes := List.replicate 31 0 ++ [1]

def Bn256Pairing.gas (input : Bytes) (rev : Revision) : Uint64 :=
  let (baseGas, pointGas) : Uint64 × Uint64 :=
    if Revision.istanbul ≤ rev then (45000, 34000) else (100000, 80000)
  baseGas + pointGas * BitVec.ofNat 64 (input.length / 192)

/-- The loop of `Bn256Pairing.Run` over `num` pairs: a point of G1 from 64 bytes, then one of
G2 from 128. -/
def Bn256Pairing.points (k : Bn256 G1 G2) : Nat → Bytes → Except Error (List G1 × List G2)
  | 0, _ => pure ([], [])
  | num + 1, input => do
      let (buf, input) := get input 64
      let a0 ← k.unmarshalG1 buf
      let (buf, input) := get input 128
      let b0 ← k.unmarshalG2 buf
      let (ar, br) ← points k num input
      pure (a0 :: ar, b0 :: br)

def Bn256Pairing.run (k : Bn256 G1 G2) (input : Bytes) : Except Error Bytes :=
  if input.length = 0 then pure trueBytes
  else if input.length % 192 ≠ 0 then throw (.precompileFailed "bad size")
  else do
    let (ar, br) ← Bn256Pairing.points k (input.length / 192) input
    pure (if k.pairingCheck ar br then trueBytes else falseBytes)

theorem get_append {a rest : Bytes} {size : Nat} (exact : a.length = size) :
    get (a ++ rest) size = (a, rest) := by
  subst exact
  simp [get]

/-- The loop of the pairing reads the pairs in order, each a point of G1 from its first 64 bytes
and one of G2 from the next 128, and stops at the first that does not unmarshal. -/
theorem Bn256Pairing.points_pairs (k : Bn256 G1 G2) :
    ∀ pairs : List (Bytes × Bytes), (∀ p ∈ pairs, p.1.length = 64 ∧ p.2.length = 128) →
      Bn256Pairing.points k pairs.length (pairs.flatMap fun p => p.1 ++ p.2) =
        List.unzip <$> pairs.mapM fun p => do
          let a ← k.unmarshalG1 p.1
          let b ← k.unmarshalG2 p.2
          pure (a, b)
  | [], _ => rfl
  | (a, b) :: pairs, sizes => by
      obtain ⟨sa, sb⟩ := sizes (a, b) (List.mem_cons_self _ _)
      have rest := points_pairs k pairs fun p mem => sizes p (List.mem_cons_of_mem _ mem)
      simp only [List.length_cons, List.flatMap_cons, List.append_assoc, points, get_append sa,
        get_append sb, rest, List.mapM_cons]
      cases k.unmarshalG1 a <;> cases k.unmarshalG2 b <;> try rfl
      cases pairs.mapM fun p => do
          let a ← k.unmarshalG1 p.1
          let b ← k.unmarshalG2 p.2
          pure (a, b) <;> rfl

theorem length_pairs : ∀ {pairs : List (Bytes × Bytes)},
    (∀ p ∈ pairs, p.1.length = 64 ∧ p.2.length = 128) →
      (pairs.flatMap fun p => p.1 ++ p.2).length = 192 * pairs.length
  | [], _ => rfl
  | p :: pairs, sizes => by
      obtain ⟨sa, sb⟩ := sizes p (List.mem_cons_self _ _)
      rw [List.flatMap_cons, List.length_append, List.length_append, sa, sb,
        length_pairs fun q mem => sizes q (List.mem_cons_of_mem _ mem), List.length_cons]
      omega

/-- `Bn256Pairing.Run` on the encodings of one pair or more: the check of the pairs it reads, in
order, `0…01` when it holds and `0…0` when not, unless a point does not unmarshal. -/
theorem Bn256Pairing.run_pairs (k : Bn256 G1 G2) {pairs : List (Bytes × Bytes)}
    (sizes : ∀ p ∈ pairs, p.1.length = 64 ∧ p.2.length = 128) (nonempty : pairs ≠ []) :
    Bn256Pairing.run k (pairs.flatMap fun p => p.1 ++ p.2) =
      (fun ps => if k.pairingCheck ps.unzip.1 ps.unzip.2 then trueBytes else falseBytes) <$>
        pairs.mapM (fun p => do
          let a ← k.unmarshalG1 p.1
          let b ← k.unmarshalG2 p.2
          pure (a, b)) := by
  have positive : pairs.length ≠ 0 := fun empty => nonempty (List.length_eq_zero.mp empty)
  unfold run
  rw [length_pairs sizes, if_neg (by omega), if_neg (by omega), Nat.mul_div_cancel_left _ (by decide),
    points_pairs k pairs sizes]
  cases pairs.mapM fun p => do
      let a ← k.unmarshalG1 p.1
      let b ← k.unmarshalG2 p.2
      pure (a, b) <;> rfl

/-- One pair of zero encodings, over groups of one point: the pairing returns `0…01`. -/
theorem pairing_of_one_pair :
    (∀ p ∈ [(List.replicate 64 (0 : UInt8), List.replicate 128 (0 : UInt8))],
        p.1.length = 64 ∧ p.2.length = 128) ∧
      Bn256Pairing.run unitBn256
        ([(List.replicate 64 0, List.replicate 128 0)].flatMap fun p => p.1 ++ p.2) = .ok trueBytes :=
  have sizes : ∀ p ∈ [(List.replicate 64 (0 : UInt8), List.replicate 128 (0 : UInt8))],
      p.1.length = 64 ∧ p.2.length = 128 := by decide
  ⟨sizes, (Bn256Pairing.run_pairs unitBn256 sizes (List.cons_ne_nil _ _)).trans rfl⟩

/-- What the registry's contracts call outside src/: `wallet.Ecrecover`, the two hashes, the
BN256 kernels, and the contracts `ModExp` and `Blake2f`. -/
structure Kernels (G1 G2 : Type) where
  recover : Bytes → Bytes → Option Address
  sha256 : Bytes → Hash
  ripemd160 : Bytes → BitVec 160
  bn256 : Bn256 G1 G2
  modExp : PrecompiledContract
  blake2f : PrecompiledContract

/-- `precompiledContracts` as `init` fills it. `runPrecompiled` reads it only at an address
`isPrecompiled` finds in it; elsewhere it holds a contract that charges and returns nothing. -/
def precompiledContracts (k : Kernels G1 G2) (addr : Address) : PrecompiledContract :=
  if addr = 1 then ecrecover k.recover
  else if addr = 2 then ⟨Sha256h.gas, Sha256h.run k.sha256⟩
  else if addr = 3 then ⟨Ripemd160h.gas, Ripemd160h.run k.ripemd160⟩
  else if addr = 4 then ⟨Identity.gas, Identity.run⟩
  else if addr = 5 then k.modExp
  else if addr = 6 then ⟨Bn256Add.gas, Bn256Add.run k.bn256⟩
  else if addr = 7 then ⟨Bn256Mul.gas, Bn256Mul.run k.bn256⟩
  else if addr = 8 then ⟨Bn256Pairing.gas, Bn256Pairing.run k.bn256⟩
  else if addr = 9 then k.blake2f
  else ⟨fun _ _ => 0, fun _ => pure []⟩

/-! The spec's table, for the rows whose price it gives as a formula, and the revision of each
row. -/

/-- The price of the table for an input of `n` bytes, `⌈n/32⌉` written `(n + 31) / 32` and the
pairs of the pairing `n / 192`; none for MODEXP and BLAKE2F, priced by their EIPs, and off the
table. -/
def scheduleGas (addr : Address) (n : Nat) (rev : Revision) : Option Nat :=
  if addr = 1 then some 3000
  else if addr = 2 then some (60 + 12 * ((n + 31) / 32))
  else if addr = 3 then some (600 + 120 * ((n + 31) / 32))
  else if addr = 4 then some (15 + 3 * ((n + 31) / 32))
  else if addr = 6 then some (if Revision.istanbul ≤ rev then 150 else 500)
  else if addr = 7 then some (if Revision.istanbul ≤ rev then 6000 else 40000)
  else if addr = 8 then
    some (if Revision.istanbul ≤ rev then 45000 + 34000 * (n / 192) else 100000 + 80000 * (n / 192))
  else none

/-- The revision gate of the table. -/
def scheduleGate (addr : Address) : Option Revision :=
  if addr ∈ ([1, 2, 3, 4] : List Address) then some .frontier
  else if addr ∈ ([5, 6, 7, 8] : List Address) then some .byzantium
  else if addr = 9 then some .istanbul
  else none

theorem baseGasCalc_toNat (input : Bytes) (base word : Uint64) (fits : input.length + 31 < 2 ^ 64) :
    (baseGasCalc input base word).toNat = (base.toNat + word.toNat * ((input.length + 31) / 32)) % 2 ^ 64 := by
  have thirtyTwo : (32 : Uint64).toNat = 32 := rfl
  rw [baseGasCalc, BitVec.toNat_add, BitVec.toNat_mul, BitVec.toNat_udiv, BitVec.toNat_ofNat,
    Nat.mod_eq_of_lt fits, thirtyTwo, Nat.add_mod_mod, Nat.mul_comm]

theorem pairingGas_toNat (input : Bytes) (base point : Uint64) (fits : input.length + 31 < 2 ^ 64) :
    (base + point * BitVec.ofNat 64 (input.length / 192)).toNat =
      (base.toNat + point.toNat * (input.length / 192)) % 2 ^ 64 := by
  rw [BitVec.toNat_add, BitVec.toNat_mul, BitVec.toNat_ofNat,
    Nat.mod_eq_of_lt (a := input.length / 192) (by omega), Nat.add_mod_mod]

/-- The registry charges the table's price, modulo `2^64`, at every address the table prices,
for every revision and every input whose length fits in `uint64`. -/
theorem precompiledContracts_gas (k : Kernels G1 G2) {addr : Address} {input : Bytes}
    {rev : Revision} {price : Nat} (fits : input.length + 31 < 2 ^ 64)
    (listed : scheduleGas addr input.length rev = some price) :
    ((precompiledContracts k addr).gas input rev).toNat = price % 2 ^ 64 := by
  unfold scheduleGas at listed
  simp only [ite_eq_iff, Option.some.injEq, reduceCtorEq, and_false, or_false] at listed
  rcases listed with ⟨rfl, rfl⟩ | ⟨-, ⟨rfl, rfl⟩ | ⟨-, ⟨rfl, rfl⟩ | ⟨-, ⟨rfl, rfl⟩ | ⟨-, ⟨rfl, row⟩ |
    ⟨-, ⟨rfl, row⟩ | ⟨-, rfl, row⟩⟩⟩⟩⟩⟩ <;>
    try rcases row with ⟨reached, rfl⟩ | ⟨reached, rfl⟩
  all_goals simp only [precompiledContracts, BitVec.reduceEq, ↓reduceIte, ecrecover, Ecrecover.gas,
    Sha256h.gas, Ripemd160h.gas, Identity.gas, Bn256Add.gas, Bn256Mul.gas, Bn256Pairing.gas,
    baseGasCalc_toNat _ _ _ fits, pairingGas_toNat _ _ _ fits, BitVec.ofNat_eq_ofNat, BitVec.toNat_ofNat,
    Nat.reducePow, Nat.reduceMod, *]

/-- The protocol of `runPrecompiled`: below the price, out of gas; a failure keeps no gas; a
success returns the gas less the price. -/
theorem runPrecompiled_charge (contract : PrecompiledContract) (input : Bytes) (gas : Uint64)
    (rev : Revision) :
    (gas.toNat < (contract.gas input rev).toNat →
        runPrecompiled contract input gas rev = ([], 0, some .precompileOutOfGas)) ∧
      ((runPrecompiled contract input gas rev).2.2 = none →
        (runPrecompiled contract input gas rev).2.1.toNat + (contract.gas input rev).toNat = gas.toNat) ∧
      ((runPrecompiled contract input gas rev).2.2 ≠ none → (runPrecompiled contract input gas rev).2.1 = 0) := by
  by_cases short : gas < contract.gas input rev
  · simp [runPrecompiled, short]
  · have enough := BitVec.not_lt.mp short
    simp only [runPrecompiled, short, if_false, not_lt.mpr (BitVec.le_def.mp enough), false_implies,
      true_and]
    cases contract.run input with
    | error err => simp
    | ok returnValue =>
        refine ⟨fun _ => ?_, fun failed => absurd rfl failed⟩
        rw [BitVec.toNat_sub_of_le enough]
        exact Nat.sub_add_cancel enough

end Precompiled

namespace Transition

open Precompiled

variable {G1 G2 : Type}

/-- `isPrecompiled` opens an address exactly when the table has a row for it and the revision
has reached the row's. -/
theorem isPrecompiled_iff (t : Transition) (addr : Address) :
    t.isPrecompiled addr = true ↔ ∃ gate, scheduleGate addr = some gate ∧ gate ≤ t.config.rev := by
  by_cases listed : addr ∈ precompiledAddresses
  · simp only [precompiledAddresses, List.mem_cons, List.mem_singleton, List.not_mem_nil,
      or_false] at listed
    rcases listed with rfl | rfl | rfl | rfl | rfl | rfl | rfl | rfl | rfl <;>
      simp [isPrecompiled, scheduleGate, precompiledAddresses, isRevision, Revision.frontier]
  · have off : scheduleGate addr = none := by
      simp only [precompiledAddresses, List.mem_cons, List.mem_singleton, List.not_mem_nil,
        or_false, not_or] at listed
      simp only [scheduleGate, List.mem_cons, List.mem_singleton, List.not_mem_nil, or_false, listed,
        if_false]
    simp [isPrecompiled, listed, off]

end Transition

/-- Kernels that recover no signer, hash to zero, and have one point in each group. -/
def unitKernels : Precompiled.Kernels Unit Unit :=
  ⟨fun _ _ => none, fun _ => 0, fun _ => 0, Precompiled.unitBn256, ⟨fun _ _ => 0, fun _ => pure []⟩,
    ⟨fun _ _ => 0, fun _ => pure []⟩⟩

/-- The registry over `unitKernels`, with an interpreter that is never reached. -/
def registryEnv : Env := ⟨⟨fun _ => none, fun _ => 0⟩, Precompiled.precompiledContracts unitKernels⟩

/-- An Istanbul Transition over an empty backend. -/
def istanbulTransition : Transition :=
  newTransition ⟨fun _ => 0, ⟨0, 0, 0, 0, 0, 0, 0, 0, 0⟩, Revision.istanbul, ⟨fun _ _ _ => 0, fun _ => none⟩, []⟩

/-- With 17 gas the same frame is out of gas. -/
example : istanbulTransition.run registryEnv (fun _ _ => throw .fuel) 0
    (newContract .call 0 1 4 0 17 [0xde, 0xad, 0xbe, 0xef]) =
      .ok (istanbulTransition, [], 0, some .precompileOutOfGas) := rfl

end GoEvm
