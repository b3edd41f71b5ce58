import GoEvm.Itrie.Order
import GoEvm.Transition

/-! The hash of an itrie (`Txn.Hash` and `Txn.hash`) and the compact encoding of the keys of its
short nodes (`hexToCompact`). The encoding drops the terminator of a key, puts the flags 2 for
a terminated key and 1 for an odd count of nibbles in front, with a padding nibble after even
flags, and packs the nibbles two to a byte. On the keys a canonical trie's short nodes hold, a
terminated piece of a path at a leaf and a nonempty piece of nibbles at an extension, the
encoding decodes back to the key; so it separates them, and the hasher, which encodes the key of
every short node it meets, never panics on a trie `Commit` builds.

The RLP library is seen through its values, which the hasher builds, and `Value.Len` and
`Value.MarshalTo`, which it calls, given as the parameters of a `Hasher` with `Keccak256`. -/
namespace GoEvm.Itrie

/-- The loop of `hexToCompact` over the flagged nibbles: two to a byte, `16*hex[i] + hex[i+1]`
in byte arithmetic. An odd count would read past the end. -/
def packNibbles : List UInt8 → Except Fault Bytes
  | [] => pure []
  | [_] => throw .panic
  | x :: y :: rest => return (16 * x + y) :: (← packNibbles rest)

/-- `hexToCompact`. An empty key panics on `hex[len(hex)-1]`. -/
def hexToCompact (hex : Path) : Except Fault Bytes := do
  let some last := hex.getLast? | throw .panic
  let terminator := if last.val = 16 then 1 else 0
  let hex := if terminator = 1 then hex.dropLast else hex
  let oddlen := hex.length % 2
  let flags := 2 * terminator + oddlen
  let hex := hex.map fun x => UInt8.ofNat x.val
  packNibbles (if oddlen ≠ 0 then UInt8.ofNat flags :: hex else UInt8.ofNat flags :: 0 :: hex)

/-- The decoding of the compact encoding, from the format: the high nibble of the first byte
holds the flags, and an odd count of nibbles starts with its low nibble; every other byte holds
two nibbles, and the flag 2 restores the terminator. -/
def compactToHex : Bytes → Path
  | [] => []
  | first :: rest =>
      let flags := first.toNat / 16
      (if flags % 2 = 1 then (byteNibbles first).drop 1 else []) ++ rest.flatMap byteNibbles ++
        if flags / 2 % 2 = 1 then [16] else []

/-- The keys of the short nodes of a canonical trie: a terminated piece of a path at a leaf, and
a nonempty piece of nibbles at an extension. -/
def CompactKey (p : Path) : Prop := Terminated p ∨ (Nibbles p ∧ p ≠ [])

/-! The byte of two nibbles. -/

theorem toNat_pack {x : Nat} {y : UInt8} (hx : x < 16) (hy : y.toNat < 16) :
    (16 * UInt8.ofNat x + y).toNat = 16 * x + y.toNat := by
  simp [UInt8.toNat, UInt8.ofNat, UInt8.mul_def, UInt8.add_def] at hy ⊢
  omega

theorem byteNibbles_pack {x y : Nibble} (hx : x.val < 16) (hy : y.val < 16) :
    byteNibbles (16 * UInt8.ofNat x.val + UInt8.ofNat y.val) = [x, y] := by
  have small : (UInt8.ofNat y.val).toNat = y.val := by
    simp [UInt8.toNat, UInt8.ofNat]
    omega
  simp only [byteNibbles, toNat_pack hx (small ▸ hy), small, List.cons.injEq, and_true]
  constructor <;> apply Fin.ext <;> simp <;> omega

/-- The loop packs an even run of nibbles into the bytes whose nibbles they are. -/
theorem packNibbles_nibbles : ∀ ns : Path, Nibbles ns → ns.length % 2 = 0 →
    ∃ b, packNibbles (ns.map fun x => UInt8.ofNat x.val) = .ok b ∧ b.flatMap byteNibbles = ns
  | [], _, _ => ⟨[], rfl, rfl⟩
  | [_], _, odd => nomatch odd
  | x :: y :: rest, nibbles, even => by
      obtain ⟨b, packed, unpacked⟩ := packNibbles_nibbles rest
        (fun z mem => nibbles z (by simp [mem])) (by simp at even; omega)
      refine ⟨_ :: b, by simp only [List.map_cons, packNibbles, packed]; rfl, ?_⟩
      rw [List.flatMap_cons, byteNibbles_pack (nibbles x (by simp)) (nibbles y (by simp)), unpacked]
      rfl

/-- The decoding of a first byte of flags `x` and nibble `y`. -/
theorem compactToHex_cons {x : Nat} {y : Nibble} (hx : x < 16) (hy : y.val < 16) (rest : Bytes) :
    compactToHex ((16 * UInt8.ofNat x + UInt8.ofNat y.val) :: rest) =
      (if x % 2 = 1 then [y] else []) ++ rest.flatMap byteNibbles ++
        if x / 2 % 2 = 1 then [16] else [] := by
  have small : (UInt8.ofNat y.val).toNat < 16 := by
    simp [UInt8.toNat, UInt8.ofNat]
    omega
  have flags : (16 * UInt8.ofNat x + UInt8.ofNat y.val).toNat / 16 = x := by
    rw [toNat_pack hx small]
    omega
  simp only [compactToHex, flags, byteNibbles_pack (x := ⟨x, by omega⟩) hx hy]
  rfl

/-- The flags and the nibbles of a key, packed, decode to the nibbles and the terminator the
flag `t` stands for. -/
theorem packNibbles_flagged {ns : Path} (nibbles : Nibbles ns) {t : Nat} (ht : t ≤ 1) :
    ∃ b, packNibbles (if ns.length % 2 ≠ 0 then
          UInt8.ofNat (2 * t + ns.length % 2) :: ns.map (fun x => UInt8.ofNat x.val)
        else UInt8.ofNat (2 * t + ns.length % 2) :: 0 :: ns.map (fun x => UInt8.ofNat x.val)) = .ok b ∧
      compactToHex b = ns ++ if t = 1 then [16] else [] := by
  by_cases even : ns.length % 2 = 0
  · obtain ⟨b, packed, unpacked⟩ := packNibbles_nibbles ns nibbles even
    have zero : (0 : UInt8) = UInt8.ofNat (0 : Nibble).val := rfl
    rw [if_neg (not_not.mpr even), even, zero]
    refine ⟨_ :: b, by simp only [packNibbles, packed]; rfl, ?_⟩
    rw [compactToHex_cons (by omega) (by decide), unpacked]
    rcases Nat.le_one_iff_eq_zero_or_eq_one.mp ht with rfl | rfl <;> simp
  · obtain _ | ⟨n, rest⟩ := ns
    · exact absurd rfl even
    have odd : (n :: rest).length % 2 = 1 := by omega
    obtain ⟨b, packed, unpacked⟩ := packNibbles_nibbles rest
      (fun z mem => nibbles z (by simp [mem])) (by simp at odd; omega)
    rw [if_pos even, odd]
    refine ⟨_ :: b, by simp only [List.map_cons, packNibbles, packed]; rfl, ?_⟩
    rw [compactToHex_cons (by omega) (nibbles n (by simp)), unpacked]
    rcases Nat.le_one_iff_eq_zero_or_eq_one.mp ht with rfl | rfl <;> simp

/-- The round trip of the compact encoding: on the key of a leaf or an extension,
`hexToCompact` does not panic, and its bytes decode back to the key. -/
theorem compactToHex_hexToCompact {p : Path} (key : CompactKey p) :
    ∃ b, hexToCompact p = .ok b ∧ compactToHex b = p := by
  rcases key with ⟨ns, nibbles, rfl⟩ | ⟨nibbles, nonempty⟩
  · obtain ⟨b, packed, decoded⟩ := packNibbles_flagged nibbles (le_refl 1)
    refine ⟨b, ?_, by simpa using decoded⟩
    simpa [hexToCompact] using packed
  · obtain ⟨b, packed, decoded⟩ := packNibbles_flagged nibbles (Nat.zero_le 1)
    refine ⟨b, ?_, by simpa using decoded⟩
    obtain ⟨init, last, rfl⟩ := (List.eq_nil_or_concat _).resolve_left nonempty
    have below : last.val ≠ 16 := (nibbles last (by simp)).ne
    simpa [hexToCompact, below] using packed

/-- The encoding of the keys of short nodes: `hexToCompact` does not panic on such a key, its
bytes decode back to the key, and so it separates them. -/
theorem hexToCompact_injective {p q : Path} (kp : CompactKey p) (kq : CompactKey q) :
    (∃ b, hexToCompact p = .ok b ∧ compactToHex b = p) ∧ (hexToCompact p = hexToCompact q → p = q) := by
  obtain ⟨b, encoded, decoded⟩ := compactToHex_hexToCompact kp
  obtain ⟨b', encoded', decoded'⟩ := compactToHex_hexToCompact kq
  refine ⟨⟨b, encoded, decoded⟩, fun same => ?_⟩
  rw [encoded, encoded', Except.ok.injEq] at same
  rw [← decoded, ← decoded', same]

/-- The leaf of the key `1 2 3` encodes as `0x31 0x23`, which decodes back to it, and no other key
of a short node encodes so. -/
theorem leaf_key_encoding_unique :
    CompactKey [1, 2, 3, 16] ∧ hexToCompact [1, 2, 3, 16] = .ok [0x31, 0x23] ∧
      compactToHex [0x31, 0x23] = [1, 2, 3, 16] ∧
      ∀ q, CompactKey q → hexToCompact q = .ok [0x31, 0x23] → q = [1, 2, 3, 16] :=
  have key : CompactKey [1, 2, 3, 16] := .inl ⟨[1, 2, 3], by decide, rfl⟩
  have encoded : hexToCompact [1, 2, 3, 16] = .ok [0x31, 0x23] := rfl
  ⟨key, encoded, rfl, fun _ kq same => (hexToCompact_injective kq key).2 (same.trans encoded.symm)⟩

/-- Off the keys of short nodes it does not: a terminator inside a key wraps `16 * 16` to 0. -/
example : hexToCompact [16, 0] = hexToCompact [0, 0] := rfl

/-! The hasher. -/

/-- A value of the RLP arena (`fastrlp.Value`) as the hasher builds it: a byte string, a list,
or the null of an empty slot. -/
inductive RlpValue where
  | bytes (b : Bytes)
  | array (items : List RlpValue)
  | null

/-- What the hasher calls outside src/: `Value.Len` and `Value.MarshalTo` of the RLP library,
and `ethgo.Keccak256`. -/
structure Hasher where
  len : RlpValue → Nat
  marshal : RlpValue → Bytes
  keccak256 : Bytes → Bytes

/-- The end of `hash` for a short or a full node: a value shorter than 32 is embedded, a longer
one is replaced by the hash of its encoding. -/
def Hasher.embed (h : Hasher) (val : RlpValue) : RlpValue :=
  if h.len val < 32 then val else .bytes (h.keccak256 (h.marshal val))

/-- `Txn.hash`: a value node gives its bytes, a short node the pair of its encoded key and its
child's value, a full node the sixteen children's values and its value's, null for an empty
slot. A nil node falls to the panic of the type switch. -/
def Hasher.hash (h : Hasher) : Node → Except Fault RlpValue
  | .nil => throw .panic
  | .value buf => pure (.bytes buf)
  | .short key child => do
      let child ← h.hash child
      let key ← hexToCompact key
      pure (h.embed (.array [.bytes key, child]))
  | .full value children => do
      let children ← (List.finRange 16).mapM fun i =>
        if (children i).isNil then pure .null else h.hash (children i)
      let value ← if value.isNil then pure .null else h.hash value
      pure (h.embed (.array (children ++ [value])))

/-- `Txn.Hash`: the empty root for an empty trie; a byte string of 32 is the root, another is
hashed, and a list is hashed in its encoding. -/
def Txn.hash (h : Hasher) (t : Txn) : Except Fault Bytes :=
  if t.root.isNil then pure (toBytesBE 32 EmptyRootHash.toNat)
  else do
    let val ← h.hash t.root
    match val with
    | .bytes raw =>
        pure (if h.len val ≠ 32 then h.keccak256 raw else raw.take 32 ++ List.replicate (32 - raw.length) 0)
    | _ => pure (h.keccak256 (h.marshal val))

theorem Hasher.hash_short (h : Hasher) (key : Path) (child : Node) :
    h.hash (.short key child) = (do
      let child ← h.hash child
      let key ← hexToCompact key
      pure (h.embed (.array [.bytes key, child]))) := rfl

theorem Hasher.hash_full (h : Hasher) (value : Node) (children : Fin 16 → Node) :
    h.hash (.full value children) = (do
      let children ← (List.finRange 16).mapM fun i =>
        if (children i).isNil then pure .null else h.hash (children i)
      let value ← if value.isNil then pure .null else h.hash value
      pure (h.embed (.array (children ++ [value])))) := rfl

theorem mapM_ok {α β : Type} {f : α → Except Fault β} :
    ∀ {l : List α}, (∀ x ∈ l, ∃ v, f x = .ok v) → ∃ vs, l.mapM f = .ok vs
  | [], _ => ⟨[], rfl⟩
  | x :: l, each => by
      obtain ⟨v, fx⟩ := each x (List.mem_cons_self _ _)
      obtain ⟨vs, rest⟩ := mapM_ok fun y mem => each y (List.mem_cons_of_mem _ mem)
      exact ⟨v :: vs, by simp only [List.mapM_cons, fx, rest]; rfl⟩

/-- The hasher does not panic on a canonical trie: it meets a nil node only in an empty slot,
and every short node's key is one `hexToCompact` encodes. -/
theorem Hasher.hash_of_shaped (h : Hasher) {n : Nat} {t : Node} (shaped : Shaped n t)
    (present : t ≠ .nil) : ∃ v, h.hash t = .ok v := by
  induction shaped with
  | nil => exact absurd rfl present
  | value => exact ⟨_, rfl⟩
  | leaf terminated _ =>
      obtain ⟨b, encoded, -⟩ := compactToHex_hexToCompact (.inl terminated)
      exact ⟨_, by rw [h.hash_short, encoded]; rfl⟩
  | extension nibbles nonempty _ _ below =>
      obtain ⟨v, hashed⟩ := below Node.noConfusion
      obtain ⟨b, encoded, -⟩ := compactToHex_hexToCompact (.inr ⟨nibbles, nonempty⟩)
      exact ⟨_, by rw [h.hash_short, hashed, encoded]; rfl⟩
  | @branch _ children _ _ _ slots =>
      obtain ⟨vs, mapped⟩ := mapM_ok (l := List.finRange 16)
          (f := fun i => if (children i).isNil then pure .null else h.hash (children i)) fun i _ => by
        by_cases empty : children i = .nil
        · exact ⟨.null, by simp only [empty, Node.isNil_nil, if_true]; rfl⟩
        · obtain ⟨v, hashed⟩ := slots i empty
          exact ⟨v, by simp [Node.isNil_iff, empty, hashed]⟩
      exact ⟨_, by rw [h.hash_full, mapped]; rfl⟩

/-- `Txn.Hash` does not panic on a trie in canonical form. -/
theorem Txn.hash_of_shaped (h : Hasher) {n : Nat} {t : Txn} (shaped : Shaped n t.root) :
    ∃ root, t.hash h = .ok root := by
  unfold Txn.hash
  split
  · exact ⟨_, rfl⟩
  · rename_i present
    obtain ⟨v, hashed⟩ := h.hash_of_shaped shaped fun nil => present (Node.isNil_iff.mpr nil)
    rw [hashed]
    cases v <;> exact ⟨_, rfl⟩

/-- The state root of a commit: for every sequence of commit objects on 32-byte keys, the loops
of `Commit` build a trie and `Txn.Hash` returns its root without a panic. -/
theorem commit_hash_ok (h : Hasher) (ops : List Op) (keys : ∀ op ∈ ops, op.key.length = 32) :
    ∃ t root, commitTxn ops = .ok t ∧ t.hash h = .ok root := by
  obtain ⟨t, built, shaped, -⟩ := commitTxn_spec ops keys
  obtain ⟨root, hashed⟩ := Txn.hash_of_shaped h shaped
  exact ⟨t, root, built, hashed⟩

/-- The commit of two inserts, hashed with a hasher that embeds nothing. -/
theorem commit_two_inserts_hash_ok :
    (∀ op ∈ [Op.insert (List.replicate 32 1) [1], Op.insert (List.replicate 32 2) [2]],
        op.key.length = 32) ∧
      ∃ t root, commitTxn [Op.insert (List.replicate 32 1) [1], Op.insert (List.replicate 32 2) [2]] =
          .ok t ∧ t.hash ⟨fun _ => 32, fun _ => [], fun _ => List.replicate 32 0⟩ = .ok root :=
  have keys := by decide
  ⟨keys, commit_hash_ok _ _ keys⟩

end GoEvm.Itrie
