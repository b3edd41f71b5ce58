import GoEvm.Types

/-! The Merkle-Patricia trie of the `itrie` test package (`tests/itrie/trie.go`), which builds
the state root from the objects `Txn.Commit` returns. A key becomes a path of nibbles closed by
the terminator 16 (`bytesToPath`). `insert` descends along the path, splits a short node at the
first nibble the path differs in and fills full nodes in place; `delete` copies the full nodes
it passes, and a full node left with one child becomes a short node, merged with a short node
below or above it.

The Go `Node` interface is the inductive `Node`; its nil value, an empty slot, is the
constructor `nil`. The Go nodes of one trie are not shared, so a full node that `insert`
fills in place is the value it returns. -/
namespace GoEvm.Itrie

/-- A path element: the nibbles 0 to 15 and the terminator 16, the bytes `bytesToPath`
writes. The keys of short nodes are pieces of paths, or nibbles of `delete`'s collapse. -/
abbrev Nibble := Fin 17

abbrev Path := List Nibble

/-- `Node`: `ValueNode`, `ShortNode` (an extension, or a leaf above a value) and `FullNode`.
A short node's child is never nil: every site that builds one passes a node. -/
inductive Node where
  | nil
  | value (buf : Bytes)
  | short (key : Path) (child : Node)
  | full (value : Node) (children : Fin 16 → Node)

namespace Node

/-- The nil test of the Go code: `i != nil`, `n.value == nil`. -/
def isNil : Node → Bool
  | nil => true
  | _ => false

@[simp] theorem isNil_nil : nil.isNil = true := rfl

@[simp] theorem isNil_value (buf : Bytes) : (value buf).isNil = false := rfl

@[simp] theorem isNil_short (key : Path) (child : Node) : (short key child).isNil = false := rfl

@[simp] theorem isNil_full (slot : Node) (children : Fin 16 → Node) :
    (full slot children).isNil = false := rfl

theorem isNil_iff {n : Node} : n.isNil = true ↔ n = nil := by
  cases n <;> simp

end Node

/-- The empty full node `FullNode{}`. -/
def emptyChildren : Fin 16 → Node := fun _ => .nil

/-- `FullNode.getEdge` on the fields of a full node: the edge 16 is the value. -/
def getEdge (slot : Node) (children : Fin 16 → Node) (idx : Nibble) : Node :=
  if h : idx.val = 16 then slot else children ⟨idx.val, by omega⟩

/-- `FullNode.setEdge`, and `replaceEdge`, which has the same body: the full node with the edge
`idx` replaced. -/
def setEdge (slot : Node) (children : Fin 16 → Node) (idx : Nibble) (e : Node) : Node :=
  if h : idx.val = 16 then .full e children
  else .full slot (Function.update children ⟨idx.val, by omega⟩ e)

/-- `prefixLen`: the length of the common prefix of two paths. -/
def prefixLen : Path → Path → Nat
  | a :: k1, b :: k2 => if a = b then prefixLen k1 k2 + 1 else 0
  | _, _ => 0

theorem prefixLen_le_left : ∀ k1 k2 : Path, prefixLen k1 k2 ≤ k1.length
  | _ :: k1, _ :: k2 => by
      unfold prefixLen
      split
      · exact Nat.succ_le_succ (prefixLen_le_left k1 k2)
      · exact Nat.zero_le _
  | [], _ => Nat.zero_le _
  | _ :: _, [] => Nat.zero_le _

theorem prefixLen_le_right : ∀ k1 k2 : Path, prefixLen k1 k2 ≤ k2.length
  | _ :: k1, _ :: k2 => by
      unfold prefixLen
      split
      · exact Nat.succ_le_succ (prefixLen_le_right k1 k2)
      · exact Nat.zero_le _
  | [], _ => Nat.zero_le _
  | _ :: _, [] => Nat.zero_le _

/-- The two nibbles of a byte, high first: `(b >> 4) & 0x0f` and `b & 0x0f`. -/
def byteNibbles (b : UInt8) : Path :=
  [⟨b.toNat / 16, Nat.lt_succ_of_lt (Nat.div_lt_of_lt_mul b.val.isLt)⟩,
   ⟨b.toNat % 16, Nat.lt_succ_of_lt (Nat.mod_lt _ (by decide))⟩]

/-- `bytesToPath`: the nibbles of the key, then the terminator 16. -/
def bytesToPath (str : Bytes) : Path :=
  str.flatMap byteNibbles ++ [16]

/-- What the termination of `insert` descends on at a path that is not empty: a value node
becomes a full node, and a short node gives way to its child or a new full node. -/
def Node.rank : Node → Nat
  | .value _ => 1
  | .short _ child => child.rank + 1
  | _ => 0

/-- What the termination of `insert` descends on at the empty path: a short node gives way to
its child or a new full node, and a full node to its value. -/
def Node.size : Node → Nat
  | .short key child => 2 * key.length + child.size + 1
  | .full slot _ => slot.size + 1
  | _ => 0

theorem size_setEdge_empty (idx : Nibble) (e : Node) :
    (setEdge .nil emptyChildren idx e).size ≤ e.size + 1 := by
  unfold setEdge
  split <;> simp only [Node.size] <;> omega

theorem rank_setEdge (slot : Node) (children : Fin 16 → Node) (idx : Nibble) (e : Node) :
    (setEdge slot children idx e).rank = 0 := by
  unfold setEdge
  split <;> rfl

/-- `insert`. At a short node, `plen == len(n.key)` is the case where the key after the common
prefix is empty; otherwise it starts at `n.key[plen]`, the nibble where the new branch goes. -/
def insert : Node → Path → Bytes → Node
  | .nil, search, value =>
      if search.length = 0 then .value value else .short search (insert .nil [] value)
  | .value buf, search, value =>
      if search.length = 0 then .value value
      else insert (.full (.value buf) emptyChildren) search value
  | .short key child, search, value =>
      let plen := prefixLen search key
      match dropped : key.drop plen with
      | [] => .short key (insert child (search.drop plen) value)
      | k :: rest =>
          let b := setEdge .nil emptyChildren k (if rest.length > 0 then .short rest child else child)
          let child := insert b (search.drop plen) value
          if plen = 0 then child else .short (search.take plen) child
  | .full slot children, search, value =>
      match search with
      | [] => .full (insert slot [] value) children
      | k :: rest => setEdge slot children k (insert (getEdge slot children k) rest value)
termination_by node search => (search.length, if search = [] then node.size else node.rank)
decreasing_by
  all_goals simp_wf
  · exact Prod.Lex.left _ _ (by omega)
  · rename_i nonempty
    have : search ≠ [] := fun empty => nonempty (by rw [empty]; rfl)
    exact Prod.Lex.right _ (by simp only [this, if_false, Node.rank]; omega)
  · by_cases zero : prefixLen search key = 0
    · obtain rfl : key = [] := by simpa only [plen, zero, List.drop_zero] using dropped
      rw [zero, Nat.sub_zero]
      refine Prod.Lex.right _ ?_
      by_cases empty : search = []
      · simp only [empty, List.length_nil, Nat.le_refl, if_true, Node.size]
        omega
      · simp only [empty, if_false, Node.rank, Nat.le_zero, List.length_eq_zero]
        omega
    · have := prefixLen_le_left search key
      exact Prod.Lex.left _ _ (by omega)
  · by_cases zero : prefixLen search key = 0
    · obtain rfl : key = k :: rest := by simpa only [plen, zero, List.drop_zero] using dropped
      rw [zero, Nat.sub_zero]
      refine Prod.Lex.right _ ?_
      by_cases empty : search = []
      · have edge : (if 0 < rest.length then Node.short rest child else child).size ≤
            2 * rest.length + child.size + 1 := by
          split
          · simp only [Node.size]
            omega
          · omega
        have bound := size_setEdge_empty k (if 0 < rest.length then .short rest child else child)
        simp only [empty, List.length_nil, Nat.le_refl, if_true, Node.size, List.length_cons]
        omega
      · simp only [empty, if_false, Node.rank, rank_setEdge, Nat.le_zero, List.length_eq_zero]
        omega
    · have := prefixLen_le_left search key
      exact Prod.Lex.left _ _ (by omega)
  · exact Prod.Lex.right _ (by simp only [Node.size]; omega)
  · exact Prod.Lex.left _ _ (by omega)

/-- The scan of `delete`'s loop over the sixteen children: the first child present, and
whether a second one is (`notEmpty`, where the loop breaks). -/
def scanChildren (children : Fin 16 → Node) : List (Fin 16) → Option (Fin 16) → Option (Fin 16) × Bool
  | [], indx => (indx, false)
  | edge :: rest, indx =>
      if (children edge).isNil then scanChildren children rest indx
      else match indx with
        | some _ => (indx, true)
        | none => scanChildren children rest (some edge)

/-- The end of `delete` at the full node it set an edge of: the node stays when it has two
children, or a child and a value; with neither it is nil, with the value only a short node
`[16]` above it, and with one child a short node above it, merged with the child when that is
a short node. -/
def collapse : Node → Node
  | .full slot children =>
      let (indx, notEmpty) := scanChildren children (List.finRange 16) none
      let notEmpty := notEmpty || (indx.isSome && !slot.isNil)
      if notEmpty then .full slot children
      else match indx with
        | none => if slot.isNil then .nil else .short [16] slot
        | some indx =>
            match children indx with
            | .short key child => .short (indx.castSucc :: key) child
            | nc => .short [indx.castSucc] nc
  | n => n

/-- The end of `delete` at a short node whose child it deleted from: nothing when the child is
gone, the two keys concatenated above a short child, and the key above any other child. -/
def mergeShort (key : Path) : Node → Node
  | .nil => .nil
  | .short key' child' => .short (key ++ key') child'
  | child => .short key child

/-- `delete`: the node left and whether the path was found. Indexing an empty path at a full
node is the Go slice panic. -/
def delete : Node → Path → Except Fault (Node × Bool)
  | .nil, _ => pure (.nil, false)
  | .short key child, search =>
      let plen := prefixLen search key
      if plen = search.length then pure (.nil, true)
      else if plen = 0 then pure (.nil, false)
      else do
        let (child, ok) ← delete child (search.drop plen)
        if !ok then pure (.nil, false) else pure (mergeShort key child, true)
  | .value _, search => if search.length ≠ 0 then pure (.nil, false) else pure (.nil, true)
  | .full slot children, search =>
      match search with
      | [] => throw .panic
      | key :: rest => do
          let (newChild, ok) ← delete (getEdge slot children key) rest
          if !ok then pure (.nil, false)
          else pure (collapse (setEdge slot children key newChild), true)
termination_by _ search => search.length
decreasing_by
  all_goals simp_wf
  · have := prefixLen_le_left search key
    omega

/-- `Txn`: a trie held by its root. -/
structure Txn where
  root : Node

/-- `NewTxn`. -/
def newTxn : Txn := ⟨.nil⟩

/-- `Txn.Insert`. -/
def Txn.insert (t : Txn) (key value : Bytes) : Txn :=
  let root := Itrie.insert t.root (bytesToPath key) value
  if !root.isNil then ⟨root⟩ else t

/-- `Txn.Delete`: the root changes only when the key was found. -/
def Txn.delete (t : Txn) (key : Bytes) : Except Fault Txn := do
  let (root, ok) ← Itrie.delete t.root (bytesToPath key)
  if ok then pure ⟨root⟩ else pure t

end GoEvm.Itrie
