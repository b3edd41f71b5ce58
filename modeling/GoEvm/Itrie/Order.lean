import GoEvm.Itrie.Insert
import GoEvm.Itrie.Delete

/-! Why the itrie does not depend on the order of the operations. A trie in canonical form is
the only one of its level that stores its map: a leaf stores one path, an extension paths that
branch right after its key, and a branch paths that branch at once. A run of inserts and
deletes over keys of one length keeps the canonical form and stores the map the operations
leave, so two runs that leave the same map build the same trie. -/
namespace GoEvm.Itrie

/-! A canonical trie is determined by its map. -/

theorem Shaped.exists_get {n : Nat} {t : Node} (shaped : Shaped n t) (present : t ≠ .nil) :
    ∃ p v, t.get p = some v := by
  induction shaped with
  | nil => exact absurd rfl present
  | @value buf => exact ⟨[], buf, by simp [Node.get]⟩
  | @leaf n key buf _ _ => exact ⟨key, buf, by rw [get_leaf, Function.update_same]⟩
  | @extension n m key children _ _ _ _ ih =>
      obtain ⟨q, v, stored⟩ := ih (fun h => Node.noConfusion h)
      exact ⟨key ++ q, v, by rw [get_short, under_apply_append]; exact stored⟩
  | @branch n children _ _ two ih =>
      obtain ⟨i, -, -, present, -⟩ := two
      obtain ⟨q, v, stored⟩ := ih i present
      exact ⟨i.castSucc :: q, v, by simpa using stored⟩

theorem Shaped.eq_nil_of_blank {n : Nat} {t : Node} (shaped : Shaped n t) (empty : t.get = blank) :
    t = .nil := by
  by_contra present
  obtain ⟨p, v, stored⟩ := shaped.exists_get present
  rw [empty] at stored
  cases stored

/-- A branch stores two paths that differ in their first nibble. -/
theorem Shaped.branching {n : Nat} {slot : Node} {children : Fin 16 → Node}
    (shaped : Shaped n (.full slot children)) :
    ∃ i j : Fin 16, i ≠ j ∧ ∃ q q' v v', (Node.full slot children).get (i.castSucc :: q) = some v ∧
      (Node.full slot children).get (j.castSucc :: q') = some v' := by
  cases shaped with
  | branch _ slots two =>
      obtain ⟨i, j, differ, first, second⟩ := two
      obtain ⟨q, v, stored⟩ := (slots i).exists_get first
      obtain ⟨q', v', stored'⟩ := (slots j).exists_get second
      exact ⟨i, j, differ, q, q', v, v', by simpa using stored, by simpa using stored'⟩

/-- An extension stores two paths that differ right after its key. -/
theorem Shaped.branching_below {n : Nat} {key : Path} {slot : Node} {children : Fin 16 → Node}
    (shaped : Shaped n (.short key (.full slot children))) :
    ∃ i j : Fin 16, i ≠ j ∧ ∃ q q' v v',
      (Node.short key (.full slot children)).get (key ++ i.castSucc :: q) = some v ∧
      (Node.short key (.full slot children)).get (key ++ j.castSucc :: q') = some v' := by
  cases shaped with
  | extension _ _ _ below =>
      obtain ⟨i, j, differ, q, q', v, v', first, second⟩ := below.branching
      exact ⟨i, j, differ, q, q', v, v', by rw [get_short, under_apply_append]; exact first,
        by rw [get_short, under_apply_append]; exact second⟩

/-- A leaf stores its key only, so no trie that stores two paths stores what a leaf does. -/
theorem leaf_ne_of_two {key p p' : Path} {buf v v' : Bytes} {t : Node}
    (same : (Node.short key (.value buf)).get = t.get) (differ : p ≠ p')
    (first : t.get p = some v) (second : t.get p' = some v') : False := by
  rw [← same, get_leaf] at first second
  have onlyKey : ∀ {q w}, Function.update blank key (some buf) q = some w → q = key := by
    intro q w stored
    by_contra other
    rw [Function.update_noteq other] at stored
    cases stored
  exact differ ((onlyKey first).trans (onlyKey second).symm)

/-- No extension stores what a branch does: the branch's paths start with two nibbles. -/
theorem extension_ne_branch {n : Nat} {key : Path} {child slot : Node}
    {children : Fin 16 → Node} (nonempty : key ≠ []) (shaped : Shaped n (.full slot children))
    (same : (Node.short key child).get = (Node.full slot children).get) : False := by
  obtain ⟨i, j, differ, q, q', v, v', first, second⟩ := shaped.branching
  rw [← same, get_short] at first second
  obtain ⟨k, key, rfl⟩ := List.exists_cons_of_ne_nil nonempty
  have headFirst := (List.cons_prefix_cons.mp (prefix_of_under first)).1
  have headSecond := (List.cons_prefix_cons.mp (prefix_of_under second)).1
  exact differ (Fin.castSucc_inj.mp (headFirst.symm.trans headSecond))

/-- Two canonical tries of one level that store the same map are the same trie. -/
theorem Shaped.unique {n : Nat} {t t' : Node} (shaped : Shaped n t) (shaped' : Shaped n t')
    (same : t.get = t'.get) : t = t' := by
  induction shaped generalizing t' with
  | nil => exact (shaped'.eq_nil_of_blank same.symm).symm
  | @value buf =>
      cases shaped' with
      | nil => exact absurd (congrFun same []) (by simp [Node.get, blank])
      | value =>
          have stored := congrFun same []
          simp only [Node.get, Function.update_same, Option.some.injEq] at stored
          rw [stored]
      | leaf terminated length =>
          exact absurd (List.eq_nil_of_length_eq_zero length) terminated.ne_nil
      | extension _ nonempty length _ =>
          exact absurd (List.eq_nil_of_length_eq_zero (by omega)) nonempty
      | branch deep _ _ => omega
  | @leaf n key buf terminated length =>
      have shaped : Shaped n (.short key (.value buf)) := .leaf terminated length
      cases shaped' with
      | nil => exact absurd (shaped.eq_nil_of_blank same) (fun h => Node.noConfusion h)
      | value => exact absurd (List.eq_nil_of_length_eq_zero length) terminated.ne_nil
      | @leaf _ key' buf' _ _ =>
          have stored := congrFun same key
          rw [get_leaf, get_leaf, Function.update_same] at stored
          by_cases keys : key = key'
          · subst keys
            rw [Function.update_same, Option.some.injEq] at stored
            rw [stored]
          · rw [Function.update_noteq keys] at stored
            cases stored
      | extension nibbles nonempty length' below =>
          obtain ⟨i, j, differ, q, q', v, v', first, second⟩ :=
            (Shaped.extension nibbles nonempty length' below).branching_below
          exact (leaf_ne_of_two same (by simp [differ]) first second).elim
      | branch deep slots two =>
          obtain ⟨i, j, differ, q, q', v, v', first, second⟩ := (Shaped.branch deep slots two).branching
          exact (leaf_ne_of_two same (by simp [differ]) first second).elim
  | @extension n m key children nibbles nonempty length below ih =>
      have shaped := Shaped.extension nibbles nonempty length below
      cases shaped' with
      | nil => exact absurd (shaped.eq_nil_of_blank same) (fun h => Node.noConfusion h)
      | value => exact absurd (List.eq_nil_of_length_eq_zero (by omega)) nonempty
      | leaf terminated' length' =>
          obtain ⟨i, j, differ, q, q', v, v', first, second⟩ := shaped.branching_below
          exact (leaf_ne_of_two same.symm (by simp [differ]) first second).elim
      | @extension _ m' key' children' nibbles' nonempty' length' below' =>
          obtain ⟨i, j, differ, q, q', v, v', first, second⟩ := shaped.branching_below
          obtain ⟨i', j', differ', r, r', w, w', first', second'⟩ :=
            (Shaped.extension nibbles' nonempty' length' below').branching_below
          rw [same, get_short] at first second
          rw [← same, get_short] at first' second'
          have differ : i.castSucc ≠ j.castSucc := fun h => differ (Fin.castSucc_inj.mp h)
          have differ' : i'.castSucc ≠ j'.castSucc := fun h => differ' (Fin.castSucc_inj.mp h)
          have inner := prefix_of_branching differ (prefix_of_under first) (prefix_of_under second)
          have outer := prefix_of_branching differ' (prefix_of_under first') (prefix_of_under second')
          obtain rfl : key' = key := inner.eq_of_length (le_antisymm inner.length_le outer.length_le)
          obtain rfl : m' = m := by omega
          have below_same : (Node.full .nil children).get = (Node.full .nil children').get := by
            funext q
            have := congrFun same (key' ++ q)
            rwa [get_short, get_short, under_apply_append, under_apply_append] at this
          rw [ih below' below_same]
      | branch deep slots two => exact (extension_ne_branch nonempty (.branch deep slots two) same).elim
  | @branch n children deep slots two ih =>
      cases shaped' with
      | nil =>
          exact absurd ((Shaped.branch deep slots two).eq_nil_of_blank same) (fun h => Node.noConfusion h)
      | value => omega
      | leaf terminated' length' =>
          obtain ⟨i, j, differ, q, q', v, v', first, second⟩ := (Shaped.branch deep slots two).branching
          exact (leaf_ne_of_two same.symm (by simp [differ]) first second).elim
      | extension nibbles' nonempty' length' below' =>
          exact (extension_ne_branch nonempty' (.branch deep slots two) same.symm).elim
      | @branch _ children' _ slots' _ =>
          have same_below : ∀ i, children i = children' i := fun i =>
            ih i (slots' i) (funext fun q => by simpa using congrFun same (i.castSucc :: q))
          rw [funext same_below]

/-- The canonical form in the words of the Merkle-Patricia trie: every branch has two children
or more, and no short node sits directly above another short node. -/
def Node.Canonical : Node → Prop
  | .short _ child => (∀ key' child', child ≠ .short key' child') ∧ child.Canonical
  | .full slot children => TwoChildren children ∧ slot.Canonical ∧ ∀ i, (children i).Canonical
  | _ => True

theorem Shaped.canonical {n : Nat} {t : Node} (shaped : Shaped n t) : t.Canonical := by
  induction shaped with
  | nil | value => trivial
  | leaf => exact ⟨fun _ _ h => Node.noConfusion h, trivial⟩
  | extension _ _ _ _ ih => exact ⟨fun _ _ h => Node.noConfusion h, ih⟩
  | branch _ _ two ih => exact ⟨two, trivial, ih⟩

/-! The loops of `commitStorage` and `Commit`: each object inserts its value under its hashed
key, or deletes the key. -/

/-- A commit object as the loops see it: the hashed key with the encoded value, or the hashed
key of a deleted object. -/
inductive Op where
  | insert (key value : Bytes)
  | delete (key : Bytes)

def Op.key : Op → Bytes
  | .insert key _ => key
  | .delete key => key

/-- What the operation leaves at its key. -/
def Op.stored : Op → Option Bytes
  | .insert _ value => some value
  | .delete _ => none

/-- One turn of the loops: `tt.Insert(k, v)`, or `tt.Delete(k)`. -/
def Txn.apply (t : Txn) : Op → Except Fault Txn
  | .insert key value => pure (t.insert key value)
  | .delete key => t.delete key

/-- The trie the loops build from `NewTxn()`, before `Txn.Hash`. -/
def commitTxn (ops : List Op) : Except Fault Txn :=
  ops.foldlM Txn.apply newTxn

/-- The key-to-value map a sequence of operations leaves: the last operation on a key wins,
and deleting an absent key leaves the map as it was. -/
def finalMap (ops : List Op) : Bytes → Option Bytes :=
  ops.foldl (fun m op => Function.update m op.key op.stored) fun _ => none

/-- The trie's map holds the byte map at the paths of the keys, and nothing off them. -/
def Represents (c : Contents) (m : Bytes → Option Bytes) : Prop :=
  (∀ key, c (bytesToPath key) = m key) ∧ ∀ p, c p ≠ none → ∃ key, p = bytesToPath key

theorem represents_blank : Represents Node.nil.get fun _ => none :=
  ⟨fun _ => rfl, fun _ stored => absurd rfl stored⟩

theorem Represents.update {c : Contents} {m : Bytes → Option Bytes} (rep : Represents c m)
    (key : Bytes) (v : Option Bytes) :
    Represents (Function.update c (bytesToPath key) v) (Function.update m key v) := by
  constructor
  · intro k
    by_cases same : k = key
    · subst same
      simp only [Function.update_same]
    · rw [Function.update_noteq (fun h => same (bytesToPath_injective h)),
        Function.update_noteq same, rep.1]
  · intro p stored
    by_cases at_key : p = bytesToPath key
    · exact ⟨key, at_key⟩
    · rw [Function.update_noteq at_key] at stored
      exact rep.2 p stored

theorem Represents.unique {c c' : Contents} {m : Bytes → Option Bytes} (rep : Represents c m)
    (rep' : Represents c' m) : c = c' := by
  funext p
  by_cases keyed : ∃ key, p = bytesToPath key
  · obtain ⟨key, rfl⟩ := keyed
    rw [rep.1, rep'.1]
  · have off : ∀ {d : Contents}, Represents d m → d p = none := fun r =>
      not_not.mp fun stored => keyed (r.2 p stored)
    rw [off rep, off rep']

section Run

variable {width : Nat}

/-- One operation on a key of the width keeps the canonical form of level `2 * width + 1` and
writes what it stores at the key's path. -/
theorem Txn.apply_spec {t : Txn} {op : Op} (shaped : Shaped (2 * width + 1) t.root)
    (length : op.key.length = width) :
    ∃ t', t.apply op = .ok t' ∧ Shaped (2 * width + 1) t'.root ∧
      t'.root.get = Function.update t.root.get (bytesToPath op.key) op.stored := by
  have fits : Fits (2 * width + 1) (bytesToPath op.key) :=
    ⟨by rw [length_bytesToPath, length], .inr (terminated_bytesToPath _)⟩
  cases op with
  | insert key value =>
      dsimp only [Op.key, Op.stored] at fits ⊢
      obtain ⟨shaped', stored⟩ := insert_spec shaped fits value
      have present : (Itrie.insert t.root (bytesToPath key) value).isNil = false :=
        Bool.eq_false_iff.mpr fun isNil => ne_nil_of_get (p := bytesToPath key) (v := value)
          (by rw [stored, Function.update_same]) (Node.isNil_iff.mp isNil)
      refine ⟨⟨Itrie.insert t.root (bytesToPath key) value⟩, ?_, shaped', stored⟩
      simp only [Txn.apply, Txn.insert, present, Bool.not_false, if_true]
      rfl
  | delete key =>
      dsimp only [Op.key, Op.stored] at fits ⊢
      obtain ⟨r, ok, deleted, found, absent⟩ := delete_spec shaped fits
      cases ok with
      | true =>
          obtain ⟨shaped', stored⟩ := found rfl
          exact ⟨⟨r⟩, by rw [Txn.apply, Txn.delete, deleted]; rfl, shaped', stored⟩
      | false =>
          exact ⟨t, by rw [Txn.apply, Txn.delete, deleted]; rfl, shaped,
            by rw [← absent rfl, Function.update_eq_self]⟩

/-- A run of operations on keys of the width, from any canonical trie: it does not fail, keeps
the canonical form, and the trie holds the map the operations leave. -/
theorem foldlM_apply_spec (ops : List Op) (keys : ∀ op ∈ ops, op.key.length = width) {t : Txn}
    {m : Bytes → Option Bytes} (shaped : Shaped (2 * width + 1) t.root) (rep : Represents t.root.get m) :
    ∃ t', ops.foldlM Txn.apply t = .ok t' ∧ Shaped (2 * width + 1) t'.root ∧
      Represents t'.root.get (ops.foldl (fun m op => Function.update m op.key op.stored) m) := by
  induction ops generalizing t m with
  | nil => exact ⟨t, rfl, shaped, rep⟩
  | cons op ops ih =>
      obtain ⟨t₁, applied, shaped₁, stored⟩ := Txn.apply_spec shaped (keys op (List.mem_cons_self _ _))
      have rep₁ : Represents t₁.root.get (Function.update m op.key op.stored) :=
        stored ▸ rep.update op.key op.stored
      obtain ⟨t', run, shaped', rep'⟩ := ih (fun o mem => keys o (List.mem_cons_of_mem _ mem)) shaped₁ rep₁
      exact ⟨t', by rw [List.foldlM_cons, applied]; exact run, shaped', rep'⟩

theorem commitTxn_spec (ops : List Op) (keys : ∀ op ∈ ops, op.key.length = width) :
    ∃ t, commitTxn ops = .ok t ∧ Shaped (2 * width + 1) t.root ∧ Represents t.root.get (finalMap ops) :=
  foldlM_apply_spec ops keys .nil represents_blank

end Run

/-- Two sequences of operations on 32-byte keys that leave the same map build the same trie,
in canonical form and holding that map: the trie, and so its hash, does not depend on the order
of the commit objects. -/
theorem commit_order_independent (ops₁ ops₂ : List Op)
    (keys : ∀ op ∈ ops₁ ++ ops₂, op.key.length = 32) (same : finalMap ops₁ = finalMap ops₂) :
    ∃ t, commitTxn ops₁ = .ok t ∧ commitTxn ops₂ = .ok t ∧ t.root.Canonical ∧
      Represents t.root.get (finalMap ops₁) := by
  obtain ⟨⟨root₁⟩, run₁, shaped₁, rep₁⟩ :=
    commitTxn_spec ops₁ fun op mem => keys op (List.mem_append_left _ mem)
  obtain ⟨⟨root₂⟩, run₂, shaped₂, rep₂⟩ :=
    commitTxn_spec ops₂ fun op mem => keys op (List.mem_append_right _ mem)
  rw [← same] at rep₂
  obtain rfl : root₁ = root₂ := shaped₁.unique shaped₂ (rep₁.unique rep₂)
  exact ⟨⟨root₁⟩, run₁, run₂, shaped₁.canonical, rep₁⟩

/-- Two inserts on different 32-byte keys, in either order. -/
theorem commit_two_inserts_either_order :
    (∀ op ∈ [Op.insert (List.replicate 32 1) [1], Op.insert (List.replicate 32 2) [2]] ++
      [Op.insert (List.replicate 32 2) [2], Op.insert (List.replicate 32 1) [1]], op.key.length = 32) ∧
    finalMap [Op.insert (List.replicate 32 1) [1], Op.insert (List.replicate 32 2) [2]] =
      finalMap [Op.insert (List.replicate 32 2) [2], Op.insert (List.replicate 32 1) [1]] ∧
    ∃ t, commitTxn [Op.insert (List.replicate 32 1) [1], Op.insert (List.replicate 32 2) [2]] = .ok t ∧
      commitTxn [Op.insert (List.replicate 32 2) [2], Op.insert (List.replicate 32 1) [1]] = .ok t ∧
      t.root.Canonical ∧
      Represents t.root.get
        (finalMap [Op.insert (List.replicate 32 1) [1], Op.insert (List.replicate 32 2) [2]]) :=
  have keys := by decide
  have same := Function.update_comm (by decide) _ _ _
  ⟨keys, same, commit_order_independent _ _ keys same⟩

end GoEvm.Itrie
