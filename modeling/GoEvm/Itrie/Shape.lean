import GoEvm.Itrie.Contents

/-! The canonical form of an itrie whose keys all have one length, as `Commit` inserts them:
`Shaped n` for the paths of `n` elements left below a node. A leaf holds a terminated key, an
extension a piece of nibbles above a branch, and a branch two children or more. -/
namespace GoEvm.Itrie

/-- Two of the sixteen children present. -/
def TwoChildren (children : Fin 16 → Node) : Prop :=
  ∃ i j, i ≠ j ∧ children i ≠ .nil ∧ children j ≠ .nil

/-- The canonical form of a trie whose paths all have `n` elements left: a leaf holds a
terminated key above a value, an extension a nonempty piece of nibbles above a branch, and a
branch has no value and two children or more, one level down. -/
inductive Shaped : Nat → Node → Prop
  | nil {n : Nat} : Shaped n .nil
  | value {buf : Bytes} : Shaped 0 (.value buf)
  | leaf {n : Nat} {key : Path} {buf : Bytes} (terminated : Terminated key)
      (length : key.length = n) : Shaped n (.short key (.value buf))
  | extension {n m : Nat} {key : Path} {children : Fin 16 → Node} (nibbles : Nibbles key)
      (nonempty : key ≠ []) (length : key.length + m = n) (below : Shaped m (.full .nil children)) :
      Shaped n (.short key (.full .nil children))
  | branch {n : Nat} {children : Fin 16 → Node} (deep : 2 ≤ n)
      (slots : ∀ i, Shaped (n - 1) (children i)) (two : TwoChildren children) :
      Shaped n (.full .nil children)

/-- A path of `n` elements that a trie of that level holds: the empty path at a value, and a
terminated path above. -/
def Fits (n : Nat) (p : Path) : Prop := p.length = n ∧ (p = [] ∨ Terminated p)

theorem Nibble.castSucc_of_lt {k : Nibble} (nibble : k.val < 16) : ∃ i : Fin 16, i.castSucc = k :=
  ⟨⟨k.val, nibble⟩, Fin.ext rfl⟩

@[simp] theorem getEdge_castSucc (slot : Node) (children : Fin 16 → Node) (i : Fin 16) :
    getEdge slot children i.castSucc = children i := by
  simp [getEdge, Fin.coe_castSucc, Nat.ne_of_lt i.isLt]

@[simp] theorem setEdge_castSucc (slot : Node) (children : Fin 16 → Node) (i : Fin 16) (e : Node) :
    setEdge slot children i.castSucc e = .full slot (Function.update children i e) := by
  simp [setEdge, Fin.coe_castSucc, Nat.ne_of_lt i.isLt]

theorem get_update_children (children : Fin 16 → Node) (i : Fin 16) (e : Node) :
    (fun j => (Function.update children i e j).get) =
      Function.update (fun j => (children j).get) i e.get := by
  funext j
  exact Function.apply_update (fun _ => Node.get) children i e j

theorem get_leaf (key : Path) (buf : Bytes) :
    (Node.short key (.value buf)).get = Function.update blank key (some buf) := by
  simp only [get_short, Node.get, under_update, under_blank, List.append_nil]

theorem TwoChildren.update {children : Fin 16 → Node} (two : TwoChildren children) (i : Fin 16)
    {e : Node} (present : e ≠ .nil) : TwoChildren (Function.update children i e) := by
  obtain ⟨a, b, differ, first, second⟩ := two
  by_cases atFirst : a = i
  · subst atFirst
    exact ⟨a, b, differ, by simpa using present, by simpa [Ne.symm differ] using second⟩
  · by_cases atSecond : b = i
    · subst atSecond
      exact ⟨a, b, differ, by simpa [differ] using first, by simpa using present⟩
    · exact ⟨a, b, differ, by simpa [atFirst] using first, by simpa [atSecond] using second⟩

theorem ne_nil_of_get {t : Node} {p : Path} {v : Bytes} (stored : t.get p = some v) : t ≠ .nil := by
  rintro rfl
  cases stored

theorem Shaped.deep {m : Nat} {slot : Node} {children : Fin 16 → Node}
    (shaped : Shaped m (.full slot children)) : 2 ≤ m := by
  cases shaped
  assumption

theorem terminated_singleton {k : Nibble} : Terminated [k] ↔ k = 16 := by
  constructor
  · rintro ⟨ns, -, split⟩
    cases ns with
    | nil => simpa using split
    | cons x ns => simp at split
  · rintro rfl
    exact ⟨[], by simp, rfl⟩

/-- A path that fits a level above 0 is terminated. -/
theorem Fits.terminated {n : Nat} {p : Path} (fits : Fits n p) (above : n ≠ 0) : Terminated p :=
  fits.2.resolve_left fun empty => above (by rw [← fits.1, empty]; rfl)

/-- A terminated path of two elements or more starts with a nibble, the edge of a branch. -/
theorem Terminated.nibble_cons {q : Path} (terminated : Terminated q) (long : 1 < q.length) :
    ∃ (i : Fin 16) (rest : Path), q = i.castSucc :: rest ∧ Terminated rest := by
  obtain ⟨k, rest, rfl⟩ := List.exists_cons_of_ne_nil terminated.ne_nil
  have nonempty : rest ≠ [] := by
    rintro rfl
    simp at long
  obtain ⟨nibble, restTerminated⟩ := terminated.cons nonempty
  obtain ⟨i, rfl⟩ := Nibble.castSucc_of_lt nibble
  exact ⟨i, rest, rfl, restTerminated⟩

/-- A path that fits a branch's level goes through an edge, and its rest fits one level down. -/
theorem Fits.cons {n : Nat} {p : Path} (fits : Fits n p) (deep : 2 ≤ n) :
    ∃ (i : Fin 16) (rest : Path), p = i.castSucc :: rest ∧ Fits (n - 1) rest := by
  obtain ⟨i, rest, rfl, terminated⟩ :=
    (fits.terminated (by omega)).nibble_cons (by rw [fits.1]; omega)
  exact ⟨i, rest, rfl, by rw [← fits.1, List.length_cons, Nat.add_sub_cancel], .inr terminated⟩

end GoEvm.Itrie
