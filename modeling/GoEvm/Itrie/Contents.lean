import GoEvm.Itrie.Trie

/-! What an itrie stores: the value at each path. A short node stores its child's map under its
key, a full node its children's maps under their nibbles and its value at the empty path and
at the terminator. The paths of keys are terminated: nibbles, then 16. -/
namespace GoEvm.Itrie

/-- The map a trie stores. -/
abbrev Contents := Path → Option Bytes

/-- The empty map. -/
def blank : Contents := fun _ => none

/-- The map of a short node, from its child's: the paths through the key. -/
def under (key : Path) (m : Contents) : Contents :=
  fun q => if key <+: q then m (q.drop key.length) else none

/-- The map of a full node, from its value's and its children's. -/
def route (slot : Contents) (edges : Fin 16 → Contents) : Contents
  | [] => slot []
  | k :: rest => if h : k.val = 16 then slot rest else edges ⟨k.val, by omega⟩ rest

/-- The map of a trie. -/
def Node.get : Node → Contents
  | .nil => blank
  | .value buf => Function.update blank [] (some buf)
  | .short key child => under key child.get
  | .full slot children => route slot.get fun i => (children i).get

@[simp] theorem get_nil : Node.nil.get = blank := rfl

@[simp] theorem get_short (key : Path) (child : Node) :
    (Node.short key child).get = under key child.get := rfl

@[simp] theorem get_full (slot : Node) (children : Fin 16 → Node) :
    (Node.full slot children).get = route slot.get fun i => (children i).get := rfl

section Maps

variable (m : Contents)

@[simp] theorem under_nil : under [] m = m := by
  funext q
  simp [under]

theorem under_append (c d : Path) : under (c ++ d) m = under c (under d m) := by
  funext q
  unfold under
  by_cases outer : c <+: q
  · obtain ⟨q, rfl⟩ := outer
    simp [List.prefix_append_right_inj, List.drop_left']
  · have : ¬c ++ d <+: q := fun inner => outer ((List.prefix_append c d).trans inner)
    simp [outer, this]

theorem under_apply_append (c q : Path) : under c m (c ++ q) = m q := by
  simp [under, List.drop_left']

theorem under_apply_outside {c q : Path} (outside : ¬c <+: q) : under c m q = none := by
  simp [under, outside]

@[simp] theorem under_blank (c : Path) : under c blank = blank := by
  funext q
  simp [under, blank]

theorem under_update (c q : Path) (v : Option Bytes) :
    under c (Function.update m q v) = Function.update (under c m) (c ++ q) v := by
  funext r
  by_cases inside : c <+: r
  · obtain ⟨r, rfl⟩ := inside
    simp only [under_apply_append, Function.update_apply, List.append_cancel_left_eq]
  · have : r ≠ c ++ q := fun same => inside (same ▸ List.prefix_append c q)
    rw [under_apply_outside _ inside, Function.update_noteq this,
      under_apply_outside _ inside]

theorem route_update (slot : Contents) (edges : Fin 16 → Contents) (i : Fin 16) (q : Path)
    (v : Option Bytes) :
    route slot (Function.update edges i (Function.update (edges i) q v)) =
      Function.update (route slot edges) (i.castSucc :: q) v := by
  funext r
  cases r with
  | nil => simp [route]
  | cons k rest =>
      by_cases terminator : k.val = 16
      · have : k ≠ i.castSucc := fun same => by simp [same] at terminator; omega
        simp [route, terminator, this]
      · by_cases same : (⟨k.val, by omega⟩ : Fin 16) = i
        · subst same
          simp [route, terminator, Function.update_apply]
        · have : k ≠ i.castSucc := fun h => same (by subst h; rfl)
          simp [route, terminator, Function.update_noteq same, this]

@[simp] theorem route_castSucc (slot : Contents) (edges : Fin 16 → Contents) (i : Fin 16)
    (rest : Path) : route slot edges (i.castSucc :: rest) = edges i rest := by
  simp [route, Nat.ne_of_lt i.isLt]

/-- A full node with no value and a single child stores what a short node of its nibble
does. -/
theorem route_single (edges : Fin 16 → Contents) (i : Fin 16)
    (others : ∀ j, j ≠ i → edges j = blank) :
    route blank edges = under [i.castSucc] (edges i) := by
  funext r
  cases r with
  | nil => rfl
  | cons k rest =>
      by_cases terminator : k.val = 16
      · have : k ≠ i.castSucc := fun same => by simp [same] at terminator; omega
        simp [route, terminator, under, Ne.symm this, blank]
      · by_cases same : (⟨k.val, by omega⟩ : Fin 16) = i
        · subst same
          simp [route, terminator, under]
        · have : k ≠ i.castSucc := fun h => same (by subst h; rfl)
          simp [route, terminator, under, others _ same, Ne.symm this, blank]

@[simp] theorem route_blank : route blank (fun _ => blank) = blank := by
  funext r
  cases r <;> simp [route, blank]

end Maps

/-- A path `bytesToPath` closes: nibbles below 16, then the terminator. -/
def Terminated (p : Path) : Prop := ∃ ns : Path, (∀ x ∈ ns, x.val < 16) ∧ p = ns ++ [16]

/-- A piece of a path before its terminator: nibbles below 16 only. -/
def Nibbles (p : Path) : Prop := ∀ x ∈ p, x.val < 16

theorem Terminated.ne_nil {p : Path} (terminated : Terminated p) : p ≠ [] := by
  obtain ⟨ns, -, rfl⟩ := terminated
  simp

theorem Terminated.append {c p : Path} (nibbles : Nibbles c) (terminated : Terminated p) :
    Terminated (c ++ p) := by
  obtain ⟨ns, below, rfl⟩ := terminated
  exact ⟨c ++ ns, fun x mem => (List.mem_append.mp mem).elim (nibbles x) (below x), by simp⟩

/-- A terminated path is a piece of nibbles and a terminated rest, wherever it is cut before
its end. -/
theorem Terminated.split {c p : Path} (terminated : Terminated (c ++ p)) (rest : p ≠ []) :
    Nibbles c ∧ Terminated p := by
  obtain ⟨ns, below, split⟩ := terminated
  obtain ⟨p, x, rfl⟩ := List.eq_nil_or_concat p |>.resolve_left rest
  rw [List.concat_eq_append, ← List.append_assoc] at split
  obtain ⟨rfl, last⟩ := List.append_inj' split rfl
  obtain rfl : x = 16 := by simpa using last
  exact ⟨fun y mem => below y (List.mem_append_left p mem), p,
    fun y mem => below y (List.mem_append_right c mem), List.concat_eq_append p 16⟩

theorem Terminated.drop {p : Path} (terminated : Terminated p) {k : Nat} (inside : k < p.length) :
    Terminated (p.drop k) := by
  rw [← List.take_append_drop k p] at terminated
  exact (terminated.split (by simpa using inside)).2

theorem Terminated.cons {x : Nibble} {p : Path} (terminated : Terminated (x :: p)) (rest : p ≠ []) :
    x.val < 16 ∧ Terminated p := by
  have := Terminated.split (c := [x]) terminated rest
  exact ⟨this.1 x (List.mem_singleton_self x), this.2⟩

theorem Nibbles.append {c d : Path} (first : Nibbles c) (second : Nibbles d) : Nibbles (c ++ d) :=
  fun x mem => (List.mem_append.mp mem).elim (first x) (second x)

/-- A piece of nibbles that starts a terminated path stops before its terminator. -/
theorem Nibbles.shorter {p q : Path} (nibbles : Nibbles p) (terminated : Terminated q)
    (starts : p <+: q) : p.length < q.length := by
  obtain ⟨ns, -, rfl⟩ := terminated
  rcases Nat.lt_or_ge p.length (ns.length + 1) with short | long
  · simpa using short
  · have : p = ns ++ [16] := starts.eq_of_length
      (le_antisymm starts.length_le (by simpa using long))
    exact absurd (nibbles 16 (by simp [this])) (by decide)

/-! `prefixLen` and the split it gives: a common prefix, and two rests that differ in their
first element when neither is empty. -/

theorem prefixLen_append (c p q : Path) : prefixLen (c ++ p) (c ++ q) = c.length + prefixLen p q := by
  induction c with
  | nil => simp
  | cons x c ih => simp [prefixLen, ih]; omega

theorem prefixLen_nil_right (p : Path) : prefixLen p [] = 0 := by
  cases p <;> rfl

/-- The common prefix `prefixLen` measures, and the rests after it. -/
theorem prefixLen_split : ∀ p q : Path, ∃ c p' q', p = c ++ p' ∧ q = c ++ q' ∧
    c.length = prefixLen p q ∧ ∀ x y, p'.head? = some x → q'.head? = some y → x ≠ y
  | x :: p, y :: q => by
      by_cases same : x = y
      · subst same
        obtain ⟨c, p', q', rfl, rfl, length, differ⟩ := prefixLen_split p q
        exact ⟨x :: c, p', q', rfl, rfl, by simp [prefixLen, length], differ⟩
      · exact ⟨[], x :: p, y :: q, rfl, rfl, by simp [prefixLen, same],
          fun a b ha hb => by simp at ha hb; subst ha hb; exact same⟩
  | [], q => ⟨[], [], q, rfl, rfl, by simp [prefixLen], by simp⟩
  | x :: p, [] => ⟨[], x :: p, [], rfl, rfl, by simp [prefixLen], by simp⟩

/-- Two paths that differ after a common piece do not start one another. -/
theorem not_prefix_of_differ {c rest rest2 : Path} {k k2 : Nibble} (differ : k ≠ k2) :
    ¬c ++ k :: rest <+: c ++ k2 :: rest2 := fun starts =>
  differ (List.cons_prefix_cons.mp ((List.prefix_append_right_inj c).mp starts)).1

/-- A path that starts two paths which branch right after `k` starts `k`. -/
theorem prefix_of_branching {k k' q q' : Path} {i j : Nibble} (differ : i ≠ j)
    (first : k' <+: k ++ i :: q) (second : k' <+: k ++ j :: q') : k' <+: k := by
  rcases Nat.lt_or_ge k.length k'.length with long | short
  · have firstStep : k ++ [i] <+: k' := List.prefix_of_prefix_length_le
      (by simp) first (by simp; omega)
    have secondStep : k ++ [j] <+: k' := List.prefix_of_prefix_length_le
      (by simp) second (by simp; omega)
    have := List.prefix_of_prefix_length_le firstStep secondStep (by simp)
    exact absurd (by simpa using (List.prefix_append_right_inj k).mp this) differ
  · exact List.prefix_of_prefix_length_le first (List.prefix_append k _) short

theorem prefix_of_under {key q : Path} {m : Contents} {v : Bytes} (stored : under key m q = some v) :
    key <+: q := by
  by_contra outside
  rw [under_apply_outside _ outside] at stored
  cases stored

/-! The paths of `bytesToPath`: terminated, twice as long as the key and one more, and
different for different keys. -/

theorem byteNibbles_nibbles (b : UInt8) : Nibbles (byteNibbles b) := by
  have := b.val.isLt
  simp only [Nibbles, byteNibbles, List.mem_cons, List.mem_singleton, forall_eq_or_imp,
    forall_eq, List.not_mem_nil, or_false]
  exact ⟨Nat.div_lt_of_lt_mul this, Nat.mod_lt _ (by decide)⟩

theorem terminated_bytesToPath (key : Bytes) : Terminated (bytesToPath key) :=
  ⟨key.flatMap byteNibbles, fun x mem => by
    obtain ⟨b, -, mem⟩ := List.mem_flatMap.mp mem
    exact byteNibbles_nibbles b x mem, rfl⟩

theorem length_bytesToPath (key : Bytes) : (bytesToPath key).length = 2 * key.length + 1 := by
  induction key with
  | nil => rfl
  | cons b key ih =>
      simp only [bytesToPath, List.flatMap_cons, List.append_assoc, List.length_append] at ih ⊢
      simp only [byteNibbles, List.length_cons, List.length_nil] at ih ⊢
      omega

theorem byteNibbles_injective {a b : UInt8} (same : byteNibbles a = byteNibbles b) : a = b := by
  simp only [byteNibbles, List.cons.injEq, Fin.mk.injEq, and_true] at same
  apply UInt8.eq_of_val_eq
  apply Fin.ext
  show a.toNat = b.toNat
  omega

theorem bytesToPath_injective {a b : Bytes} (same : bytesToPath a = bytesToPath b) : a = b := by
  induction a generalizing b with
  | nil =>
      cases b with
      | nil => rfl
      | cons y b => simp [bytesToPath, byteNibbles] at same
  | cons x a ih =>
      cases b with
      | nil => simp [bytesToPath, byteNibbles] at same
      | cons y b =>
          simp only [bytesToPath, List.flatMap_cons, List.append_assoc, byteNibbles,
            List.cons_append, List.nil_append, List.cons.injEq] at same
          obtain ⟨high, low, rest⟩ := same
          have : x = y := byteNibbles_injective (by simp [byteNibbles, high, low])
          exact this ▸ congrArg _ (ih rest)

end GoEvm.Itrie
