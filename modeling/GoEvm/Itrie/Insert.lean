import GoEvm.Itrie.Shape

/-! `insert` on a trie in canonical form: it keeps the form and stores the value at its path.
Where the path leaves a short node's key, the key's rest and a leaf of the path's rest become
the two children of a new branch. -/
namespace GoEvm.Itrie

/-! `insert`, case by case. -/

theorem insert_nil_empty (value : Bytes) : insert .nil [] value = .value value := by
  rw [insert]
  rfl

theorem insert_nil {p : Path} (nonempty : p ≠ []) (value : Bytes) :
    insert .nil p value = .short p (.value value) := by
  rw [insert, if_neg (by simpa using nonempty), insert_nil_empty]

theorem insert_value_empty (buf value : Bytes) : insert (.value buf) [] value = .value value := by
  rw [insert]
  rfl

theorem insert_full_cons (slot : Node) (children : Fin 16 → Node) (k : Nibble) (rest : Path)
    (value : Bytes) :
    insert (.full slot children) (k :: rest) value =
      setEdge slot children k (insert (getEdge slot children k) rest value) := by
  rw [insert]

/-- A full node without a value takes a path of a nibble into the child at the nibble. -/
theorem insert_branch (children : Fin 16 → Node) (i : Fin 16) (rest : Path) (value : Bytes) :
    insert (.full .nil children) (i.castSucc :: rest) value =
      .full .nil (Function.update children i (insert (children i) rest value)) := by
  rw [insert_full_cons, getEdge_castSucc, setEdge_castSucc]

/-- A short node whose key starts the path passes the rest of the path to its child. -/
theorem insert_short_through (key : Path) (child : Node) (q : Path) (value : Bytes) :
    insert (.short key child) (key ++ q) value = .short key (insert child q value) := by
  have plen : prefixLen (key ++ q) key = key.length := by
    simpa [prefixLen_nil_right] using prefixLen_append key q []
  rw [insert]
  split
  next => rw [plen, List.drop_left]
  next dropped =>
    simp only [plen, List.drop_length] at dropped
    cases dropped

/-- A short node whose key leaves the path at the nibble `i` becomes a branch of two at the
end of the common piece `c`, below a short node of `c` when `c` is not empty. -/
theorem insert_short_split {c rest rest2 : Path} {i i2 : Fin 16} (differ : i ≠ i2)
    (nonempty : rest2 ≠ []) (child : Node) (value : Bytes) :
    insert (.short (c ++ i.castSucc :: rest) child) (c ++ i2.castSucc :: rest2) value =
      let branch := Node.full .nil (Function.update (Function.update emptyChildren i
        (if 0 < rest.length then .short rest child else child)) i2 (.short rest2 (.value value)))
      if c.length = 0 then branch else .short c branch := by
  have plen : prefixLen (c ++ i2.castSucc :: rest2) (c ++ i.castSucc :: rest) = c.length := by
    rw [prefixLen_append, prefixLen, if_neg (fun same => differ (Fin.castSucc_inj.mp same).symm)]
    rfl
  rw [insert]
  split
  next dropped =>
    simp only [plen, List.drop_left] at dropped
    cases dropped
  next k rest' dropped =>
    simp only [plen, List.drop_left, List.cons.injEq] at dropped
    obtain ⟨rfl, rfl⟩ := dropped
    simp only [plen, List.drop_left, List.take_left, setEdge_castSucc]
    rw [insert_branch, Function.update_noteq (Ne.symm differ), show emptyChildren i2 = .nil from rfl,
      insert_nil nonempty]

/-- Where a path leaves a short node's key, `insert` makes a branch of two: the rest of the key
and a leaf of the rest of the path. -/
theorem insert_split_spec {l : Nat} (c rest rest2 : Path) {i i2 : Fin 16} (child : Node)
    (value : Bytes) (differ : i ≠ i2) (nibbles : Nibbles c) (terminated : Terminated rest2)
    (level : rest2.length = l)
    (edge : Shaped l (if 0 < rest.length then .short rest child else child))
    (present : (if 0 < rest.length then .short rest child else child) ≠ .nil) :
    let key := c ++ i.castSucc :: rest
    let p := c ++ i2.castSucc :: rest2
    Shaped (c.length + (l + 1)) (insert (.short key child) p value) ∧
      (insert (.short key child) p value).get = Function.update (under key child.get) p (some value) := by
  intro key p
  rw [insert_short_split differ terminated.ne_nil]
  generalize edgeNode : (if 0 < rest.length then Node.short rest child else child) = e at edge present
  have edgeGet : e.get = under rest child.get := by
    subst edgeNode
    split <;> simp_all
  have deep : 1 ≤ l := level ▸ List.length_pos.mpr terminated.ne_nil
  have branch : Shaped (l + 1) (.full .nil (Function.update (Function.update emptyChildren i e) i2
      (.short rest2 (.value value)))) := by
    refine .branch (by omega) (fun j => ?_) ⟨i, i2, differ, by simpa [differ] using present, by simp⟩
    by_cases second : j = i2
    · subst second
      simpa using Shaped.leaf terminated level
    · by_cases first : j = i
      · subst first
        simpa [second] using edge
      · simpa [first, second, emptyChildren] using Shaped.nil
  have branchGet : (Node.full .nil (Function.update (Function.update emptyChildren i e) i2
      (.short rest2 (.value value)))).get =
        Function.update (under [i.castSucc] e.get) (i2.castSucc :: rest2) (some value) := by
    have blankAt : Function.update (fun j => (emptyChildren j).get) i e.get i2 = blank := by
      simp [Function.update_noteq (Ne.symm differ), emptyChildren]
    rw [get_full, get_update_children, get_update_children, get_leaf, ← blankAt, route_update,
      get_nil, route_single _ i (fun j other => by simp [other, emptyChildren])]
    simp
  have contents : Function.update (under key child.get) p (some value) =
      under c (Function.update (under [i.castSucc] e.get) (i2.castSucc :: rest2) (some value)) := by
    rw [under_update, edgeGet, ← under_append, ← under_append]
    simp only [key, p, List.append_assoc, List.singleton_append]
  rw [contents]
  split
  · obtain rfl : c = [] := List.eq_nil_of_length_eq_zero ‹_›
    simpa using ⟨branch, branchGet⟩
  · exact ⟨.extension nibbles (fun empty => by simp_all) rfl branch, by simp [branchGet]⟩

/-- `insert` keeps the canonical form, and stores the value at its path. -/
theorem insert_spec {n : Nat} {t : Node} (shaped : Shaped n t) {p : Path} (fits : Fits n p)
    (value : Bytes) :
    Shaped n (insert t p value) ∧ (insert t p value).get = Function.update t.get p (some value) := by
  induction shaped generalizing p with
  | nil =>
      rcases fits with ⟨length, rfl | terminated⟩
      · subst length
        rw [insert_nil_empty]
        exact ⟨.value, rfl⟩
      · rw [insert_nil terminated.ne_nil, get_leaf]
        exact ⟨.leaf terminated length, rfl⟩
  | value =>
      obtain rfl : p = [] := List.eq_nil_of_length_eq_zero fits.1
      rw [insert_value_empty]
      exact ⟨.value, by simp [Node.get]⟩
  | @leaf n key buf terminated length =>
      have pTerminated := fits.terminated (length ▸ (List.length_pos.mpr terminated.ne_nil).ne')
      obtain ⟨c, p', key', rfl, rfl, -, differ⟩ := prefixLen_split p key
      have lengths := fits.1.trans length.symm
      simp only [List.length_append, Nat.add_left_cancel_iff] at lengths
      cases key' with
      | nil =>
          obtain rfl : p' = [] := List.eq_nil_of_length_eq_zero lengths
          have through := insert_short_through c (.value buf) [] value
          simp only [List.append_nil] at through terminated length ⊢
          rw [through, insert_value_empty, get_leaf, get_leaf, Function.update_idem]
          exact ⟨.leaf terminated length, rfl⟩
      | cons k rest =>
          cases p' with
          | nil => simp at lengths
          | cons k2 rest2 =>
              have nonempty : rest2 ≠ [] := by
                rintro rfl
                obtain rfl : rest = [] := List.eq_nil_of_length_eq_zero (by simpa using lengths.symm)
                have last := terminated_singleton.mp (pTerminated.split (List.cons_ne_nil _ _)).2
                have last' := terminated_singleton.mp (terminated.split (List.cons_ne_nil _ _)).2
                exact differ _ _ rfl rfl (last.trans last'.symm)
              have restNonempty : rest ≠ [] := by
                rintro rfl
                exact nonempty (List.eq_nil_of_length_eq_zero (by simpa using lengths))
              obtain ⟨nibbles, keyRest⟩ := terminated.split (List.cons_ne_nil _ _)
              obtain ⟨-, pRest⟩ := pTerminated.split (List.cons_ne_nil _ _)
              obtain ⟨kNibble, restTerminated⟩ := keyRest.cons restNonempty
              obtain ⟨k2Nibble, rest2Terminated⟩ := pRest.cons nonempty
              obtain ⟨i, rfl⟩ := Nibble.castSucc_of_lt kNibble
              obtain ⟨i2, rfl⟩ := Nibble.castSucc_of_lt k2Nibble
              have spec := insert_split_spec c rest rest2 (.value buf) value
                (fun same => differ _ _ rfl rfl (congrArg Fin.castSucc same).symm) nibbles
                rest2Terminated rfl (by
                  simpa [List.length_pos.mpr restNonempty] using
                    (Shaped.leaf restTerminated (by simpa using lengths.symm) : Shaped _ (.short rest (.value buf))))
                (by simp [List.length_pos.mpr restNonempty])
              have same : rest2.length = rest.length := by simpa using lengths
              rw [← length, get_short]
              simpa [Nat.add_comm, same] using spec
  | @extension n m key children nibbles nonempty length below ih =>
      have deep := below.deep
      have pTerminated := fits.terminated (by omega)
      obtain ⟨c, p', key', rfl, rfl, -, differ⟩ := prefixLen_split p key
      have lengths := fits.1
      simp only [List.length_append] at lengths length
      cases key' with
      | nil =>
          simp only [List.append_nil, List.length_nil, Nat.add_zero] at nibbles nonempty length ⊢
          have p'Nonempty : p' ≠ [] := by
            rintro rfl
            simp at lengths
            omega
          obtain ⟨-, p'Terminated⟩ := pTerminated.split p'Nonempty
          obtain ⟨shapedBelow, getBelow⟩ := ih ⟨by omega, .inr p'Terminated⟩
          obtain ⟨i, rest, rfl, -⟩ := p'Terminated.nibble_cons (by omega)
          rw [insert_short_through, get_short, get_short, getBelow, under_update]
          rw [insert_branch] at shapedBelow ⊢
          exact ⟨.extension nibbles nonempty length shapedBelow, rfl⟩
      | cons k rest =>
          have p'Nonempty : p' ≠ [] := by
            rintro rfl
            simp at lengths length
            omega
          obtain ⟨k2, rest2, rfl⟩ := List.exists_cons_of_ne_nil p'Nonempty
          simp only [List.length_cons] at lengths length
          have rest2Nonempty : rest2 ≠ [] := by
            rintro rfl
            simp at lengths
            omega
          obtain ⟨k2Nibble, rest2Terminated⟩ :=
            (pTerminated.split (List.cons_ne_nil _ _)).2.cons rest2Nonempty
          have nibblesRest : Nibbles rest := fun x mem => nibbles x (by simp [mem])
          obtain ⟨i, rfl⟩ := Nibble.castSucc_of_lt (nibbles k (by simp))
          obtain ⟨i2, rfl⟩ := Nibble.castSucc_of_lt k2Nibble
          have edge : Shaped (rest.length + m)
              (if 0 < rest.length then .short rest (.full .nil children) else .full .nil children) := by
            by_cases restNonempty : rest = []
            · subst restNonempty
              simpa using below
            · rw [if_pos (List.length_pos.mpr restNonempty)]
              exact .extension nibblesRest restNonempty rfl below
          have spec := insert_split_spec c rest rest2 (.full .nil children) value
            (fun same => differ _ _ rfl rfl (congrArg Fin.castSucc same).symm)
            (fun x mem => nibbles x (List.mem_append_left _ mem)) rest2Terminated
            (by omega) edge (by split <;> simp)
          rw [get_short]
          obtain rfl : c.length + (rest.length + m + 1) = n := by omega
          exact spec
  | @branch n children deep slots two ih =>
      obtain ⟨i, rest, rfl, restFits⟩ := fits.cons deep
      obtain ⟨shapedChild, getChild⟩ := ih i restFits
      have present : insert (children i) rest value ≠ .nil :=
        ne_nil_of_get (p := rest) (v := value) (by rw [getChild]; simp)
      rw [insert_branch]
      refine ⟨.branch deep (fun j => ?_) (two.update i present), ?_⟩
      · by_cases same : j = i
        · subst same
          simpa using shapedChild
        · simpa [same] using slots j
      · rw [get_full, get_full, get_update_children, getChild, route_update]

end GoEvm.Itrie
