import GoEvm.Itrie.Shape
import Mathlib.Data.List.FinRange

/-! `delete` on a trie in canonical form. It never panics on a path that fits the trie's
level; when it finds the path it erases it and keeps the form, and when it does not the trie
does not hold the path. A path that leaves a short node's key inside the key is passed on to
the child misaligned, longer than the child's level: down there it is never found. -/
namespace GoEvm.Itrie

/-! `delete`, case by case. -/

theorem delete_nil (p : Path) : delete .nil p = .ok (.nil, false) := by
  rw [delete]
  rfl

theorem delete_value_empty (buf : Bytes) : delete (.value buf) [] = .ok (.nil, true) := by
  rw [delete]
  rfl

theorem delete_value_cons (buf : Bytes) {p : Path} (nonempty : p ≠ []) :
    delete (.value buf) p = .ok (.nil, false) := by
  rw [delete, if_pos (by simpa using nonempty)]
  rfl

theorem delete_short_covered {key p : Path} (child : Node) (covered : prefixLen p key = p.length) :
    delete (.short key child) p = .ok (.nil, true) := by
  rw [delete]
  simp only [covered, if_true]
  rfl

theorem delete_short_outside {key p : Path} (child : Node) (outside : prefixLen p key = 0)
    (nonempty : p ≠ []) : delete (.short key child) p = .ok (.nil, false) := by
  rw [delete]
  simp only [outside, if_true, if_neg (Ne.symm (List.length_pos.mpr nonempty).ne')]
  rfl

theorem delete_short_below {key p : Path} {child r : Node} {ok : Bool}
    (uncovered : prefixLen p key ≠ p.length) (started : prefixLen p key ≠ 0)
    (below : delete child (p.drop (prefixLen p key)) = .ok (r, ok)) :
    delete (.short key child) p = .ok (if ok then (mergeShort key r, true) else (.nil, false)) := by
  rw [delete]
  simp only [uncovered, started, if_false, below]
  cases ok <;> rfl

theorem delete_full_cons {slot r : Node} {children : Fin 16 → Node} {k : Nibble} {rest : Path}
    {ok : Bool} (below : delete (getEdge slot children k) rest = .ok (r, ok)) :
    delete (.full slot children) (k :: rest) =
      .ok (if ok then (collapse (setEdge slot children k r), true) else (.nil, false)) := by
  rw [delete]
  simp only [below]
  cases ok <;> rfl

/-! The scan of the children and the collapse of a branch left with one child. -/

section Scan

variable (children : Fin 16 → Node)

theorem scanChildren_some :
    ∀ (l : List (Fin 16)) (a : Fin 16),
      scanChildren children l (some a) =
        (some a, !(l.filter fun j => !(children j).isNil).isEmpty)
  | [], _ => rfl
  | edge :: rest, a => by
      unfold scanChildren
      by_cases absent : (children edge).isNil
      · simp only [absent, if_true, List.filter_cons, Bool.not_true, Bool.false_eq_true, if_false]
        exact scanChildren_some rest a
      · simp [absent, List.filter_cons]

theorem scanChildren_none :
    ∀ l : List (Fin 16), scanChildren children l none =
      match l.filter fun j => !(children j).isNil with
      | [] => (none, false)
      | i :: rest => (some i, !rest.isEmpty)
  | [] => rfl
  | edge :: rest => by
      unfold scanChildren
      by_cases absent : (children edge).isNil
      · simp only [absent, if_true, List.filter_cons, Bool.not_true, Bool.false_eq_true, if_false]
        exact scanChildren_none rest
      · simp [absent, List.filter_cons, scanChildren_some]

theorem mem_present {i : Fin 16} :
    i ∈ (List.finRange 16).filter (fun j => !(children j).isNil) ↔ children i ≠ .nil := by
  simp [List.mem_filter, List.mem_finRange, ← Node.isNil_iff]

theorem collapse_of_two (two : TwoChildren children) :
    collapse (.full .nil children) = .full .nil children := by
  obtain ⟨i, j, differ, first, second⟩ := two
  have firstIn := (mem_present children).mpr first
  have secondIn := (mem_present children).mpr second
  rw [collapse, scanChildren_none]
  generalize (List.finRange 16).filter (fun j => !(children j).isNil) = present at firstIn secondIn
  match present, firstIn, secondIn with
  | [], firstIn, _ => cases firstIn
  | [a], firstIn, secondIn =>
      simp only [List.mem_singleton] at firstIn secondIn
      exact absurd (firstIn.trans secondIn.symm) differ
  | _ :: _ :: _, _, _ => rfl

theorem collapse_of_one {i : Fin 16} (present : children i ≠ .nil)
    (others : ∀ j, j ≠ i → children j = .nil) :
    collapse (.full .nil children) = mergeShort [i.castSucc] (children i) := by
  have nodup := (List.nodup_finRange 16).filter (fun j => !(children j).isNil)
  have mem := (mem_present children).mpr present
  have only : ∀ j ∈ (List.finRange 16).filter (fun j => !(children j).isNil), j = i :=
    fun j inside => by_contra fun other => (mem_present children).mp inside (others j other)
  rw [collapse, scanChildren_none]
  generalize (List.finRange 16).filter (fun j => !(children j).isNil) = l at nodup mem only
  match l, nodup, mem, only with
  | [], _, mem, _ => cases mem
  | [a], _, _, only =>
      obtain rfl := only a (List.mem_singleton_self a)
      cases h : children a with
      | nil => exact absurd h present
      | value buf => simp [h, mergeShort]
      | short key child => simp [h, mergeShort]
      | full slot children' => simp [h, mergeShort]
  | a :: b :: _, nodup, _, only =>
      have same := (only a (by simp)).trans (only b (by simp)).symm
      exact absurd (same ▸ List.mem_cons_self b _) (List.nodup_cons.mp nodup).1

theorem collapse_of_none (absent : ∀ j, children j = .nil) : collapse (.full .nil children) = .nil := by
  have empty : (List.finRange 16).filter (fun j => !(children j).isNil) = [] :=
    List.eq_nil_iff_forall_not_mem.mpr fun j mem => (mem_present children).mp mem (absent j)
  rw [collapse, scanChildren_none, empty]
  rfl

end Scan

/-! The nodes `delete` leaves keep the canonical form and the map. -/

/-- Above a canonical child of a level above 0, the short node `delete` leaves is canonical and
stores the child's map under the key. -/
theorem mergeShort_spec {m : Nat} {r : Node} (shaped : Shaped m r) (above : m ≠ 0) {key : Path}
    (nibbles : Nibbles key) (nonempty : key ≠ []) :
    Shaped (key.length + m) (mergeShort key r) ∧ (mergeShort key r).get = under key r.get := by
  cases shaped with
  | nil => exact ⟨.nil, by simp [mergeShort]⟩
  | value => exact absurd rfl above
  | leaf terminated length =>
      exact ⟨.leaf (terminated.append nibbles) (by simp [length]), by simp [mergeShort, under_append]⟩
  | extension nibbles' nonempty' length below =>
      exact ⟨.extension (nibbles.append nibbles') (by simp [nonempty]) (by simp [← length]; omega)
        below, by simp [mergeShort, under_append]⟩
  | branch deep slots two => exact ⟨.extension nibbles nonempty rfl (.branch deep slots two), rfl⟩

/-- A branch whose children are canonical one level down collapses to a canonical node that
stores the same map. -/
theorem collapse_spec {n : Nat} {children : Fin 16 → Node} (deep : 2 ≤ n)
    (slots : ∀ i, Shaped (n - 1) (children i)) :
    Shaped n (collapse (.full .nil children)) ∧
      (collapse (.full .nil children)).get = (Node.full .nil children).get := by
  by_cases two : TwoChildren children
  · rw [collapse_of_two children two]
    exact ⟨.branch deep slots two, rfl⟩
  by_cases some : ∃ i, children i ≠ .nil
  · obtain ⟨i, present⟩ := some
    have others : ∀ j, j ≠ i → children j = .nil := fun j other => by
      by_contra absent
      exact two ⟨j, i, other, absent, present⟩
    have nibble : Nibbles [i.castSucc] := by simp [Nibbles]
    obtain ⟨shaped, get⟩ := mergeShort_spec (slots i) (by omega) nibble (List.cons_ne_nil _ _)
    rw [collapse_of_one children present others, get, get_full, get_nil,
      route_single _ i (fun j other => by simp [others j other])]
    exact ⟨by simpa [show 1 + (n - 1) = n by omega] using shaped, rfl⟩
  · have absent : ∀ j, children j = .nil := fun j => by
      by_contra present
      exact some ⟨j, present⟩
    rw [collapse_of_none children absent]
    refine ⟨.nil, ?_⟩
    simp [absent]

/-- A path longer than a canonical trie's level is never found: the misaligned search a short
node passes on when the path leaves its key inside it. -/
theorem delete_longer {m : Nat} {t : Node} (shaped : Shaped m t) {q : Path}
    (terminated : Terminated q) (longer : m < q.length) : delete t q = .ok (.nil, false) := by
  induction shaped generalizing q with
  | nil => exact delete_nil q
  | value => exact delete_value_cons _ terminated.ne_nil
  | @leaf m key buf keyTerminated length =>
      have bound := prefixLen_le_right q key
      by_cases started : prefixLen q key = 0
      · exact delete_short_outside _ started terminated.ne_nil
      · have below := delete_value_cons buf (p := q.drop (prefixLen q key))
          (by rw [← List.length_pos, List.length_drop]; omega)
        rw [delete_short_below (by omega) started below]
        rfl
  | @extension m m' key children nibbles nonempty length below ih =>
      have bound := prefixLen_le_right q key
      by_cases started : prefixLen q key = 0
      · exact delete_short_outside _ started terminated.ne_nil
      · rw [delete_short_below (by omega) started
          (ih (terminated.drop (by omega)) (by rw [List.length_drop]; omega))]
        rfl
  | @branch m children deep slots two ih =>
      obtain ⟨i, rest, rfl, restTerminated⟩ := terminated.nibble_cons (by omega)
      simp only [List.length_cons] at longer
      rw [delete_full_cons (by rw [getEdge_castSucc]; exact ih i restTerminated (by omega))]
      rfl

/-- A path that leaves a short node's key inside the key, above a child whose level is below
the rest of the path: `delete` does not find it, and the node does not hold it. -/
theorem delete_short_diverging {m : Nat} {child : Node} (shaped : Shaped m child)
    {c rest rest2 : Path} {k k2 : Nibble} (differ : k2 ≠ k)
    (terminated : Terminated (c ++ k2 :: rest2)) (longer : m < rest2.length + 1) :
    delete (.short (c ++ k :: rest) child) (c ++ k2 :: rest2) = .ok (.nil, false) ∧
      (Node.short (c ++ k :: rest) child).get (c ++ k2 :: rest2) = none := by
  have plen : prefixLen (c ++ k2 :: rest2) (c ++ k :: rest) = c.length := by
    rw [prefixLen_append, prefixLen, if_neg differ]
    rfl
  refine ⟨?_, under_apply_outside _ (not_prefix_of_differ (Ne.symm differ))⟩
  by_cases started : c.length = 0
  · exact delete_short_outside _ (plen.trans started) (by simp)
  · have below := delete_longer shaped (terminated.split (List.cons_ne_nil _ _)).2 longer
    rw [delete_short_below (by simp [plen]) (plen ▸ started) (by rw [plen, List.drop_left]; exact below)]
    rfl

/-- `delete` on a canonical trie and a path that fits its level returns without a panic. When
it finds the path, the trie it leaves is canonical and stores the map with the path erased;
when it does not, the trie does not store the path. -/
theorem delete_spec {n : Nat} {t : Node} (shaped : Shaped n t) {p : Path} (fits : Fits n p) :
    ∃ r ok, delete t p = .ok (r, ok) ∧
      (ok = true → Shaped n r ∧ r.get = Function.update t.get p none) ∧
      (ok = false → t.get p = none) := by
  induction shaped generalizing p with
  | nil => exact ⟨.nil, false, delete_nil p, nofun, fun _ => rfl⟩
  | value =>
      obtain rfl : p = [] := List.eq_nil_of_length_eq_zero fits.1
      exact ⟨.nil, true, delete_value_empty _, fun _ => ⟨.nil, by simp [Node.get, blank]⟩, nofun⟩
  | @leaf n key buf terminated length =>
      have pTerminated := fits.terminated (length ▸ (List.length_pos.mpr terminated.ne_nil).ne')
      obtain ⟨c, p', key', rfl, rfl, plen, differ⟩ := prefixLen_split p key
      have lengths := fits.1.trans length.symm
      simp only [List.length_append, Nat.add_left_cancel_iff] at lengths
      cases p' with
      | nil =>
          obtain rfl : key' = [] := List.eq_nil_of_length_eq_zero lengths.symm
          refine ⟨.nil, true, delete_short_covered _ (by simpa using plen.symm), fun _ => ⟨.nil, ?_⟩,
            nofun⟩
          rw [get_leaf, Function.update_idem, get_nil]
          exact (Function.update_eq_self _ _).symm
      | cons k2 rest2 =>
          cases key' with
          | nil => simp at lengths
          | cons k rest =>
              obtain ⟨deleted, outside⟩ :=
                delete_short_diverging .value (differ k2 k rfl rfl) pTerminated (Nat.succ_pos _)
              exact ⟨.nil, false, deleted, nofun, fun _ => outside⟩
  | @extension n m key children nibbles nonempty length below ih =>
      have deep := below.deep
      have pTerminated := fits.terminated (by omega)
      obtain ⟨c, p', key', rfl, rfl, plen, differ⟩ := prefixLen_split p key
      have lengths := fits.1
      simp only [List.length_append] at lengths length
      cases key' with
      | nil =>
          simp only [List.append_nil, List.length_nil, Nat.add_zero] at nibbles nonempty length plen ⊢
          have p'Nonempty : p' ≠ [] := by
            rintro rfl
            simp at lengths
            omega
          have started : prefixLen (c ++ p') c ≠ 0 := by
            rw [← plen]
            exact (List.length_pos.mpr nonempty).ne'
          have uncovered : prefixLen (c ++ p') c ≠ (c ++ p').length := by
            rw [← plen, List.length_append]
            exact (Nat.lt_add_of_pos_right (List.length_pos.mpr p'Nonempty)).ne
          obtain ⟨r, ok, deleted, found, missing⟩ :=
            ih ⟨by omega, .inr (pTerminated.split p'Nonempty).2⟩
          have below := delete_short_below uncovered started
            (by rw [← plen, List.drop_left]; exact deleted)
          cases ok
          · refine ⟨.nil, false, below, nofun, fun _ => ?_⟩
            rw [get_short, under_apply_append]
            exact missing rfl
          · obtain ⟨shaped, get⟩ := found rfl
            obtain ⟨merged, mergedGet⟩ := mergeShort_spec shaped (by omega) nibbles nonempty
            refine ⟨_, true, below, fun _ => ⟨length ▸ merged, ?_⟩, nofun⟩
            rw [mergedGet, get, under_update, get_short]
      | cons k rest =>
          have p'Nonempty : p' ≠ [] := by
            rintro rfl
            simp at lengths length
            omega
          obtain ⟨k2, rest2, rfl⟩ := List.exists_cons_of_ne_nil p'Nonempty
          simp only [List.length_cons] at lengths length
          obtain ⟨deleted, outside⟩ :=
            delete_short_diverging below (differ k2 k rfl rfl) pTerminated (by omega)
          exact ⟨.nil, false, deleted, nofun, fun _ => outside⟩
  | @branch n children deep slots two ih =>
      obtain ⟨i, rest, rfl, restFits⟩ := fits.cons deep
      obtain ⟨r, ok, deleted, found, missing⟩ := ih i restFits
      have edge : delete (getEdge .nil children i.castSucc) rest = .ok (r, ok) := by
        rw [getEdge_castSucc]
        exact deleted
      have below := delete_full_cons edge
      cases ok
      · exact ⟨.nil, false, below, nofun, fun _ => by simpa using missing rfl⟩
      · obtain ⟨shaped, get⟩ := found rfl
        have slots' : ∀ j, Shaped (n - 1) (Function.update children i r j) := fun j => by
          by_cases same : j = i
          · subst same
            simpa using shaped
          · simpa [same] using slots j
        obtain ⟨collapsed, collapsedGet⟩ := collapse_spec deep slots'
        rw [if_pos rfl, setEdge_castSucc] at below
        refine ⟨_, true, below, fun _ => ⟨collapsed, ?_⟩, nofun⟩
        rw [collapsedGet, get_full, get_full, get_update_children, get, route_update]

end GoEvm.Itrie
