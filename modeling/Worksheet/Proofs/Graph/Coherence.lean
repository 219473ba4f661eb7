import Mathlib.Data.List.Nodup
import Mathlib.Data.Prod.Basic
import Worksheet.Graph.Basic

/-! # The two indexes of a graph hold the same edges

    A graph is coherent when its indexes mirror each other, neither stores an empty set, and the
    edge count is the number of pairs in either index. Every update keeps a graph coherent,
    and `Graph.isCoherent` accepts a coherent graph.

    - `Index.pairs_insert_perm`, `Index.pairs_erase_perm`: one pair comes or goes.
    - `Graph.Coherent.connect`, `Graph.Coherent.disconnect`: one edge comes or goes.
    - `Graph.Coherent.cutFrom`, `Graph.Coherent.cutTo`: all edges of a name go together.
    - `Graph.Coherent.mem_dependents_setPrecedents_iff`: the edges once a cell reads other names.
-/

namespace Worksheet

theorem nodup_toList (set : Std.TreeSet String) : set.toList.Nodup :=
  set.distinct_toList.imp fun hne heq => hne (Std.LawfulEqCmp.compare_eq_iff_eq.mpr heq)

theorem mem_map_from_iff {s u v : String} {ts : List String} :
    (u, v) ∈ ts.map (fun t => (s, t)) ↔ u = s ∧ v ∈ ts := by
  simp [and_comm, eq_comm]

theorem mem_map_to_iff {t u v : String} {ss : List String} :
    (u, v) ∈ ss.map (fun s => (s, t)) ↔ v = t ∧ u ∈ ss := by
  simp [and_comm, eq_comm]

/-! ## Section 1: The pairs of an index -/

namespace Index

/-- No empty set is stored. -/
def Trimmed (index : Index) : Prop :=
  ∀ (name : String) (set : Std.TreeSet String), index.sets[name]? = some set → set.isEmpty = false

theorem trimmed_empty : empty.Trimmed := by
  intro name set h
  simp [empty] at h

theorem Trimmed.assign {index : Index} (h : index.Trimmed) (name : String)
    (set : Std.TreeSet String) : (index.assign name set).Trimmed := by
  intro other found hfound
  unfold Index.assign at hfound
  split at hfound
  · simp only [Std.TreeMap.getElem?_erase] at hfound
    split at hfound
    · cases hfound
    · exact h other found hfound
  · next hset =>
    simp only [Std.TreeMap.getElem?_insert] at hfound
    split at hfound
    · cases hfound
      simpa using hset
    · exact h other found hfound

/-- In a trimmed index the names held are those with a neighbour. -/
theorem Trimmed.holds_eq_true_iff {index : Index} (h : index.Trimmed) (name : String) :
    index.holds name = true ↔ ∃ found, found ∈ index.neighbours name := by
  unfold holds neighbours
  rw [Std.TreeMap.getD_eq_getD_getElem?, Std.TreeMap.contains_eq_isSome_getElem?]
  cases hset : index.sets[name]? with
  | none => simp
  | some set =>
    have hne := h name set hset
    rw [Std.TreeSet.isEmpty_eq_false_iff_exists_mem] at hne
    simpa using hne

theorem mem_pairs_iff (index : Index) (name found : String) :
    (name, found) ∈ index.pairs ↔ found ∈ index.neighbours name := by
  unfold pairs neighbours
  rw [Std.TreeMap.getD_eq_getD_getElem?, List.mem_flatMap]
  constructor
  · intro hmem
    obtain ⟨⟨key, set⟩, hentry, hpair⟩ := hmem
    simp only [List.mem_map, Std.TreeSet.mem_toList, Prod.mk.injEq] at hpair
    obtain ⟨_, hfound, rfl, rfl⟩ := hpair
    rw [Std.TreeMap.mem_toList_iff_getElem?_eq_some] at hentry
    simpa [hentry] using hfound
  · intro hfound
    cases hset : index.sets[name]? with
    | none => simp [hset] at hfound
    | some set =>
      refine ⟨(name, set), Std.TreeMap.mem_toList_iff_getElem?_eq_some.mpr hset, ?_⟩
      simpa [hset] using hfound

theorem nodup_pairs (index : Index) : index.pairs.Nodup := by
  unfold pairs
  rw [List.nodup_flatMap]
  -- the pairs of one name differ in the neighbour, and those of two names in the name
  constructor
  · rintro ⟨name, set⟩ -
    exact (nodup_toList set).map fun a b h => (Prod.mk.inj h).2
  · refine index.sets.distinct_keys_toList.imp ?_
    rintro ⟨name, set⟩ ⟨name', set'⟩ hne pair hpair hpair'
    simp only [List.mem_map] at hpair hpair'
    obtain ⟨_, -, rfl⟩ := hpair
    obtain ⟨_, -, heq⟩ := hpair'
    exact hne (Std.LawfulEqCmp.compare_eq_iff_eq.mpr (Prod.mk.inj heq).1.symm)

/-- A new neighbour is one more pair. -/
theorem pairs_insert_perm (index : Index) {name other : String}
    (h : other ∉ index.neighbours name) :
    (index.insert name other).pairs.Perm ((name, other) :: index.pairs) := by
  have hcons : ((name, other) :: index.pairs).Nodup := by
    rw [List.nodup_cons, mem_pairs_iff]
    exact ⟨h, index.nodup_pairs⟩
  rw [List.perm_ext_iff_of_nodup (nodup_pairs _) hcons]
  rintro ⟨asked, found⟩
  rw [mem_pairs_iff, mem_neighbours_insert_iff, List.mem_cons, mem_pairs_iff, Prod.mk.injEq]

/-- A neighbour that goes is one pair less. -/
theorem pairs_erase_perm (index : Index) {name other : String}
    (h : other ∈ index.neighbours name) :
    index.pairs.Perm ((name, other) :: (index.erase name other).pairs) := by
  have hcons : ((name, other) :: (index.erase name other).pairs).Nodup := by
    rw [List.nodup_cons, mem_pairs_iff, mem_neighbours_erase_iff]
    exact ⟨fun hmem => hmem.1 ⟨rfl, rfl⟩, nodup_pairs _⟩
  rw [List.perm_ext_iff_of_nodup index.nodup_pairs hcons]
  rintro ⟨asked, found⟩
  rw [mem_pairs_iff, List.mem_cons, mem_pairs_iff, mem_neighbours_erase_iff, Prod.mk.injEq]
  by_cases heq : asked = name ∧ found = other
  · obtain ⟨rfl, rfl⟩ := heq
    simp [h]
  · simp [heq]

/-! ### A name dropped with its neighbours -/

theorem mem_neighbours_assign_empty_iff (index : Index) (name asked found : String) :
    found ∈ (index.assign name ∅).neighbours asked ↔
      asked ≠ name ∧ found ∈ index.neighbours asked := by
  by_cases heq : asked = name
  · subst heq
    rw [mem_neighbours_assign_self]
    simp
  · rw [index.neighbours_assign_ne _ heq]
    simp [heq]

/-- The pairs of a name and the rest of the pairs are all. -/
theorem pairs_assign_empty_perm (index : Index) (name : String) :
    index.pairs.Perm ((index.neighbours name).toList.map (fun found => (name, found))
      ++ (index.assign name ∅).pairs) := by
  have hname : ((index.neighbours name).toList.map fun found => (name, found)).Nodup :=
    (nodup_toList _).map fun a b h => (Prod.mk.inj h).2
  have happend : ((index.neighbours name).toList.map (fun found => (name, found))
      ++ (index.assign name ∅).pairs).Nodup := by
    -- the rest has no pair of this name
    apply hname.append (nodup_pairs _)
    intro pair hpair hrest
    obtain ⟨found, -, rfl⟩ := List.mem_map.mp hpair
    rw [mem_pairs_iff, mem_neighbours_assign_empty_iff] at hrest
    exact hrest.1 rfl
  rw [List.perm_ext_iff_of_nodup index.nodup_pairs happend]
  intro pair
  obtain ⟨asked, found⟩ := pair
  rw [List.mem_append, mem_map_from_iff, Std.TreeSet.mem_toList, mem_pairs_iff, mem_pairs_iff,
    mem_neighbours_assign_empty_iff]
  by_cases heq : asked = name
  · subst heq
    simp
  · simp [heq]

theorem pairCount_assign_empty (index : Index) (name : String) :
    index.pairCount = (index.neighbours name).size + (index.assign name ∅).pairCount := by
  unfold pairCount
  rw [(index.pairs_assign_empty_perm name).length_eq, List.length_append, List.length_map,
    Std.TreeSet.length_toList]

/-! ### The same name dropped from many sets -/

theorem mem_neighbours_foldl_erase_iff (index : Index) (names : List String)
    (other asked found : String) :
    found ∈ (names.foldl (fun index name => index.erase name other) index).neighbours asked ↔
      ¬(asked ∈ names ∧ found = other) ∧ found ∈ index.neighbours asked := by
  induction names generalizing index with
  | nil => simp
  | cons name names ih =>
    rw [List.foldl_cons, ih, mem_neighbours_erase_iff, ← and_assoc, ← not_or, List.mem_cons,
      or_and_right, or_comm]

theorem Trimmed.foldl_erase {index : Index} (h : index.Trimmed) (names : List String)
    (other : String) :
    (names.foldl (fun index name => index.erase name other) index).Trimmed := by
  induction names generalizing index with
  | nil => exact h
  | cons name names ih => exact ih (h.assign name _)

end Index

/-! ## Section 2: Coherent graphs -/

namespace Graph

/-- The indexes mirror each other, store no empty set, and hold as many pairs as are counted. -/
structure Coherent (g : Graph) : Prop where
  mirrored : ∀ s t, t ∈ g.dependents s ↔ s ∈ g.precedents t
  dependents_trimmed : g.dependentsIndex.Trimmed
  precedents_trimmed : g.precedentsIndex.Trimmed
  counted : g.dependentsIndex.pairCount = g.edgeCount

namespace Coherent

variable {g : Graph}

theorem empty : Graph.empty.Coherent where
  mirrored := by
    intro s t
    simp [dependents, precedents, Graph.empty, Index.empty, Index.neighbours]
  dependents_trimmed := Index.trimmed_empty
  precedents_trimmed := Index.trimmed_empty
  counted := rfl

/-- The second index holds the pairs of the first one, the other way round. -/
theorem pairs_perm (h : g.Coherent) :
    g.precedentsIndex.pairs.Perm (g.dependentsIndex.pairs.map Prod.swap) := by
  -- neither list has a pair twice, so that it is enough to compare their members
  have hswap : (g.dependentsIndex.pairs.map Prod.swap).Nodup :=
    g.dependentsIndex.nodup_pairs.map Prod.swap_injective
  rw [List.perm_ext_iff_of_nodup g.precedentsIndex.nodup_pairs hswap]
  rintro ⟨t, s⟩
  have hpair : (t, s) ∈ g.dependentsIndex.pairs.map Prod.swap
      ↔ (s, t) ∈ g.dependentsIndex.pairs := by
    rw [List.mem_map]
    constructor
    · intro hmap
      obtain ⟨⟨s', t'⟩, hmem, heq⟩ := hmap
      cases heq
      exact hmem
    · intro hmem
      exact ⟨(s, t), hmem, rfl⟩
  rw [hpair, Index.mem_pairs_iff, Index.mem_pairs_iff]
  exact (h.mirrored s t).symm

theorem precedents_counted (h : g.Coherent) : g.precedentsIndex.pairCount = g.edgeCount := by
  rw [← h.counted]
  unfold Index.pairCount
  rw [h.pairs_perm.length_eq, List.length_map]

/-- A name is held by the second index when it reads something. -/
theorem isReader_eq_true_iff (h : g.Coherent) (t : String) :
    g.isReader t = true ↔ ∃ s, t ∈ g.dependents s := by
  unfold isReader
  rw [h.precedents_trimmed.holds_eq_true_iff]
  exact exists_congr fun s => (h.mirrored s t).symm

/-! ### One edge more or less -/

theorem connect (h : g.Coherent) (s t : String) : (g.connect s t).Coherent := by
  unfold Graph.connect
  split
  · exact h
  · next hnew =>
    have hmem : t ∉ g.dependentsIndex.neighbours s := hnew
    refine ⟨?_, h.dependents_trimmed.assign _ _, h.precedents_trimmed.assign _ _, ?_⟩
    · intro asked found
      show found ∈ (g.dependentsIndex.insert s t).neighbours asked
        ↔ asked ∈ (g.precedentsIndex.insert t s).neighbours found
      rw [Index.mem_neighbours_insert_iff, Index.mem_neighbours_insert_iff,
        and_comm (a := found = t)]
      exact or_congr_right (h.mirrored asked found)
    · show (g.dependentsIndex.insert s t).pairCount = g.edgeCount + 1
      rw [← h.counted]
      unfold Index.pairCount
      rw [(g.dependentsIndex.pairs_insert_perm hmem).length_eq, List.length_cons]

theorem disconnect (h : g.Coherent) (s t : String) : (g.disconnect s t).Coherent := by
  unfold Graph.disconnect
  split
  · next hold =>
    have hmem : t ∈ g.dependentsIndex.neighbours s := hold
    refine ⟨?_, h.dependents_trimmed.assign _ _, h.precedents_trimmed.assign _ _, ?_⟩
    · intro asked found
      show found ∈ (g.dependentsIndex.erase s t).neighbours asked
        ↔ asked ∈ (g.precedentsIndex.erase t s).neighbours found
      rw [Index.mem_neighbours_erase_iff, Index.mem_neighbours_erase_iff,
        and_comm (a := found = t)]
      exact and_congr_right' (h.mirrored asked found)
    · show (g.dependentsIndex.erase s t).pairCount = g.edgeCount - 1
      rw [← h.counted]
      unfold Index.pairCount
      rw [(g.dependentsIndex.pairs_erase_perm hmem).length_eq, List.length_cons,
        Nat.add_sub_cancel]
  · exact h

theorem connectAll (h : g.Coherent) (edges : List (String × String)) :
    (g.connectAll edges).Coherent := by
  induction edges generalizing g with
  | nil => exact h
  | cons edge edges ih => exact ih (h.connect edge.1 edge.2)

/-! ### All edges of one name -/

theorem reversed (h : g.Coherent) : g.reversed.Coherent :=
  ⟨fun s t => (h.mirrored t s).symm, h.precedents_trimmed, h.dependents_trimmed,
    h.precedents_counted⟩

/-- Counted are the edges from a name and those from all others. -/
theorem edgeCount_eq_add (h : g.Coherent) (s : String) :
    g.edgeCount = (g.dependents s).size + (g.dependentsIndex.assign s ∅).pairCount := by
  rw [← h.counted]
  exact g.dependentsIndex.pairCount_assign_empty s

theorem size_dependents_le (h : g.Coherent) (s : String) : (g.dependents s).size ≤ g.edgeCount := by
  rw [h.edgeCount_eq_add s]
  exact Nat.le_add_right _ _

theorem size_precedents_le (h : g.Coherent) (t : String) : (g.precedents t).size ≤ g.edgeCount :=
  h.reversed.size_dependents_le t

theorem cutFrom (h : g.Coherent) (s : String) : (g.cutFrom s).Coherent where
  mirrored := by
    intro asked found
    show found ∈ (g.dependentsIndex.assign s ∅).neighbours asked
      ↔ asked ∈ (List.foldl (fun index t => index.erase t s) g.precedentsIndex
        (g.dependents s).toList).neighbours found
    rw [Index.mem_neighbours_assign_empty_iff, Index.mem_neighbours_foldl_erase_iff,
      Std.TreeSet.mem_toList]
    show asked ≠ s ∧ found ∈ g.dependents asked
      ↔ ¬(found ∈ g.dependents s ∧ asked = s) ∧ asked ∈ g.precedents found
    rw [← h.mirrored]
    -- the second index loses `s` wherever it had it, since it mirrors the first one
    by_cases heq : asked = s
    · subst heq
      simp
    · simp [heq]
  dependents_trimmed := h.dependents_trimmed.assign s ∅
  precedents_trimmed := h.precedents_trimmed.foldl_erase _ s
  counted := by
    show (g.dependentsIndex.assign s ∅).pairCount = g.edgeCount - (g.dependents s).size
    rw [h.edgeCount_eq_add s, Nat.add_sub_cancel_left]

theorem cutTo (h : g.Coherent) (t : String) : (g.cutTo t).Coherent :=
  (h.reversed.cutFrom t).reversed

theorem setPrecedents (h : g.Coherent) (t : String) (ss : List String) :
    (g.setPrecedents t ss).Coherent :=
  (h.cutTo t).connectAll _

end Coherent

/-! ## Section 3: Other edges of one name -/

theorem mem_dependents_connectAll_iff (g : Graph) (edges : List (String × String))
    (asked found : String) :
    found ∈ (g.connectAll edges).dependents asked ↔
      (asked, found) ∈ edges ∨ found ∈ g.dependents asked := by
  unfold connectAll
  induction edges generalizing g with
  | nil => simp
  | cons edge edges ih =>
    rw [List.foldl_cons, ih, mem_dependents_connect_iff, List.mem_cons, Prod.ext_iff, or_assoc,
      or_left_comm]

theorem mem_dependents_cutFrom_iff (g : Graph) (s asked found : String) :
    found ∈ (g.cutFrom s).dependents asked ↔ asked ≠ s ∧ found ∈ g.dependents asked :=
  g.dependentsIndex.mem_neighbours_assign_empty_iff s asked found

/-- The edges to a name are those from it in the reversed graph. -/
theorem Coherent.mem_dependents_cutTo_iff {g : Graph} (h : g.Coherent) (t asked found : String) :
    found ∈ (g.cutTo t).dependents asked ↔ found ≠ t ∧ found ∈ g.dependents asked := by
  rw [(h.cutTo t).mirrored, h.mirrored]
  exact g.reversed.mem_dependents_cutFrom_iff t found asked

/-- The edges into `t` come from the given names, and all other edges stay. -/
theorem Coherent.mem_dependents_setPrecedents_iff {g : Graph} (h : g.Coherent) (t : String)
    (ss : List String) (asked found : String) :
    found ∈ (g.setPrecedents t ss).dependents asked ↔
      (found = t ∧ asked ∈ ss) ∨ (found ≠ t ∧ found ∈ g.dependents asked) := by
  rw [Graph.setPrecedents, mem_dependents_connectAll_iff, mem_map_to_iff,
    h.mem_dependents_cutTo_iff]

/-! ## Section 4: The check -/

/-- When every pair of one trimmed index is in the other, the check of the first succeeds. -/
theorem isReversedIn_eq_true {index other : Index} (htrim : index.Trimmed)
    (hmirror : ∀ name found, found ∈ index.neighbours name → name ∈ other.neighbours found) :
    index.isReversedIn other = true := by
  unfold Index.isReversedIn
  rw [List.all_eq_true]
  rintro ⟨name, set⟩ hentry
  rw [Std.TreeMap.mem_toList_iff_getElem?_eq_some] at hentry
  rw [Bool.and_eq_true, List.all_eq_true]
  refine ⟨by simp [htrim name set hentry], ?_⟩
  intro found hfound
  refine hmirror name found ?_
  rw [Std.TreeSet.mem_toList] at hfound
  simpa [Index.neighbours, Std.TreeMap.getD_eq_getD_getElem?, hentry] using hfound

/-- The check accepts a coherent graph. -/
theorem Coherent.isCoherent_eq_true {g : Graph} (h : g.Coherent) : g.isCoherent = true := by
  have hforward : g.dependentsIndex.isReversedIn g.precedentsIndex = true :=
    isReversedIn_eq_true h.dependents_trimmed fun s t => (h.mirrored s t).mp
  have hbackward : g.precedentsIndex.isReversedIn g.dependentsIndex = true :=
    isReversedIn_eq_true h.precedents_trimmed fun t s => (h.mirrored s t).mpr
  simp [isCoherent, h.counted, h.precedents_counted, hforward, hbackward]

end Graph

end Worksheet
