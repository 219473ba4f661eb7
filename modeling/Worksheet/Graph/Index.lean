import Std.Data.TreeSet

/-! # An index of names

    An index assigns to each of finitely many names a set of names, its neighbours. A name without
    neighbours is not held at all.
-/

namespace Worksheet

/-- A finite assignment of sets of names. -/
structure Index where
  sets : Std.TreeMap String (Std.TreeSet String)

namespace Index

def empty : Index := ⟨∅⟩

/-- The names assigned to `name`, ascending. -/
def neighbours (index : Index) (name : String) : Std.TreeSet String :=
  index.sets.getD name ∅

/-- Whether the index holds `name`. -/
def holds (index : Index) (name : String) : Bool :=
  index.sets.contains name

/-! ## Section 1: Updates -/

/-- Assigns a set to `name`; the empty set removes `name`. -/
def assign (index : Index) (name : String) (set : Std.TreeSet String) : Index :=
  if set.isEmpty then ⟨index.sets.erase name⟩ else ⟨index.sets.insert name set⟩

/-- Adds `other` to the neighbours of `name`. -/
def insert (index : Index) (name other : String) : Index :=
  index.assign name ((index.neighbours name).insert other)

/-- Removes `other` from the neighbours of `name`. -/
def erase (index : Index) (name other : String) : Index :=
  index.assign name ((index.neighbours name).erase other)

/-! ## Section 2: Two indexes of the same pairs -/

/-- All pairs of a name and a neighbour. -/
def pairs (index : Index) : List (String × String) :=
  index.sets.toList.flatMap fun (name, set) => set.toList.map fun neighbour => (name, neighbour)

/-- How many pairs of a name and a neighbour there are. -/
def pairCount (index : Index) : Nat := index.pairs.length

/-- Every name held has neighbours, and `other` holds every pair the other way round. -/
def isReversedIn (index other : Index) : Bool :=
  index.sets.toList.all fun entry =>
    !entry.2.isEmpty && entry.2.toList.all fun neighbour =>
      (other.neighbours neighbour).contains entry.1

/-! ## Section 3: Neighbours after an update -/

theorem mem_neighbours_assign_self (index : Index) (name : String) (set : Std.TreeSet String)
    (found : String) : found ∈ (index.assign name set).neighbours name ↔ found ∈ set := by
  unfold assign neighbours
  split
  · next h =>
    have hnot : found ∉ set := Std.TreeSet.not_mem_of_isEmpty h
    simp [hnot]
  · simp

theorem neighbours_assign_ne (index : Index) {name asked : String} (set : Std.TreeSet String)
    (h : asked ≠ name) : (index.assign name set).neighbours asked = index.neighbours asked := by
  unfold assign neighbours
  split
  · simp [Std.TreeMap.getD_erase, Ne.symm h]
  · simp [Std.TreeMap.getD_insert, Ne.symm h]

theorem mem_neighbours_insert_iff (index : Index) (name other asked found : String) :
    found ∈ (index.insert name other).neighbours asked ↔
      (asked = name ∧ found = other) ∨ found ∈ index.neighbours asked := by
  unfold insert
  by_cases h : asked = name
  · subst h
    rw [mem_neighbours_assign_self, Std.TreeSet.mem_insert, Std.LawfulEqCmp.compare_eq_iff_eq]
    simp [eq_comm]
  · rw [neighbours_assign_ne index _ h]
    simp [h]

theorem mem_neighbours_erase_iff (index : Index) (name other asked found : String) :
    found ∈ (index.erase name other).neighbours asked ↔
      ¬(asked = name ∧ found = other) ∧ found ∈ index.neighbours asked := by
  unfold erase
  by_cases h : asked = name
  · subst h
    rw [mem_neighbours_assign_self, Std.TreeSet.mem_erase, ne_eq,
      Std.LawfulEqCmp.compare_eq_iff_eq]
    simp [eq_comm]
  · rw [neighbours_assign_ne index _ h]
    simp [h]

end Index

end Worksheet
