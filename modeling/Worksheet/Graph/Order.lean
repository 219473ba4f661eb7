import Worksheet.Graph.Basic

/-! # The order of recalculation

    When cells change, the cells that read them must be computed again, each after all that it
    reads. `Wiring.order` walks depth first from the changed cells to their dependents and puts a
    cell in front of the list once all its dependents are in the list. A dependent that is still
    on the path of the walk closes a cycle.

    The walk keeps its path as data and is followed step by step. It ends because each step works
    off a part of the path, or moves a name from the finite set of names not yet met to the path.

    The walk runs over a `Wiring`: the graph as it is, or as it would be after an edit of one
    cell. So an edit is tried before the graph is touched.
-/

namespace Worksheet

/-! ## Section 1: Wirings -/

inductive Wiring where
  /-- The graph as it is. -/
  | current (g : Graph)
  /-- The graph with `precedents` in place of all that `cell` reads. -/
  | revised (g : Graph) (cell : String) (precedents : Std.TreeSet String)

namespace Wiring

/-- The cells that read `name`, ascending. -/
def dependents : Wiring → String → List String
  | current g, name => (g.dependents name).toList
  | revised g cell precedents, name =>
    let others := (g.dependents name).erase cell
    (if precedents.contains name then others.insert cell else others).toList

/-- Names among which are all that have dependents. -/
def sources : Wiring → List String
  | current g => g.dependentsIndex.sets.keys
  | revised g _ precedents => g.dependentsIndex.sets.keys ++ precedents.toList

/-- All names that are dependents. -/
def readers (wiring : Wiring) : Std.TreeSet String :=
  wiring.sources.foldl (fun names source => names.insertMany (wiring.dependents source)) ∅

/-! ## Section 2: The walk -/

/-- A cell on the path, with those of its dependents that are still to be visited. -/
structure Visit where
  cell : String
  remaining : List String

/-- How far a walk has come. -/
structure Walk where
  /-- The names not yet met. -/
  fresh : Std.TreeSet String
  /-- The cells being visited, the last one first. -/
  path : List Visit
  /-- The cells that are done, the last one first. -/
  listed : List String

namespace Walk

/-- Whether `name` lies on the path. -/
def isOpen (w : Walk) (name : String) : Bool :=
  w.path.any fun visit => visit.cell == name

/-- How many steps a walk can still take at most. Each cell on the path takes a step for each of
    its remaining dependents and one to be listed; so does each name not yet met, once the walk
    meets it. -/
def stepsLeft (dependents : String → List String) (w : Walk) : Nat :=
  (w.fresh.toList.flatMap fun name => name :: dependents name).length
    + (w.path.flatMap fun visit => visit.cell :: visit.remaining).length

theorem toList_perm_cons_erase {names : Std.TreeSet String} {name : String} (h : name ∈ names) :
    names.toList.Perm (name :: (names.erase name).toList) := by
  have nodup_toList (set : Std.TreeSet String) : set.toList.Nodup :=
    set.distinct_toList.imp fun hne heq => hne (Std.LawfulEqCmp.compare_eq_iff_eq.mpr heq)
  rw [List.perm_ext_iff_of_nodup (nodup_toList _) (List.nodup_cons.mpr ⟨by simp, nodup_toList _⟩)]
  intro other
  rw [Std.TreeSet.mem_toList, List.mem_cons, Std.TreeSet.mem_toList, Std.TreeSet.mem_erase, ne_eq,
    Std.LawfulEqCmp.compare_eq_iff_eq]
  by_cases heq : other = name
  · subst heq
    simp [h]
  · simp [heq, Ne.symm heq]

theorem stepsLeft_meet (dependents : String → List String) {fresh : Std.TreeSet String}
    {next : String} (h : next ∈ fresh) (cell : String) (remaining : List String)
    (path : List Visit) (listed : List String) :
    stepsLeft dependents
        ⟨fresh.erase next, ⟨next, dependents next⟩ :: ⟨cell, remaining⟩ :: path, listed⟩
      < stepsLeft dependents ⟨fresh, ⟨cell, next :: remaining⟩ :: path, listed⟩ := by
  have hperm := (toList_perm_cons_erase h).flatMap_right fun name => name :: dependents name
  have hlength := hperm.length_eq
  simp only [List.flatMap_cons, List.length_append, List.length_cons] at hlength
  simp only [stepsLeft, List.flatMap_cons, List.length_append, List.length_cons]
  omega

/-- Follows the path until it is worked off. Fails with the name at which a cycle closes. -/
def run (dependents : String → List String) (w : Walk) : Except String Walk :=
  match w with
  | ⟨_, [], _⟩ => .ok w
  | ⟨fresh, ⟨cell, []⟩ :: path, listed⟩ => run dependents ⟨fresh, path, cell :: listed⟩
  | ⟨fresh, ⟨cell, next :: remaining⟩ :: path, listed⟩ =>
    if next ∈ fresh then
      run dependents
        ⟨fresh.erase next, ⟨next, dependents next⟩ :: ⟨cell, remaining⟩ :: path, listed⟩
    else if w.isOpen next then .error next
    else run dependents ⟨fresh, ⟨cell, remaining⟩ :: path, listed⟩
termination_by w.stepsLeft dependents
decreasing_by
  · simp [stepsLeft]
  · exact stepsLeft_meet dependents ‹next ∈ fresh› cell remaining path listed
  · simp [stepsLeft]

/-- Walks from each of the given names that was not met before. -/
def runFrom (dependents : String → List String) (w : Walk) : List String → Except String Walk
  | [] => .ok w
  | start :: starts =>
    if start ∈ w.fresh then
      match run dependents ⟨w.fresh.erase start, [⟨start, dependents start⟩], w.listed⟩ with
      | .error name => .error name
      | .ok w => runFrom dependents w starts
    else runFrom dependents w starts

end Walk

/-! ## Section 3: The order -/

/-- The given names and all that depend on them, each once and before its dependents. Fails with a
    name on a cycle. -/
def order (wiring : Wiring) (starts : List String) : Except String (List String) :=
  (Walk.runFrom wiring.dependents ⟨wiring.readers.insertMany starts, [], []⟩ starts).map Walk.listed

end Wiring

end Worksheet
