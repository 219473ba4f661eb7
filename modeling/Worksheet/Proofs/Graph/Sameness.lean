import Worksheet.Proofs.Graph.Revision

/-! # Graphs with the same edges

    A graph is known by its answers: the dependents and the precedents of each name, ascending, and
    the number of edges. Coherent graphs with the same edges give the same answers, whatever
    changes have led to them.

    A walk sees a wiring only through the dependents of the names that it reaches, so it takes the
    same steps over wirings with the same edges there. An edit replaces the edges into one cell,
    and a walk from this cell would meet such an edge only on a cycle.

    - `Graph.Coherent.sameEdges`: the edges decide the answers.
    - `Wiring.order_eq_of_agree`: the edges reached decide the order, or the name with which it
      fails.
    - `Wiring.order_revised_eq_current`: the order from the edited cell is that before the edit.
    - `Wiring.order_revised_eq_committed`: every order over the revised graph is that after it.
-/

namespace Worksheet

open Relation (ReflTransGen TransGen)

theorem toList_congr {a b : Std.TreeSet String} (h : ∀ name, name ∈ a ↔ name ∈ b) :
    a.toList = b.toList :=
  (Std.TreeSet.Equiv.of_forall_mem_iff h).toList_eq

/-! ## Section 1: The answers of a graph -/

namespace Graph

/-- The graphs answer every question alike. -/
structure SameEdges (g g' : Graph) : Prop where
  dependents_eq : ∀ name, (g.dependents name).toList = (g'.dependents name).toList
  precedents_eq : ∀ name, (g.precedents name).toList = (g'.precedents name).toList
  edgeCount_eq : g.edgeCount = g'.edgeCount

/-- Coherent graphs with the same edges answer every question alike. -/
theorem Coherent.sameEdges {g g' : Graph} (h : g.Coherent) (h' : g'.Coherent)
    (hedges : g.Feeds = g'.Feeds) : g.SameEdges g' := by
  have hmem (s t : String) : t ∈ g.dependents s ↔ t ∈ g'.dependents s :=
    iff_of_eq (congrFun (congrFun hedges s) t)
  refine ⟨fun s => toList_congr (hmem s), fun t => toList_congr fun s => ?_, ?_⟩
  · rw [← h.mirrored, ← h'.mirrored, hmem]
  · -- both counts are the length of a list of the same pairs
    have hperm : g.dependentsIndex.pairs.Perm g'.dependentsIndex.pairs := by
      rw [List.perm_ext_iff_of_nodup (Index.nodup_pairs _) (Index.nodup_pairs _)]
      intro edge
      obtain ⟨s, t⟩ := edge
      rw [Index.mem_pairs_iff, Index.mem_pairs_iff]
      exact hmem s t
    rw [← h.counted, ← h'.counted]
    exact hperm.length_eq

end Graph

/-! ## Section 2: Walks that take the same steps -/

namespace Wiring

namespace Walk

/-- The walks have come equally far. -/
structure Alike (w w' : Walk) : Prop where
  fresh_iff : ∀ name, name ∈ w.fresh ↔ name ∈ w'.fresh
  path_eq : w.path = w'.path
  listed_eq : w.listed = w'.listed

/-- Both walks end, equally far, or both fail with the same name. -/
inductive EndAlike : Except String Walk → Except String Walk → Prop where
  | ok {w w' : Walk} (h : w.Alike w') : EndAlike (.ok w) (.ok w')
  | error (name : String) : EndAlike (.error name) (.error name)

variable {w w' : Walk}

theorem mem_erase_congr {fresh fresh' : Std.TreeSet String}
    (h : ∀ name, name ∈ fresh ↔ name ∈ fresh') (met name : String) :
    name ∈ fresh.erase met ↔ name ∈ fresh'.erase met := by
  rw [Std.TreeSet.mem_erase, Std.TreeSet.mem_erase, h]

/-- Walks that have come equally far end alike. -/
theorem Alike.run (h : w.Alike w') (dependents : String → List String) :
    EndAlike (run dependents w) (run dependents w') := by
  obtain ⟨fresh', path', listed'⟩ := w'
  obtain ⟨hfresh, hpath, hlisted⟩ := h
  -- on the steps of the first walk; the second one takes each of them too
  fun_induction Walk.run dependents w generalizing fresh' path' listed' with
  | case1 fresh listed =>
    cases hpath
    cases hlisted
    rw [Walk.run]
    exact .ok ⟨hfresh, rfl, rfl⟩
  | case2 fresh cell path listed ih =>
    cases hpath
    cases hlisted
    rw [Walk.run]
    exact ih _ _ _ hfresh rfl rfl
  | case3 fresh cell next remaining path listed hnext ih =>
    cases hpath
    cases hlisted
    rw [Walk.run, if_pos ((hfresh next).mp hnext)]
    exact ih _ _ _ (mem_erase_congr hfresh next) rfl rfl
  | case4 fresh cell next remaining path listed hnext hopen =>
    cases hpath
    cases hlisted
    have hopen' : Walk.isOpen ⟨fresh', ⟨cell, next :: remaining⟩ :: path, listed⟩ next = true :=
      hopen
    rw [if_pos hopen, Walk.run, if_neg (fun hmem => hnext ((hfresh next).mpr hmem)), if_pos hopen']
    exact .error next
  | case5 fresh cell next remaining path listed hnext hopen ih =>
    cases hpath
    cases hlisted
    have hopen' : ¬Walk.isOpen ⟨fresh', ⟨cell, next :: remaining⟩ :: path, listed⟩ next = true :=
      hopen
    rw [if_neg hopen, Walk.run, if_neg (fun hmem => hnext ((hfresh next).mpr hmem)), if_neg hopen']
    exact ih _ _ _ hfresh rfl rfl

theorem Alike.runFrom (h : w.Alike w') (dependents : String → List String)
    (starts : List String) :
    EndAlike (runFrom dependents w starts) (runFrom dependents w' starts) := by
  induction starts generalizing w w' with
  | nil => exact .ok h
  | cons start starts ih =>
    rw [Walk.runFrom, Walk.runFrom]
    by_cases hstart : start ∈ w.fresh
    · rw [if_pos hstart, if_pos ((h.fresh_iff start).mp hstart)]
      have hbegin : Walk.Alike ⟨w.fresh.erase start, [⟨start, dependents start⟩], w.listed⟩
          ⟨w'.fresh.erase start, [⟨start, dependents start⟩], w'.listed⟩ :=
        ⟨mem_erase_congr h.fresh_iff start, rfl, h.listed_eq⟩
      have hrun := hbegin.run dependents
      revert hrun
      generalize Walk.run dependents ⟨w.fresh.erase start, _, w.listed⟩ = first
      generalize Walk.run dependents ⟨w'.fresh.erase start, _, w'.listed⟩ = second
      intro hrun
      cases hrun with
      | ok hmiddle => exact ih hmiddle
      | error name => exact .error name
    · rw [if_neg hstart, if_neg (fun hmem => hstart ((h.fresh_iff start).mpr hmem))]
      exact ih h

/-- Walks that end alike list the same. -/
theorem EndAlike.listed_eq {result result' : Except String Walk} (h : EndAlike result result') :
    result.map Walk.listed = result'.map Walk.listed := by
  cases h with
  | ok hsame => exact congrArg Except.ok hsame.listed_eq
  | error name => rfl

section Agreement

variable {dependents dependents' : String → List String} {Seen : String → Prop}

/-- A walk that stays among the names where the dependents agree takes the same steps over both. -/
theorem run_agree (hclosed : ∀ u v, Seen u → v ∈ dependents u → Seen v)
    (hagree : ∀ u, Seen u → dependents u = dependents' u) (w : Walk)
    (hpath : ∀ visit ∈ w.path, ∀ other ∈ visit.remaining, Seen other) :
    run dependents w = run dependents' w := by
  -- on the steps of the walk: what remains to be visited on the path is seen
  fun_induction Walk.run dependents w with
  | case1 fresh listed => rw [Walk.run]
  | case2 fresh cell path listed ih =>
    rw [Walk.run]
    exact ih fun visit hvisit => hpath visit (List.mem_cons_of_mem _ hvisit)
  | case3 fresh cell next remaining path listed hnext ih =>
    have hseen : Seen next := hpath _ List.mem_cons_self next List.mem_cons_self
    rw [Walk.run, if_pos hnext, ← hagree next hseen]
    apply ih
    intro visit hvisit other hother
    rcases List.mem_cons.mp hvisit with rfl | hbelow
    · exact hclosed next other hseen hother
    rcases List.mem_cons.mp hbelow with rfl | hbelow
    · exact hpath _ List.mem_cons_self other (List.mem_cons_of_mem _ hother)
    · exact hpath visit (List.mem_cons_of_mem _ hbelow) other hother
  | case4 fresh cell next remaining path listed hnext hopen =>
    rw [if_pos hopen, Walk.run, if_neg hnext, if_pos hopen]
  | case5 fresh cell next remaining path listed hnext hopen ih =>
    rw [if_neg hopen, Walk.run, if_neg hnext, if_neg hopen]
    apply ih
    intro visit hvisit other hother
    rcases List.mem_cons.mp hvisit with rfl | hbelow
    · exact hpath _ List.mem_cons_self other (List.mem_cons_of_mem _ hother)
    · exact hpath visit (List.mem_cons_of_mem _ hbelow) other hother

theorem runFrom_agree (hclosed : ∀ u v, Seen u → v ∈ dependents u → Seen v)
    (hagree : ∀ u, Seen u → dependents u = dependents' u) (w : Walk) {starts : List String}
    (hstarts : ∀ start ∈ starts, Seen start) :
    runFrom dependents w starts = runFrom dependents' w starts := by
  induction starts generalizing w with
  | nil => rfl
  | cons start starts ih =>
    have hseen : Seen start := hstarts start List.mem_cons_self
    have hrest (w : Walk) : runFrom dependents w starts = runFrom dependents' w starts :=
      ih w fun other hother => hstarts other (List.mem_cons_of_mem _ hother)
    have hrun : run dependents ⟨w.fresh.erase start, [⟨start, dependents start⟩], w.listed⟩
        = run dependents' ⟨w.fresh.erase start, [⟨start, dependents start⟩], w.listed⟩ := by
      apply run_agree hclosed hagree
      intro visit hvisit other hother
      obtain rfl := List.mem_singleton.mp hvisit
      exact hclosed start other hseen hother
    simp only [Walk.runFrom, ← hagree start hseen, hrun, hrest]

end Agreement

end Walk

/-! ## Section 3: The order -/

/-- The dependents of a name, as a set. -/
theorem exists_dependents_eq_toList (wiring : Wiring) (name : String) :
    ∃ set : Std.TreeSet String, wiring.dependents name = set.toList := by
  cases wiring with
  | current g => exact ⟨g.dependents name, rfl⟩
  | revised g cell precedents => exact ⟨_, rfl⟩

/-- The edges decide the list of dependents. -/
theorem dependents_congr {wiring wiring' : Wiring} {name : String}
    (h : ∀ other, Feeds wiring.dependents name other ↔ Feeds wiring'.dependents name other) :
    wiring.dependents name = wiring'.dependents name := by
  obtain ⟨set, hset⟩ := wiring.exists_dependents_eq_toList name
  obtain ⟨set', hset'⟩ := wiring'.exists_dependents_eq_toList name
  unfold Feeds at h
  rw [hset, hset'] at h ⊢
  exact toList_congr fun other => by rw [← Std.TreeSet.mem_toList, h, Std.TreeSet.mem_toList]

theorem mem_readers_iff (wiring : Wiring) (name : String) :
    name ∈ wiring.readers ↔ ∃ source, Feeds wiring.dependents source name := by
  unfold readers
  rw [mem_foldl_insertMany_iff]
  constructor
  · intro hmem
    rcases hmem with hmem | ⟨source, -, hedge⟩
    · simp at hmem
    · exact ⟨source, hedge⟩
  · intro hread
    obtain ⟨source, hedge⟩ := hread
    exact Or.inr ⟨source, wiring.mem_sources_of_feeds hedge, hedge⟩

/-- The order from some starts is the same over two wirings, or fails with the same name, when the
    names reached from the starts have the same dependents in both. -/
theorem order_eq_of_agree {wiring wiring' : Wiring} {starts : List String}
    (hnames : ∀ name, name ∈ wiring.readers.insertMany starts ↔
      name ∈ wiring'.readers.insertMany starts)
    (hagree : ∀ name, ReachedFrom wiring.dependents starts name →
      wiring.dependents name = wiring'.dependents name) :
    wiring.order starts = wiring'.order starts := by
  have houtset : Walk.Alike ⟨wiring.readers.insertMany starts, [], []⟩
      ⟨wiring'.readers.insertMany starts, [], []⟩ := ⟨hnames, rfl, rfl⟩
  have hsteps : Walk.runFrom wiring.dependents ⟨wiring'.readers.insertMany starts, [], []⟩ starts
      = Walk.runFrom wiring'.dependents ⟨wiring'.readers.insertMany starts, [], []⟩ starts := by
    apply Walk.runFrom_agree (fun u v hu hv => hu.tail hv) hagree
    intro start hstart
    exact ⟨start, hstart, ReflTransGen.refl⟩
  unfold order
  rw [(houtset.runFrom wiring.dependents starts).listed_eq, hsteps]

/-- Over the same edges the order from the same starts is the same, or fails with the same name. -/
theorem order_congr {wiring wiring' : Wiring}
    (h : Feeds wiring.dependents = Feeds wiring'.dependents) (starts : List String) :
    wiring.order starts = wiring'.order starts := by
  apply order_eq_of_agree
  · intro name
    rw [Std.TreeSet.mem_insertMany_list, Std.TreeSet.mem_insertMany_list, mem_readers_iff,
      mem_readers_iff, h]
  · intro name _
    exact dependents_congr fun other => by rw [h]

/-! ## Section 4: The order from an edited cell -/

/-- What the cell leads to, but does not come to read, has the same dependents as before. -/
theorem dependents_revised_eq_current {g : Graph} {cell name : String}
    {precedents : Std.TreeSet String} (hcell : ¬TransGen g.Feeds cell cell)
    (hname : name ∉ precedents) (hpath : ReflTransGen g.Feeds cell name) :
    (revised g cell precedents).dependents name = (current g).dependents name := by
  apply dependents_congr
  intro other
  rw [feeds_revised, feeds_current]
  constructor
  · intro hedge
    rcases hedge with ⟨-, hnew⟩ | ⟨-, hold⟩
    · exact absurd hnew hname
    · exact hold
  · intro hedge
    refine Or.inr ⟨?_, hedge⟩
    -- an edge back to the cell would have closed a cycle
    intro heq
    subst heq
    exact hcell (TransGen.tail' hpath hedge)

/-- The order from the edited cell is that before the edit, unless the cell led to itself, or leads
    to one of its new precedents. -/
theorem order_revised_eq_current {g : Graph} {cell : String} {precedents : Std.TreeSet String}
    (hcell : ¬TransGen g.Feeds cell cell)
    (hfree : ∀ u ∈ precedents, ¬ReflTransGen g.Feeds cell u) :
    (revised g cell precedents).order [cell] = (current g).order [cell] := by
  apply order_eq_of_agree
  · intro name
    simp only [Std.TreeSet.mem_insertMany_list, mem_readers_iff, feeds_revised, feeds_current,
      List.contains_iff_mem, List.mem_singleton]
    by_cases hname : name = cell
    · simp [hname]
    · simp [Rewired, hname]
  · intro name hreached
    rw [reachedFrom_singleton_iff, feeds_revised] at hreached
    have hpath := Rewired.reflTransGen_old hreached
    exact dependents_revised_eq_current hcell (fun hmem => hfree name hmem hpath) hpath

/-! ## Section 5: Orders once the edit is made -/

/-- In a revised graph each name has the dependents that it has once the edit is made. -/
theorem dependents_revised_eq_committed {g : Graph} (h : g.Coherent) (cell : String)
    (precedents : Std.TreeSet String) (name : String) :
    (revised g cell precedents).dependents name
      = (current (g.setPrecedents cell precedents.toList)).dependents name := by
  apply dependents_congr
  intro other
  rw [feeds_revised, feeds_current, h.feeds_setPrecedents]

theorem order_revised_eq_committed {g : Graph} (h : g.Coherent) (cell : String)
    (precedents : Std.TreeSet String) (starts : List String) :
    (revised g cell precedents).order starts
      = (current (g.setPrecedents cell precedents.toList)).order starts := by
  apply order_congr
  rw [feeds_revised, feeds_current, h.feeds_setPrecedents]

end Wiring

end Worksheet
