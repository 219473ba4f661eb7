import Mathlib.Data.List.Nodup
import Mathlib.Logic.Relation
import Worksheet.Graph.Order

/-! # What a depth-first walk lists

    The invariant of a walk: the names met are the cells of its path and those already listed,
    each once; every cell of the path is a dependent of the one below it; and a listed name stands
    before all its dependents, which are listed too.

    When the walk ends, the list holds what can be reached from the starts. When it fails, the name
    it fails with lies on a cycle.

    - `Wiring.order_ok`, `Wiring.order_error`: what the two outcomes say.
    - `Wiring.exists_order_ok_iff`: which of the two it is.
-/

namespace Worksheet.Wiring

open Relation (ReflTransGen TransGen)

/-! ## Section 1: Reachability -/

/-- There is an edge from `u` to `v`: `v` is a dependent of `u`. -/
def Feeds (dependents : String → List String) (u v : String) : Prop :=
  v ∈ dependents u

/-- The name can be reached from one of the starts, or is one. -/
def ReachedFrom (dependents : String → List String) (starts : List String) (name : String) :
    Prop :=
  ∃ start ∈ starts, ReflTransGen (Feeds dependents) start name

/-- Each name of the list stands before its dependents, and these are all in the list. -/
def Settled (dependents : String → List String) : List String → Prop
  | [] => True
  | name :: rest => (∀ other ∈ dependents name, other ∈ rest) ∧ Settled dependents rest

variable {dependents : String → List String}

theorem ReachedFrom.tail {starts : List String} {u v : String}
    (hu : ReachedFrom dependents starts u) (huv : Feeds dependents u v) :
    ReachedFrom dependents starts v := by
  obtain ⟨start, hstart, hpath⟩ := hu
  exact ⟨start, hstart, hpath.tail huv⟩

theorem Settled.mem_of_feeds {list : List String} (h : Settled dependents list) {u v : String}
    (hu : u ∈ list) (huv : Feeds dependents u v) : v ∈ list := by
  induction list with
  | nil => cases hu
  | cons name rest ih =>
    rcases List.mem_cons.mp hu with rfl | hrest
    · exact List.mem_cons_of_mem _ (h.1 v huv)
    · exact List.mem_cons_of_mem _ (ih h.2 hrest)

theorem Settled.mem_of_reflTransGen {list : List String} (h : Settled dependents list)
    {u v : String} (hu : u ∈ list) (huv : ReflTransGen (Feeds dependents) u v) : v ∈ list := by
  induction huv with
  | refl => exact hu
  | tail _ hstep ih => exact h.mem_of_feeds ih hstep

/-- No listed name lies on a cycle: all that it leads to stands behind it. -/
theorem Settled.not_transGen_self {list : List String} (h : Settled dependents list)
    (hnodup : list.Nodup) {u : String} (hu : u ∈ list) : ¬TransGen (Feeds dependents) u u := by
  induction list with
  | nil => cases hu
  | cons name rest ih =>
    obtain ⟨hname, hrest⟩ := List.nodup_cons.mp hnodup
    rcases List.mem_cons.mp hu with rfl | hmem
    · intro hcycle
      obtain ⟨v, hfirst, hback⟩ := TransGen.head'_iff.mp hcycle
      exact hname (h.2.mem_of_reflTransGen (h.1 v hfirst) hback)
    · exact ih h.2 hrest hmem

/-! ## Section 2: The invariant -/

/-- How a visit fits into a path on which `above` stands above it: each of its dependents is still
    remaining, or listed, or stands above. -/
structure Visit.Fits (dependents : String → List String) (listed : List String)
    (above : Option String) (visit : Visit) : Prop where
  remaining_mem : ∀ other ∈ visit.remaining, other ∈ dependents visit.cell
  above_mem : ∀ other, above = some other → other ∈ dependents visit.cell
  met : ∀ other ∈ dependents visit.cell,
    other ∈ visit.remaining ∨ other ∈ listed ∨ above = some other

/-- Every visit of a path fits below the one before it. -/
def Linked (dependents : String → List String) (listed : List String) :
    Option String → List Visit → Prop
  | _, [] => True
  | above, visit :: path =>
    visit.Fits dependents listed above ∧ Linked dependents listed (some visit.cell) path

/-- What every step of a walk from `starts` keeps, when the walk may meet `names`. -/
structure Walk.Invariant (dependents : String → List String) (names : Std.TreeSet String)
    (starts : List String) (w : Walk) : Prop where
  fresh_iff : ∀ name ∈ names,
    name ∈ w.fresh ↔ name ∉ w.path.map Visit.cell ∧ name ∉ w.listed
  nodup : (w.path.map Visit.cell ++ w.listed).Nodup
  linked : Linked dependents w.listed none w.path
  settled : Settled dependents w.listed
  reached : ∀ name ∈ w.path.map Visit.cell ++ w.listed, ReachedFrom dependents starts name

theorem Visit.Fits.listed_mono {listed listed' : List String} {above : Option String}
    {visit : Visit} (h : visit.Fits dependents listed above) (hsub : listed ⊆ listed') :
    visit.Fits dependents listed' above where
  remaining_mem := h.remaining_mem
  above_mem := h.above_mem
  met := by
    intro other hother
    rcases h.met other hother with hrem | hlisted | habove
    · exact Or.inl hrem
    · exact Or.inr (Or.inl (hsub hlisted))
    · exact Or.inr (Or.inr habove)

theorem Linked.listed_mono {listed listed' : List String} {above : Option String}
    {path : List Visit} (h : Linked dependents listed above path) (hsub : listed ⊆ listed') :
    Linked dependents listed' above path := by
  induction path generalizing above with
  | nil => trivial
  | cons visit path ih => exact ⟨h.1.listed_mono hsub, ih h.2⟩

/-- The path below a cell still fits once the cell is listed. -/
theorem Linked.finish {listed : List String} {cell : String} {path : List Visit}
    (h : Linked dependents listed (some cell) path) :
    Linked dependents (cell :: listed) none path := by
  cases path with
  | nil => trivial
  | cons visit path =>
    obtain ⟨hfits, hpath⟩ := h
    refine ⟨⟨hfits.remaining_mem, by simp, ?_⟩,
      hpath.listed_mono (List.subset_cons_self cell listed)⟩
    intro other hother
    rcases hfits.met other hother with hrem | hlisted | habove
    · exact Or.inl hrem
    · exact Or.inr (Or.inl (List.mem_cons_of_mem _ hlisted))
    · cases habove
      exact Or.inr (Or.inl List.mem_cons_self)

/-- Every cell of a path leads to what stands above it. -/
theorem Linked.reflTransGen {listed : List String} {top : String} {path : List Visit}
    (h : Linked dependents listed (some top) path) {visit : Visit} (hvisit : visit ∈ path) :
    ReflTransGen (Feeds dependents) visit.cell top := by
  induction path generalizing top with
  | nil => cases hvisit
  | cons upper path ih =>
    have hstep : Feeds dependents upper.cell top := h.1.above_mem top rfl
    rcases List.mem_cons.mp hvisit with rfl | hmem
    · exact ReflTransGen.single hstep
    · exact (ih h.2 hmem).tail hstep

/-! ## Section 3: Steps -/

namespace Walk.Invariant

variable {names fresh : Std.TreeSet String} {starts listed remaining : List String}
  {cell next : String} {path : List Visit}

/-- A cell without remaining dependents is listed. -/
theorem finish (h : Invariant dependents names starts ⟨fresh, ⟨cell, []⟩ :: path, listed⟩) :
    Invariant dependents names starts ⟨fresh, path, cell :: listed⟩ where
  fresh_iff := by
    intro name hname
    rw [h.fresh_iff name hname]
    simp only [List.map_cons, List.mem_cons, not_or]
    rw [and_assoc, and_left_comm]
  nodup := by
    have hnodup := h.nodup
    simp only [List.map_cons, List.cons_append] at hnodup
    exact List.nodup_middle.mpr hnodup
  linked := h.linked.2.finish
  settled := by
    refine ⟨?_, h.settled⟩
    intro other hother
    simpa using h.linked.1.met other hother
  reached := by
    intro name hname
    refine h.reached name ?_
    simpa [or_left_comm] using hname

/-- A fresh dependent is put onto the path. -/
theorem meet (hclosed : ∀ u v, Feeds dependents u v → v ∈ names)
    (h : Invariant dependents names starts ⟨fresh, ⟨cell, next :: remaining⟩ :: path, listed⟩)
    (hfresh : next ∈ fresh) :
    Invariant dependents names starts
      ⟨fresh.erase next, ⟨next, dependents next⟩ :: ⟨cell, remaining⟩ :: path, listed⟩ := by
  have hedge : Feeds dependents cell next := h.linked.1.remaining_mem next List.mem_cons_self
  have hnew := (h.fresh_iff next (hclosed cell next hedge)).mp hfresh
  -- the new visit fits on top with all its dependents remaining; the one below it loses `next`,
  -- which now stands above it
  refine ⟨?_, ?_, ⟨⟨fun _ => id, by simp, fun _ => Or.inl⟩, ⟨?_, ?_, ?_⟩, h.linked.2⟩,
    h.settled, ?_⟩
  · intro name hname
    rw [Std.TreeSet.mem_erase, h.fresh_iff name hname, ne_eq,
      Std.LawfulEqCmp.compare_eq_iff_eq]
    simp only [List.map_cons, List.mem_cons, not_or]
    rw [and_assoc (a := ¬name = next), eq_comm (a := next)]
  · show (next :: (cell :: path.map Visit.cell ++ listed)).Nodup
    rw [List.nodup_cons, List.mem_append, not_or]
    exact ⟨hnew, h.nodup⟩
  · intro other hother
    exact h.linked.1.remaining_mem other (List.mem_cons_of_mem _ hother)
  · rintro other ⟨⟩
    exact hedge
  · intro other hother
    rcases h.linked.1.met other hother with hrem | hlisted | habove
    · rcases List.mem_cons.mp hrem with rfl | hrem
      · exact Or.inr (Or.inr rfl)
      · exact Or.inl hrem
    · exact Or.inr (Or.inl hlisted)
    · cases habove
  · intro name hname
    rcases List.mem_cons.mp hname with rfl | hname
    · exact (h.reached cell (by simp)).tail hedge
    · exact h.reached name hname

/-- A dependent that is listed already is passed over. -/
theorem skip
    (h : Invariant dependents names starts ⟨fresh, ⟨cell, next :: remaining⟩ :: path, listed⟩)
    (hlisted : next ∈ listed) :
    Invariant dependents names starts ⟨fresh, ⟨cell, remaining⟩ :: path, listed⟩ := by
  refine ⟨h.fresh_iff, h.nodup, ⟨⟨?_, by simp, ?_⟩, h.linked.2⟩, h.settled, h.reached⟩
  · intro other hother
    exact h.linked.1.remaining_mem other (List.mem_cons_of_mem _ hother)
  · intro other hother
    rcases h.linked.1.met other hother with hrem | hrest
    · rcases List.mem_cons.mp hrem with rfl | hrem
      · exact Or.inr (Or.inl hlisted)
      · exact Or.inl hrem
    · exact Or.inr hrest

end Walk.Invariant

/-! ## Section 4: Runs -/

namespace Walk.Invariant

variable {names : Std.TreeSet String} {starts : List String} {w w' : Walk}

/-- A dependent that is neither fresh nor on the path is listed. -/
theorem mem_listed_of_not_open {fresh : Std.TreeSet String} {path : List Visit}
    {listed : List String} (h : Invariant dependents names starts ⟨fresh, path, listed⟩)
    {next : String} (hname : next ∈ names) (hfresh : next ∉ fresh)
    (hopen : ¬Walk.isOpen ⟨fresh, path, listed⟩ next = true) : next ∈ listed := by
  have hpath : next ∉ path.map Visit.cell := by
    intro hmem
    obtain ⟨visit, hvisit, rfl⟩ := List.mem_map.mp hmem
    exact hopen (List.any_eq_true.mpr ⟨visit, hvisit, by simp⟩)
  by_contra hlisted
  exact hfresh ((h.fresh_iff next hname).mpr ⟨hpath, hlisted⟩)

/-- A walk that ends has worked off its path, and lists all that was met. -/
theorem run_ok (hclosed : ∀ u v, Feeds dependents u v → v ∈ names)
    (h : Invariant dependents names starts w) (hrun : run dependents w = .ok w') :
    Invariant dependents names starts w' ∧ w'.path = []
      ∧ w.path.map Visit.cell ++ w.listed ⊆ w'.listed := by
  -- on the steps of the walk: finished, listed, met, met on the path, passed over
  fun_induction run dependents w with
  | case1 fresh listed =>
    cases hrun
    exact ⟨h, rfl, List.Subset.refl _⟩
  | case2 fresh cell path listed ih =>
    obtain ⟨hinv, hpath, hsub⟩ := ih h.finish hrun
    refine ⟨hinv, hpath, ?_⟩
    intro name hname
    refine hsub ?_
    simpa [or_left_comm] using hname
  | case3 fresh cell next remaining path listed hfresh ih =>
    obtain ⟨hinv, hpath, hsub⟩ := ih (h.meet hclosed hfresh) hrun
    exact ⟨hinv, hpath, fun name hname => hsub (List.mem_cons_of_mem _ hname)⟩
  | case4 fresh cell next remaining path listed hfresh hopen =>
    rw [if_pos hopen] at hrun
    cases hrun
  | case5 fresh cell next remaining path listed hfresh hopen ih =>
    rw [if_neg hopen] at hrun
    have hname : next ∈ names := hclosed cell next (h.linked.1.remaining_mem _ List.mem_cons_self)
    exact ih (h.skip (h.mem_listed_of_not_open hname hfresh hopen)) hrun

/-- A walk fails with a name that it reached and that lies on a cycle. -/
theorem run_error (hclosed : ∀ u v, Feeds dependents u v → v ∈ names)
    (h : Invariant dependents names starts w) {name : String}
    (hrun : run dependents w = .error name) :
    ReachedFrom dependents starts name ∧ TransGen (Feeds dependents) name name := by
  fun_induction run dependents w with
  | case1 fresh listed => cases hrun
  | case2 fresh cell path listed ih => exact ih h.finish hrun
  | case3 fresh cell next remaining path listed hfresh ih =>
    exact ih (h.meet hclosed hfresh) hrun
  | case4 fresh cell next remaining path listed hfresh hopen =>
    rw [if_pos hopen] at hrun
    obtain rfl := Except.error.inj hrun
    have hedge : Feeds dependents cell next := h.linked.1.remaining_mem _ List.mem_cons_self
    refine ⟨(h.reached cell (by simp)).tail hedge, ?_⟩
    -- the name is open, so it leads up the path to the cell it is a dependent of
    obtain ⟨visit, hvisit, hcell⟩ := List.any_eq_true.mp hopen
    have hup : ReflTransGen (Feeds dependents) visit.cell cell := by
      rcases List.mem_cons.mp hvisit with rfl | hmem
      · exact ReflTransGen.refl
      · exact h.linked.2.reflTransGen hmem
    rw [beq_iff_eq.mp hcell] at hup
    exact TransGen.tail' hup hedge
  | case5 fresh cell next remaining path listed hfresh hopen ih =>
    rw [if_neg hopen] at hrun
    have hname : next ∈ names := hclosed cell next (h.linked.1.remaining_mem _ List.mem_cons_self)
    exact ih (h.skip (h.mem_listed_of_not_open hname hfresh hopen)) hrun

/-- A walk may begin anew at a fresh start once its path is worked off. -/
theorem restart {fresh : Std.TreeSet String} {listed : List String} {start : String}
    (h : Invariant dependents names starts ⟨fresh, [], listed⟩) (hstart : start ∈ starts)
    (hname : start ∈ names) (hfresh : start ∈ fresh) :
    Invariant dependents names starts
      ⟨fresh.erase start, [⟨start, dependents start⟩], listed⟩ := by
  have hnew := (h.fresh_iff start hname).mp hfresh
  refine ⟨?_, ?_, ⟨⟨fun _ => id, by simp, fun _ => Or.inl⟩, trivial⟩, h.settled, ?_⟩
  · intro name hmem
    rw [Std.TreeSet.mem_erase, h.fresh_iff name hmem, ne_eq, Std.LawfulEqCmp.compare_eq_iff_eq]
    simp [eq_comm]
  · exact List.nodup_cons.mpr ⟨hnew.2, h.nodup⟩
  · intro name hmem
    rcases List.mem_cons.mp hmem with rfl | hmem
    · exact ⟨_, hstart, ReflTransGen.refl⟩
    · exact h.reached name hmem

/-- Walks from several starts, all of which are listed in the end. -/
theorem runFrom_ok (hclosed : ∀ u v, Feeds dependents u v → v ∈ names) {todo : List String}
    (htodo : ∀ start ∈ todo, start ∈ starts ∧ start ∈ names)
    (h : Invariant dependents names starts w) (hpath : w.path = [])
    (hrun : runFrom dependents w todo = .ok w') :
    Invariant dependents names starts w' ∧ w'.path = [] ∧ w.listed ++ todo ⊆ w'.listed := by
  induction todo generalizing w with
  | nil =>
    cases hrun
    exact ⟨h, hpath, by simp⟩
  | cons start todo ih =>
    obtain ⟨fresh, path, listed⟩ := w
    cases hpath
    obtain ⟨hstart, hname⟩ := htodo start List.mem_cons_self
    have htodo' : ∀ start ∈ todo, start ∈ starts ∧ start ∈ names :=
      fun other hother => htodo other (List.mem_cons_of_mem _ hother)
    rw [runFrom] at hrun
    split at hrun
    · next hfresh =>
      split at hrun
      · cases hrun
      · next middle hmiddle =>
        -- the walk from this start lists it, and later walks keep what is listed
        obtain ⟨hinv, hend, hsub⟩ := (h.restart hstart hname hfresh).run_ok hclosed hmiddle
        obtain ⟨hinv', hend', hsub'⟩ := ih htodo' hinv hend hrun
        refine ⟨hinv', hend', ?_⟩
        intro name hmem
        refine hsub' ?_
        rcases List.mem_append.mp hmem with hlisted | hmem
        · exact List.mem_append_left _ (hsub (List.mem_cons_of_mem _ hlisted))
        · rcases List.mem_cons.mp hmem with rfl | hmem
          · exact List.mem_append_left _ (hsub List.mem_cons_self)
          · exact List.mem_append_right _ hmem
    · next hfresh =>
      -- an earlier walk came across this start
      have hlisted : start ∈ listed := by
        by_contra hnot
        exact hfresh ((h.fresh_iff start hname).mpr ⟨by simp, hnot⟩)
      obtain ⟨hinv, hend, hsub⟩ := ih htodo' h rfl hrun
      refine ⟨hinv, hend, ?_⟩
      intro name hmem
      refine hsub ?_
      rcases List.mem_append.mp hmem with hmem | hmem
      · exact List.mem_append_left _ hmem
      · rcases List.mem_cons.mp hmem with rfl | hmem
        · exact List.mem_append_left _ hlisted
        · exact List.mem_append_right _ hmem

theorem runFrom_error (hclosed : ∀ u v, Feeds dependents u v → v ∈ names) {todo : List String}
    (htodo : ∀ start ∈ todo, start ∈ starts ∧ start ∈ names)
    (h : Invariant dependents names starts w) (hpath : w.path = []) {name : String}
    (hrun : runFrom dependents w todo = .error name) :
    ReachedFrom dependents starts name ∧ TransGen (Feeds dependents) name name := by
  induction todo generalizing w with
  | nil => cases hrun
  | cons start todo ih =>
    obtain ⟨fresh, path, listed⟩ := w
    cases hpath
    obtain ⟨hstart, hname⟩ := htodo start List.mem_cons_self
    have htodo' : ∀ start ∈ todo, start ∈ starts ∧ start ∈ names :=
      fun other hother => htodo other (List.mem_cons_of_mem _ hother)
    rw [runFrom] at hrun
    split at hrun
    · next hfresh =>
      have hbegin := h.restart hstart hname hfresh
      split at hrun
      · next failed hmiddle =>
        cases hrun
        exact hbegin.run_error hclosed hmiddle
      · next middle hmiddle =>
        obtain ⟨hinv, hend, -⟩ := hbegin.run_ok hclosed hmiddle
        exact ih htodo' hinv hend hrun
    · exact ih htodo' h rfl hrun

end Walk.Invariant

/-! ## Section 5: The order -/

theorem mem_foldl_insertMany_iff (sources : List String) (set : Std.TreeSet String)
    (name : String) :
    name ∈ sources.foldl (fun names source => names.insertMany (dependents source)) set ↔
      name ∈ set ∨ ∃ source ∈ sources, name ∈ dependents source := by
  induction sources generalizing set with
  | nil => simp
  | cons source sources ih =>
    rw [List.foldl_cons, ih, Std.TreeSet.mem_insertMany_list, List.contains_iff_mem, or_assoc]
    simp

/-- A name that has dependents is among the sources. -/
theorem mem_sources_of_feeds (wiring : Wiring) {u v : String}
    (h : Feeds wiring.dependents u v) : u ∈ wiring.sources := by
  have hkeys (g : Graph) (hmem : v ∈ g.dependents u) : u ∈ g.dependentsIndex.sets.keys := by
    rw [Std.TreeMap.mem_keys]
    by_contra hnot
    simp [Graph.dependents, Index.neighbours, Std.TreeMap.getD_eq_fallback hnot] at hmem
  unfold Feeds at h
  cases wiring with
  | current g => exact hkeys g (Std.TreeSet.mem_toList.mp h)
  | revised g cell precedents =>
    rw [sources, List.mem_append]
    simp only [Wiring.dependents, Std.TreeSet.mem_toList] at h
    split at h
    · next hmem => exact Or.inr (Std.TreeSet.mem_toList.mpr hmem)
    · exact Or.inl (hkeys g (Std.TreeSet.mem_of_mem_erase h))

/-- The names that a walk over a wiring may meet are closed under its edges. -/
theorem mem_names_of_feeds (wiring : Wiring) (starts : List String) (u v : String)
    (h : Feeds wiring.dependents u v) : v ∈ wiring.readers.insertMany starts := by
  rw [Std.TreeSet.mem_insertMany_list]
  left
  unfold readers
  rw [mem_foldl_insertMany_iff]
  exact Or.inr ⟨u, wiring.mem_sources_of_feeds h, h⟩

theorem mem_names_of_mem_starts (wiring : Wiring) (starts : List String) :
    ∀ start ∈ starts, start ∈ starts ∧ start ∈ wiring.readers.insertMany starts := by
  intro start hstart
  refine ⟨hstart, ?_⟩
  rw [Std.TreeSet.mem_insertMany_list, List.contains_iff_mem]
  exact Or.inr hstart

/-- At the outset all names are fresh. -/
theorem invariant_outset (names : Std.TreeSet String) (starts : List String) :
    Walk.Invariant dependents names starts ⟨names, [], []⟩ where
  fresh_iff := by simp
  nodup := List.nodup_nil
  linked := trivial
  settled := trivial
  reached := by simp

/-- An order lists what can be reached from the starts, each name once and before its
    dependents. -/
theorem order_ok {wiring : Wiring} {starts list : List String}
    (h : wiring.order starts = .ok list) :
    list.Nodup ∧ Settled wiring.dependents list
      ∧ ∀ name, name ∈ list ↔ ReachedFrom wiring.dependents starts name := by
  unfold order at h
  cases hrun : Walk.runFrom wiring.dependents ⟨wiring.readers.insertMany starts, [], []⟩ starts with
  | error name =>
    rw [hrun] at h
    cases h
  | ok w =>
    rw [hrun] at h
    cases h
    obtain ⟨hinv, hpath, hsub⟩ :=
      (invariant_outset _ starts).runFrom_ok (wiring.mem_names_of_feeds starts)
        (wiring.mem_names_of_mem_starts starts) rfl hrun
    have hnodup := hinv.nodup
    have hreached := hinv.reached
    rw [hpath] at hnodup hreached
    refine ⟨hnodup, hinv.settled, fun name => ⟨hreached name, ?_⟩⟩
    -- the starts are listed, and what is listed is closed under the edges
    intro hreach
    obtain ⟨start, hstart, hto⟩ := hreach
    exact hinv.settled.mem_of_reflTransGen (hsub hstart) hto

/-- An order fails with a name that was reached and that lies on a cycle. -/
theorem order_error {wiring : Wiring} {starts : List String} {name : String}
    (h : wiring.order starts = .error name) :
    ReachedFrom wiring.dependents starts name ∧ TransGen (Feeds wiring.dependents) name name := by
  unfold order at h
  cases hrun : Walk.runFrom wiring.dependents ⟨wiring.readers.insertMany starts, [], []⟩ starts with
  | ok w =>
    rw [hrun] at h
    cases h
  | error failed =>
    rw [hrun] at h
    cases h
    exact (invariant_outset _ starts).runFrom_error (wiring.mem_names_of_feeds starts)
      (wiring.mem_names_of_mem_starts starts) rfl hrun

/-- There is an order exactly when no cycle can be reached from the starts. -/
theorem exists_order_ok_iff (wiring : Wiring) (starts : List String) :
    (∃ list, wiring.order starts = .ok list) ↔
      ∀ name, ReachedFrom wiring.dependents starts name →
        ¬TransGen (Feeds wiring.dependents) name name := by
  constructor
  · intro hexists name hname
    obtain ⟨list, hlist⟩ := hexists
    obtain ⟨hnodup, hsettled, hmem⟩ := order_ok hlist
    exact hsettled.not_transGen_self hnodup ((hmem name).mpr hname)
  · intro hacyclic
    cases horder : wiring.order starts with
    | ok list => exact ⟨list, rfl⟩
    | error name =>
      obtain ⟨hreached, hcycle⟩ := order_error horder
      exact absurd hcycle (hacyclic name hreached)

end Worksheet.Wiring
