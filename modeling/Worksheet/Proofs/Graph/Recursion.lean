import Worksheet.Proofs.Graph.Ordering
import Worksheet.Proofs.Graph.Sameness

/-! # The walk is the recursive search

    The search visits a name by visiting its children, marks the names that it enters and leaves,
    and fails at a child that is still in progress. It is given by one rule for each case of the
    recursion, and nothing in the rules says that it ends.

    A walk keeps on its path what the search keeps in its nested calls. So the search is told as
    going on from a path, innermost visit first, and each step of a walk follows one of the rules.

    - `Search.Visits`, `Searches`: the recursive search.
    - `Search.Resumes`: what is left of the search once it is as deep as a path.
    - `Walk.Invariant.run_resumes`, `Walk.Invariant.runFrom_visits`: a walk ends as the search does.
    - `Wiring.order_eq_search`: the order is the result of the search, and a function of the edges.
-/

namespace Worksheet.Wiring

/-! ## Section 1: The recursive search -/

/-- The mark of a name that the search has entered, or has left. -/
inductive Mark where
  | inProgress
  | done

/-- What a search has marked, and the names that it has left, the first one first. -/
structure Search where
  marks : Std.TreeMap String Mark
  finished : List String

namespace Search

def start : Search := ⟨∅, []⟩

def enter (s : Search) (name : String) : Search :=
  ⟨s.marks.insert name .inProgress, s.finished⟩

def leave (s : Search) (name : String) : Search :=
  ⟨s.marks.insert name .done, s.finished ++ [name]⟩

theorem getElem?_insert (marks : Std.TreeMap String Mark) (name other : String) (mark : Mark) :
    (marks.insert name mark)[other]? = if name = other then some mark else marks[other]? := by
  rw [Std.TreeMap.getElem?_insert]
  simp only [Std.LawfulEqCmp.compare_eq_iff_eq]

theorem getElem?_enter (s : Search) (name other : String) :
    (s.enter name).marks[other]? = if name = other then some .inProgress else s.marks[other]? :=
  getElem?_insert s.marks name other .inProgress

theorem getElem?_leave (s : Search) (name other : String) :
    (s.leave name).marks[other]? = if name = other then some .done else s.marks[other]? :=
  getElem?_insert s.marks name other .done

/-- Visiting the names of a list in turn ends with the given result: the search afterwards, or the
    name with which it fails. -/
inductive Visits (children : String → List String) :
    Search → List String → Except String Search → Prop where
  | nil (s : Search) : Visits children s [] (.ok s)
  /-- A name that is still in progress closes a cycle. -/
  | inProgress {s : Search} {name : String} {rest : List String}
      (mark : s.marks[name]? = some .inProgress) : Visits children s (name :: rest) (.error name)
  /-- A name that is done is passed over. -/
  | done {s : Search} {name : String} {rest : List String} {result : Except String Search}
      (mark : s.marks[name]? = some .done) (visits : Visits children s rest result) :
      Visits children s (name :: rest) result
  /-- A name without a mark is entered, its children are visited, and it is left. -/
  | visit {s s' : Search} {name : String} {rest : List String} {result : Except String Search}
      (mark : s.marks[name]? = none)
      (inner : Visits children (s.enter name) (children name) (.ok s'))
      (visits : Visits children (s'.leave name) rest result) :
      Visits children s (name :: rest) result
  /-- A failure among the children ends the search. -/
  | fail {s : Search} {name failed : String} {rest : List String} (mark : s.marks[name]? = none)
      (inner : Visits children (s.enter name) (children name) (.error failed)) :
      Visits children s (name :: rest) (.error failed)

variable {children : String → List String} {s : Search} {name : String} {names rest : List String}
  {result result' : Except String Search}

/-- The mark of the first name decides which rule applies. -/
theorem Visits.cons_cases (h : Visits children s (name :: rest) result) :
    match s.marks[name]? with
    | some .inProgress => result = .error name
    | some .done => Visits children s rest result
    | none =>
      (∃ s', Visits children (s.enter name) (children name) (.ok s')
        ∧ Visits children (s'.leave name) rest result)
      ∨ ∃ failed, Visits children (s.enter name) (children name) (.error failed)
        ∧ result = .error failed := by
  cases h with
  | inProgress mark => rw [mark]
  | done mark visits =>
    rw [mark]
    exact visits
  | @visit s s' name rest result mark inner visits =>
    rw [mark]
    exact Or.inl ⟨s', inner, visits⟩
  | @fail s name failed rest mark inner =>
    rw [mark]
    exact Or.inr ⟨failed, inner, rfl⟩

/-- The rules leave no choice. -/
theorem Visits.result_eq (h : Visits children s names result)
    (h' : Visits children s names result') : result = result' := by
  -- on the first derivation: the mark tells which rule the second one ends with
  induction h generalizing result' with
  | nil s =>
    cases h'
    rfl
  | inProgress mark =>
    have hcases := h'.cons_cases
    rw [mark] at hcases
    exact hcases.symm
  | done mark visits ih =>
    have hcases := h'.cons_cases
    rw [mark] at hcases
    exact ih hcases
  | visit mark inner visits ihInner ih =>
    have hcases := h'.cons_cases
    rw [mark] at hcases
    rcases hcases with ⟨s', hinner, hvisits⟩ | ⟨failed, hinner, -⟩
    · cases ihInner hinner
      exact ih hvisits
    · cases ihInner hinner
  | fail mark inner ih =>
    have hcases := h'.cons_cases
    rw [mark] at hcases
    rcases hcases with ⟨s', hinner, -⟩ | ⟨failed, hinner, rfl⟩
    · cases ih hinner
    · cases ih hinner
      rfl

end Search

/-- The search from the starts ends with the given result: the names reached, the last one finished
    first, or the name that was found in progress. Nothing is in progress between two starts, so
    that each of them is passed over or visited. -/
inductive Searches (children : String → List String) (starts : List String) :
    Except String (List String) → Prop where
  | ok {s : Search} (visits : Search.Visits children .start starts (.ok s)) :
      Searches children starts (.ok s.finished.reverse)
  | error {name : String} (visits : Search.Visits children .start starts (.error name)) :
      Searches children starts (.error name)

theorem Searches.result_eq {children : String → List String} {starts : List String}
    {result result' : Except String (List String)} (h : Searches children starts result)
    (h' : Searches children starts result') : result = result' := by
  cases h with
  | ok visits =>
    cases h' with
    | ok visits' =>
      cases visits.result_eq visits'
      rfl
    | error visits' => cases visits.result_eq visits'
  | error visits =>
    cases h' with
    | ok visits' => cases visits.result_eq visits'
    | error visits' =>
      cases visits.result_eq visits'
      rfl

/-! ## Section 2: The search inside its nested calls -/

namespace Search

/-- Going on with a search that is inside the visits of a path ends with the given result: what
    remains of the innermost visit is visited, its cell is left, and so on with the visit around
    it. -/
inductive Resumes (children : String → List String) :
    Search → List Visit → Except String Search → Prop where
  | finish (s : Search) : Resumes children s [] (.ok s)
  | leave {s s' : Search} {cell : String} {remaining : List String} {path : List Visit}
      {result : Except String Search} (visits : Visits children s remaining (.ok s'))
      (resumes : Resumes children (s'.leave cell) path result) :
      Resumes children s (⟨cell, remaining⟩ :: path) result
  | fail {s : Search} {cell failed : String} {remaining : List String} {path : List Visit}
      (visits : Visits children s remaining (.error failed)) :
      Resumes children s (⟨cell, remaining⟩ :: path) (.error failed)

variable {children : String → List String} {s : Search} {cell next : String}
  {remaining : List String} {path : List Visit} {result : Except String Search}

theorem Resumes.done (mark : s.marks[next]? = some .done)
    (h : Resumes children s (⟨cell, remaining⟩ :: path) result) :
    Resumes children s (⟨cell, next :: remaining⟩ :: path) result := by
  cases h with
  | leave visits resumes => exact .leave (.done mark visits) resumes
  | fail visits => exact .fail (.done mark visits)

/-- A name is visited by going on inside its visit. -/
theorem Resumes.visit (mark : s.marks[next]? = none)
    (h : Resumes children (s.enter next) (⟨next, children next⟩ :: ⟨cell, remaining⟩ :: path)
      result) :
    Resumes children s (⟨cell, next :: remaining⟩ :: path) result := by
  cases h with
  | fail inner => exact .fail (.fail mark inner)
  | leave inner resumes =>
    cases resumes with
    | leave visits resumes => exact .leave (.visit mark inner visits) resumes
    | fail visits => exact .fail (.visit mark inner visits)

end Search

/-! ## Section 3: Steps of the walk -/

namespace Walk

variable {dependents : String → List String} {names fresh : Std.TreeSet String}
  {starts listed : List String} {path : List Visit} {s : Search} {name next : String}

/-- The marks of a search are those that the walk has made: in progress are the cells of the path,
    and done are the listed names, which the walk keeps the last one first. -/
structure Mirrors (w : Walk) (s : Search) : Prop where
  inProgress_iff : ∀ name, s.marks[name]? = some .inProgress ↔ name ∈ w.path.map Visit.cell
  done_iff : ∀ name, s.marks[name]? = some .done ↔ name ∈ w.listed
  listed_eq : w.listed = s.finished.reverse

/-- A cell that is listed stood on the path but once, and was not listed before. -/
theorem Mirrors.finish {cell : String} {remaining : List String}
    (h : Mirrors ⟨fresh, ⟨cell, remaining⟩ :: path, listed⟩ s)
    (hpath : cell ∉ path.map Visit.cell) :
    Mirrors ⟨fresh, path, cell :: listed⟩ (s.leave cell) where
  inProgress_iff := by
    intro name
    have hname := h.inProgress_iff name
    rw [List.map_cons, List.mem_cons] at hname
    rw [Search.getElem?_leave]
    by_cases heq : cell = name
    · subst heq
      simp [hpath]
    · rw [if_neg heq, hname]
      simp [Ne.symm heq]
  done_iff := by
    intro name
    rw [Search.getElem?_leave, List.mem_cons]
    by_cases heq : cell = name
    · simp [heq]
    · rw [if_neg heq, h.done_iff]
      simp [Ne.symm heq]
  listed_eq := by
    show cell :: listed = (s.finished ++ [cell]).reverse
    rw [List.reverse_append, ← h.listed_eq]
    rfl

/-- A name that is met is in progress from then on. -/
theorem Mirrors.meet (h : Mirrors ⟨fresh, path, listed⟩ s) (fresh' : Std.TreeSet String)
    (remaining : List String) (hlisted : next ∉ listed) :
    Mirrors ⟨fresh', ⟨next, remaining⟩ :: path, listed⟩ (s.enter next) where
  inProgress_iff := by
    intro name
    rw [Search.getElem?_enter, List.map_cons, List.mem_cons]
    by_cases heq : next = name
    · simp [heq]
    · rw [if_neg heq, h.inProgress_iff]
      simp [Ne.symm heq]
  done_iff := by
    intro name
    rw [Search.getElem?_enter]
    by_cases heq : next = name
    · subst heq
      simp [hlisted]
    · rw [if_neg heq, h.done_iff]
  listed_eq := h.listed_eq

/-- What remains to be visited has left no mark. -/
theorem Mirrors.drop {cell : String} {remaining : List String}
    (h : Mirrors ⟨fresh, ⟨cell, next :: remaining⟩ :: path, listed⟩ s) :
    Mirrors ⟨fresh, ⟨cell, remaining⟩ :: path, listed⟩ s :=
  ⟨h.inProgress_iff, h.done_iff, h.listed_eq⟩

/-- A name without a mark is neither on the path nor listed. -/
theorem Mirrors.getElem?_eq_none_iff (h : Mirrors ⟨fresh, path, listed⟩ s) :
    s.marks[name]? = none ↔ name ∉ path.map Visit.cell ∧ name ∉ listed := by
  have hopen := h.inProgress_iff name
  have hdone := h.done_iff name
  simp only at hopen hdone
  rw [← hopen, ← hdone]
  cases s.marks[name]? with
  | none => simp
  | some mark => cases mark <;> simp

/-- The fresh names are those without a mark. -/
theorem Mirrors.fresh_iff (h : Mirrors ⟨fresh, path, listed⟩ s)
    (hinv : Invariant dependents names starts ⟨fresh, path, listed⟩) (hname : name ∈ names) :
    name ∈ fresh ↔ s.marks[name]? = none := by
  rw [h.getElem?_eq_none_iff]
  exact hinv.fresh_iff name hname

/-- A walk ends as a search does: with the same marks, or with the same name. -/
inductive EndsAs : Except String Walk → Except String Search → Prop where
  | ok {w : Walk} {s : Search} (mirrors : w.Mirrors s) : EndsAs (.ok w) (.ok s)
  | error (name : String) : EndsAs (.error name) (.error name)

/-! ## Section 4: Runs -/

/-- A walk goes on as the search that is inside the visits of its path. -/
theorem Invariant.run_resumes (hclosed : ∀ u v, Feeds dependents u v → v ∈ names) {w : Walk}
    (hinv : w.Invariant dependents names starts) (h : w.Mirrors s) :
    ∃ result, Search.Resumes dependents s w.path result ∧ EndsAs (run dependents w) result := by
  -- on the steps of the walk, each of which follows one rule of the search
  fun_induction Walk.run dependents w generalizing s with
  | case1 fresh listed => exact ⟨_, .finish s, .ok h⟩
  | case2 fresh cell path listed ih =>
    have hnodup := hinv.nodup
    rw [List.map_cons, List.cons_append, List.nodup_cons, List.mem_append, not_or] at hnodup
    obtain ⟨result, hresumes, hend⟩ := ih hinv.finish (h.finish hnodup.1.1)
    exact ⟨result, .leave (.nil s) hresumes, hend⟩
  | case3 fresh cell next remaining path listed hfresh ih =>
    have hname : next ∈ names :=
      hclosed cell next (hinv.linked.1.remaining_mem _ List.mem_cons_self)
    have hnone := (h.fresh_iff hinv hname).mp hfresh
    have hmet := h.drop.meet (fresh.erase next) (dependents next)
      (h.getElem?_eq_none_iff.mp hnone).2
    obtain ⟨result, hresumes, hend⟩ := ih (hinv.meet hclosed hfresh) hmet
    exact ⟨result, .visit hnone hresumes, hend⟩
  | case4 fresh cell next remaining path listed hfresh hopen =>
    have hmark : s.marks[next]? = some .inProgress := by
      obtain ⟨visit, hvisit, hcell⟩ := List.any_eq_true.mp hopen
      refine (h.inProgress_iff next).mpr (List.mem_map.mpr ⟨visit, hvisit, ?_⟩)
      exact beq_iff_eq.mp hcell
    rw [if_pos hopen]
    exact ⟨_, .fail (.inProgress hmark), .error next⟩
  | case5 fresh cell next remaining path listed hfresh hopen ih =>
    have hname : next ∈ names :=
      hclosed cell next (hinv.linked.1.remaining_mem _ List.mem_cons_self)
    have hlisted : next ∈ listed := hinv.mem_listed_of_not_open hname hfresh hopen
    obtain ⟨result, hresumes, hend⟩ := ih (hinv.skip hlisted) h.drop
    rw [if_neg hopen]
    exact ⟨result, .done ((h.done_iff next).mpr hlisted) hresumes, hend⟩

/-- Walks from several starts end as the search that visits these does. -/
theorem Invariant.runFrom_visits (hclosed : ∀ u v, Feeds dependents u v → v ∈ names) {w : Walk}
    {todo : List String} (htodo : ∀ start ∈ todo, start ∈ starts ∧ start ∈ names)
    (hinv : w.Invariant dependents names starts) (hpath : w.path = []) (h : w.Mirrors s) :
    ∃ result, Search.Visits dependents s todo result ∧ EndsAs (runFrom dependents w todo) result
    := by
  induction todo generalizing w s with
  | nil => exact ⟨_, .nil s, .ok h⟩
  | cons start todo ih =>
    obtain ⟨fresh, path, listed⟩ := w
    cases hpath
    obtain ⟨hstart, hname⟩ := htodo start List.mem_cons_self
    have htodo' : ∀ start ∈ todo, start ∈ starts ∧ start ∈ names :=
      fun other hother => htodo other (List.mem_cons_of_mem _ hother)
    rw [runFrom]
    by_cases hfresh : start ∈ fresh
    · have hnone := (h.fresh_iff hinv hname).mp hfresh
      have hbegin := hinv.restart hstart hname hfresh
      have hmet := h.meet (fresh.erase start) (dependents start)
        (h.getElem?_eq_none_iff.mp hnone).2
      obtain ⟨result, hresumes, hend⟩ := hbegin.run_resumes hclosed hmet
      rw [if_pos hfresh]
      dsimp only
      generalize hmiddle : Walk.run dependents _ = middle at hend ⊢
      cases hend with
      | ok mirrors =>
        obtain ⟨hinv', hend', -⟩ := hbegin.run_ok hclosed hmiddle
        obtain ⟨result, hvisits, hend⟩ := ih htodo' hinv' hend' mirrors
        refine ⟨result, ?_, hend⟩
        cases hresumes with
        | leave inner resumes =>
          cases resumes
          exact .visit hnone inner hvisits
      | error name =>
        refine ⟨_, ?_, .error name⟩
        cases hresumes with
        | leave inner resumes => cases resumes
        | fail inner => exact .fail hnone inner
    · -- an earlier walk came across this start, so that it is done
      have hlisted : start ∈ listed := by
        by_contra hnot
        exact hfresh ((hinv.fresh_iff start hname).mpr ⟨by simp, hnot⟩)
      obtain ⟨result, hvisits, hend⟩ := ih htodo' hinv rfl h
      rw [if_neg hfresh]
      exact ⟨result, .done ((h.done_iff start).mpr hlisted) hvisits, hend⟩

end Walk

/-! ## Section 5: The order -/

/-- The search ends, and with the order. -/
theorem searches_order (wiring : Wiring) (starts : List String) :
    Searches wiring.dependents starts (wiring.order starts) := by
  have hstart : Walk.Mirrors ⟨wiring.readers.insertMany starts, [], []⟩ Search.start := by
    refine ⟨?_, ?_, rfl⟩ <;> simp [Search.start]
  obtain ⟨result, hvisits, hend⟩ :=
    (invariant_outset _ starts).runFrom_visits (wiring.mem_names_of_feeds starts)
      (wiring.mem_names_of_mem_starts starts) rfl hstart
  unfold order
  generalize Walk.runFrom wiring.dependents _ starts = ended at hend ⊢
  cases hend with
  | ok mirrors =>
    show Searches wiring.dependents starts (.ok _)
    rw [mirrors.listed_eq]
    exact .ok hvisits
  | error name => exact .error hvisits

/-- The dependents of a name are listed in ascending order. -/
theorem pairwise_dependents (wiring : Wiring) (name : String) :
    (wiring.dependents name).Pairwise (· < ·) := by
  obtain ⟨set, hset⟩ := wiring.exists_dependents_eq_toList name
  rw [hset]
  refine set.ordered_toList.imp ?_
  intro u v huv
  exact compareOfLessAndEq_eq_lt.mp huv

/-- The order is what the recursive search ends with when it visits the edges from each name in
    ascending order: the same list, or the same name on a cycle. So it is the same over all wirings
    with the same edges. -/
theorem order_eq_search (wiring : Wiring) (starts : List String) :
    (∀ name, (wiring.dependents name).Pairwise (· < ·)
        ∧ ∀ other, other ∈ wiring.dependents name ↔ wiring.Edge name other)
    ∧ (∀ result, Searches wiring.dependents starts result ↔ result = wiring.order starts)
    ∧ ∀ wiring' : Wiring, wiring'.Edge = wiring.Edge →
        wiring'.order starts = wiring.order starts := by
  refine ⟨?_, ?_, ?_⟩
  · intro name
    refine ⟨wiring.pairwise_dependents name, ?_⟩
    intro other
    rw [← feeds_eq_edge]
    rfl
  · intro result
    constructor
    · exact fun h => h.result_eq (wiring.searches_order starts)
    · rintro rfl
      exact wiring.searches_order starts
  · intro wiring' hedges
    apply order_congr
    rw [feeds_eq_edge, feeds_eq_edge, hedges]

end Worksheet.Wiring
