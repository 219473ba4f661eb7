import Worksheet.Proofs.Graph.Sameness
import Worksheet.Proofs.Sheet.Soundness

/-! # The cells that an edit affects

    An accepted edit answers with the cells that it computed again. The list was found before the
    sheet was changed, over the graph as it would be; here it is told by the formulas that are
    stored afterwards. The new entry does not matter for it: the same list is the answer to the
    question which cells the edited one affects, before the edit and after it.

    - `Sheet.Sound.feeds_commit`: both have the same edges.
    - `Sheet.Reachable.order_affected`: what is listed, and in which order.
    - `Sheet.Reachable.order_foretold`: the same is listed on the question.
-/

namespace Worksheet

open Relation (ReflTransGen TransGen)

namespace Sheet

variable {s s' : Sheet} {typed raw key : String} {entry : Option Entry} {order : List String}

/-! ## Section 1: What is listed -/

/-- An edit was tried over the edges of the formulas that are stored once it is made. -/
theorem Sound.feeds_commit (h : s.Sound) :
    (s.commit key entry (precedentsOf entry) order).cells.Feeds
      = Wiring.Feeds (s.revision key entry).dependents := by
  show ((s.cells.setEntry key entry).recalculate order).Feeds = _
  rw [Ledger.feeds_recalculate, h.feeds_revision]

/-- An order lists what depends on the edited cell once the edit is made. -/
theorem Sound.mem_order_iff (h : s.Sound)
    (horder : (s.revision key entry).order [key] = .ok order) (name : String) :
    name ∈ order ↔
      ReflTransGen (s.commit key entry (precedentsOf entry) order).cells.Feeds key name := by
  obtain ⟨-, -, hmem⟩ := Wiring.order_ok horder
  rw [hmem, Wiring.reachedFrom_singleton_iff, h.feeds_commit]

/-- The order of an accepted edit is settled in the sheet that the edit leaves, and lists what
    depends there on the edited cell. -/
theorem Sound.settled_enter (h : s.Sound) (henter : s.enter typed raw = .ok (s', order)) :
    order.Nodup
    ∧ (∃ dependents, Wiring.Feeds dependents = s'.cells.Feeds ∧ Wiring.Settled dependents order)
    ∧ ∀ name, name ∈ order ↔
        ReflTransGen s'.cells.Feeds (s.settings.naming.key typed) name := by
  obtain ⟨key, entry, hkey, -, horder, rfl⟩ := enter_eq_ok_iff.mp henter
  obtain ⟨-, rfl, -⟩ := (Naming.cell?_eq_some_iff _ _ _).mp hkey
  obtain ⟨hnodup, hsettled, -⟩ := Wiring.order_ok horder
  exact ⟨hnodup, ⟨_, h.feeds_commit.symm, hsettled⟩, h.mem_order_iff horder⟩

/-- An accepted edit of a reachable sheet answers with the edited cell, followed by the formulas of
    the new sheet that depend on it, directly or through other formulas. None is listed twice, and
    each stands behind the listed cells that its formula mentions. -/
theorem Reachable.order_affected (h : s.Reachable)
    (hsend : (Request.enter typed raw).send s = (.ok order, s')) :
    order.head? = some (s.settings.naming.key typed)
    ∧ order.Nodup
    ∧ (∀ name, name ≠ s.settings.naming.key typed →
        (name ∈ order ↔ (∃ f value, s'.cells.get? name = some ⟨.formula f, value⟩)
          ∧ TransGen s'.cells.Feeds (s.settings.naming.key typed) name))
    ∧ ∀ source reader, source ∈ order → reader ∈ order → s'.cells.Feeds source reader →
        order.idxOf source < order.idxOf reader := by
  have henter := Request.send_enter_ok_iff.mp hsend
  obtain ⟨hnodup, ⟨dependents, hfeeds, hsettled⟩, hmem⟩ := h.sound.settled_enter henter
  refine ⟨?_, hnodup, ?_, ?_⟩
  · have hkey : s.settings.naming.key typed ∈ order := (hmem _).mpr ReflTransGen.refl
    refine hsettled.head?_eq hnodup hkey ?_
    intro name hname
    rw [hfeeds]
    exact (hmem name).mp hname
  · intro name hne
    rw [hmem, Relation.reflTransGen_iff_eq_or_transGen]
    constructor
    · intro hreached
      have hpath := hreached.resolve_left hne
      exact ⟨Ledger.exists_formula_of_transGen hpath, hpath⟩
    · intro hdepends
      exact Or.inr hdepends.2
  · intro source reader hsource _ hreads
    rw [← hfeeds] at hreads
    exact hsettled.idxOf_lt hnodup hsource hreads

/-- The end of a chain is computed again when its beginning is set, since it depends on it. -/
theorem chain_order_affected :
    ∃ s', (Request.enter "A1" "3").send chain = (.ok ["A1", "B1", "C1"], s')
      ∧ TransGen s'.cells.Feeds "A1" "C1" := by
  have hanswer : ((Request.enter "A1" "3").send chain).1 = .ok ["A1", "B1", "C1"] := by
    decide +kernel
  generalize hresult : (Request.enter "A1" "3").send chain = result at hanswer ⊢
  obtain ⟨answer, s'⟩ := result
  subst hanswer
  refine ⟨s', rfl, ?_⟩
  have hkey : chain.settings.naming.key "A1" = "A1" := by decide +kernel
  obtain ⟨-, -, hlisted, -⟩ := reachable_chain.order_affected hresult
  rw [hkey] at hlisted
  exact ((hlisted "C1" (by decide)).mp (by simp)).2

/-! ## Section 2: The same list on the question -/

/-- The cells affected by one cell are found by a walk over the graph as it is. -/
theorem affectedBy_singleton (h : s.settings.naming.cell? typed = some key) :
    s.affectedBy [typed] = ((Wiring.current s.graph).order [key]).mapError .cycle := by
  unfold affectedBy
  rw [List.mapM_cons, List.mapM_nil, cellKey_eq_ok_iff.mpr h]
  rfl

/-- An accepted edit lists what the edited cell affects in the graph before it. -/
theorem Sound.order_current (h : s.Sound)
    (horder : (s.revision key entry).order [key] = .ok order) :
    (Wiring.current s.graph).order [key] = .ok order := by
  have hcell := h.graph_acyclic key
  have hfree := (Wiring.order_revised_ok_iff h.graph_acyclic key (precedentsOf entry)).mp
    ⟨order, horder⟩
  rw [← Wiring.order_revised_eq_current hcell hfree]
  exact horder

/-- It lists what the edited cell affects in the graph after it. -/
theorem Sound.order_committed (h : s.Sound)
    (horder : (s.revision key entry).order [key] = .ok order) :
    (Wiring.current (s.commit key entry (precedentsOf entry) order).graph).order [key]
      = .ok order := by
  rw [← horder]
  exact (Wiring.order_revised_eq_committed h.coherent key (precedentsOf entry) [key]).symm

/-- An accepted edit of a reachable sheet answers with the cells that the edited one affects, as
    the sheet tells them before the edit, and as it tells them after it. -/
theorem Reachable.order_foretold (h : s.Reachable)
    (hsend : (Request.enter typed raw).send s = (.ok order, s')) :
    s.affectedBy [typed] = .ok order ∧ s'.affectedBy [typed] = .ok order := by
  obtain ⟨key, entry, hkey, -, horder, rfl⟩ :=
    enter_eq_ok_iff.mp (Request.send_enter_ok_iff.mp hsend)
  constructor
  · rw [affectedBy_singleton hkey, h.sound.order_current horder]
    rfl
  · -- the naming rules are those of the sheet before
    have hkey' : (s.commit key entry (precedentsOf entry) order).settings.naming.cell? typed
        = some key := hkey
    rw [affectedBy_singleton hkey', h.sound.order_committed horder]
    rfl

/-- The middle of a chain affects its end, also while it is made the beginning of another chain. -/
theorem chain_order_foretold :
    chain.affectedBy ["B1"] = .ok ["B1", "C1"]
      ∧ ((Request.enter "B1" "=Z1*Z1").send chain).2.affectedBy ["B1"] = .ok ["B1", "C1"] := by
  have hanswer : ((Request.enter "B1" "=Z1*Z1").send chain).1 = .ok ["B1", "C1"] := by
    decide +kernel
  apply reachable_chain.order_foretold
  rw [← hanswer]

end Sheet

end Worksheet
