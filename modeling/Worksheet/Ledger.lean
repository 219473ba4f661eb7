import Std.Data.TreeMap

/-! # A table in order of first entry

    A ledger assigns values to names, and numbers the names as they are entered. A name that is
    entered again keeps its number; one that was removed gets a new number when it comes back.

    The order of first entry is that of the numbers. The table itself has no such order: its items
    are sorted when they are listed.
-/

namespace Worksheet

/-- A value with the number of its name. -/
structure Numbered (α : Type) where
  value : α
  number : Nat

structure Ledger (α : Type) where
  table : Std.TreeMap String (Numbered α)
  /-- The number for the next new name. -/
  next : Nat
  number_lt_next : ∀ {name : String} {item : Numbered α},
    table[name]? = some item → item.number < next
  /-- No two names have the same number. -/
  number_injective : ∀ {name other : String} {item item' : Numbered α},
    table[name]? = some item → table[other]? = some item' → item.number = item'.number →
      name = other

namespace Ledger

variable {α : Type}

def empty : Ledger α where
  table := ∅
  next := 0
  number_lt_next := by simp
  number_injective := by simp

def get? (l : Ledger α) (name : String) : Option α := l.table[name]?.map Numbered.value

def size (l : Ledger α) : Nat := l.table.size

def isEmpty (l : Ledger α) : Bool := l.table.isEmpty

/-! ## Section 1: Updates -/

/-- Enters a value under a number that no other name has. -/
def insert (l : Ledger α) (name : String) (item : Numbered α) (next : Nat)
    (lt_next : item.number < next) (next_le : l.next ≤ next)
    (free : ∀ {other : String} {found : Numbered α},
      l.table[other]? = some found → found.number = item.number → other = name) : Ledger α where
  table := l.table.insert name item
  next := next
  number_lt_next := by
    intro other found hfound
    rw [Std.TreeMap.getElem?_insert] at hfound
    split at hfound
    · cases hfound
      exact lt_next
    · exact Nat.lt_of_lt_of_le (l.number_lt_next hfound) next_le
  number_injective := by
    intro first second item₁ item₂ hfirst hsecond hnumber
    rw [Std.TreeMap.getElem?_insert] at hfirst hsecond
    simp only [Std.LawfulEqCmp.compare_eq_iff_eq] at hfirst hsecond
    split at hfirst <;> split at hsecond
    · next heq heq' => exact heq.symm.trans heq'
    · next heq _ =>
      cases hfirst
      exact heq.symm.trans (free hsecond hnumber.symm).symm
    · next heq =>
      cases hsecond
      exact (free hfirst hnumber).trans heq
    · exact l.number_injective hfirst hsecond hnumber

/-- Enters a value, under the next number if the name is new. -/
def put (l : Ledger α) (name : String) (value : α) : Ledger α :=
  match h : l.table[name]? with
  | some found =>
    l.insert name ⟨value, found.number⟩ l.next
      (show found.number < l.next from l.number_lt_next h) (Nat.le_refl _)
      fun hother hnumber => l.number_injective hother h hnumber
  | none =>
    l.insert name ⟨value, l.next⟩ (l.next + 1) (Nat.lt_succ_self _) (Nat.le_succ _)
      fun hother hnumber => absurd hnumber (Nat.ne_of_lt (l.number_lt_next hother))

/-- Removes a name. -/
def erase (l : Ledger α) (name : String) : Ledger α where
  table := l.table.erase name
  next := l.next
  number_lt_next := by
    intro other item hitem
    rw [Std.TreeMap.getElem?_erase] at hitem
    split at hitem
    · cases hitem
    · exact l.number_lt_next hitem
  number_injective := by
    intro first second item item' hfirst hsecond
    rw [Std.TreeMap.getElem?_erase] at hfirst hsecond
    split at hfirst
    · cases hfirst
    · split at hsecond
      · cases hsecond
      · exact l.number_injective hfirst hsecond

theorem put_of_some (l : Ledger α) {name : String} {found : Numbered α}
    (h : l.table[name]? = some found) (value : α) :
    (l.put name value).table = l.table.insert name ⟨value, found.number⟩
      ∧ (l.put name value).next = l.next := by
  unfold put
  split
  · next other hother =>
    rw [h] at hother
    cases hother
    exact ⟨rfl, rfl⟩
  · next hnone =>
    rw [h] at hnone
    cases hnone

theorem put_of_none (l : Ledger α) {name : String} (h : l.table[name]? = none) (value : α) :
    (l.put name value).table = l.table.insert name ⟨value, l.next⟩
      ∧ (l.put name value).next = l.next + 1 := by
  unfold put
  split
  · next found hfound =>
    rw [h] at hfound
    cases hfound
  · exact ⟨rfl, rfl⟩

/-! ## Section 2: What is found after an update -/

theorem get?_empty (name : String) : (empty : Ledger α).get? name = none := by
  simp [get?, empty]

theorem get?_put_self (l : Ledger α) (name : String) (value : α) :
    (l.put name value).get? name = some value := by
  unfold get?
  cases h : l.table[name]? with
  | some found => simp [(l.put_of_some h value).1]
  | none => simp [(l.put_of_none h value).1]

theorem get?_put_ne (l : Ledger α) {name other : String} (value : α) (h : other ≠ name) :
    (l.put name value).get? other = l.get? other := by
  unfold get?
  cases hname : l.table[name]? with
  | some found =>
    simp [(l.put_of_some hname value).1, Std.TreeMap.getElem?_insert, Ne.symm h]
  | none => simp [(l.put_of_none hname value).1, Std.TreeMap.getElem?_insert, Ne.symm h]

theorem get?_erase_self (l : Ledger α) (name : String) : (l.erase name).get? name = none := by
  simp [erase, get?]

theorem get?_erase_ne (l : Ledger α) {name other : String} (h : other ≠ name) :
    (l.erase name).get? other = l.get? other := by
  simp [erase, get?, Std.TreeMap.getElem?_erase, Ne.symm h]

/-! ## Section 3: The order of first entry -/

/-- Puts an item before the first one that has no smaller number. -/
def place (item : String × Numbered α) : List (String × Numbered α) → List (String × Numbered α)
  | [] => [item]
  | first :: rest =>
    if item.2.number ≤ first.2.number then item :: first :: rest else first :: place item rest

/-- The names with their items, sorted by number. -/
def items (l : Ledger α) : List (String × Numbered α) := l.table.toList.foldr place []

/-- The names, in the order of entry. -/
def names (l : Ledger α) : List String := l.items.map Prod.fst

/-- The names with their values, in the order of entry. -/
def toList (l : Ledger α) : List (String × α) :=
  l.items.map fun (name, item) => (name, item.value)

theorem perm_place (item : String × Numbered α) (items : List (String × Numbered α)) :
    (place item items).Perm (item :: items) := by
  induction items with
  | nil => exact .refl _
  | cons first rest ih =>
    rw [place]
    split
    · exact .refl _
    · exact (ih.cons first).trans (.swap item first rest)

theorem pairwise_place {item : String × Numbered α} {items : List (String × Numbered α)}
    (h : items.Pairwise fun a b => a.2.number ≤ b.2.number) :
    (place item items).Pairwise fun a b => a.2.number ≤ b.2.number := by
  induction items with
  | nil => exact List.pairwise_singleton _ _
  | cons first rest ih =>
    obtain ⟨hfirst, hrest⟩ := List.pairwise_cons.mp h
    rw [place]
    split
    · next hle =>
      refine List.pairwise_cons.mpr ⟨?_, h⟩
      intro other hother
      rcases List.mem_cons.mp hother with rfl | hother
      · exact hle
      · exact Nat.le_trans hle (hfirst other hother)
    · next hgt =>
      refine List.pairwise_cons.mpr ⟨?_, ih hrest⟩
      intro other hother
      rcases List.mem_cons.mp ((perm_place item rest).mem_iff.mp hother) with rfl | hother
      · exact Nat.le_of_lt (Nat.lt_of_not_le hgt)
      · exact hfirst other hother

theorem items_perm (l : Ledger α) : l.items.Perm l.table.toList := by
  unfold items
  induction l.table.toList with
  | nil => exact .refl _
  | cons item rest ih => exact (perm_place item _).trans (ih.cons item)

theorem pairwise_items (l : Ledger α) :
    l.items.Pairwise fun a b => a.2.number ≤ b.2.number := by
  unfold items
  induction l.table.toList with
  | nil => exact .nil
  | cons item rest ih => exact pairwise_place ih

theorem mem_items_iff (l : Ledger α) (name : String) (item : Numbered α) :
    (name, item) ∈ l.items ↔ l.table[name]? = some item := by
  rw [l.items_perm.mem_iff, Std.TreeMap.mem_toList_iff_getElem?_eq_some]

/-- Sorted by number, the items of the table come in one order only, however they were arranged
    before and whatever sorts them. -/
theorem eq_items_of_perm (l : Ledger α) {sorted : List (String × Numbered α)}
    (hperm : sorted.Perm l.table.toList)
    (hsorted : sorted.Pairwise fun a b => a.2.number ≤ b.2.number) : sorted = l.items := by
  refine List.Perm.eq_of_pairwise ?_ hsorted l.pairwise_items (hperm.trans l.items_perm.symm)
  intro a b ha hb hle hge
  have hfirst : l.table[a.1]? = some a.2 :=
    Std.TreeMap.mem_toList_iff_getElem?_eq_some.mp (hperm.mem_iff.mp ha)
  have hsecond : l.table[b.1]? = some b.2 := (l.mem_items_iff b.1 b.2).mp hb
  have hname : a.1 = b.1 := l.number_injective hfirst hsecond (Nat.le_antisymm hle hge)
  rw [hname, hsecond] at hfirst
  exact Prod.ext hname (Option.some.inj hfirst).symm

theorem mem_names_iff (l : Ledger α) (name : String) : name ∈ l.names ↔ name ∈ l.table := by
  unfold names
  rw [(l.items_perm.map Prod.fst).mem_iff, Std.TreeMap.map_fst_toList_eq_keys,
    Std.TreeMap.mem_keys]

theorem nodup_names (l : Ledger α) : l.names.Nodup := by
  unfold names
  rw [(l.items_perm.map Prod.fst).nodup_iff, Std.TreeMap.map_fst_toList_eq_keys]
  exact Std.TreeMap.nodup_keys

theorem size_eq_length_names (l : Ledger α) : l.size = l.names.length := by
  unfold size names
  rw [List.length_map, l.items_perm.length_eq, Std.TreeMap.length_toList]

theorem get?_isSome_iff (l : Ledger α) (name : String) :
    (l.get? name).isSome = true ↔ name ∈ l.names := by
  rw [l.mem_names_iff, get?, Option.isSome_map, Std.TreeMap.isSome_getElem?_iff_mem]

/-- What is made of the names with their values is made of the names in their order. -/
theorem map_toList {β : Type} (l : Ledger α) (make : String → α → β) :
    (l.toList.map fun item => make item.1 item.2)
      = l.names.filterMap fun name => (l.get? name).map (make name) := by
  unfold toList names
  have hget : ∀ item ∈ l.items, l.get? item.1 = some item.2.value := by
    intro item hitem
    rw [get?, (l.mem_items_iff item.1 item.2).mp hitem]
    rfl
  revert hget
  induction l.items with
  | nil => exact fun _ => rfl
  | cons item rest ih =>
    intro hget
    obtain ⟨hfirst, hrest⟩ := List.forall_mem_cons.mp hget
    simpa [hfirst] using ih hrest

/-! ## Section 4: The order after an update -/

/-- The number of a name. -/
def number? (l : Ledger α) (name : String) : Option Nat := l.table[name]?.map Numbered.number

/-- The first name has the smaller number. -/
def Precedes (l : Ledger α) (name other : String) : Prop :=
  ∃ number number', l.number? name = some number ∧ l.number? other = some number'
    ∧ number < number'

section Order

variable {l l' : Ledger α} {name other : String}

theorem Precedes.asymm (h : l.Precedes name other) : ¬l.Precedes other name := by
  obtain ⟨m, n, hm, hn, hlt⟩ := h
  rintro ⟨n', m', hn', hm', hlt'⟩
  rw [hm] at hm'
  rw [hn] at hn'
  cases hm'
  cases hn'
  exact Nat.lt_asymm hlt hlt'

theorem Precedes.of_number?_eq (h : l.Precedes name other)
    (hname : l'.number? name = l.number? name) (hother : l'.number? other = l.number? other) :
    l'.Precedes name other := by
  unfold Precedes
  rwa [hname, hother]

theorem pairwise_names (l : Ledger α) : l.names.Pairwise l.Precedes := by
  unfold names
  rw [List.pairwise_map]
  have hnodup : l.items.Pairwise fun a b => a.1 ≠ b.1 := List.pairwise_map.mp l.nodup_names
  refine (l.pairwise_items.and hnodup).imp_of_mem ?_
  intro a b ha hb hab
  have hfirst := (l.mem_items_iff a.1 a.2).mp ha
  have hsecond := (l.mem_items_iff b.1 b.2).mp hb
  refine ⟨a.2.number, b.2.number, by simp [number?, hfirst], by simp [number?, hsecond], ?_⟩
  exact Nat.lt_of_le_of_ne hab.1 fun hnumber => hab.2 (l.number_injective hfirst hsecond hnumber)

/-- The names stand in the only order in which each has a smaller number than all behind it. -/
theorem eq_names {order : List String} (hmem : ∀ name, name ∈ order ↔ (l.get? name).isSome = true)
    (horder : order.Pairwise l.Precedes) : order = l.names := by
  have hnodup : order.Nodup := by
    refine horder.imp ?_
    rintro name other h rfl
    exact h.asymm h
  have hperm : order.Perm l.names := by
    rw [List.perm_ext_iff_of_nodup hnodup l.nodup_names]
    intro name
    rw [hmem, l.get?_isSome_iff]
  exact hperm.eq_of_pairwise (fun _ _ _ _ h h' => absurd h' h.asymm) horder l.pairwise_names

theorem exists_getElem?_of_mem (h : name ∈ l.names) : ∃ found, l.table[name]? = some found :=
  Option.isSome_iff_exists.mp
    (Std.TreeMap.isSome_getElem?_iff_mem.mpr ((l.mem_names_iff name).mp h))

theorem getElem?_of_not_mem (h : name ∉ l.names) : l.table[name]? = none :=
  Std.TreeMap.getElem?_eq_none fun hmem => h ((l.mem_names_iff name).mpr hmem)

theorem number?_put_ne (l : Ledger α) (value : α) (h : other ≠ name) :
    (l.put name value).number? other = l.number? other := by
  unfold number?
  cases hname : l.table[name]? with
  | some found => simp [(l.put_of_some hname value).1, Std.TreeMap.getElem?_insert, Ne.symm h]
  | none => simp [(l.put_of_none hname value).1, Std.TreeMap.getElem?_insert, Ne.symm h]

theorem number?_put_of_mem (l : Ledger α) (value : α) (h : name ∈ l.names) :
    (l.put name value).number? name = l.number? name := by
  obtain ⟨found, hfound⟩ := exists_getElem?_of_mem h
  simp [number?, (l.put_of_some hfound value).1, hfound]

theorem number?_put_of_not_mem (l : Ledger α) (value : α) (h : name ∉ l.names) :
    (l.put name value).number? name = some l.next := by
  simp [number?, (l.put_of_none (getElem?_of_not_mem h) value).1]

theorem number?_erase_ne (l : Ledger α) (h : other ≠ name) :
    (l.erase name).number? other = l.number? other := by
  simp [number?, erase, Std.TreeMap.getElem?_erase, Ne.symm h]

/-- A name that is there keeps its place. -/
theorem names_put_of_mem (l : Ledger α) (value : α) (h : name ∈ l.names) :
    (l.put name value).names = l.names := by
  have hnumber (other : String) : (l.put name value).number? other = l.number? other := by
    by_cases hother : other = name
    · rw [hother, l.number?_put_of_mem value h]
    · exact l.number?_put_ne value hother
  symm
  apply eq_names
  · intro other
    by_cases hother : other = name
    · simp [hother, h, l.get?_put_self]
    · rw [l.get?_put_ne value hother, l.get?_isSome_iff]
  · exact l.pairwise_names.imp fun hprecedes =>
      hprecedes.of_number?_eq (hnumber _) (hnumber _)

/-- A new name goes to the end. -/
theorem names_put_of_not_mem (l : Ledger α) (value : α) (h : name ∉ l.names) :
    (l.put name value).names = l.names ++ [name] := by
  have hne : ∀ other ∈ l.names, other ≠ name := by
    rintro other hother rfl
    exact h hother
  symm
  apply eq_names
  · intro other
    rw [List.mem_append, List.mem_singleton]
    by_cases hother : other = name
    · simp [hother, l.get?_put_self]
    · simp [hother, l.get?_put_ne value hother, l.get?_isSome_iff]
  · refine List.pairwise_append.mpr ⟨?_, List.pairwise_singleton _ _, ?_⟩
    · refine l.pairwise_names.imp_of_mem ?_
      intro first second hfirst hsecond hprecedes
      exact hprecedes.of_number?_eq (l.number?_put_ne value (hne first hfirst))
        (l.number?_put_ne value (hne second hsecond))
    · -- the numbers given so far are smaller than the next one
      intro first hfirst second hsecond
      obtain rfl := List.mem_singleton.mp hsecond
      obtain ⟨found, hfound⟩ := exists_getElem?_of_mem hfirst
      refine ⟨found.number, l.next, ?_, l.number?_put_of_not_mem value h, l.number_lt_next hfound⟩
      rw [l.number?_put_ne value (hne first hfirst), number?, hfound]
      rfl

theorem next_put_of_mem (l : Ledger α) (value : α) (h : name ∈ l.names) :
    (l.put name value).next = l.next := by
  obtain ⟨found, hfound⟩ := exists_getElem?_of_mem h
  exact (l.put_of_some hfound value).2

theorem next_put_of_not_mem (l : Ledger α) (value : α) (h : name ∉ l.names) :
    (l.put name value).next = l.next + 1 :=
  (l.put_of_none (getElem?_of_not_mem h) value).2

theorem names_erase (l : Ledger α) (name : String) :
    (l.erase name).names = l.names.filter (· ≠ name) := by
  symm
  apply eq_names
  · intro other
    rw [List.mem_filter, decide_eq_true_iff]
    by_cases hother : other = name
    · simp [hother, l.get?_erase_self]
    · simp [hother, l.get?_erase_ne hother, l.get?_isSome_iff]
  · refine (l.pairwise_names.filter _).imp_of_mem ?_
    intro first second hfirst hsecond hprecedes
    have hne : ∀ other ∈ l.names.filter (· ≠ name), other ≠ name :=
      fun other hother => of_decide_eq_true (List.mem_filter.mp hother).2
    exact hprecedes.of_number?_eq (l.number?_erase_ne (hne first hfirst))
      (l.number?_erase_ne (hne second hsecond))

end Order

/-- The other names keep their order. -/
theorem filter_names_put (l : Ledger α) (name : String) (value : α) :
    (l.put name value).names.filter (· ≠ name) = l.names.filter (· ≠ name) := by
  by_cases h : name ∈ l.names
  · rw [l.names_put_of_mem value h]
  · rw [l.names_put_of_not_mem value h, List.filter_append]
    simp

theorem filter_names_erase (l : Ledger α) (name : String) :
    (l.erase name).names.filter (· ≠ name) = l.names.filter (· ≠ name) := by
  rw [names_erase, List.filter_filter]
  simp

end Ledger

end Worksheet
