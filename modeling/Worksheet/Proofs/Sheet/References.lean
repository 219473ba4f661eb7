import Worksheet.Proofs.Sheet.Edits
import Worksheet.Proofs.Sheet.Reload
import Worksheet.Proofs.Token.LongestMatch

/-! # Cells that can be mentioned

    A name is met in two places: as the name of a cell that is set, and as a name in a formula. The
    first is checked against the grammar of cell names, the second is found by the scanner, and each
    goes through the naming rules on its own way. The two agree: what can be set can be mentioned,
    and a formula that mentions it reads the cell that was set. What cannot be set may be mentioned
    too, but has no number.

    - `Name.isCell_iff`: the grammar of cell names.
    - `Name.isIdentifier_iff_ofText`: identifiers are what the scanner takes for a single name.
    - `Formula.exists_mentionsOnly`: the name of a cell alone is a formula, which reads this cell.
    - `Sheet.Sound.refersTo`: how such a formula is set, and what it does then.
    - `Sheet.WasTyped.isCell_of_lookup`: what has a number in a sheet.
    - `settable_names_readable`: all of this together.
-/

namespace Worksheet

open Relation (TransGen)

/-! ## Section 1: The two grammars and the scanner -/

namespace Name

variable {name : String}

theorem isAlpha_of_isDigit {c : Char} (h : c.isDigit = true) : c.isAlpha = false := by
  have hstarts := Token.startsIdentifier_of_isDigit h
  unfold startsIdentifier at hstarts
  exact (Bool.or_eq_false_iff.mp hstarts).1

/-- A cell name is letters followed by digits, at least one of each. -/
theorem isCell_iff : isCell name = true ↔
    ∃ letters digits, name.toList = letters ++ digits ∧ letters ≠ [] ∧ digits ≠ []
      ∧ (∀ c ∈ letters, c.isAlpha = true) ∧ ∀ c ∈ digits, c.isDigit = true := by
  constructor
  · intro h
    have htext := List.takeWhile_append_dropWhile (p := Char.isAlpha) (l := name.toList)
    unfold isCell at h
    split at h
    · cases h
    · next digits hne =>
      rw [Bool.and_eq_true, decide_eq_true_iff, List.all_eq_true] at h
      exact ⟨_, _, htext.symm, h.1, hne, Number.forall_mem_takeWhile _ _, h.2⟩
  · rintro ⟨letters, digits, htext, hletters, hdigits, hAlpha, hDigit⟩
    have hend : ∀ c ∈ digits.head?, c.isAlpha = false :=
      fun c hc => isAlpha_of_isDigit (hDigit c (List.mem_of_mem_head? hc))
    unfold isCell
    rw [htext, Number.takeWhile_run hAlpha hend, Number.dropWhile_run hAlpha hend]
    split
    · exact absurd rfl hdigits
    · rw [Bool.and_eq_true, decide_eq_true_iff, List.all_eq_true]
      exact ⟨hletters, hDigit⟩

/-- An identifier is a letter or underscore followed by letters, digits and underscores. -/
theorem isIdentifier_iff : isIdentifier name = true ↔
    ∃ first rest, name.toList = first :: rest ∧ startsIdentifier first = true
      ∧ ∀ c ∈ rest, continuesIdentifier c = true := by
  unfold isIdentifier
  cases name.toList with
  | nil => simp
  | cons first rest => simp [List.all_eq_true]

/-- Every cell name is an identifier. -/
theorem isIdentifier_of_isCell (h : isCell name = true) : isIdentifier name = true := by
  obtain ⟨letters, digits, htext, hletters, -, hAlpha, hDigit⟩ := isCell_iff.mp h
  obtain ⟨first, rest, rfl⟩ := List.exists_cons_of_ne_nil hletters
  have hstarts {c : Char} (hc : c ∈ first :: rest) : startsIdentifier c = true := by
    rw [startsIdentifier, hAlpha c hc, Bool.true_or]
  refine isIdentifier_iff.mpr ⟨first, rest ++ digits, htext, hstarts List.mem_cons_self, ?_⟩
  intro c hc
  rw [Token.continuesIdentifier_iff]
  rcases List.mem_append.mp hc with hrest | hdigit
  · exact .inl (hstarts (List.mem_cons_of_mem first hrest))
  · exact .inr (hDigit c hdigit)

end Name

namespace Token

theorem Takes.isIdentifier {text rest : List Char} {item : Lexeme} {name : String}
    (h : Takes text item rest) (hname : item.token = .name name) :
    Name.isIdentifier name = true := by
  cases h with
  | name starts continues ends =>
    cases hname
    exact Name.isIdentifier_iff.mpr ⟨_, _, String.toList_ofList, starts, continues⟩
  | _ => cases hname

/-- The names that are read from a text are identifiers. -/
theorem isIdentifier_of_mem_ofText {name text : String} (h : .name name ∈ ofText text) :
    Name.isIdentifier name = true := by
  obtain ⟨item, hmem, hname⟩ := List.mem_map.mp h
  generalize text.toList = chars at hmem
  fun_induction lexemes chars with
  | case1 => cases hmem
  | case2 c rest hblank ih => exact ih hmem
  | case3 c rest hblank next ih =>
    rcases List.mem_cons.mp hmem with rfl | hmem
    · rw [Bool.not_eq_true] at hblank
      have htakes : Takes (c :: rest) next.1 next.2 := takes_lexeme hblank
      exact htakes.isIdentifier hname
    · exact ih hmem

end Token

/-- The identifiers are what the scanner takes for a single name. -/
theorem Name.isIdentifier_iff_ofText (name : String) :
    isIdentifier name = true ↔ Token.ofText name = [.name name] := by
  constructor
  · intro h
    have hread := @Token.lexemes_identifier_append name h [] nofun
    rw [List.append_nil, Token.lexemes] at hread
    rw [Token.ofText, hread]
    rfl
  · intro h
    have hmem : Token.name name ∈ Token.ofText name := by
      rw [h]
      exact List.mem_singleton_self _
    exact Token.isIdentifier_of_mem_ofText hmem

/-! ## Section 2: Formulas -/

/-- The value of a formula that is a single name, when the lookup gives this for the name. -/
def Value.ofName (name : String) : Option Float → Value
  | some x => .number x
  | none => .error (.unresolved name)

namespace Formula

variable {naming : Naming} {typed key text : String} {f : Formula}

/-- The formula is a single name, asks for this name once, and has the value that is found. -/
structure MentionsOnly (f : Formula) (key : String) : Prop where
  tokens_eq : f.tokens = [.name key]
  mentions_eq : f.mentions.toList = [key]
  asked_eq : ∀ lookup, (calculate lookup f.tokens).asked = [key]
  value_eq : ∀ lookup, f.value lookup = .ofName key (lookup key)

theorem MentionsOnly.of_tokens (h : f.tokens = [.name key]) : f.MentionsOnly key := by
  refine ⟨h, ?_, ?_, ?_⟩
  · unfold mentions
    rw [h]
    rfl
  · intro lookup
    rw [h, calculate, Machine.run, Machine.step]
    cases lookup key <;> rfl
  · intro lookup
    rw [Formula.value, h, calculate, Machine.run, Machine.step]
    cases lookup key <;> rfl

theorem MentionsOnly.mem_mentions_iff (h : f.MentionsOnly key) {name : String} :
    name ∈ f.mentions ↔ name = key := by
  rw [Formula.mem_mentions_iff, h.tokens_eq]
  simp

/-- The name of a cell alone is a formula, and what it mentions is the key of the cell. -/
theorem exists_mentionsOnly (h : naming.cell? typed = some key) :
    ∃ f, parse naming typed = .ok f ∧ f.MentionsOnly key := by
  obtain ⟨⟨htyped, hkey, haccepts⟩, rfl⟩ := Naming.meansCell_of_cell? h
  have htokens := (Name.isIdentifier_iff_ofText typed).mp (Name.isIdentifier_of_isCell htyped)
  have hsound : structureError? (Token.ofText typed) = none := by
    rw [htokens]
    rfl
  have hadmits : naming.tokensError? (Token.ofText typed) = none := by
    rw [Naming.tokensError?_eq_none_iff, htokens]
    intro name hname
    cases List.mem_singleton.mp hname
    exact ⟨Name.isIdentifier_of_isCell hkey, haccepts⟩
  refine ⟨⟨[.name (naming.key typed)], rfl⟩, parse_eq_ok_iff.mpr ⟨hsound, hadmits, ?_⟩,
    .of_tokens rfl⟩
  rw [htokens]
  rfl

/-- A formula mentions the keys of the names in its text. -/
theorem mem_mentions_iff_of_parse (h : parse naming text = .ok f) {name : String} :
    name ∈ f.mentions ↔ ∃ typed, .name typed ∈ Token.ofText text ∧ naming.key typed = name := by
  obtain ⟨-, -, htokens⟩ := parse_eq_ok_iff.mp h
  rw [mem_mentions_iff, htokens, List.mem_map]
  constructor
  · rintro ⟨token, hmem, hmap⟩
    cases token with
    | name typed =>
      cases hmap
      exact ⟨typed, hmem, rfl⟩
    | _ => cases hmap
  · rintro ⟨typed, hmem, rfl⟩
    exact ⟨_, hmem, rfl⟩

end Formula

/-! ## Section 3: Sheets -/

namespace Sheet

variable {s s' : Sheet} {typed reader raw key name : String} {order : List String}

/-- To set the name is to set the cell `key`, and a formula that is this name alone reads the cell
    `key` and no other. -/
structure RefersTo (s : Sheet) (typed key : String) : Prop where
  /-- The cell `key` gets what `raw` is, and the other cells keep what they hold. -/
  writes : ∀ raw s' order, s.enter typed raw = .ok (s', order) →
    Entry.ofRaw? s.settings.naming raw = .ok (s'.cells.held? key)
      ∧ ∀ name, name ≠ key → s'.cells.held? name = s.cells.held? name
  /-- A cell may be set to the formula unless the cell `key` is this cell or depends on it. -/
  refused : ∀ reader, s.settings.naming.MeansCell reader → ∀ e,
    s.enter reader ("=" ++ typed) = .error e ↔
      e = .cycle (s.settings.naming.key reader) ∧ (key = s.settings.naming.key reader
        ∨ TransGen s.cells.Feeds (s.settings.naming.key reader) key)
  /-- Then it has one edge, and the number of the cell `key`. -/
  reads : ∀ reader s' order, s.enter reader ("=" ++ typed) = .ok (s', order) →
    (∀ source, s.settings.naming.key reader ∈ s'.graph.dependents source ↔ source = key)
      ∧ s'.value reader = .ok (.ofName key (s'.cells.lookup key))

/-- The raw text of a formula that is the name of a cell alone. -/
theorem exists_ofRaw?_equals {naming : Naming} (hcell : naming.cell? typed = some key) :
    ∃ f, f.MentionsOnly key ∧ Entry.ofRaw? naming ("=" ++ typed) = .ok (some (.formula f)) := by
  obtain ⟨f, hparse, honly⟩ := Formula.exists_mentionsOnly hcell
  have htext : ("=" ++ typed).toList = '=' :: typed.toList := by
    rw [String.toList_append]
    rfl
  have hbegins : Entry.BeginsFormula ("=" ++ typed) typed.toList :=
    ⟨by rw [htext, Entry.finiteNumber?_equals], htext⟩
  refine ⟨f, honly, ?_⟩
  rw [hbegins.ofRaw?_eq, String.ofList_toList, hparse]
  rfl

/-- A cell with such a formula shows the number of the cell that it mentions. -/
theorem Sound.value_eq_ofName (h : s.Sound) {f : Formula} {source : String}
    (hcell : s.settings.naming.cell? reader = some key)
    (hheld : s.cells.held? key = some (.formula f)) (honly : f.MentionsOnly source) :
    s.value reader = .ok (.ofName source (s.cells.lookup source)) := by
  obtain ⟨cell, hget, hentry⟩ := Option.map_eq_some_iff.mp hheld
  have hvalue : cell.value = .ofName source (s.cells.lookup source) := by
    rw [h.current key cell hget, hentry]
    exact honly.value_eq s.cells.lookup
  unfold value
  rw [cellKey_eq_ok_iff.mpr hcell, Except.map, hget, Option.map_some, Option.getD_some, hvalue]

/-- Neither its name nor its formula is a reason to refuse the edit. -/
theorem Sound.enter_mentionsOnly_eq_error_iff (h : s.Sound) {f : Formula} {e : SheetError}
    (honly : f.MentionsOnly key)
    (hentry : Entry.ofRaw? s.settings.naming raw = .ok (some (.formula f)))
    (hreader : s.settings.naming.MeansCell reader) :
    s.enter reader raw = .error e ↔
      e = .cycle (s.settings.naming.key reader) ∧ (key = s.settings.naming.key reader
        ∨ TransGen s.cells.Feeds (s.settings.naming.key reader) key) := by
  have hclosed : (∃ name, (s.revision (s.settings.naming.key reader) (some (.formula f))).order
      [s.settings.naming.key reader] = .error name)
        ↔ key = s.settings.naming.key reader
          ∨ TransGen s.cells.Feeds (s.settings.naming.key reader) key := by
    rw [h.order_revision_error_iff]
    constructor
    · rintro ⟨g, name, hg, hmem, hpath⟩
      cases hg
      rwa [honly.mem_mentions_iff.mp hmem] at hpath
    · exact fun hpath => ⟨f, key, rfl, honly.mem_mentions_iff.mpr rfl, hpath⟩
  rw [enter_eq, hreader.cell?_eq, ← hclosed]
  simp only [hentry]
  cases (s.revision (s.settings.naming.key reader) (some (.formula f))).order
      [s.settings.naming.key reader] with
  | error name => simp [eq_comm]
  | ok order => simp

/-- A sound sheet refers to every cell that can be set. -/
theorem Sound.refersTo (h : s.Sound) (hcell : s.settings.naming.cell? typed = some key) :
    s.RefersTo typed key := by
  obtain ⟨f, honly, hentry⟩ := exists_ofRaw?_equals hcell
  constructor
  case writes =>
    intro raw s' order henter
    obtain ⟨other, entry, hother, hread, -, rfl⟩ := enter_eq_ok_iff.mp henter
    rw [hcell] at hother
    cases hother
    rw [held?_commit_self]
    exact ⟨hread, fun name hne => held?_commit_ne s entry order hne⟩
  case refused =>
    intro reader hreader e
    exact h.enter_mentionsOnly_eq_error_iff honly hentry hreader
  case reads =>
    intro reader s' order henter
    obtain ⟨found, entry, hreader, hread, horder, rfl⟩ := enter_eq_ok_iff.mp henter
    obtain ⟨-, rfl⟩ := Naming.meansCell_of_cell? hreader
    rw [hentry] at hread
    cases hread
    constructor
    · -- the edges into the cell are replaced by those from what the formula mentions
      intro source
      show _ ∈ (s.graph.setPrecedents _ f.mentions.toList).dependents source ↔ _
      rw [h.coherent.mem_dependents_setPrecedents_iff, Std.TreeSet.mem_toList,
        honly.mem_mentions_iff]
      simp
    · exact (h.commit horder).value_eq_ofName hreader (held?_commit_self s _ _ order) honly

/-- What has a number is stored, and what is stored was set under an accepted cell name. -/
theorem WasTyped.isCell_of_lookup (h : s.WasTyped) {x : Float}
    (hlookup : s.cells.lookup name = some x) :
    Name.isCell name = true ∧ s.settings.naming.accepts name = true := by
  obtain ⟨cell, hget, -⟩ := Option.bind_eq_some_iff.mp hlookup
  obtain ⟨typed, raw, hcell, -⟩ := h name cell.entry (Ledger.held?_of_get? hget)
  obtain ⟨-, -, hname, haccepts⟩ := (Naming.cell?_eq_some_iff _ _ _).mp hcell
  exact ⟨hname, haccepts⟩

end Sheet

/-- The grammar of identifiers is that of the names that the scanner finds. The name of a cell is
    read as a formula that mentions the cell and nothing else, and any formula in whose text it
    stands mentions the cell. In a reachable sheet such a formula reads what is set under the name,
    and a name that a formula mentions has no number unless it is an accepted cell name. -/
theorem settable_names_readable :
    (∀ name, Name.isIdentifier name = true ↔ Token.ofText name = [.name name])
    ∧ (∀ (naming : Naming) (typed key : String), naming.cell? typed = some key →
        (∃ f, Formula.parse naming typed = .ok f ∧ f.MentionsOnly key)
        ∧ ∀ text f, Formula.parse naming text = .ok f → .name typed ∈ Token.ofText text →
            key ∈ f.mentions)
    ∧ ∀ s : Sheet, s.Reachable →
        (∀ typed key, s.settings.naming.cell? typed = some key → s.RefersTo typed key)
        ∧ ∀ reader f name x, s.cells.held? reader = some (.formula f) → name ∈ f.mentions →
            s.cells.lookup name = some x →
              Name.isCell name = true ∧ s.settings.naming.accepts name = true := by
  refine ⟨Name.isIdentifier_iff_ofText, ?_, ?_⟩
  · intro naming typed key hcell
    refine ⟨Formula.exists_mentionsOnly hcell, ?_⟩
    intro text f hparse hmem
    obtain ⟨-, rfl⟩ := Naming.meansCell_of_cell? hcell
    exact (Formula.mem_mentions_iff_of_parse hparse).mpr ⟨typed, hmem, rfl⟩
  · intro s hs
    refine ⟨fun typed key hcell => hs.sound.refersTo hcell, ?_⟩
    intro reader f name x _ _ hlookup
    exact hs.wasTyped.isCell_of_lookup hlookup

/-- An identifier that is no cell name can be mentioned, but not set. -/
example : (Formula.parse .uppercase "rate").isOk = true ∧ Naming.uppercase.cell? "rate" = none := by
  decide +kernel

end Worksheet
