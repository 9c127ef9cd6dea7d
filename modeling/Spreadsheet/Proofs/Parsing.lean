/-
Formulas keep their reading. A formula that has been read once is read the
same way when more sheets can be named (`Scope.Extends.parseTokens`), and no
operation takes a sheet away or moves it (`Workbook.run_sheets_grow`). So
the formulas that a workbook keeps are at all times what their texts are
read to (`Workbook.ReadOK`, `Workbook.formulas_keep_their_reading`).
-/
import Spreadsheet.Proofs.Freshness
import Spreadsheet.Proofs.Recognition

namespace Spreadsheet

/-! ## More sheets -/

/-- A scope in which all the sheets of another are found, and perhaps more. -/
structure Scope.Extends (s t : Scope) : Prop where
  originSheet : t.originSheet = s.originSheet
  sheetNamed : ∀ name sheet, s.sheetNamed name = some sheet → t.sheetNamed name = some sheet

section Extends

variable {s t : Scope}

theorem Scope.Extends.derivesCell (h : s.Extends t) {tokens : List Token} {a : CellAddress}
    (ha : DerivesCell s tokens a) : DerivesCell t tokens a := by
  cases ha with
  | bare hlabel =>
    rw [← h.originSheet]
    exact .bare hlabel
  | onSheet htoken hsheet hlabel => exact .onSheet htoken (h.sheetNamed _ _ hsheet) hlabel

theorem Scope.Extends.derivesReference (h : s.Extends t) {tokens : List Token} {target : Reference}
    (ht : DerivesReference s tokens target) : DerivesReference t tokens target := by
  cases ht with
  | cell ha => exact .cell (h.derivesCell ha)
  | range ha hb hsheet => exact .range (h.derivesCell ha) (h.derivesCell hb) hsheet

mutual

theorem Scope.Extends.derives (h : s.Extends t) {kind : Phrase} {tokens : List Token} {e : Expr} :
    Derives s kind tokens e → Derives t kind tokens e
  | .looser he => .looser (h.derives he)
  | .operator hop ha hb => .operator hop (h.derives ha) (h.derives hb)
  | .power ha hb => .power (h.derives ha) (h.derives hb)
  | .sign he => .sign (h.derives he)
  | .number x => .number x
  | .text content => .text content
  | .parentheses he => .parentheses (h.derives he)
  | .call hname hes => .call hname (h.derivesArguments hes)
  | .name hname => .name hname
  | .reference htarget => .reference (h.derivesReference htarget)

theorem Scope.Extends.derivesArguments (h : s.Extends t) {tokens : List Token} {es : List Expr} :
    DerivesArguments s tokens es → DerivesArguments t tokens es
  | .none => .none
  | .last he => .last (h.derives he)
  | .more he hes => .more (h.derives he) (h.derivesArguments hes)

end

/-- **What has been read is read the same way with more sheets to name**, for the parser accepts
exactly what is derived. -/
theorem Scope.Extends.parseTokens (h : s.Extends t) {tokens : Tokens} {e : Expr}
    (he : parseTokens s tokens = .ok e) : parseTokens t tokens = .ok e := by
  have hderived : Derives s .comparison (tokens.map PlacedToken.token) e :=
    derives_of_parseTokens he
  exact (h.derives hderived).parseTokens

end Extends

theorem Formula.parse_extends {source : String} {sheet : Nat} {find find' : String → Option Nat}
    (h : ∀ name i, find name = some i → find' name = some i) {f : Formula}
    (hf : parse source sheet find = .ok f) : parse source sheet find' = .ok f := by
  simp only [parse, bind_eq_ok] at hf ⊢
  obtain ⟨tokens, htokens, tree, htree, hf⟩ := hf
  have hext : Scope.Extends ⟨sheet, find, source.length⟩ ⟨sheet, find', source.length⟩ := ⟨rfl, h⟩
  exact ⟨tokens, htokens, tree, hext.parseTokens htree, hf⟩

/-! ## The formulas of a workbook -/

theorem Store.sheetNamed?_congr {s t : Store} (h : s.sheets = t.sheets) :
    s.sheetNamed? = t.sheetNamed? := by
  funext name
  rw [sheetNamed?, h, sheetNamed?]

theorem Store.sheetNamed?_eq_none {s : Store} {name : String} :
    s.sheetNamed? name = none ↔ name ∉ s.sheets := by
  simp only [sheetNamed?, List.findIdx?_eq_none_iff, beq_eq_false_iff_ne]
  exact ⟨fun h hmem => h name hmem rfl, fun h other hmem heq => h (heq ▸ hmem)⟩

theorem Store.sheetNamed?_of_prefix {s t : Store} (h : s.sheets <+: t.sheets) {name : String}
    {i : Nat} (hi : s.sheetNamed? name = some i) : t.sheetNamed? name = some i := by
  obtain ⟨more, hmore⟩ := h
  simp only [sheetNamed?, ← hmore, List.findIdx?_append] at hi ⊢
  rw [hi]
  rfl

namespace Workbook

theorem readFormula_congr {w u : Workbook} (h : u.store.sheets = w.store.sheets) :
    u.readFormula = w.readFormula := by
  funext sheet source
  rw [readFormula, Store.sheetNamed?_congr h, readFormula]

/-- **What a workbook reads a text to, a workbook with more sheets reads it to.** -/
theorem readFormula_of_prefix {w u : Workbook} (h : w.store.sheets <+: u.store.sheets)
    {sheet : Nat} {source : String} {f : Formula} (hf : w.readFormula sheet source = .ok f) :
    u.readFormula sheet source = .ok f :=
  readFormula_eq_ok.2
    (Formula.parse_extends (fun _ _ => Store.sheetNamed?_of_prefix h) (readFormula_eq_ok.1 hf))

/-- Every formula of a cell or a name is what its text is read to. -/
structure ReadOK (w : Workbook) : Prop where
  cells : ∀ c f, w.store.formula? c = some f → w.readFormula c.sheet f.source = .ok f
  names : ∀ (n : String) f, w.names.definitions[n]? = some f → w.readFormula 0 f.source = .ok f

/-- A change that leaves the sheets as they are and puts in no formulas but such as have been read
keeps formulas read. -/
theorem ReadOK.of_sheets {w u : Workbook} (h : w.ReadOK) (hs : u.store.sheets = w.store.sheets)
    (hcells : ∀ c f, u.store.formula? c = some f →
      w.store.formula? c = some f ∨ w.readFormula c.sheet f.source = .ok f)
    (hnames : ∀ (n : String) f, u.names.definitions[n]? = some f →
      w.names.definitions[n]? = some f ∨ w.readFormula 0 f.source = .ok f) : u.ReadOK := by
  rw [← readFormula_congr hs] at hcells hnames
  refine ⟨fun c f hf => (hcells c f hf).elim (fun hw => ?_) id,
    fun n f hf => (hnames n f hf).elim (fun hw => ?_) id⟩
  · rw [readFormula_congr hs]
    exact h.cells c f hw
  · rw [readFormula_congr hs]
    exact h.names n f hw

theorem ReadOK.empty (policy : TextPolicy) : (Workbook.empty policy).ReadOK where
  cells c f hf := by
    obtain ⟨r, hr⟩ := Store.formula?_eq_some.1 hf
    simp [Workbook.empty, Store.empty, Store.get?] at hr
  names n f hf := by simp [Workbook.empty, NameTable.empty] at hf

theorem ReadOK.addSheet {w : Workbook} (h : w.ReadOK) (name : String) :
    ReadOK { w with store := w.store.addSheet name } := by
  have hmore : w.store.sheets <+: (w.store.addSheet name).sheets := List.prefix_append _ _
  exact ⟨fun c f hf => readFormula_of_prefix hmore (h.cells c f hf),
    fun n f hf => readFormula_of_prefix hmore (h.names n f hf)⟩

theorem ReadOK.place {w u : Workbook} {x : CellAddress} {content : Option CellContent}
    {d : Dependencies} {usesNames : Bool} (h : w.ReadOK) (hp : w.Placed x content d usesNames)
    (he : w.Edited u x content d usesNames) : (u.markDirty x).ReadOK := by
  refine h.of_sheets ?_ (fun c f hf => ?_) fun n f hf => .inl ?_
  · rw [sheets_markDirty, he.sheets]
  · rw [formula?_markDirty] at hf
    by_cases hc : c = x
    · subst hc
      rcases hp.formula?_cases he with ⟨hg, -⟩ | ⟨g, hg, hread, -⟩
      · rw [hg] at hf
        cases hf
      · rw [hg] at hf
        cases hf
        exact .inr hread
    · exact .inl (Store.formula?_congr (he.get?_other c hc) ▸ hf)
  · rw [names_markDirty, he.names] at hf
    exact hf

theorem ReadOK.bindName {w : Workbook} (h : w.ReadOK) {name : String} {g : Formula}
    (hg : w.readFormula 0 g.source = .ok g) : (w.bindName name g).ReadOK := by
  have hr := w.bindName_rewired name g
  refine h.of_sheets hr.sheets (fun c f hf => .inl ?_) fun n f hf => ?_
  · rw [hr.formula?] at hf
    exact hf
  · rw [hr.names] at hf
    simp only [bound, NameTable.set, Std.ExtTreeMap.getElem?_insert] at hf
    split at hf
    · cases hf
      exact .inr hg
    · exact .inl hf

/-- A workbook with the same sheets, formulas and names. -/
structure SameFormulas (w u : Workbook) : Prop where
  sheets : u.store.sheets = w.store.sheets
  names : u.names = w.names
  formula? : ∀ c, u.store.formula? c = w.store.formula? c

theorem SameFormulas.readOK {w u : Workbook} (hs : w.SameFormulas u) (h : w.ReadOK) : u.ReadOK :=
  h.of_sheets hs.sheets (fun c _ hf => .inl (hs.formula? c ▸ hf)) fun _ _ hf => .inl (hs.names ▸ hf)

theorem sameFormulas_repolicy (w : Workbook) (policy : TextPolicy) :
    w.SameFormulas (w.formulaCells.foldl markDirty { w with policy := policy }) := by
  refine foldl_keeps (P := w.SameFormulas) (fun u x h => ?_) _ ⟨rfl, rfl, fun _ => rfl⟩
  exact ⟨(sheets_markDirty u x).trans h.sheets, h.names,
    fun c => (formula?_markDirty u x c).trans (h.formula? c)⟩

theorem sameFormulas_calculate (w : Workbook) : w.SameFormulas w.calculate.1 :=
  ⟨sheets_calculate w, rfl, formula?_calculate w⟩

theorem ReadOK.step {w u : Workbook} (h : w.ReadOK) (hs : w.Step u) : u.ReadOK := by
  cases hs with
  | stay => exact h
  | addSheet name => exact h.addSheet name
  | place hp he => exact h.place hp he
  | bind name hg => exact h.bindName hg
  | @repolicy policy _ => exact (w.sameFormulas_repolicy policy).readOK h
  | calculate => exact w.sameFormulas_calculate.readOK h

theorem Reachable.readOK {w : Workbook} (h : w.Reachable) : w.ReadOK :=
  h.step_induction ReadOK.empty fun _ _ hw hs => hw.step hs

/-! ## Sheets stay -/

/-- A step leaves the sheets as they are or appends one, with a name that was free. -/
theorem Step.sheets_cases {w u : Workbook} (hs : w.Step u) : u.store.sheets = w.store.sheets ∨
    ∃ name, w.store.sheetNamed? name = none ∧ u.store.sheets = w.store.sheets ++ [name] := by
  cases hs with
  | stay => exact .inl rfl
  | addSheet name hnew => exact .inr ⟨name, hnew, rfl⟩
  | place _ he => exact .inl ((sheets_markDirty _ _).trans he.sheets)
  | bind name _ => exact .inl (w.bindName_rewired name _).sheets
  | @repolicy policy _ => exact .inl (w.sameFormulas_repolicy policy).sheets
  | calculate => exact .inl w.sameFormulas_calculate.sheets

theorem Step.sheets_grow {w u : Workbook} (hs : w.Step u) :
    w.store.sheets <+: u.store.sheets := by
  rcases hs.sheets_cases with h | ⟨name, -, h⟩
  · exact h ▸ List.prefix_rfl
  · exact h ▸ List.prefix_append _ _

/-- **Operations leave every sheet where it is.** -/
theorem run_sheets_grow (w : Workbook) (operations : List Operation) :
    w.store.sheets <+: (w.run operations).store.sheets := by
  induction operations generalizing w with
  | nil => exact List.prefix_rfl
  | cons operation rest ih => exact (w.perform_step operation).sheets_grow.trans (ih _)

theorem run_appendSheets (names : List String) : ∀ w : Workbook, ∃ sheets hsheets,
    w.run (names.map .appendSheet) = { w with store := ⟨sheets, w.store.cells, hsheets⟩ } := by
  induction names with
  | nil => exact fun w => ⟨w.store.sheets, w.store.sheet_lt, rfl⟩
  | cons name rest ih =>
    intro w
    rw [List.map_cons, run_cons, Operation.perform, appendSheet]
    split
    · exact ih w
    · exact ih { w with store := w.store.addSheet name }

/-- **Formulas keep their reading.** However a workbook came about, the formula of a cell is what
its text is read to from that cell with the sheets there are now, the definition of a name is what
its text is read to from the first sheet, and whatever a text is read to now it is read to after any
further operations. So sheets that are appended later change nothing: the same formulas and names
are kept, and formulas are evaluated in the same context. -/
theorem formulas_keep_their_reading (policy : TextPolicy) (operations : List Operation) :
    let w := (Workbook.empty policy).run operations
    (∀ c f, w.store.formula? c = some f →
      Formula.parse f.source c.sheet w.store.sheetNamed? = .ok f) ∧
    (∀ (n : String) f, w.names.definitions[n]? = some f →
      Formula.parse f.source 0 w.store.sheetNamed? = .ok f) ∧
    (∀ (later : List Operation) (source : String) (sheet : Nat) (f : Formula),
      Formula.parse source sheet w.store.sheetNamed? = .ok f →
        Formula.parse source sheet (w.run later).store.sheetNamed? = .ok f) ∧
    ∀ names : List String,
      let u := w.run (names.map .appendSheet)
      (∀ c, u.store.formula? c = w.store.formula? c) ∧ u.names = w.names ∧
        u.store.context u.names u.policy = w.store.context w.names w.policy := by
  intro w
  have hread : w.ReadOK := Reachable.readOK ⟨policy, operations, rfl⟩
  refine ⟨fun c f hf => readFormula_eq_ok.1 (hread.cells c f hf),
    fun n f hf => readFormula_eq_ok.1 (hread.names n f hf), fun later source sheet f hf => ?_,
    fun names => ?_⟩
  · have hmore := w.run_sheets_grow later
    exact Formula.parse_extends (fun _ _ => Store.sheetNamed?_of_prefix hmore) hf
  · obtain ⟨sheets, hsheets, hu⟩ := w.run_appendSheets names
    rw [hu]
    exact ⟨fun _ => rfl, rfl, rfl⟩

/-- A formula and a name that refer to a second sheet, read before a third sheet was appended: both
are what their texts are read to, before a fourth sheet is appended and after. -/
theorem formulas_keep_their_reading_appended :
    let w := (Workbook.empty .skip).run [.appendSheet "S", .appendSheet "it's",
      .defineName "rate" "'it''s'!B1", .setCell ⟨1, 0, 0⟩ (.formula "=S!A1+rate"),
      .appendSheet "T"]
    let f : Formula :=
      ⟨"=S!A1+rate", .binary .add (.reference (.cell ⟨0, 0, 0⟩)) (.name "rate")⟩
    let d : Formula := ⟨"'it''s'!B1", .reference (.cell ⟨1, 0, 1⟩)⟩
    (w.store.formula? ⟨1, 0, 0⟩ = some f ∧ w.names.definitions["rate"]? = some d) ∧
      Formula.parse f.source 1 w.store.sheetNamed? = .ok f ∧
      Formula.parse d.source 0 w.store.sheetNamed? = .ok d ∧
      Formula.parse f.source 1 (w.run [.appendSheet "U"]).store.sheetNamed? = .ok f := by
  refine (fun facts => ⟨facts, ?_⟩) (by cbv; exact ⟨rfl, rfl⟩)
  obtain ⟨hf, hd⟩ := facts
  obtain ⟨hcells, hnames, hlater, -⟩ := formulas_keep_their_reading .skip _
  have hread := hcells _ _ hf
  exact ⟨hread, hnames _ _ hd, hlater [.appendSheet "U"] _ _ _ hread⟩

end Workbook

end Spreadsheet
