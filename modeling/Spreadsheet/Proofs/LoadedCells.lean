/-
What the cells of a loaded model hold. Several keys of a sheet may be labels
of one cell, and then the last of them counts, in ascending order and among
those that are not listed as problems (`Model.exists_last`). Every other
entry that is not listed is in its cell as it stands in the model.
-/
import Spreadsheet.Proofs.Loading

namespace Spreadsheet

/-- What an entry of a sheet describes: a literal, or the formula that its source is read to. -/
inductive CellEntry.Describes (sheet : Nat) (sheetNamed? : String → Option Nat) :
    CellEntry → CellContent → Prop
  | boolean (truth : Bool) : Describes sheet sheetNamed? (.boolean truth) (.boolean truth)
  | number (value : Float) : Describes sheet sheetNamed? (.number value) (.number value)
  | text {content : String} : content.toList.head? ≠ some '=' →
      Describes sheet sheetNamed? (.text content) (.text content)
  | written {source : String} {f : Formula} : source.toList.head? = some '=' → f.source = source →
      Formula.parse source sheet sheetNamed? = .ok f →
      Describes sheet sheetNamed? (.text source) (.formula f none)
  | literal (content : String) : Describes sheet sheetNamed? (.literal content) (.text content)
  | formula {source : String} {f : Formula} : f.source = source →
      Formula.parse source sheet sheetNamed? = .ok f →
      Describes sheet sheetNamed? (.formula source) (.formula f none)

namespace Model

variable {m : Model}

theorem describes_content {w : Workbook} (hsheets : w.store.sheets = m.sheetNames)
    (cell : CellAddress) {sheetName key : String} {entry : CellEntry}
    (h : m.failure? (.cell cell.sheet sheetName key entry) = none) :
    ∃ content, (Operation.setCell cell entry.toInput).content w = some content ∧
      entry.Describes cell.sheet m.sheetNamed? content := by
  -- a source that is a formula is read to one that has it as its source
  have hread : ∀ source, entry.toInput = .formula source → ∃ f, f.source = source ∧
      w.readFormula cell.sheet source = .ok f ∧
      Formula.parse source cell.sheet m.sheetNamed? = .ok f := fun source hsource => by
    cases hparse : Formula.parse source cell.sheet m.sheetNamed? with
    | error cause => exact absurd h (cell_fails_iff.2 (.inr ⟨source, cause, hsource, hparse⟩))
    | ok f =>
      have hok := Workbook.readFormula_eq_ok.2 ((sheetNamed?_congr hsheets).symm ▸ hparse)
      exact ⟨f, Workbook.source_of_readFormula hok, hok, rfl⟩
  cases entry with
  | boolean truth => exact ⟨_, rfl, .boolean truth⟩
  | number value => exact ⟨_, rfl, .number value⟩
  | literal content => exact ⟨_, rfl, .literal content⟩
  | formula source =>
    obtain ⟨f, hsource, hok, hparse⟩ := hread source rfl
    exact ⟨.formula f none, by simp [CellEntry.toInput, Operation.content, hok, Except.toOption],
      .formula hsource hparse⟩
  | text content =>
    by_cases hequals : content.toList.head? = some '='
    · have hinput : (CellEntry.text content).toInput = .formula content := if_pos hequals
      obtain ⟨f, hsource, hok, hparse⟩ := hread content hinput
      exact ⟨.formula f none, by simp [hinput, Operation.content, hok, Except.toOption],
        .written hequals hsource hparse⟩
    · have hinput : (CellEntry.text content).toInput = .text content := if_neg hequals
      exact ⟨.text content, by simp [hinput, Operation.content], .text hequals⟩

/-! ## The last entry of a cell -/

/-- What an entry changes. -/
def Entry.target? (e : Entry) : Option EditTarget :=
  e.edit?.bind Operation.target?

theorem Entry.target?_eq_cell {e : Entry} {c : CellAddress} : e.target? = some (.cell c) ↔
    ∃ sheetName key entry, e = .cell c.sheet sheetName key entry ∧
      parseLabel key = some (c.row, c.col) := by
  cases e with
  | name n source => simp [target?, edit?, Operation.target?]
  | cell sheet sheetName key entry =>
    obtain ⟨cellSheet, row, col⟩ := c
    cases hkey : parseLabel key with
    | none => simp [target?, edit?, hkey]
    | some position =>
      obtain ⟨r, k⟩ := position
      simp [target?, edit?, Operation.target?, hkey]

/-- **Of the entries that change one thing, the last one counts.** -/
theorem exists_last {t : EditTarget} {e : Entry} (ht : e.target? = some t) {entries : List Entry}
    (h : entries.Pairwise Entry.Precedes) (he : e ∈ entries) :
    ∃ last ∈ entries, (e = last ∨ e.Precedes last) ∧ last.target? = some t ∧
      (∀ later ∈ entries, last.Precedes later → later.target? ≠ some t) ∧
      Operation.lastOn t (entries.filterMap Entry.edit?) = last.edit? := by
  induction entries using List.reverseRecOn with
  | nil => cases he
  | append_singleton entries x ih =>
    obtain ⟨hentries, -, hx⟩ := List.pairwise_append.1 h
    have hbefore : ∀ f ∈ entries, f.Precedes x := fun f hf => hx f hf x List.mem_cons_self
    have hcases : ∀ f ∈ entries ++ [x], f ∈ entries ∨ f = x := fun f hf => by simpa using hf
    by_cases hxt : x.target? = some t
    · obtain ⟨o, ho, hot⟩ := Option.bind_eq_some_iff.1 hxt
      refine ⟨x, by simp, (hcases e he).symm.imp_right (hbefore e), hxt,
        fun later hlater hafter => ?_, ?_⟩
      · rcases hcases later hlater with hl | rfl
        · exact absurd hafter (hbefore later hl).asymm
        · exact absurd hafter hafter.asymm
      · rw [List.filterMap_append, List.filterMap_cons, ho, List.filterMap_nil,
          Operation.lastOn_concat, if_pos hot]
    · obtain ⟨last, hlast, hle, hlt, hno, hon⟩ :=
        ih hentries ((hcases e he).resolve_right fun hex => hxt (hex ▸ ht))
      refine ⟨last, List.mem_append_left _ hlast, hle, hlt, fun later hlater hafter => ?_, ?_⟩
      · rcases hcases later hlater with hl | rfl
        · exact hno later hl hafter
        · exact hxt
      · rw [List.filterMap_append, ← hon]
        cases ho : x.edit? with
        | none => rw [List.filterMap_cons, ho, List.filterMap_nil, List.append_nil]
        | some o =>
          rw [List.filterMap_cons, ho, List.filterMap_nil, Operation.lastOn_concat, if_neg]
          rwa [Entry.target?, ho] at hxt

/-- **What a cell holds after loading**: what the last edit of it has put there, or else nothing. -/
theorem get?_loaded (h : m.sheetNames.Nodup) (c : CellAddress) :
    (m.blank.run m.edits).store.get? c =
      (Operation.lastOn (.cell c) m.edits).bind fun o => o.content m.blank := by
  obtain ⟨-, -, hblank⟩ := appendSheets_eq_blank h
  have hafter := m.blank_reachable.after m.edits (fun _ => isEdit_of_mem_edits) (blank_succeeds h)
  by_cases hc : c ∈ (m.blank.run m.edits).dirty
  · rw [(m.blank_reachable.run m.edits).dirtyOK.get?_eq_cleared? hc, hafter.cleared]
    cases Operation.lastOn (.cell c) m.edits with
    | some o => rfl
    | none => rw [Store.cleared?, hblank]; rfl
  · have huntouched : ¬ Operation.Touches m.edits (.cell c) := fun ht =>
      hc ((hafter.dirty c).2 (.touched (.inl ht)))
    rw [hafter.clean c hc, hblank, Operation.lastOn_eq_none_iff.2 huntouched]
    rfl

/-- Of the sound entries of a sheet whose keys are labels of one cell there is a last one, and the
last edit of the cell is the one that it asks for. -/
theorem exists_last_key {i : Nat} {sheet : SheetModel} (hsheet : m.sheets[i]? = some sheet)
    {key : String} {entry : CellEntry} (hsound : .cell i sheet.name key entry ∈ m.sound)
    {row col : UInt32} (hkey : parseLabel key = some (row, col)) :
    ∃ last spec, parseLabel last = some (row, col) ∧ (key = last ∨ key < last) ∧
      .cell i sheet.name last spec ∈ m.sound ∧
      (∀ later other, .cell i sheet.name later other ∈ m.sound → last < later →
        parseLabel later ≠ some (row, col)) ∧
      Operation.lastOn (.cell ⟨i, row, col⟩) m.edits =
        some (.setCell ⟨i, row, col⟩ spec.toInput) := by
  obtain ⟨last, hlast, hle, htarget, hlater, hcounts⟩ :=
    exists_last (t := .cell ⟨i, row, col⟩) (Entry.target?_eq_cell.2 ⟨_, _, _, rfl, hkey⟩)
      (m.entries_ordered.filter _) hsound
  obtain ⟨sheetName, lastKey, spec, rfl, hlabel⟩ := Entry.target?_eq_cell.1 htarget
  obtain ⟨s, hs, rfl, -⟩ := cell_mem_entries.1 (mem_sound.1 hlast).1
  obtain rfl : s = sheet := Option.some.inj (hs.symm.trans hsheet)
  refine ⟨lastKey, spec, hlabel, ?_, hlast, fun later other hother hafter hsame => ?_, ?_⟩
  · rcases hle with heq | hbefore
    · exact .inl (Entry.cell.inj heq).2.2.1
    · exact .inr (hbefore.resolve_left (Nat.lt_irrefl i)).2
  · exact hlater _ hother (.inr ⟨rfl, hafter⟩) (Entry.target?_eq_cell.2 ⟨_, _, _, rfl, hsame⟩)
  · exact hcounts.trans (by simp [Entry.edit?, hlabel])

/-- **Of the keys that mean one cell, the last one that can be loaded stays.** Every entry of a
sheet is listed as a problem, or its key is a label of a cell. That cell holds exactly what an entry
of the sheet describes: the last one, in ascending order of the keys, that is not listed and whose
key is a label of the cell too. It is the entry itself unless a later one takes its place in this
way. -/
theorem load_keeps_last (m : Model) {l : Loaded} (h : m.load = .ok l) {i : Nat} {sheet : SheetModel}
    (hsheet : m.sheets[i]? = some sheet) {key : String} {entry : CellEntry}
    (hentry : sheet.cells[key]? = some entry) :
    let listed : String → Prop := fun k => .cell sheet.name k ∈ l.problems.map Problem.entry
    listed key ∨ ∃ row col last spec content,
      parseLabel key = some (row, col) ∧ parseLabel last = some (row, col) ∧
      (key = last ∨ key < last) ∧ sheet.cells[last]? = some spec ∧ ¬ listed last ∧
      (∀ later ∈ sheet.cells, last < later → parseLabel later = some (row, col) → listed later) ∧
      l.workbook.store.get? ⟨i, row, col⟩ = some content ∧
      spec.Describes i m.sheetNamed? content := by
  intro listed
  have hnames : m.sheetNames.Nodup := nodup_of_load h
  obtain rfl := Except.ok.inj (h.symm.trans (load_eq hnames))
  have hsound : ∀ {k : String} {spec : CellEntry}, sheet.cells[k]? = some spec →
      (.cell i sheet.name k spec ∈ m.sound ↔ ¬ listed k) := fun hk =>
    mem_sound_iff_unlisted hnames (cell_mem_entries.2 ⟨sheet, hsheet, rfl, hk⟩)
  refine or_iff_not_imp_left.2 fun hunlisted => ?_
  have hkeySound := (hsound hentry).2 hunlisted
  obtain ⟨row, col, hkey⟩ : ∃ row col, parseLabel key = some (row, col) := by
    cases hkey : parseLabel key with
    | none => exact absurd (mem_sound.1 hkeySound).2 (cell_fails_iff.2 (.inl hkey))
    | some position => exact ⟨_, _, rfl⟩
  obtain ⟨last, spec, hlast, hle, hlastSound, hlater, hcounts⟩ :=
    exists_last_key hsheet hkeySound hkey
  obtain ⟨s, hs, -, hspec⟩ := cell_mem_entries.1 (mem_sound.1 hlastSound).1
  obtain rfl : s = sheet := Option.some.inj (hs.symm.trans hsheet)
  obtain ⟨content, hcontent, hdescribes⟩ :=
    describes_content (appendSheets_eq_blank hnames).2.1 ⟨i, row, col⟩ (mem_sound.1 hlastSound).2
  refine ⟨row, col, last, spec, content, hkey, hlast, hle, hspec, (hsound hspec).1 hlastSound,
    fun later hmore hafter hlabel => ?_, ?_, hdescribes⟩
  · by_contra hfine
    obtain ⟨other, hother⟩ :=
      Option.isSome_iff_exists.1 (Std.ExtTreeMap.mem_iff_isSome_getElem?.1 hmore)
    exact hlater later other ((hsound hother).2 hfine) hafter hlabel
  · exact (get?_loaded hnames _).trans (by rw [hcounts, Option.bind_some, hcontent])

/-- Three labels of one cell, the last of them with a formula that cannot be read: the formula
before it stays. -/
theorem load_keeps_last_label :
    let sheet : SheetModel := ⟨"S", Std.ExtTreeMap.ofList
      [("A1", CellEntry.text "x"), ("a$1", CellEntry.text "=B1"), ("a1", CellEntry.formula "=B1+")]⟩
    let m : Model := ⟨.skip, ∅, [sheet]⟩
    let l : Loaded :=
      ⟨m.blank.run m.edits, [⟨.cell "S" "a1", .formula "=B1+" ⟨.unexpectedEnd, 4⟩⟩]⟩
    (m.load = .ok l ∧ m.sheets[0]? = some sheet ∧ sheet.cells["A1"]? = some (.text "x")) ∧
      ∃ f, f.source = "=B1" ∧ l.workbook.store.get? ⟨0, 0, 0⟩ = some (.formula f none) := by
  intro sheet m l
  have hnames : m.sheetNames.Nodup := List.nodup_singleton _
  have hfailures : m.failures = l.problems := by cbv
  have hload : m.load = .ok l := by rw [load_eq hnames, hfailures]
  have hcells : sheet.cells.toList =
      [("A1", .text "x"), ("a$1", .text "=B1"), ("a1", .formula "=B1+")] := by cbv
  have hentry : ∀ {k spec}, sheet.cells[k]? = some spec ↔ (k, spec) ∈ sheet.cells.toList :=
    Std.ExtTreeMap.mem_toList_iff_getElem?_eq_some.symm
  rw [hcells] at hentry
  have hfirst : sheet.cells["A1"]? = some (.text "x") := hentry.2 (by simp)
  have hsecond : "a$1" ∈ sheet.cells := Std.ExtTreeMap.mem_iff_isSome_getElem?.2
    (Option.isSome_of_eq_some (hentry.2 (show ("a$1", CellEntry.text "=B1") ∈ _ by simp)))
  refine ⟨⟨hload, rfl, hfirst⟩, ?_⟩
  obtain ⟨row, col, last, spec, content, hkey, -, -, hspec, hfine, hlater, hget, hdescribes⟩ :=
    (load_keeps_last m hload (i := 0) rfl hfirst).resolve_left (by simp [l])
  have hfirstKey : parseLabel "A1" = some (0, 0) := by cbv
  obtain ⟨rfl, rfl⟩ : 0 = row ∧ 0 = col := by simpa using hfirstKey.symm.trans hkey
  have hcases := hentry.1 hspec
  simp only [List.mem_cons, Prod.mk.injEq, List.not_mem_nil, or_false] at hcases
  rcases hcases with ⟨rfl, -⟩ | ⟨-, rfl⟩ | ⟨rfl, -⟩
  · have hlisted := hlater "a$1" hsecond (by decide) (by cbv)
    simp [l] at hlisted
  · cases hdescribes with
    | text hplain => exact absurd (by decide) hplain
    | written _ hsource _ => exact ⟨_, hsource, hget⟩
  · exact absurd (by simp [l, sheet]) hfine

/-- Two labels of one cell: the entry of the first is gone, and nothing says so. -/
theorem load_replaces_entry :
    let sheet : SheetModel :=
      ⟨"S", Std.ExtTreeMap.ofList [("A1", CellEntry.text "x"), ("a1", CellEntry.text "y")]⟩
    let m : Model := ⟨.skip, ∅, [sheet]⟩
    ∃ l, m.load = .ok l ∧ l.problems = [] ∧ sheet.cells["A1"]? = some (.text "x") ∧
      parseLabel "A1" = some (0, 0) ∧ l.workbook.store.get? ⟨0, 0, 0⟩ = some (.text "y") ∧
      ∀ content, (CellEntry.text "x").Describes 0 m.sheetNamed? content →
        l.workbook.store.get? ⟨0, 0, 0⟩ ≠ some content := by
  intro sheet m
  have hnames : m.sheetNames.Nodup := List.nodup_singleton _
  have hproblems : m.failures = [] := by cbv
  have hentry : sheet.cells["A1"]? = some (.text "x") := by cbv
  have hcell : (m.blank.run m.edits).store.get? ⟨0, 0, 0⟩ = some (.text "y") := by cbv
  refine ⟨_, load_eq hnames, hproblems, hentry, by cbv, hcell, fun content hx => ?_⟩
  rw [hcell]
  cases hx with
  | text _ => simp
  | written hequals => exact absurd hequals (by decide)

end Model

end Spreadsheet
