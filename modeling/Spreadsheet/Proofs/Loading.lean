/-
What is loaded from a model. Appending the sheets gives a workbook that
holds nothing (`Model.blank`), and each entry is then an edit of it or a
problem. An edit fails or succeeds whatever was loaded before it, and one
that fails changes nothing, so loading runs the edits of the sound entries
and lists the others (`Model.load_eq`). Hence a model is loaded to the same
workbook without the entries that fail, and a cell keeps the last entry
written to it.
-/
import Spreadsheet.Proofs.Confluence
import Spreadsheet.Proofs.Entries
import Spreadsheet.Proofs.Printing

namespace Spreadsheet

/-- What loading an entry does to a workbook. -/
def Model.Entry.attempt (w : Workbook) : Model.Entry → Workbook × Except Failure Unit
  | .name n source => w.defineName n source
  | .cell sheet _ key entry => Loaded.writeEntry w sheet key entry

/-- Loads an entry. -/
def Loaded.add (l : Loaded) (e : Model.Entry) : Loaded :=
  l.note e.place (e.attempt l.workbook)

namespace Model

variable {m : Model}

/-- The workbook with the sheets of a model and nothing in them. -/
def blank (m : Model) : Workbook :=
  (Workbook.empty m.policy).run (m.sheets.map fun s => .appendSheet s.name)

/-- The edits that the sound entries ask for. -/
def edits (m : Model) : List Operation :=
  m.sound.filterMap Entry.edit?

theorem isEdit_of_mem_edits {o : Operation} (h : o ∈ m.edits) : o.isEdit = true := by
  obtain ⟨e, -, he⟩ := List.mem_filterMap.1 h
  exact Entry.isEdit_of_edit? he

/-! ## The sheets -/

theorem appendSheets_eq : ∀ (sheets : List SheetModel) {w : Workbook},
    (w.store.sheets ++ sheets.map SheetModel.name).Nodup →
      let u := w.run (sheets.map fun s => .appendSheet s.name)
      appendSheets w sheets = .ok u ∧
        u.store.sheets = w.store.sheets ++ sheets.map SheetModel.name ∧
        u.store.cells = w.store.cells
  | [], _, _ => ⟨rfl, (List.append_nil _).symm, rfl⟩
  | s :: sheets, w, h => by
    have hnew : s.name ∉ w.store.sheets := fun hmem =>
      (List.nodup_append.1 h).2.2 _ hmem _ List.mem_cons_self rfl
    have happend : w.appendSheet s.name =
        ({ w with store := w.store.addSheet s.name }, .ok w.store.sheetCount) := by
      rw [Workbook.appendSheet, Store.sheetNamed?_eq_none.2 hnew]
    obtain ⟨hrest, hsheets, hcells⟩ := appendSheets_eq sheets
      (w := { w with store := w.store.addSheet s.name }) (by simpa [Store.addSheet] using h)
    simp only [List.map_cons, Workbook.run_cons, Operation.perform, appendSheets, happend]
    exact ⟨hrest, by rw [hsheets]; simp [Store.addSheet], hcells⟩

theorem nodup_of_appendSheets : ∀ {sheets : List SheetModel} {w u : Workbook},
    w.store.sheets.Nodup → appendSheets w sheets = .ok u →
      (w.store.sheets ++ sheets.map SheetModel.name).Nodup
  | [], w, _, hw, _ => by simpa using hw
  | s :: sheets, w, u, hw, h => by
    cases hname : w.store.sheetNamed? s.name with
    | some i => simp [appendSheets, Workbook.appendSheet, hname] at h
    | none =>
      simp only [appendSheets, Workbook.appendSheet, hname] at h
      have hnodup : (w.store.sheets ++ [s.name]).Nodup :=
        List.nodup_append.2 ⟨hw, List.nodup_singleton _, fun a ha b hb hab =>
          Store.sheetNamed?_eq_none.1 hname (List.mem_singleton.1 hb ▸ hab ▸ ha)⟩
      simpa [Store.addSheet] using nodup_of_appendSheets hnodup h

theorem blank_reachable (m : Model) : m.blank.Reachable :=
  ⟨m.policy, _, rfl⟩

theorem appendSheets_eq_blank (h : m.sheetNames.Nodup) :
    appendSheets (.empty m.policy) m.sheets = .ok m.blank ∧
      m.blank.store.sheets = m.sheetNames ∧ ∀ c, m.blank.store.get? c = none := by
  obtain ⟨happend, hsheets, hcells⟩ := appendSheets_eq m.sheets (w := .empty m.policy) h
  refine ⟨happend, hsheets, fun c => ?_⟩
  rw [Store.get?, blank, hcells]
  exact Std.ExtTreeMap.getElem?_empty

/-! ## One entry -/

theorem sheetNamed?_congr {w : Workbook} (h : w.store.sheets = m.sheetNames) :
    w.store.sheetNamed? = m.sheetNamed? := by
  funext name
  rw [Store.sheetNamed?, h, sheetNamed?]

/-- Whether an entry fails is known from the entry and the names of the sheets. -/
theorem attempt_snd {w : Workbook} (hsheets : w.store.sheets = m.sheetNames) {e : Entry}
    (he : e ∈ m.entries) : (e.attempt w).2 = match m.failure? e with
      | none => .ok ()
      | some failure => .error failure := by
  have hfind := sheetNamed?_congr hsheets
  have hlength : w.store.sheets.length = m.sheets.length := by
    rw [hsheets, sheetNames, List.length_map]
  cases e with
  | name n source =>
    have hchecked : w.checkSheet 0 =
        if m.sheets.isEmpty then .error (.unknownSheet "#0") else .ok () := by
      rw [Workbook.checkSheet, Store.hasSheet, hlength]
      cases m.sheets with
      | nil => rfl
      | cons s sheets => simp
    simp only [Entry.attempt, Workbook.defineName, failure?, hchecked, Workbook.readFormula, hfind,
      sourceFailure?]
    cases isValidName n with
    | false => rfl
    | true =>
      cases m.sheets.isEmpty with
      | true => rfl
      | false => cases Formula.parse source 0 m.sheetNamed? <;> rfl
  | cell sheet sheetName key entry =>
    obtain ⟨s, hs, -⟩ := cell_mem_entries.1 he
    have hchecked : w.checkSheet sheet = .ok () := by
      rw [Workbook.checkSheet_ok, Store.hasSheet, hlength]
      simpa using (List.getElem?_eq_some_iff.1 hs).1
    simp only [Entry.attempt, Loaded.writeEntry, failure?]
    cases parseLabel key with
    | none => rfl
    | some position =>
      simp only [Workbook.setCell, hchecked]
      cases entry.toInput with
      | number _ | text _ | boolean _ => rfl
      | formula source =>
        simp only [Workbook.setFormula, Workbook.readFormula, hfind, sourceFailure?]
        cases Formula.parse source sheet m.sheetNamed? <;> rfl

theorem attempt_eq_perform {w : Workbook} {e : Entry} (h : (e.attempt w).2 = .ok ()) :
    ∃ o, e.edit? = some o ∧ e.attempt w = o.perform w := by
  cases e with
  | name n source => exact ⟨_, rfl, rfl⟩
  | cell sheet sheetName key entry =>
    simp only [Entry.attempt, Loaded.writeEntry, Entry.edit?] at h ⊢
    cases hkey : parseLabel key with
    | none => simp [hkey] at h
    | some position => exact ⟨_, rfl, rfl⟩

theorem attempt_failed {w : Workbook} {e : Entry} (h : (e.attempt w).2 ≠ .ok ()) :
    (e.attempt w).1 = w := by
  cases e with
  | name n source => exact Workbook.perform_failed (o := .defineName n source) h
  | cell sheet sheetName key entry =>
    simp only [Entry.attempt, Loaded.writeEntry] at h ⊢
    cases hkey : parseLabel key with
    | none => rfl
    | some position =>
      rw [hkey] at h
      exact Workbook.perform_failed (o := .setCell ⟨sheet, position.1, position.2⟩ entry.toInput) h

/-! ## All entries -/

/-- **Entries loaded one after another**, into any workbook with the sheets of the model: the edits
of those that do not fail are run, and the others are listed. -/
theorem foldl_add : ∀ {entries : List Entry} {w : Workbook} (problems : List Problem),
    (∀ e ∈ entries, e ∈ m.entries) → w.Reachable → w.store.sheets = m.sheetNames →
      let edits := (entries.filter fun e => (m.failure? e).isNone).filterMap Entry.edit?
      w.Succeeds edits ∧ entries.foldl Loaded.add ⟨w, problems⟩ = ⟨w.run edits, problems ++
        entries.filterMap fun e => (m.failure? e).map (Problem.mk e.place)⟩
  | [], w, problems, _, _, _ => ⟨trivial, by simp [Workbook.run_nil]⟩
  | e :: entries, w, problems, hentries, hw, hsheets => by
    have hrest : ∀ f ∈ entries, f ∈ m.entries := fun f hf => hentries f (List.mem_cons_of_mem _ hf)
    have houtcome := attempt_snd hsheets (hentries e List.mem_cons_self)
    cases hfails : m.failure? e with
    | none =>
      rw [hfails] at houtcome
      obtain ⟨o, ho, hperform⟩ := attempt_eq_perform houtcome
      rw [hperform] at houtcome
      have hsame := (Workbook.perform_effect hw.wiredOK (Entry.isEdit_of_edit? ho) houtcome).sheets
      obtain ⟨hok, hfold⟩ := foldl_add problems hrest (hw.perform o) (hsame.trans hsheets)
      have hadd : Loaded.add ⟨w, problems⟩ e = ⟨(o.perform w).1, problems⟩ := by
        simp only [Loaded.add, Loaded.note, hperform, houtcome]
      simp only [List.filter_cons, hfails, Option.isNone_none, if_true, List.filterMap_cons, ho,
        Option.map_none, List.foldl_cons, hadd, Workbook.run_cons]
      exact ⟨⟨houtcome, hok⟩, hfold⟩
    | some failure =>
      rw [hfails] at houtcome
      have hadd : Loaded.add ⟨w, problems⟩ e = ⟨w, problems ++ [⟨e.place, failure⟩]⟩ := by
        have hkept : (e.attempt w).1 = w := attempt_failed (by simp [houtcome])
        simp only [Loaded.add, Loaded.note, houtcome, hkept]
      obtain ⟨hok, hfold⟩ := foldl_add (problems ++ [⟨e.place, failure⟩]) hrest hw hsheets
      simp only [List.filter_cons, hfails, Option.isNone_some, Bool.false_eq_true, if_false,
        List.filterMap_cons, Option.map_some, List.foldl_cons, hadd]
      exact ⟨hok, by rw [hfold, List.append_assoc, List.singleton_append]⟩

theorem load_eq_map (m : Model) : m.load =
    (appendSheets (.empty m.policy) m.sheets).map fun w => m.entries.foldl Loaded.add ⟨w, []⟩ := by
  simp only [load, entries, List.foldl_append, List.foldl_map, List.foldl_flatMap]
  rfl

/-- **What is loaded from a model** if no two of its sheets have one name. -/
theorem load_eq (h : m.sheetNames.Nodup) : m.load = .ok ⟨m.blank.run m.edits, m.failures⟩ := by
  obtain ⟨happend, hsheets, -⟩ := appendSheets_eq_blank h
  rw [load_eq_map, happend]
  exact congrArg Except.ok (foldl_add [] (fun _ => id) m.blank_reachable hsheets).2

theorem nodup_of_load {l : Loaded} (h : m.load = .ok l) : m.sheetNames.Nodup := by
  rw [load] at h
  cases happend : appendSheets (.empty m.policy) m.sheets with
  | error failure => rw [happend] at h; cases h
  | ok w => exact nodup_of_appendSheets (w := .empty m.policy) List.nodup_nil happend

theorem blank_succeeds (h : m.sheetNames.Nodup) : m.blank.Succeeds m.edits :=
  (foldl_add [] (fun _ => id) m.blank_reachable (appendSheets_eq_blank h).2.1).1

/-! ## Entries that fail leave no trace -/

theorem entries_without_failures (h : m.sheetNames.Nodup) :
    (m.without (m.failures.map Problem.entry)).entries = m.sound := by
  rw [entries_without, sound]
  refine List.filter_congr fun e he => ?_
  rw [Bool.eq_iff_iff, decide_eq_true_iff, ← mem_sound_iff_unlisted h he, mem_sound,
    and_iff_right he, Option.isNone_iff_eq_none]

theorem load_without_failures (h : m.sheetNames.Nodup) :
    (m.without (m.failures.map Problem.entry)).load = .ok ⟨m.blank.run m.edits, []⟩ := by
  have hnames := m.sheetNames_without (m.failures.map Problem.entry)
  have hentries := entries_without_failures h
  have hfailure := m.failure?_without (m.failures.map Problem.entry)
  have hblank : (m.without (m.failures.map Problem.entry)).blank = m.blank := by
    simp [blank, without, Function.comp_def]
  have hsound : (m.without (m.failures.map Problem.entry)).sound = m.sound := by
    rw [sound, hentries, hfailure, List.filter_eq_self]
    exact fun e he => Option.isNone_iff_eq_none.2 (mem_sound.1 he).2
  have hfailures : (m.without (m.failures.map Problem.entry)).failures = [] := by
    rw [failures, hentries, hfailure, List.filterMap_eq_nil_iff]
    intro e he
    rw [(mem_sound.1 he).2, Option.map_none]
  rw [load_eq (hnames ▸ h), hblank, hfailures, edits, hsound, edits]

/-- **Entries that fail leave no trace.** A model whose sheets have different names is loaded, and
without the entries that are listed as problems it is loaded to the same workbook: the same contents
and names, the same edges and watched rectangles, the same dirty cells. Listed are the entries that
fail by themselves, in the order of loading: a name that is not valid, that has no sheet to stand on
or whose source cannot be read, and a cell whose key is no label or whose formula cannot be read. -/
theorem load_without_problems (m : Model) (h : m.sheetNames.Nodup) :
    ∃ l, m.load = .ok l ∧
      (m.without (l.problems.map Problem.entry)).load = .ok ⟨l.workbook, []⟩ ∧
      l.problems = (m.entries.filterMap fun e => (m.failure? e).map (Problem.mk e.place)) ∧
      m.entries.Pairwise Entry.Precedes ∧
      (∀ name source, m.names[name]? = some source →
        (.name name ∈ l.problems.map Problem.entry ↔
          isValidName name = false ∨ m.sheets = [] ∨
            ∃ cause, Formula.parse source 0 m.sheetNamed? = .error cause)) ∧
      ∀ (i : Nat) sheet key entry, m.sheets[i]? = some sheet → sheet.cells[key]? = some entry →
        (.cell sheet.name key ∈ l.problems.map Problem.entry ↔
          parseLabel key = none ∨ ∃ source cause, entry.toInput = .formula source ∧
            Formula.parse source i m.sheetNamed? = .error cause) := by
  refine ⟨_, load_eq h, load_without_failures h, rfl, m.entries_ordered,
    fun name source hname => ?_, fun i sheet key entry hsheet hentry => ?_⟩
  · exact (place_mem_failures h (name_mem_entries.2 hname)).trans name_fails_iff
  · exact (place_mem_failures h (cell_mem_entries.2 ⟨sheet, hsheet, rfl, hentry⟩)).trans
      cell_fails_iff

/-- A name and two cells that fail beside a name and a cell that do not. -/
theorem load_without_problems_mixed :
    let cells := Std.ExtTreeMap.ofList
      [("A0", CellEntry.text "x"), ("A1", CellEntry.text "=rate"), ("B1", CellEntry.text "=SUM(A1")]
    let m : Model :=
      ⟨.skip, Std.ExtTreeMap.ofList [("1x", "S!A1"), ("rate", "S!B2+A1")], [⟨"S", cells⟩]⟩
    let problems : List Problem := [⟨.name "1x", .invalidName "1x"⟩,
      ⟨.cell "S" "A0", .invalidAddress "A0"⟩,
      ⟨.cell "S" "B1", .formula "=SUM(A1" ⟨.unbalancedParen, 4⟩⟩]
    m.sheetNames.Nodup ∧ ∃ w, m.load = .ok ⟨w, problems⟩ ∧
      (m.without [.name "1x", .cell "S" "A0", .cell "S" "B1"]).load = .ok ⟨w, []⟩ := by
  intro cells m problems
  have hnames : m.sheetNames.Nodup := List.nodup_singleton _
  obtain ⟨l, hload, hwithout, hproblems, -⟩ := load_without_problems m hnames
  have hlisted : l.problems = problems := hproblems.trans (by cbv)
  rw [hlisted] at hwithout
  exact ⟨hnames, l.workbook, hlisted ▸ hload, hwithout⟩

end Model

end Spreadsheet
