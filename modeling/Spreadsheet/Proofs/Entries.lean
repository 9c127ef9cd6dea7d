/-
Models entry by entry. The entries of a model stand in the order in which
they are loaded: names first, then cells sheet by sheet, each in ascending
order (`Model.entries_ordered`). Whether an entry fails is said without
loading anything: the entry itself and the names of the sheets decide it
(`Model.failure?`). Entries that fail can be taken out, which leaves all
others where they were (`Model.entries_without`).
-/
import Spreadsheet.Model.Load
import Spreadsheet.Workbook.History

namespace Spreadsheet

/-- An entry of a model: the source of a name, or an entry of a sheet with the number of the
sheet. -/
inductive Model.Entry where
  | name (name source : String)
  | cell (sheet : Nat) (sheetName key : String) (entry : CellEntry)

namespace Model

namespace Entry

/-- Where an entry stands. -/
def place : Entry → EntryPlace
  | name n _ => .name n
  | cell _ sheetName key _ => .cell sheetName key

/-- Whether an entry is loaded before another: names before cells, names and the cells of a sheet
in ascending order. -/
def Precedes : Entry → Entry → Prop
  | name n _, name other _ => n < other
  | name _ _, cell _ _ _ _ => True
  | cell _ _ _ _, name _ _ => False
  | cell sheet _ key _, cell otherSheet _ other _ =>
    sheet < otherSheet ∨ sheet = otherSheet ∧ key < other

theorem Precedes.asymm {e f : Entry} (h : e.Precedes f) : ¬ f.Precedes e := by
  cases e with
  | name n source =>
    cases f with
    | name other otherSource => exact String.lt_asymm h
    | cell _ _ _ _ => exact id
  | cell sheet sheetName key entry =>
    cases f with
    | name _ _ => cases h
    | cell other otherName otherKey otherEntry =>
      rintro (hback | ⟨rfl, hback⟩)
      · rcases h with h | ⟨rfl, -⟩ <;> omega
      · exact String.lt_asymm (h.resolve_left (Nat.lt_irrefl _)).2 hback

/-- The edit that an entry asks for, unless its key is no label of a cell. -/
def edit? : Entry → Option Operation
  | name n source => some (.defineName n source)
  | cell sheet _ key entry =>
    (parseLabel key).map fun position => .setCell ⟨sheet, position.1, position.2⟩ entry.toInput

theorem isEdit_of_edit? {e : Entry} {o : Operation} (h : e.edit? = some o) : o.isEdit = true := by
  cases e with
  | name n source =>
    obtain rfl := Option.some.inj h
    rfl
  | cell sheet sheetName key entry =>
    obtain ⟨position, -, rfl⟩ := Option.map_eq_some_iff.1 h
    rfl

end Entry

/-- The names of the sheets in order. -/
def sheetNames (m : Model) : List String :=
  m.sheets.map SheetModel.name

/-- The sheet with a name. -/
def sheetNamed? (m : Model) (name : String) : Option Nat :=
  m.sheetNames.findIdx? (· == name)

/-- The entries in the order in which they are loaded. -/
def entries (m : Model) : List Entry :=
  m.names.toList.map (fun e => .name e.1 e.2) ++
    m.sheets.zipIdx.flatMap fun s => s.1.cells.toList.map fun e => .cell s.2 s.1.name e.1 e.2

/-- Why a text on a sheet is no formula. -/
def sourceFailure? (m : Model) (sheet : Nat) (source : String) : Option Failure :=
  match Formula.parse source sheet m.sheetNamed? with
  | .ok _ => none
  | .error cause => some (.formula source cause)

/-- Why an entry fails by itself. -/
def failure? (m : Model) : Entry → Option Failure
  | .name n source =>
    if isValidName n then
      if m.sheets.isEmpty then some (.unknownSheet "#0") else m.sourceFailure? 0 source
    else some (.invalidName n)
  | .cell sheet _ key entry =>
    match parseLabel key with
    | none => some (.invalidAddress key)
    | some _ =>
      match entry.toInput with
      | .formula source => m.sourceFailure? sheet source
      | .number _ | .text _ | .boolean _ => none

/-- The problems of the entries that fail by themselves. -/
def failures (m : Model) : List Problem :=
  m.entries.filterMap fun e => (m.failure? e).map (Problem.mk e.place)

/-- The entries that do not fail by themselves. -/
def sound (m : Model) : List Entry :=
  m.entries.filter fun e => (m.failure? e).isNone

/-- A model without the entries at some places. -/
def without (m : Model) (places : List EntryPlace) : Model where
  policy := m.policy
  names := m.names.filter fun n _ => decide (.name n ∉ places)
  sheets := m.sheets.map fun s =>
    { s with cells := s.cells.filter fun key _ => decide (.cell s.name key ∉ places) }

variable {m : Model}

/-! ## Entries -/

theorem name_mem_entries {n source : String} :
    .name n source ∈ m.entries ↔ m.names[n]? = some source := by
  simp [entries, Std.ExtTreeMap.mem_toList_iff_getElem?_eq_some]

theorem cell_mem_entries {sheet : Nat} {sheetName key : String} {entry : CellEntry} :
    .cell sheet sheetName key entry ∈ m.entries ↔
      ∃ s, m.sheets[sheet]? = some s ∧ s.name = sheetName ∧ s.cells[key]? = some entry := by
  simp only [entries, List.mem_append, List.mem_map, List.mem_flatMap, reduceCtorEq, and_false,
    exists_false, false_or, Entry.cell.injEq]
  constructor
  · rintro ⟨⟨s, i⟩, hs, ⟨k, v⟩, hkv, rfl, rfl, rfl, rfl⟩
    exact ⟨s, List.mem_zipIdx_iff_getElem?.1 hs, rfl,
      Std.ExtTreeMap.mem_toList_iff_getElem?_eq_some.1 hkv⟩
  · rintro ⟨s, hs, rfl, hentry⟩
    exact ⟨(s, sheet), List.mem_zipIdx_iff_getElem?.2 hs, (key, entry),
      Std.ExtTreeMap.mem_toList_iff_getElem?_eq_some.2 hentry, rfl, rfl, rfl, rfl⟩

/-- **Entries stand in the order in which they are loaded.** -/
theorem entries_ordered (m : Model) : m.entries.Pairwise Entry.Precedes := by
  have hlt : ∀ {a b : String}, compare a b = .lt → a < b := fun h => compareOfLessAndEq_eq_lt.1 h
  refine List.pairwise_append.2 ⟨?_, List.pairwise_flatMap.2 ⟨fun s _ => ?_, ?_⟩, ?_⟩
  · exact List.pairwise_map.2 (Std.ExtTreeMap.ordered_keys_toList.imp fun h => hlt h)
  · exact List.pairwise_map.2 (Std.ExtTreeMap.ordered_keys_toList.imp fun h => .inr ⟨rfl, hlt h⟩)
  · have hnumbers : m.sheets.zipIdx.Pairwise fun s t => s.2 < t.2 := by
      rw [← List.pairwise_map, List.zipIdx_map_snd]
      exact List.pairwise_lt_range'
    refine hnumbers.imp fun hst e he f hf => ?_
    obtain ⟨-, -, rfl⟩ := List.mem_map.1 he
    obtain ⟨-, -, rfl⟩ := List.mem_map.1 hf
    exact .inl hst
  · intro e he f hf
    obtain ⟨-, -, rfl⟩ := List.mem_map.1 he
    obtain ⟨s, -, hf⟩ := List.mem_flatMap.1 hf
    obtain ⟨-, -, rfl⟩ := List.mem_map.1 hf
    trivial

/-- If no two sheets have one name, the place of an entry tells which entry it is. -/
theorem place_inj (hnames : m.sheetNames.Nodup) {e f : Entry} (he : e ∈ m.entries)
    (hf : f ∈ m.entries) (h : e.place = f.place) : e = f := by
  cases e with
  | name n source =>
    cases f with
    | cell => cases h
    | name other otherSource =>
      obtain rfl := EntryPlace.name.inj h
      rw [name_mem_entries] at he hf
      rw [Option.some.inj (he.symm.trans hf)]
  | cell sheet sheetName key entry =>
    cases f with
    | name => cases h
    | cell other otherName otherKey otherEntry =>
      obtain ⟨rfl, rfl⟩ := EntryPlace.cell.inj h
      obtain ⟨s, hs, hname, hentry⟩ := cell_mem_entries.1 he
      obtain ⟨t, ht, hother, hotherEntry⟩ := cell_mem_entries.1 hf
      have hat : m.sheetNames[sheet]? = some sheetName := by
        rw [sheetNames, List.getElem?_map, hs, Option.map_some, hname]
      have hotherAt : m.sheetNames[other]? = some sheetName := by
        rw [sheetNames, List.getElem?_map, ht, Option.map_some, hother]
      obtain ⟨hlt, -⟩ := List.getElem?_eq_some_iff.1 hat
      obtain rfl : sheet = other := (List.getElem?_inj hlt hnames).1 (hat.trans hotherAt.symm)
      obtain rfl := Option.some.inj (hs.symm.trans ht)
      rw [Option.some.inj (hentry.symm.trans hotherEntry)]

/-! ## Entries that fail -/

theorem mem_sound {e : Entry} : e ∈ m.sound ↔ e ∈ m.entries ∧ m.failure? e = none := by
  simp [sound]

theorem place_mem_failures (hnames : m.sheetNames.Nodup) {e : Entry} (he : e ∈ m.entries) :
    e.place ∈ m.failures.map Problem.entry ↔ m.failure? e ≠ none := by
  simp only [failures, List.mem_map, List.mem_filterMap, Option.map_eq_some_iff]
  constructor
  · rintro ⟨-, ⟨f, hf, failure, hfailure, rfl⟩, hplace⟩
    rw [← place_inj hnames hf he hplace, hfailure]
    simp
  · intro hfails
    obtain ⟨failure, hfailure⟩ := Option.ne_none_iff_exists'.1 hfails
    exact ⟨_, ⟨e, he, failure, hfailure, rfl⟩, rfl⟩

theorem mem_sound_iff_unlisted (hnames : m.sheetNames.Nodup) {e : Entry} (he : e ∈ m.entries) :
    e ∈ m.sound ↔ e.place ∉ m.failures.map Problem.entry := by
  rw [mem_sound, place_mem_failures hnames he, and_iff_right he, Decidable.not_not]

theorem sourceFailure?_ne_none {sheet : Nat} {source : String} :
    m.sourceFailure? sheet source ≠ none ↔
      ∃ cause, Formula.parse source sheet m.sheetNamed? = .error cause := by
  unfold sourceFailure?
  cases Formula.parse source sheet m.sheetNamed? <;> simp

theorem name_fails_iff {n source : String} : m.failure? (.name n source) ≠ none ↔
    isValidName n = false ∨ m.sheets = [] ∨
      ∃ cause, Formula.parse source 0 m.sheetNamed? = .error cause := by
  rw [← sourceFailure?_ne_none, failure?]
  by_cases hvalid : isValidName n = true <;> by_cases hnone : m.sheets = [] <;>
    simp [hvalid, hnone]

theorem cell_fails_iff {sheet : Nat} {sheetName key : String} {entry : CellEntry} :
    m.failure? (.cell sheet sheetName key entry) ≠ none ↔
      parseLabel key = none ∨ ∃ source cause, entry.toInput = .formula source ∧
        Formula.parse source sheet m.sheetNamed? = .error cause := by
  rw [failure?]
  cases parseLabel key with
  | none => simp
  | some position =>
    cases entry.toInput with
    | number _ | text _ | boolean _ => simp
    | formula source => simp [sourceFailure?_ne_none]

/-! ## Entries taken out -/

theorem sheetNames_without (m : Model) (places : List EntryPlace) :
    (m.without places).sheetNames = m.sheetNames := by
  simp [sheetNames, without, Function.comp_def]

theorem entries_without (m : Model) (places : List EntryPlace) :
    (m.without places).entries = m.entries.filter fun e => decide (e.place ∉ places) := by
  simp only [entries, without, List.zipIdx_map, List.flatMap_map, Prod.map, id_eq,
    Std.ExtTreeMap.toList_filter, List.filter_append, List.filter_map, List.filter_flatMap]
  rfl

theorem failure?_without (m : Model) (places : List EntryPlace) :
    (m.without places).failure? = m.failure? := by
  have hfind : (m.without places).sheetNamed? = m.sheetNamed? := by
    funext name
    rw [sheetNamed?, sheetNames_without, sheetNamed?]
  have hempty : (m.without places).sheets.isEmpty = m.sheets.isEmpty := by simp [without]
  funext e
  cases e <;> simp only [failure?, sourceFailure?, hfind, hempty]

end Model

end Spreadsheet
