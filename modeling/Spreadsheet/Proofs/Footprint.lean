/-
What a formula can see. Its dependencies record the cells of its references
and of those of the names that it reaches, and evaluation looks at no other:
where two contexts have the same values in the recorded cells, the formula
comes to the same (`Workbook.result_depends_on_recorded`).
-/
import Spreadsheet.Proofs.Locality
import Spreadsheet.Proofs.Wiring

namespace Spreadsheet

theorem Context.plain_readsAlike {lookup lookup' : CellAddress → Except Fault Value}
    {definition : String → Except Fault Expr} {policy : TextPolicy} {nesting : Nat} {t : Reference}
    (h : ∀ c, t.asRange.contains c = true → lookup c = lookup' c) :
    (plain lookup policy definition nesting).ReadsAlike
      (plain lookup' policy definition nesting) t := by
  refine ⟨fun c hc => h c ?_, ?_⟩
  · subst hc
    exact Range.contains_single.2 rfl
  · exact congrArg (Except.map RangeReading.ofValues)
      (mapM_congr fun c hc => h c (Range.mem_cells.1 hc))

namespace Workbook

/-- **What a formula comes to depends on its recorded dependencies alone.** The cells that are
recorded for a formula, as edges or inside watched rectangles, are those inside its own references
and inside the references of every definition in the closure of its names. Whatever two lookups say
of the other cells, the formula comes to the same under both, when ranges are read cell by cell; and
so it does over two stores, whose ranges are read by their occupied cells. -/
theorem result_depends_on_recorded (names : NameTable) (policy : TextPolicy) (f : Formula) :
    let recorded := (dependenciesOf names f).Records
    (∀ c, recorded c ↔ (∃ target ∈ f.references, target.asRange.contains c = true) ∨
      ∃ n ∈ names.closure f.names, ∃ d, names.definitions[n]? = some d ∧
        ∃ target ∈ d.references, target.asRange.contains c = true) ∧
    (∀ lookup lookup' : CellAddress → Except Fault Value,
      (∀ c, recorded c → lookup c = lookup' c) →
        (Context.plain lookup policy names.expression names.size).result f.tree =
          (Context.plain lookup' policy names.expression names.size).result f.tree) ∧
    ∀ s t : Store, (∀ c, recorded c → s.value c = t.value c) →
      (s.context names policy).result f.tree = (t.context names policy).result f.tree := by
  intro recorded
  have hrecorded : ∀ {r c}, r ∈ f.references ++ names.references f.names →
      r.asRange.contains c = true → recorded c := fun hr hc =>
    Dependencies.records_iff.2 ⟨_, hr, hc⟩
  refine ⟨fun c => ?_, fun lookup lookup' h => ?_, fun s t h => ?_⟩
  · refine Dependencies.records_iff.trans ?_
    simp only [List.mem_append, NameTable.mem_references]
    constructor
    · rintro ⟨target, hown | ⟨n, hn, d, hd, htarget⟩, hc⟩
      · exact .inl ⟨target, hown, hc⟩
      · exact .inr ⟨n, hn, d, hd, target, htarget, hc⟩
    · rintro (⟨target, hown, hc⟩ | ⟨n, hn, d, hd, target, htarget, hc⟩)
      · exact ⟨target, .inl hown, hc⟩
      · exact ⟨target, .inr ⟨n, hn, d, hd, htarget⟩, hc⟩
  · refine (Context.plain_over lookup policy names).result_congr
      (Context.plain_over lookup' policy names) rfl (.refl names f.names) fun r hr => ?_
    exact Context.plain_readsAlike fun c hc => h c (hrecorded hr hc)
  · refine (s.context_over names policy).result_congr (t.context_over names policy) rfl
      (.refl names f.names) fun r hr => ?_
    exact Store.readsAlike fun c hc => h c (hrecorded hr hc)

/-- A formula that reads two cells, and a third one through two names: lookups and stores that
differ elsewhere are the same to it. -/
theorem result_depends_on_recorded_name :
    let names := (NameTable.empty.set "x" ⟨"-y", .unary .neg (.name "y")⟩).set "y"
      ⟨"B1", .reference (.cell ⟨0, 0, 1⟩)⟩
    let f : Formula := ⟨"=SUM(A1:A2)+x", .binary .add
      (.call .sum [.reference (.range (.ofCorners 0 0 0 1 0))]) (.name "x")⟩
    let s := Store.empty.addSheet "S"
    (Formula.parse "=SUM(A1:A2)+x" 0 s.sheetNamed? = .ok f ∧
        (dependenciesOf names f).cells = [⟨0, 0, 0⟩, ⟨0, 1, 0⟩, ⟨0, 0, 1⟩] ∧
        (dependenciesOf names f).ranges = []) ∧
      (Context.plain (fun _ => .ok .empty) .skip names.expression names.size).result f.tree =
        (Context.plain (fun c => if c.row ≤ 1 then .ok .empty else .error .typeMismatch) .skip
          names.expression names.size).result f.tree ∧
      (s.context names .error).result f.tree =
        ((s.set ⟨0, 2, 0⟩ (.text "a")).context names .error).result f.tree := by
  intro names f s
  refine (fun facts => ⟨facts, ?_⟩) (by cbv; exact ⟨rfl, rfl, trivial⟩)
  obtain ⟨-, hcells, hranges⟩ := facts
  have hrecorded : ∀ c, (dependenciesOf names f).Records c → c.row ≤ 1 := by
    intro c hc
    rw [Dependencies.Records, hcells, hranges] at hc
    obtain rfl | rfl | rfl : c = ⟨0, 0, 0⟩ ∨ c = ⟨0, 1, 0⟩ ∨ c = ⟨0, 0, 1⟩ := by simpa using hc
    all_goals decide
  obtain ⟨-, hlookup, -⟩ := result_depends_on_recorded names .skip f
  obtain ⟨-, -, hstore⟩ := result_depends_on_recorded names .error f
  refine ⟨hlookup _ _ fun c hc => (if_pos (hrecorded c hc)).symm, hstore _ _ fun c hc => ?_⟩
  refine Store.value_congr (Store.get?_set_other _ ?_ _).symm
  rintro rfl
  exact absurd (hrecorded _ hc) (by decide)

end Workbook

end Spreadsheet
