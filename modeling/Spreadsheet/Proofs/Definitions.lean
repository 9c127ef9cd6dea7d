/-
Names after any definitions. A definition replaces what its name was bound to
and leaves the other names (`NameTable.getElem?_set`), so a name is bound to
what it was defined as last (`NameTable.getElem?_ofDefinitions`), and the last
definitions alone say which name uses which. On that relation stand the
circular names, the expressions that names have, the closure of some names
(`NameTable.closure_isLeast`) and the references of the definitions in it.
-/
import Spreadsheet.Proofs.Names
import Spreadsheet.Proofs.Occurrences

namespace Spreadsheet

open Relation

namespace NameTable

variable {t : NameTable} {n : String} {f : Formula}

/-! ## Expressions and closures -/

theorem expression_of_circular (h : TransGen t.Uses n n) :
    t.expression n = .error .circularName := by
  rw [expression, if_pos (isCircular_iff.2 h)]

theorem expression_of_undefined (h : t.definitions[n]? = none) :
    t.expression n = .error .nameNotFound := by
  have hself : ¬ t.isCircular n = true := fun hc => by
    obtain ⟨k, hk, -⟩ := TransGen.head'_iff.1 (isCircular_iff.1 hc)
    obtain ⟨f, hf, -⟩ := uses_iff.1 hk
    cases h.symm.trans hf
  rw [expression, if_neg hself, h]

theorem expression_of_defined (hf : t.definitions[n]? = some f) (h : ¬ TransGen t.Uses n n) :
    t.expression n = .ok f.tree := by
  rw [expression, if_neg (mt isCircular_iff.1 h), hf]

/-- **The closure of some names is the least set** that holds them and whatever the definitions of
its members use. -/
theorem closure_isLeast (t : NameTable) (used : List String) :
    IsLeast {S : Set String | (∀ n ∈ used, n ∈ S) ∧ ∀ m ∈ S, ∀ n, t.Uses m n → n ∈ S}
      {n | n ∈ t.closure used} := by
  refine ⟨⟨fun n hn => mem_closure_self hn, fun m hm n hn => mem_closure_step hm hn⟩, ?_⟩
  rintro S ⟨hused, hclosed⟩ n hn
  obtain ⟨m, hm, hpath⟩ := mem_closure.1 hn
  induction hpath with
  | refl => exact hused m hm
  | tail hpath hstep ih => exact hclosed _ (ih (mem_closure.2 ⟨m, hm, hpath⟩)) _ hstep

theorem nodup_references (t : NameTable) (used : List String) : (t.references used).Nodup :=
  (firstOccurrences_eraseDups _).nodup

/-! ## After any definitions -/

theorem getElem?_set (t : NameTable) (name : String) (f : Formula) (n : String) :
    (t.set name f).definitions[n]? = if name = n then some f else t.definitions[n]? := by
  simp only [set, Std.ExtTreeMap.getElem?_insert, Std.LawfulEqCmp.compare_eq_iff_eq]

/-- The names that come of some definitions, one after another, where no name was defined before. -/
def ofDefinitions (l : List (String × Formula)) : NameTable :=
  l.foldl (fun t d => t.set d.1 d.2) empty

theorem getElem?_ofDefinitions_iff {l : List (String × Formula)} (P : Option Formula → Prop) :
    P (ofDefinitions l).definitions[n]? ↔ (∃ d, LastWith Prod.fst l d ∧ d.1 = n ∧ P (some d.2)) ∨
      (∀ d ∈ l, d.1 ≠ n) ∧ P none :=
  view_foldl_iff (fun (t : NameTable) n => t.definitions[n]?)
    (fun t (d : String × Formula) => t.getElem?_set d.1 d.2) (fun _ _ _ => rfl) P

/-- **A name is bound to what it was defined as last.** -/
theorem getElem?_ofDefinitions {l : List (String × Formula)} :
    (ofDefinitions l).definitions[n]? = some f ↔ LastWith Prod.fst l (n, f) := by
  rw [getElem?_ofDefinitions_iff (· = some f)]
  simp

theorem getElem?_ofDefinitions_eq_none {l : List (String × Formula)} :
    (ofDefinitions l).definitions[n]? = none ↔ ∀ d ∈ l, d.1 ≠ n := by
  rw [getElem?_ofDefinitions_iff (· = none)]
  simp

/-- **The circular names are those that reach themselves.** After any definitions, of which the last
one of a name counts: a name is circular if and only if it leads back to itself through the names
that definitions use. Such a name has no expression, nor has a name that was never defined, and any
other name stands for the tree of its definition. The closure of some names is the least set that
holds them and what the definitions of its members use, be that defined or not; and the references
of the names are those of all definitions in the closure, each of them once. -/
theorem circular_iff_reaches_itself (l : List (String × Formula)) :
    let t := ofDefinitions l
    let Defines (n : String) (f : Formula) := LastWith Prod.fst l (n, f)
    let Uses (m n : String) := ∃ f, Defines m f ∧ n ∈ f.names
    (∀ n, t.isCircular n = true ↔ TransGen Uses n n) ∧
    ((∀ n, TransGen Uses n n → t.expression n = .error .circularName) ∧
      (∀ n, (∀ d ∈ l, d.1 ≠ n) → t.expression n = .error .nameNotFound) ∧
      ∀ n f, Defines n f → ¬ TransGen Uses n n → t.expression n = .ok f.tree) ∧
    (∀ used, IsLeast {S : Set String | (∀ n ∈ used, n ∈ S) ∧ ∀ m ∈ S, ∀ n, Uses m n → n ∈ S}
      {n | n ∈ t.closure used}) ∧
    ∀ used, (t.references used).Nodup ∧ ∀ r, r ∈ t.references used ↔
      ∃ n ∈ t.closure used, ∃ f, Defines n f ∧ r ∈ f.references := by
  intro t Defines Uses
  have hdefines : ∀ n f, Defines n f ↔ t.definitions[n]? = some f := fun n f =>
    getElem?_ofDefinitions.symm
  have huses : Uses = t.Uses := by
    funext m n
    simp only [Uses, hdefines, uses_iff]
  simp only [huses, hdefines]
  refine ⟨fun n => isCircular_iff, ⟨fun n => expression_of_circular, fun n hn => ?_,
    fun n f => expression_of_defined⟩, t.closure_isLeast, fun used => ?_⟩
  · exact expression_of_undefined (getElem?_ofDefinitions_eq_none.2 hn)
  · exact ⟨t.nodup_references used, fun r => mem_references⟩

/-- Two names in a circle that a redefinition breaks while it closes another one, and a name that is
used but not defined. -/
theorem circular_iff_reaches_itself_redefined :
    let l : List (String × Formula) := [("a", ⟨"b+1", .binary .add (.name "b") (.number 1)⟩),
      ("b", ⟨"a*A1", .binary .mul (.name "a") (.reference (.cell ⟨0, 0, 0⟩))⟩),
      ("c", ⟨"-c", .unary .neg (.name "c")⟩),
      ("b", ⟨"A2+z", .binary .add (.reference (.cell ⟨0, 1, 0⟩)) (.name "z")⟩)]
    let t := ofDefinitions l
    let Uses (m n : String) := ∃ f, LastWith Prod.fst l (m, f) ∧ n ∈ f.names
    (t.isCircular "a" = false ∧ t.isCircular "c" = true ∧
        (t.closure ["a"]).toList = ["a", "b", "z"] ∧
          t.references ["a", "b"] = [.cell ⟨0, 1, 0⟩]) ∧
      ¬ TransGen Uses "a" "a" ∧ t.expression "c" = .error .circularName ∧
      t.expression "z" = .error .nameNotFound ∧
      t.expression "a" = .ok (.binary .add (.name "b") (.number 1)) ∧
      (∀ S : Set String, "a" ∈ S → (∀ m ∈ S, ∀ n, Uses m n → n ∈ S) → "z" ∈ S) ∧
      [Reference.cell ⟨0, 1, 0⟩].Nodup := by
  intro l t Uses
  refine (fun facts => ⟨facts, ?_⟩) (by cbv)
  obtain ⟨ha, hc, hclosure, hreferences⟩ := facts
  obtain ⟨hcircular, ⟨hself, hnone, hdefined⟩, hleast, honce⟩ := circular_iff_reaches_itself l
  have hna : ¬ TransGen Uses "a" "a" := fun h =>
    Bool.false_ne_true (ha.symm.trans ((hcircular _).2 h))
  refine ⟨hna, hself _ ((hcircular _).1 hc), hnone _ (by decide),
    hdefined _ _ ⟨[], [_, _, _], rfl, by decide⟩ hna, fun S hS hclosed => ?_, ?_⟩
  · have hz : "z" ∈ t.closure ["a"] := Std.ExtTreeSet.mem_toList.1 (by rw [hclosure]; simp)
    exact (hleast ["a"]).2 ⟨by simpa using hS, hclosed⟩ hz
  · exact hreferences ▸ (honce ["a", "b"]).1

end NameTable

end Spreadsheet
