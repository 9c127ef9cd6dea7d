/-
What names reach. The closure of some names is what a path of definitions
leads to (`mem_closure`), and a name is circular if such a path leads from
it to itself (`isCircular_iff`). Two tables with the same definitions on a
closure are the same to a formula that uses those names
(`NameTable.AgreeOn`); binding a name changes nothing for a formula that
does not reach it (`agreeOn_set`).
-/
import Spreadsheet.NameTable
import Spreadsheet.Proofs.Plan

namespace Spreadsheet

open Relation

namespace NameTable

/-- The definition of a name uses another. -/
def Uses (t : NameTable) : String → String → Prop := Edge t.definitions.usedBy

theorem uses_iff {t : NameTable} {m n : String} :
    t.Uses m n ↔ ∃ f, t.definitions[m]? = some f ∧ n ∈ f.names := by
  rw [Uses, Edge, Definitions.usedBy]
  cases t.definitions[m]? <;> simp

/-- The closure of some names is what paths of definitions lead to from them. -/
theorem mem_closure {t : NameTable} {used : List String} {n : String} :
    n ∈ t.closure used ↔ ∃ m ∈ used, ReflTransGen t.Uses m n := by
  rw [closure, mem_set_ofList]
  refine mem_reach_of_closed (fun m hm => ?_) fun m _ n hn => ?_
  · exact mem_set_ofList.2 (List.mem_append_left _ hm)
  · obtain ⟨f, hf, hn⟩ := uses_iff.1 hn
    have hentry := Std.ExtTreeMap.mem_toList_iff_getElem?_eq_some.2 hf
    exact mem_set_ofList.2 (List.mem_append_right _ (List.mem_flatMap.2 ⟨(m, f), hentry, hn⟩))

theorem mem_closure_self {t : NameTable} {used : List String} {n : String} (h : n ∈ used) :
    n ∈ t.closure used := mem_closure.2 ⟨n, h, .refl⟩

theorem mem_closure_step {t : NameTable} {used : List String} {m n : String}
    (hm : m ∈ t.closure used) (hn : t.Uses m n) : n ∈ t.closure used := by
  obtain ⟨k, hk, hp⟩ := mem_closure.1 hm
  exact mem_closure.2 ⟨k, hk, hp.tail hn⟩

theorem mem_references {t : NameTable} {used : List String} {r : Reference} :
    r ∈ t.references used ↔
      ∃ n ∈ t.closure used, ∃ f, t.definitions[n]? = some f ∧ r ∈ f.references := by
  simp only [references, List.mem_eraseDups, List.mem_flatMap, Std.ExtTreeSet.mem_toList]
  refine exists_congr fun n => and_congr_right fun _ => ?_
  cases t.definitions[n]? <;> simp

/-! ## Circular names -/

theorem mem_definitions_of_uses {t : NameTable} {m n : String} (h : t.Uses m n) :
    m ∈ t.definitions := by
  obtain ⟨f, hf, -⟩ := uses_iff.1 h
  exact Std.ExtTreeMap.mem_iff_isSome_getElem?.2 (by rw [hf]; rfl)

/-- Among defined names, the edges of the graph are the uses. -/
theorem targetDependsOn_iff {t : NameTable} {m n : String} :
    t.graph.TargetDependsOn (fun _ => []) (.ofList t.definitions.keys) m n ↔
      t.Uses m n ∧ n ∈ t.definitions := by
  rw [Links.TargetDependsOn, t.graph_eq]
  simp only [mem_set_ofList, Std.ExtTreeMap.mem_keys, List.not_mem_nil, or_false]
  exact ⟨fun h => ⟨h.2.2, h.2.1⟩, fun h => ⟨mem_definitions_of_uses h.1, h.2, h.1⟩⟩

/-- **A name is circular if its definition leads back to it.** The way back passes through defined
names only, so nothing is lost where undefined names are left out. -/
theorem isCircular_iff {t : NameTable} {n : String} :
    t.isCircular n = true ↔ TransGen t.Uses n n := by
  rw [isCircular, t.circular_eq, ← Std.ExtTreeSet.mem_iff_contains, Definitions.circularNames,
    mem_set_ofList, (t.graph.plan_sorts _ _).mem_cycleMembers]
  constructor
  · exact TransGen.mono (fun _ _ h => (targetDependsOn_iff.1 h).1) n n
  · intro h
    obtain ⟨k, hk, -⟩ := TransGen.head'_iff.1 h
    refine (transGen_to (P := (· ∈ t.definitions)) (fun k l hl hs => ?_)
      (mem_definitions_of_uses hk) h).1
    exact ⟨targetDependsOn_iff.2 ⟨hs, hl⟩, mem_definitions_of_uses hs⟩

theorem expression_ok {t : NameTable} {n : String} {e : Expr} (h : t.expression n = .ok e) :
    ∃ f, t.definitions[n]? = some f ∧ f.tree = e ∧ ¬ TransGen t.Uses n n := by
  unfold expression at h
  split at h
  · cases h
  · rename_i hc
    rw [isCircular_iff] at hc
    split at h
    · rename_i f hf
      exact ⟨f, hf, by injection h, hc⟩
    · cases h

theorem expression_ne_circularReference {t : NameTable} {n : String} :
    t.expression n ≠ .error .circularReference := by
  unfold expression
  split
  · simp
  · split <;> simp

/-! ## Tables that agree -/

/-- Two tables define alike all that some names reach. -/
def AgreeOn (s t : NameTable) (used : List String) : Prop :=
  ∀ n ∈ s.closure used, s.definitions[n]? = t.definitions[n]?

theorem AgreeOn.refl (t : NameTable) (used : List String) : t.AgreeOn t used := fun _ _ => rfl

theorem AgreeOn.mem_closure_iff {s t : NameTable} {used : List String} (h : s.AgreeOn t used)
    {n : String} : n ∈ s.closure used ↔ n ∈ t.closure used := by
  constructor
  · intro hn
    obtain ⟨m, hm, hp⟩ := mem_closure.1 hn
    induction hp with
    | refl => exact mem_closure_self hm
    | tail hp hs ih =>
      have hmid := mem_closure.2 ⟨m, hm, hp⟩
      refine mem_closure_step (ih hmid) ?_
      rwa [uses_iff, ← h _ hmid, ← uses_iff]
  · intro hn
    obtain ⟨m, hm, hp⟩ := mem_closure.1 hn
    induction hp with
    | refl => exact mem_closure_self hm
    | tail hp hs ih =>
      have hmid := ih (mem_closure.2 ⟨m, hm, hp⟩)
      refine mem_closure_step hmid ?_
      rwa [uses_iff, h _ hmid, ← uses_iff]

theorem AgreeOn.symm {s t : NameTable} {used : List String} (h : s.AgreeOn t used) :
    t.AgreeOn s used := fun n hn => (h n (h.mem_closure_iff.2 hn)).symm

theorem AgreeOn.references_eq {s t : NameTable} {used : List String} (h : s.AgreeOn t used) :
    s.references used = t.references used := by
  have hclosure : s.closure used = t.closure used :=
    Std.ExtTreeSet.ext_mem fun n => h.mem_closure_iff
  simp only [references, ← hclosure]
  refine congrArg List.eraseDups (List.flatMap_congr fun n hn => ?_)
  rw [h n (Std.ExtTreeSet.mem_toList.1 hn)]

theorem AgreeOn.transGen {s t : NameTable} {used : List String} (h : s.AgreeOn t used)
    {m n : String} (hm : m ∈ s.closure used) (hp : TransGen s.Uses m n) : TransGen t.Uses m n := by
  refine (transGen_from (fun k l hk hs => ?_) hm hp).1
  refine ⟨?_, mem_closure_step hk hs⟩
  rwa [uses_iff, ← h k hk, ← uses_iff]

theorem AgreeOn.expression_eq {s t : NameTable} {used : List String} (h : s.AgreeOn t used)
    {n : String} (hn : n ∈ s.closure used) : s.expression n = t.expression n := by
  have hcircular : s.isCircular n = t.isCircular n := by
    rw [Bool.eq_iff_iff, isCircular_iff, isCircular_iff]
    exact ⟨h.transGen hn, h.symm.transGen (h.mem_closure_iff.1 hn)⟩
  rw [expression, hcircular, h n hn, expression]

/-- Binding a name that some names do not reach afterwards changes nothing that they reach. -/
theorem agreeOn_set {t : NameTable} {name : String} {f : Formula} {used : List String}
    (h : name ∉ (t.set name f).closure used) : (t.set name f).AgreeOn t used := by
  intro n hn
  have hne : compare name n ≠ .eq := fun he =>
    h (Std.LawfulEqCmp.eq_of_compare he ▸ hn)
  simp only [set, Std.ExtTreeMap.getElem?_insert, if_neg hne]

end NameTable

end Spreadsheet
