/-
Named expressions. A name is bound to a formula, which may use further names. A name that reaches
itself through the names its definition uses is circular and has no expression. Beside the
definitions stand the graph of which name uses which, where the edges of a name are replaced when it
is bound anew, and the set of circular names that is found in it; both always are the ones that the
definitions give.
-/
import Spreadsheet.Formula.Basic
import Spreadsheet.Links
import Spreadsheet.Value

namespace Spreadsheet

/-- What names are bound to. -/
abbrev Definitions := Std.ExtTreeMap String Formula

namespace Definitions

/-- The names that the definition of a name uses; none if it is not defined. -/
def usedBy (d : Definitions) (name : String) : List String :=
  match d[name]? with
  | some f => f.names
  | none => []

theorem usedBy_insert_self (d : Definitions) (name : String) (f : Formula) :
    usedBy (d.insert name f) name = f.names := by
  simp [usedBy]

theorem usedBy_insert_other (d : Definitions) {name n : String} (h : name ≠ n) (f : Formula) :
    usedBy (d.insert name f) n = d.usedBy n := by
  have hne : compare name n ≠ .eq := fun he => h (Std.LawfulEqCmp.eq_of_compare he)
  rw [usedBy, Std.ExtTreeMap.getElem?_insert, if_neg hne, usedBy]

/-- The defined names that reach themselves along the edges of a graph, through defined names. -/
def circularNames (d : Definitions) (graph : Links String) : Std.ExtTreeSet String :=
  .ofList (graph.plan (fun _ => []) (.ofList d.keys)).cycleMembers

end Definitions

/-- The names of a workbook. -/
structure NameTable where
  definitions : Definitions
  /-- Which name uses which names, defined or not. -/
  graph : Links String
  /-- The circular names among the defined ones. -/
  circular : Std.ExtTreeSet String
  /-- The edges of a name lead to what its definition uses. -/
  graph_eq : ∀ n, graph.dependencies n = .ofList (definitions.usedBy n)
  circular_eq : circular = definitions.circularNames graph

namespace NameTable

/-- No names. -/
def empty : NameTable where
  definitions := ∅
  graph := .empty
  circular := Definitions.circularNames ∅ .empty
  graph_eq n := by simp [Definitions.usedBy]
  circular_eq := rfl

/-- Binds a name, in place of what it was bound to. -/
def set (t : NameTable) (name : String) (f : Formula) : NameTable where
  definitions := t.definitions.insert name f
  graph := t.graph.setEdges name f.names
  circular := Definitions.circularNames (t.definitions.insert name f) (t.graph.setEdges name f.names)
  graph_eq n := by
    by_cases h : name = n
    · rw [← h, Links.dependencies_setEdges_self, Definitions.usedBy_insert_self]
    · rw [Links.dependencies_setEdges_other _ h, Definitions.usedBy_insert_other _ h, t.graph_eq]
  circular_eq := rfl

/-- Tables are told apart by their definitions. -/
theorem ext_definitions {s t : NameTable} (h : s.definitions = t.definitions) : s = t := by
  have hgraph : s.graph = t.graph := Links.ext_dependencies fun n => by
    rw [s.graph_eq, t.graph_eq, h]
  have hs := s.circular_eq
  have ht := t.circular_eq
  cases s; cases t; simp_all

/-- The number of names. -/
def size (t : NameTable) : Nat :=
  t.definitions.size

/-- Whether there are no names. -/
def isEmpty (t : NameTable) : Bool :=
  t.definitions.isEmpty

/-- The text a name was bound to. -/
def source? (t : NameTable) (name : String) : Option String :=
  t.definitions[name]?.map Formula.source

/-- Whether a name reaches itself. -/
def isCircular (t : NameTable) (name : String) : Bool :=
  t.circular.contains name

/-- The expression that a name stands for. -/
def expression (t : NameTable) (name : String) : Except Fault Expr :=
  if t.isCircular name then .error .circularName
  else match t.definitions[name]? with
    | some f => .ok f.tree
    | none => .error .nameNotFound

/-- All names that can be reached from the given ones, themselves and undefined ones included. -/
def closure (t : NameTable) (used : List String) : Std.ExtTreeSet String :=
  let all := Std.ExtTreeSet.ofList
    (used ++ t.definitions.toList.flatMap fun entry => entry.2.names)
  .ofList (reach t.definitions.usedBy all used)

/-- The references of all definitions that can be reached from the given names, each once, in
ascending order of the names. -/
def references (t : NameTable) (used : List String) : List Reference :=
  ((t.closure used).toList.flatMap fun name =>
    match t.definitions[name]? with
    | some f => f.references
    | none => []).eraseDups

/-- The names and their texts in ascending order. -/
def sources (t : NameTable) : List (String × String) :=
  t.definitions.toList.map fun entry => (entry.1, entry.2.source)

end NameTable

end Spreadsheet
