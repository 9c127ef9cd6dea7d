/-
Dependency graphs. A graph is a table of edges, each kept at both of its ends; a node is part of the
graph while there are edges at it. What a graph lists of its edges it lists in ascending order, but
for the nodes that `newlyDirty` flags, which come in the order of the search. Walks can follow
further edges that are not stored, such as dependencies on whole ranges, as long as they lead to
finitely many nodes.
-/
import Spreadsheet.EdgeTable
import Spreadsheet.Plan

namespace Spreadsheet

variable {α : Type} [Ord α] [Std.TransOrd α] [Std.LawfulEqOrd α]

/-- A finite directed graph of dependencies. -/
structure Graph (α : Type) [Ord α] [Std.TransOrd α] extends EdgeTable α where
  /-- Every edge is kept at both of its ends, once each. -/
  sound : toEdgeTable.Sound
  /-- No node is kept without edges. -/
  trim : toEdgeTable.Trim

/-- Edges that are followed but not stored: which nodes depend on a node, all of them among finitely
many. -/
structure FurtherEdges (α : Type) [Ord α] [Std.TransOrd α] where
  dependents : α → List α
  support : Std.ExtTreeSet α
  mem_support : ∀ a b, b ∈ dependents a → b ∈ support

/-- No further edges. -/
def FurtherEdges.none : FurtherEdges α where
  dependents _ := []
  support := ∅
  mem_support := by simp

namespace Graph

omit [Std.LawfulEqOrd α] in
theorem edgesAt_empty (a : α) : (EdgeTable.empty : EdgeTable α).edgesAt a = ⟨[], []⟩ :=
  EdgeTable.edgesAt_eq_empty Std.ExtTreeMap.not_mem_empty

/-- The graph without edges. -/
def empty : Graph α where
  toEdgeTable := .empty
  sound := {
    paired := by simp [EdgeTable.Paired, EdgeTable.outgoing, EdgeTable.incoming, edgesAt_empty]
    simple := by simp [EdgeTable.Simple, EdgeTable.outgoing, EdgeTable.incoming, edgesAt_empty] }
  trim := by simp [EdgeTable.Trim, EdgeTable.empty]

/-- What a node depends on. -/
def dependencies (g : Graph α) (a : α) : Std.ExtTreeSet α :=
  .ofList (g.outgoing a)

/-- The nodes that depend on a node, in ascending order. -/
def dependents (g : Graph α) (a : α) : List α :=
  (Std.ExtTreeSet.ofList (g.incoming a)).toList

/-- The graph in which a node depends on exactly the listed nodes. -/
def setEdges (g : Graph α) (a : α) (targets : List α) : Graph α where
  toEdgeTable := g.toEdgeTable.setEdges a targets
  sound := g.sound.setEdges
  trim := g.trim.setEdges g.sound.simple

/-- The graph in which a node depends on nothing. -/
def clearEdges (g : Graph α) (a : α) : Graph α :=
  g.setEdges a []

/-- Whether a node is part of the graph. -/
def contains (g : Graph α) (a : α) : Bool :=
  g.nodes.contains a

/-- The number of nodes. -/
def nodeCount (g : Graph α) : Nat :=
  g.nodes.size

/-- The number of edges. -/
def edgeCount (g : Graph α) : Nat :=
  g.nodes.foldl (fun count _ edges => count + edges.outgoing.length) 0

omit [Std.LawfulEqOrd α] in
@[simp] theorem dependencies_empty (a : α) : (empty : Graph α).dependencies a = ∅ := by
  rw [dependencies, empty, EdgeTable.outgoing, edgesAt_empty, Std.ExtTreeSet.ofList_nil]

theorem mem_dependencies {g : Graph α} {a b : α} : b ∈ g.dependencies a ↔ b ∈ g.outgoing a :=
  mem_set_ofList

@[simp] theorem dependencies_setEdges_self (g : Graph α) (a : α) (targets : List α) :
    (g.setEdges a targets).dependencies a = .ofList targets := by
  refine Std.ExtTreeSet.ext_mem fun b => ?_
  rw [mem_dependencies, setEdges, EdgeTable.mem_outgoing_setEdges g.sound, mem_set_ofList]
  simp

theorem dependencies_setEdges_other (g : Graph α) {a b : α} (h : a ≠ b) (targets : List α) :
    (g.setEdges a targets).dependencies b = g.dependencies b := by
  refine Std.ExtTreeSet.ext_mem fun c => ?_
  rw [mem_dependencies, setEdges, EdgeTable.mem_outgoing_setEdges g.sound, mem_dependencies]
  simp [h.symm]

/-- An edge is found at its other end. -/
theorem mem_incoming {g : Graph α} {a b : α} : b ∈ g.incoming a ↔ a ∈ g.dependencies b := by
  rw [mem_dependencies, g.sound.paired]

theorem mem_dependents {g : Graph α} {a b : α} : b ∈ g.dependents a ↔ a ∈ g.dependencies b := by
  rw [dependents, Std.ExtTreeSet.mem_toList, mem_set_ofList, mem_incoming]

theorem mem_nodes {g : Graph α} {a : α} :
    a ∈ g.nodes ↔ ∃ b, b ∈ g.dependencies a ∨ a ∈ g.dependencies b := by
  have htouched : g.Touched a ↔ ∃ b, b ∈ g.dependencies a ∨ a ∈ g.dependencies b :=
    exists_congr fun b => or_congr mem_dependencies.symm mem_incoming
  exact ⟨fun h => htouched.1 (g.trim a h), fun h => (htouched.2 h).mem_nodes⟩

/-! ## Steps up -/

/-- One node is above another if it depends on it, by an edge of the graph or by a further one. -/
def Above (g : Graph α) (further : FurtherEdges α) (a b : α) : Prop :=
  a ∈ g.dependencies b ∨ b ∈ further.dependents a

/-- The nodes one step above a node, those along stored edges in the order of the edges. -/
def stepsUp (g : Graph α) (further : FurtherEdges α) (a : α) : List α :=
  g.incoming a ++ further.dependents a

/-- The nodes one step above a node, those along stored edges in ascending order. -/
def directDependents (g : Graph α) (further : FurtherEdges α) (a : α) : List α :=
  g.dependents a ++ further.dependents a

/-- The nodes of the graph, and those that further edges lead to. -/
def allNodes (g : Graph α) (further : FurtherEdges α) : Std.ExtTreeSet α :=
  further.support.insertMany g.nodes.keys

theorem mem_stepsUp {g : Graph α} {further : FurtherEdges α} {a b : α} :
    b ∈ g.stepsUp further a ↔ g.Above further a b := by
  rw [stepsUp, List.mem_append, mem_incoming, Above]

theorem mem_directDependents {g : Graph α} {further : FurtherEdges α} {a b : α} :
    b ∈ g.directDependents further a ↔ g.Above further a b := by
  rw [directDependents, List.mem_append, mem_dependents, Above]

theorem Above.mem_allNodes {g : Graph α} {further : FurtherEdges α} {a b : α}
    (h : g.Above further a b) : b ∈ g.allNodes further := by
  rw [allNodes, mem_set_insertMany, Std.ExtTreeMap.mem_keys, mem_nodes]
  rcases h with h | h
  · exact .inl ⟨a, .inl h⟩
  · exact .inr (further.mem_support a b h)

/-- Flags a node and all that depend on it, as far as they can be reached without passing a node
that is flagged already. -/
def flag (g : Graph α) (further : FurtherEdges α) (a : α) (dirty : Std.ExtTreeSet α) :
    Std.ExtTreeSet α × List α :=
  flagFrom (g.stepsUp further) ((g.allNodes further).insert a)
    (fun _ _ hb => mem_set_insert.2 (.inr (mem_stepsUp.1 hb).mem_allNodes)) dirty [a]
    fun _ hb => mem_set_insert.2 (.inl (List.mem_singleton.1 hb))

/-- The nodes that are flagged when a node changes. -/
def newlyDirty (g : Graph α) (further : FurtherEdges α) (a : α) (dirty : Std.ExtTreeSet α) :
    List α :=
  (g.flag further a dirty).2

/-- The flagged nodes after a node has changed. -/
def markDirty (g : Graph α) (further : FurtherEdges α) (a : α) (dirty : Std.ExtTreeSet α) :
    Std.ExtTreeSet α :=
  (g.flag further a dirty).1

/--
The nodes that depend on a node in one or more steps; the node itself only if it is on a cycle.
-/
def transitiveDependents (g : Graph α) (further : FurtherEdges α) (a : α) : Std.ExtTreeSet α :=
  .ofList (reach (g.directDependents further) (g.allNodes further)
    (g.directDependents further a))

theorem mem_markDirty {g : Graph α} {further : FurtherEdges α} {a b : α} {dirty : Std.ExtTreeSet α} :
    b ∈ g.markDirty further a dirty ↔ b ∈ dirty ∨ b ∈ g.newlyDirty further a dirty :=
  mem_flagFrom_fst

/-- The plan for a set of targets, which may have further dependencies that are not stored. -/
def plan (g : Graph α) (further : α → List α) (targets : Std.ExtTreeSet α) : Plan α :=
  Plan.make (fun a => (g.dependencies a).insertMany (further a)) targets

end Graph

end Spreadsheet
