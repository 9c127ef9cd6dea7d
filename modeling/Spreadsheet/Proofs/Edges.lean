/-
What a graph holds after its edges have been set and cleared, node by node.
A change replaces the edges of its node and leaves those of the others as
they are (`EdgeChange.dependencies_apply`), so a node has the edges that
were set for it last (`Graph.mem_dependencies_ofChanges`). All else that a
graph tells agrees with these edges, as each is kept at both of its ends and
no node is kept without one: what depends on a node (`Graph.lists_dependents`),
which nodes there are (`Graph.contains_iff`) and how many nodes and edges
(`Graph.nodeCount_eq`, `Graph.edgeCount_eq`).
-/
import Spreadsheet.Graph
import Spreadsheet.Proofs.Occurrences
import Spreadsheet.Proofs.Search

namespace Spreadsheet

/-- A change of what one node depends on. -/
inductive EdgeChange (α : Type) where
  | setEdges (node : α) (targets : List α)
  | clearEdges (node : α)

namespace EdgeChange

variable {α : Type}

/-- The node whose edges are changed. -/
def node : EdgeChange α → α
  | setEdges a _ => a
  | clearEdges a => a

/-- What the node is to depend on. -/
def targets : EdgeChange α → List α
  | setEdges _ l => l
  | clearEdges _ => []

/-- The last change of a node among some changes sets what it depends on, and another node is listed
there. -/
def LastSet (changes : List (EdgeChange α)) (a b : α) : Prop :=
  ∃ earlier targets later, changes = earlier ++ setEdges a targets :: later ∧ b ∈ targets ∧
    ∀ change ∈ later, change.node ≠ a

theorem lastSet_iff {changes : List (EdgeChange α)} {a b : α} : LastSet changes a b ↔
    ∃ change, LastWith node changes change ∧ change.node = a ∧ b ∈ change.targets := by
  constructor
  · rintro ⟨earlier, targets, later, hsplit, hb, hlater⟩
    exact ⟨setEdges a targets, ⟨earlier, later, hsplit, hlater⟩, rfl, hb⟩
  · rintro ⟨change, ⟨earlier, later, hsplit, hlater⟩, rfl, hb⟩
    cases change with
    | setEdges a targets => exact ⟨earlier, targets, later, hsplit, hb, hlater⟩
    | clearEdges a => simp [targets] at hb

variable [Ord α] [Std.TransOrd α] [Std.LawfulEqOrd α]

/-- The graph after a change. -/
def apply (g : Graph α) : EdgeChange α → Graph α
  | setEdges a targets => g.setEdges a targets
  | clearEdges a => g.clearEdges a

theorem dependencies_apply [DecidableEq α] (g : Graph α) (change : EdgeChange α) (a : α) :
    (apply g change).dependencies a =
      if change.node = a then .ofList change.targets else g.dependencies a := by
  have happly : apply g change = g.setEdges change.node change.targets := by
    cases change <;> rfl
  rw [happly]
  split
  · rename_i ha
    rw [ha, Graph.dependencies_setEdges_self]
  · exact Graph.dependencies_setEdges_other g ‹_› _

end EdgeChange

namespace Graph

variable {α : Type} [Ord α] [Std.TransOrd α] [Std.LawfulEqOrd α]

/-- The graph that comes of some changes, one after another, where there were no edges. -/
def ofChanges (changes : List (EdgeChange α)) : Graph α :=
  changes.foldl EdgeChange.apply empty

/-- **A node depends on what was set for it last.** -/
theorem mem_dependencies_ofChanges {changes : List (EdgeChange α)} {a b : α} :
    b ∈ (ofChanges changes).dependencies a ↔ EdgeChange.LastSet changes a b := by
  classical
  rw [EdgeChange.lastSet_iff]
  refine (view_foldl_iff dependencies EdgeChange.dependencies_apply (fun _ _ _ => rfl)
    (b ∈ ·)).trans ?_
  simp

/-! ## What a graph tells from its edges -/

theorem lists_dependents (g : Graph α) (a : α) :
    Lists (g.dependents a) fun b => a ∈ g.dependencies b :=
  lists_toList fun _ => mem_set_ofList.trans mem_incoming

theorem contains_iff {g : Graph α} {a : α} :
    g.contains a = true ↔ ∃ b, b ∈ g.dependencies a ∨ a ∈ g.dependencies b :=
  Std.ExtTreeMap.contains_iff_mem.trans mem_nodes

theorem nodeCount_eq (g : Graph α) :
    {a | ∃ b, b ∈ g.dependencies a ∨ a ∈ g.dependencies b}.encard = g.nodeCount := by
  rw [nodeCount, ← Std.ExtTreeMap.length_keys]
  exact encard_eq_length Std.ExtTreeMap.nodup_keys fun a =>
    Std.ExtTreeMap.mem_keys.trans mem_nodes

/-- The edges of a graph, by the nodes that they lead from. -/
def edgeList (g : Graph α) : List (α × α) :=
  g.nodes.toList.flatMap fun node => node.2.outgoing.map fun b => (node.1, b)

theorem mem_edgeList {g : Graph α} {a b : α} : (a, b) ∈ g.edgeList ↔ b ∈ g.dependencies a := by
  rw [edgeList, List.mem_flatMap]
  constructor
  · rintro ⟨⟨c, edges⟩, hc, hb⟩
    obtain ⟨d, hd, h⟩ := List.mem_map.1 hb
    cases h
    rw [Std.ExtTreeMap.mem_toList_iff_getElem?_eq_some] at hc
    rw [mem_dependencies, EdgeTable.outgoing, EdgeTable.edgesAt,
      Std.ExtTreeMap.getD_eq_getD_getElem?, hc]
    exact hd
  · intro hb
    refine ⟨(a, g.edgesAt a), ?_, List.mem_map_of_mem (mem_dependencies.1 hb)⟩
    rw [Std.ExtTreeMap.mem_toList_iff_getElem?_eq_some]
    exact Std.ExtTreeMap.getElem?_eq_some_getD (mem_nodes.2 ⟨b, .inl hb⟩)

theorem nodup_edgeList (g : Graph α) : g.edgeList.Nodup := by
  refine List.nodup_flatMap.2 ⟨fun node hnode => ?_, ?_⟩
  · rw [Std.ExtTreeMap.mem_toList_iff_getElem?_eq_some] at hnode
    have hnodup : node.2.outgoing.Nodup := by
      have hout := (g.sound.simple node.1).1
      rwa [EdgeTable.outgoing, EdgeTable.edgesAt, Std.ExtTreeMap.getD_eq_getD_getElem?, hnode]
        at hout
    exact hnodup.map fun b c h => congrArg Prod.snd h
  · refine Std.ExtTreeMap.ordered_keys_toList.imp ?_
    intro node node' hlt e he he'
    obtain ⟨b, -, rfl⟩ := List.mem_map.1 he
    obtain ⟨c, -, h⟩ := List.mem_map.1 he'
    rw [congrArg Prod.fst h] at hlt
    simp at hlt

theorem edgeCount_eq (g : Graph α) :
    {e : α × α | e.2 ∈ g.dependencies e.1}.encard = g.edgeCount := by
  have hlength : g.edgeList.length = g.edgeCount := by
    rw [edgeList, edgeCount, Std.ExtTreeMap.foldl_eq_foldl_toList, List.length_flatMap,
      List.sum_eq_foldl, List.foldl_map]
    simp only [List.length_map]
  rw [← hlength]
  exact encard_eq_length g.nodup_edgeList fun e => mem_edgeList

/-! ## After any changes -/

/-- **A graph holds exactly the edges that were set last.** After any changes of edges, a node
depends on what the last setting of its edges lists, each node once and in ascending order, and on
nothing if its edges were cleared after that or were never set. What depends on a node is the
converse, in ascending order too. The graph contains a node if and only if an edge leads from it or
to it, and it counts exactly these nodes and exactly the edges. -/
theorem edges_are_last_set (changes : List (EdgeChange α)) :
    let g := ofChanges changes
    let LastSet := EdgeChange.LastSet changes
    (∀ a, Lists (g.dependencies a).toList (LastSet a)) ∧
      (∀ a, Lists (g.dependents a) fun b => LastSet b a) ∧
      (∀ a, g.contains a = true ↔ ∃ b, LastSet a b ∨ LastSet b a) ∧
      {a | ∃ b, LastSet a b ∨ LastSet b a}.encard = g.nodeCount ∧
      {e : α × α | LastSet e.1 e.2}.encard = g.edgeCount := by
  intro g LastSet
  have hedges : ∀ a b, LastSet a b ↔ b ∈ g.dependencies a := fun a b =>
    mem_dependencies_ofChanges.symm
  simp only [hedges]
  exact ⟨fun a => lists_toList fun b => (hedges a b).symm, fun a => g.lists_dependents a,
    fun a => contains_iff, g.nodeCount_eq, g.edgeCount_eq⟩

/-- Edges listed twice, edges from nodes to themselves, edges set anew and edges cleared: the graph
has forgotten the node that only edges of the past have touched. -/
theorem edges_are_last_set_replaced :
    let changes : List (EdgeChange Nat) := [.setEdges 1 [2, 1, 2], .setEdges 3 [1, 3, 1],
      .setEdges 2 [4], .setEdges 1 [4], .clearEdges 2]
    let g := ofChanges changes
    let LastSet := EdgeChange.LastSet changes
    ((g.dependencies 3).toList = [1, 3] ∧ g.dependents 1 = [3] ∧ g.contains 2 = false ∧
        g.nodeCount = 3 ∧ g.edgeCount = 3) ∧
      (∀ b, LastSet 3 b ↔ b ∈ [1, 3]) ∧ (∀ b, LastSet b 1 ↔ b ∈ [3]) ∧
      (¬ ∃ b, LastSet 2 b ∨ LastSet b 2) ∧
      {a | ∃ b, LastSet a b ∨ LastSet b a}.encard = 3 ∧
      {e : Nat × Nat | LastSet e.1 e.2}.encard = 3 := by
  intro changes g LastSet
  refine (fun facts => ⟨facts, ?_⟩) (by cbv)
  obtain ⟨hdependencies, hdependents, hcontains, hnodes, hedges⟩ := facts
  obtain ⟨hlast, hconverse, hnode, hnodeCount, hedgeCount⟩ := edges_are_last_set changes
  refine ⟨fun b => ?_, fun b => ?_, fun h => ?_, ?_, ?_⟩
  · exact (hdependencies ▸ (hlast 3).mem_iff b).symm
  · exact (hdependents ▸ (hconverse 1).mem_iff b).symm
  · exact Bool.false_ne_true (hcontains.symm.trans ((hnode 2).2 h))
  · exact hnodeCount.trans (congrArg Nat.cast hnodes)
  · exact hedgeCount.trans (congrArg Nat.cast hedges)

end Graph

end Spreadsheet
