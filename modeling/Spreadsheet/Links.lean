/-
Dependency graphs up to the order in which their edges were made. Two graphs with the same edges can
hold them in different orders, but all that they tell, and what becomes of them when edges are set,
is the same up to that order. `Links` are graphs taken as the same if they have the same edges, so
links are told apart by what nodes depend on (`Links.ext_dependencies`).
-/
import Spreadsheet.Graph

namespace Spreadsheet

variable {α : Type} [Ord α] [Std.TransOrd α] [Std.LawfulEqOrd α]

namespace Graph

/-- Two graphs have the same edges. -/
def SameEdges (g h : Graph α) : Prop :=
  ∀ a, g.dependencies a = h.dependencies a

namespace SameEdges

variable {g h : Graph α} {further : FurtherEdges α} {dirty : Std.ExtTreeSet α} {a b : α}

theorem setEdges (hs : g.SameEdges h) (targets : List α) :
    (g.setEdges a targets).SameEdges (h.setEdges a targets) := by
  intro b
  by_cases hb : a = b
  · subst hb
    rw [dependencies_setEdges_self, dependencies_setEdges_self]
  · rw [dependencies_setEdges_other g hb, dependencies_setEdges_other h hb, hs b]

omit [Std.LawfulEqOrd α] in
theorem above (hs : g.SameEdges h) : g.Above further = h.Above further := by
  funext a b
  rw [Above, Above, hs b]

theorem allNodes (hs : g.SameEdges h) : g.allNodes further = h.allNodes further := by
  refine Std.ExtTreeSet.ext_mem fun a => ?_
  simp only [Graph.allNodes, mem_set_insertMany, Std.ExtTreeMap.mem_keys, mem_nodes, hs _]

theorem dependents (hs : g.SameEdges h) : g.dependents a = h.dependents a :=
  congrArg Std.ExtTreeSet.toList <| Std.ExtTreeSet.ext_mem fun b => by
    rw [mem_set_ofList, mem_set_ofList, mem_incoming, mem_incoming, hs b]

/-- The search for what to flag goes other ways, but to the same nodes. -/
theorem mem_newlyDirty (hs : g.SameEdges h) :
    b ∈ g.newlyDirty further a dirty ↔ b ∈ h.newlyDirty further a dirty := by
  have hsteps : ∀ {k l : Graph α}, k.Above further = l.Above further →
      ∀ c, ∀ d ∈ k.stepsUp further c, d ∈ l.stepsUp further c := fun heq c d hd =>
    mem_stepsUp.2 (heq ▸ mem_stepsUp.1 hd)
  rw [Graph.newlyDirty, Graph.newlyDirty, flag, flag, mem_flagFrom, mem_flagFrom, hs.allNodes]
  exact ⟨fun hb => hb.mono (hsteps hs.above) (fun _ hp => hp) fun _ _ hc => hc,
    fun hb => hb.mono (hsteps hs.above.symm) (fun _ hp => hp) fun _ _ hc => hc⟩

theorem markDirty (hs : g.SameEdges h) :
    g.markDirty further a dirty = h.markDirty further a dirty :=
  Std.ExtTreeSet.ext_mem fun b => by rw [mem_markDirty, mem_markDirty, hs.mem_newlyDirty]

theorem transitiveDependents (hs : g.SameEdges h) :
    g.transitiveDependents further a = h.transitiveDependents further a := by
  have hdirect : g.directDependents further = h.directDependents further := by
    funext b
    rw [directDependents, directDependents, hs.dependents]
  rw [Graph.transitiveDependents, Graph.transitiveDependents, hdirect, hs.allNodes]

theorem plan (hs : g.SameEdges h) {further : α → List α} {targets : Std.ExtTreeSet α} :
    g.plan further targets = h.plan further targets :=
  congrArg (Plan.make · targets) (funext fun a => by rw [hs a])

end SameEdges

/-- To have the same edges is an equivalence. -/
def sameEdges (α : Type) [Ord α] [Std.TransOrd α] [Std.LawfulEqOrd α] : Setoid (Graph α) where
  r := SameEdges
  iseqv := ⟨fun _ _ => rfl, fun h a => (h a).symm, fun h h' a => (h a).trans (h' a)⟩

end Graph

/-- Graphs, of which those with the same edges are the same. -/
def Links (α : Type) [Ord α] [Std.TransOrd α] [Std.LawfulEqOrd α] :=
  Quotient (Graph.sameEdges α)

namespace Links

/-- No edges. -/
def empty : Links α := Quotient.mk _ .empty

/-- What a node depends on. -/
def dependencies (l : Links α) (a : α) : Std.ExtTreeSet α :=
  Quotient.lift (fun g : Graph α => g.dependencies a) (fun _ _ (h : Graph.SameEdges _ _) => h a) l

/-- The nodes that depend on a node, in ascending order. -/
def dependents (l : Links α) (a : α) : List α :=
  Quotient.lift (fun g : Graph α => g.dependents a) (fun _ _ h => Graph.SameEdges.dependents h) l

/-- One node is above another if it depends on it, by a link or by a further edge. -/
def Above (l : Links α) (further : FurtherEdges α) (a b : α) : Prop :=
  a ∈ l.dependencies b ∨ b ∈ further.dependents a

/-- The links with which a node depends on exactly the listed nodes. -/
def setEdges (l : Links α) (a : α) (targets : List α) : Links α :=
  Quotient.lift (fun g : Graph α => Quotient.mk (Graph.sameEdges α) (g.setEdges a targets))
    (fun _ _ h => Quotient.sound (Graph.SameEdges.setEdges h targets)) l

/-- The nodes that are flagged when a node changes. -/
def newlyDirty (l : Links α) (further : FurtherEdges α) (a : α) (dirty : Std.ExtTreeSet α) :
    Std.ExtTreeSet α :=
  Quotient.lift (fun g : Graph α => .ofList (g.newlyDirty further a dirty))
    (fun _ _ h => Std.ExtTreeSet.ext_mem fun _ => by
      rw [mem_set_ofList, mem_set_ofList, Graph.SameEdges.mem_newlyDirty h]) l

/-- The flagged nodes after a node has changed. -/
def markDirty (l : Links α) (further : FurtherEdges α) (a : α) (dirty : Std.ExtTreeSet α) :
    Std.ExtTreeSet α :=
  Quotient.lift (fun g : Graph α => g.markDirty further a dirty)
    (fun _ _ h => Graph.SameEdges.markDirty h) l

/-- The nodes that depend on a node in one or more steps. -/
def transitiveDependents (l : Links α) (further : FurtherEdges α) (a : α) : Std.ExtTreeSet α :=
  Quotient.lift (fun g : Graph α => g.transitiveDependents further a)
    (fun _ _ h => Graph.SameEdges.transitiveDependents h) l

/-- The plan for a set of targets, which may have further dependencies that are not stored. -/
def plan (l : Links α) (further : α → List α) (targets : Std.ExtTreeSet α) : Plan α :=
  Quotient.lift (fun g : Graph α => g.plan further targets)
    (fun _ _ h => Graph.SameEdges.plan h) l

@[simp] theorem dependencies_empty (a : α) : (empty : Links α).dependencies a = ∅ :=
  Graph.dependencies_empty a

@[simp] theorem dependencies_setEdges_self (l : Links α) (a : α) (targets : List α) :
    (l.setEdges a targets).dependencies a = .ofList targets := by
  induction l using Quotient.ind with
  | _ g => exact g.dependencies_setEdges_self a targets

theorem dependencies_setEdges_other (l : Links α) {a b : α} (h : a ≠ b) (targets : List α) :
    (l.setEdges a targets).dependencies b = l.dependencies b := by
  induction l using Quotient.ind with
  | _ g => exact g.dependencies_setEdges_other h targets

theorem mem_dependents {l : Links α} {a b : α} : b ∈ l.dependents a ↔ a ∈ l.dependencies b := by
  induction l using Quotient.ind with
  | _ g => exact Graph.mem_dependents

/-- Links are told apart by what their nodes depend on. -/
theorem ext_dependencies {l m : Links α} (heq : ∀ a, l.dependencies a = m.dependencies a) :
    l = m := by
  induction l using Quotient.ind with
  | _ g =>
    induction m using Quotient.ind with
    | _ h => exact Quotient.sound heq

end Links

end Spreadsheet
