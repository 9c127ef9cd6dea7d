/-
What a plan says. Among a set of targets, a plan's order lists the targets
that lead to no cycle, each after all it depends on; its cycle members are
the targets that depend on themselves; its cycle dependents are the rest.
`Plan.make_sorts` says so of `Plan.make`, and `Graph.plan_sorts` of the
plan of a graph, where edges that are not stored are followed too.
-/
import Spreadsheet.Links
import Spreadsheet.Proofs.Frames

namespace Spreadsheet

open Relation

variable {α : Type} [Ord α] [Std.TransOrd α]

/-- A dependency of one target on another. -/
def Among (dependencies : α → Std.ExtTreeSet α) (targets : Std.ExtTreeSet α) (a b : α) : Prop :=
  a ∈ targets ∧ b ∈ targets ∧ b ∈ dependencies a

/-- What a plan is to say of a set of targets with a relation among them. -/
structure Plan.Sorts (p : Plan α) (targets : Std.ExtTreeSet α) (R : α → α → Prop) : Prop where
  /-- Every target is listed once, and nothing else. -/
  parts : (p.order ++ p.cycleMembers ++ p.cycleDependents).Perm targets.toList
  mem_cycleMembers : ∀ a, a ∈ p.cycleMembers ↔ TransGen R a a
  mem_cycleDependents : ∀ a, a ∈ p.cycleDependents ↔
    ¬ TransGen R a a ∧ ∃ b ∈ p.cycleMembers, TransGen R a b
  /-- Each node in order comes after all it depends on. -/
  ready : ∀ pre a post, p.order = pre ++ a :: post → ∀ b, R a b → b ∈ pre

theorem Plan.Sorts.order_perm {p : Plan α} {targets : Std.ExtTreeSet α}
    {R : α → α → Prop} (h : p.Sorts targets R) (hc : p.cycleMembers = []) :
    p.order.Perm targets.toList := by
  have hd : p.cycleDependents = [] := by
    refine List.eq_nil_iff_forall_not_mem.2 fun a ha => ?_
    obtain ⟨-, b, hb, -⟩ := (h.mem_cycleDependents a).1 ha
    simp [hc] at hb
  simpa [hc, hd] using h.parts

variable [Std.LawfulEqOrd α]

theorem pairwise_mergeSort_of_nodup {l : List α} (h : l.Nodup) :
    (l.mergeSort fun a b => (compare a b).isLE).Pairwise fun a b => compare a b = .lt := by
  have htrans : ∀ a b c : α, (compare a b).isLE = true → (compare b c).isLE = true →
      (compare a c).isLE = true := fun _ _ _ => Std.TransOrd.isLE_trans
  have htotal : ∀ a b : α, ((compare a b).isLE || (compare b a).isLE) = true := fun a b => by
    by_cases hab : (compare a b).isLE = true
    · simp [hab]
    · simp [Std.OrientedCmp.lt_of_not_isLE hab]
  have hsorted := List.pairwise_mergeSort htrans htotal l
  have hnodup := (List.mergeSort_perm l fun a b => (compare a b).isLE).nodup_iff.2 h
  refine (hsorted.and hnodup).imp fun ⟨hle, hne⟩ => ?_
  exact (Ordering.isLE_iff_eq_lt_or_eq_eq.1 hle).resolve_right fun heq =>
    hne (Std.LawfulEqCmp.eq_of_compare heq)

section Make

variable {dependencies : α → Std.ExtTreeSet α} {targets : Std.ExtTreeSet α}

/-- From a target, the edges the walk follows are the dependencies among the targets. -/
theorem transGen_targetsAmong {a b : α} (ha : a ∈ targets) :
    TransGen (Edge (targetsAmong dependencies targets)) a b ↔
      TransGen (Among dependencies targets) a b := by
  constructor
  · intro h
    refine (transGen_from (fun a b ha h => ?_) ha h).1
    obtain ⟨hd, hb⟩ := mem_targetsAmong.1 h
    exact ⟨⟨ha, hb, hd⟩, hb⟩
  · exact TransGen.mono (fun _ _ h => mem_targetsAmong.2 ⟨h.2.2, h.2.1⟩) a b

omit [Std.LawfulEqOrd α] in
theorem transGen_among_mem {a b : α} (h : TransGen (Among dependencies targets) a b) :
    a ∈ targets ∧ b ∈ targets := by
  induction h with
  | single h => exact ⟨h.1, h.2.1⟩
  | tail _ h ih => exact ⟨ih.1, h.2.1⟩

/-- What the search for the plan has filed. -/
theorem Plan.filed_make : Filed (targetsAmong dependencies targets)
    (targets.toList.foldl (Search.searchFrom dependencies targets) .start).filing (· ∈ targets) :=
  Search.filed_targets dependencies targets

theorem Plan.mem_make_cycleMembers {a : α} : a ∈ (Plan.make dependencies targets).cycleMembers ↔
    TransGen (Among dependencies targets) a a := by
  refine List.mem_mergeSort.trans ((filed_make.members a).trans ?_)
  constructor
  · rintro ⟨ha, h⟩
    exact (transGen_targetsAmong ha).1 h
  · intro h
    have ha := (transGen_among_mem h).1
    exact ⟨ha, (transGen_targetsAmong ha).2 h⟩

theorem Plan.mem_make_cycleDependents {a : α} :
    a ∈ (Plan.make dependencies targets).cycleDependents ↔
      ¬ TransGen (Among dependencies targets) a a ∧
        ∃ b ∈ (Plan.make dependencies targets).cycleMembers, TransGen (Among dependencies targets) a b := by
  refine List.mem_mergeSort.trans ((filed_make.dependents a).trans ?_)
  constructor
  · rintro ⟨ha, hself, c, hac, hc⟩
    have hac : TransGen (Edge (targetsAmong dependencies targets)) a c := by
      rcases reflTransGen_iff_eq_or_transGen.1 hac with rfl | hac
      · exact absurd hc hself
      · exact hac
    have hac := (transGen_targetsAmong ha).1 hac
    have hc := (transGen_targetsAmong (transGen_among_mem hac).2).1 hc
    exact ⟨fun h => hself ((transGen_targetsAmong ha).2 h), c, mem_make_cycleMembers.2 hc, hac⟩
  · rintro ⟨hself, b, hb, hab⟩
    have ha := (transGen_among_mem hab).1
    have hb := mem_make_cycleMembers.1 hb
    refine ⟨ha, fun h => hself ((transGen_targetsAmong ha).1 h), b, ?_, ?_⟩
    · exact ((transGen_targetsAmong ha).2 hab).to_reflTransGen
    · exact (transGen_targetsAmong (transGen_among_mem hb).1).2 hb

theorem Plan.pairwise_make_cycleMembers :
    (Plan.make dependencies targets).cycleMembers.Pairwise fun a b => compare a b = .lt :=
  pairwise_mergeSort_of_nodup filed_make.nodup.2.1

theorem Plan.make_parts : ((Plan.make dependencies targets).order ++
    (Plan.make dependencies targets).cycleMembers ++
      (Plan.make dependencies targets).cycleDependents).Perm targets.toList :=
  (((List.reverse_perm _).append (List.mergeSort_perm _ _)).append (List.mergeSort_perm _ _)).trans
    filed_make.parts

theorem Plan.make_ready {pre post : List α} {a b : α}
    (h : (Plan.make dependencies targets).order = pre ++ a :: post)
    (hab : Among dependencies targets a b) : b ∈ pre := by
  have horder := List.reverse_eq_iff.1 h
  rw [List.reverse_append, List.reverse_cons, List.append_assoc] at horder
  exact List.mem_reverse.1
    (filed_make.ready.mem_of_append horder (mem_targetsAmong.2 ⟨hab.2.2, hab.2.1⟩))

/-- **A plan says what it is to say** of its targets and the dependencies among them. -/
theorem Plan.make_sorts :
    (Plan.make dependencies targets).Sorts targets (Among dependencies targets) where
  parts := make_parts
  mem_cycleMembers _ := mem_make_cycleMembers
  mem_cycleDependents _ := mem_make_cycleDependents
  ready _ _ _ h _ hab := make_ready h hab

end Make

/-! ## The plan of a graph -/

/-- One target of a plan depends on another, through a stored edge or a further one. -/
def Graph.TargetDependsOn (g : Graph α) (further : α → List α) (targets : Std.ExtTreeSet α)
    (a b : α) : Prop :=
  a ∈ targets ∧ b ∈ targets ∧ (b ∈ g.dependencies a ∨ b ∈ further a)

/-- The same of links. -/
def Links.TargetDependsOn (l : Links α) (further : α → List α) (targets : Std.ExtTreeSet α)
    (a b : α) : Prop :=
  a ∈ targets ∧ b ∈ targets ∧ (b ∈ l.dependencies a ∨ b ∈ further a)

theorem Graph.plan_sorts (g : Graph α) (further : α → List α) (targets : Std.ExtTreeSet α) :
    (g.plan further targets).Sorts targets (g.TargetDependsOn further targets) := by
  have hR : Among (fun a => (g.dependencies a).insertMany (further a)) targets =
      g.TargetDependsOn further targets := by
    funext a b
    simp only [Among, TargetDependsOn, mem_set_insertMany, or_comm]
  exact hR ▸ Plan.make_sorts

theorem Links.plan_sorts (l : Links α) (further : α → List α) (targets : Std.ExtTreeSet α) :
    (l.plan further targets).Sorts targets (l.TargetDependsOn further targets) := by
  induction l using Quotient.ind with
  | _ g => exact g.plan_sorts further targets

/-- **The plan of a graph orders its targets and tells cycles apart.** The three parts of the plan
hold every target once and nothing else; the cycle members are the targets that reach themselves;
the cycle dependents are the other targets that reach a cycle member; and each node in order comes
after all the targets it depends on. -/
theorem Graph.plan_orders_targets (g : Graph α) (further : α → List α)
    (targets : Std.ExtTreeSet α) :
    let p := g.plan further targets
    let R := g.TargetDependsOn further targets
    (p.order ++ p.cycleMembers ++ p.cycleDependents).Perm targets.toList ∧
      (∀ a, a ∈ p.cycleMembers ↔ TransGen R a a) ∧
      (∀ a, a ∈ p.cycleDependents ↔ ¬ TransGen R a a ∧ ∃ b ∈ p.cycleMembers, TransGen R a b) ∧
      ∀ pre a post, p.order = pre ++ a :: post → ∀ b, R a b → b ∈ pre :=
  have h := g.plan_sorts further targets
  ⟨h.parts, h.mem_cycleMembers, h.mem_cycleDependents, h.ready⟩

/-- A loop of 1 and 2 closed by a further edge, a node that leads to it, and one that does not. -/
theorem Graph.plan_orders_targets_loop :
    let g := ((Graph.empty : Graph Nat).setEdges 1 [2]).setEdges 3 [1, 4]
    let further := fun n => if n = 2 then [1] else []
    let targets := Std.ExtTreeSet.ofList [1, 2, 3, 4]
    let p := g.plan further targets
    let R := g.TargetDependsOn further targets
    (p.order = [4] ∧ p.cycleMembers = [1, 2] ∧ p.cycleDependents = [3]) ∧
      (p.order ++ p.cycleMembers ++ p.cycleDependents).Perm targets.toList ∧
      (∀ a, a ∈ p.cycleMembers ↔ TransGen R a a) ∧
      (∀ a, a ∈ p.cycleDependents ↔ ¬ TransGen R a a ∧ ∃ b ∈ p.cycleMembers, TransGen R a b) ∧
      ∀ pre a post, p.order = pre ++ a :: post → ∀ b, R a b → b ∈ pre :=
  ⟨⟨by cbv, by cbv, by cbv⟩, Graph.plan_orders_targets _ _ _⟩

end Spreadsheet
