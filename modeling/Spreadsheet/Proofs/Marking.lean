/-
What marking a node dirty reaches. `newlyDirty` flags exactly what a path
of dependents leads to without passing a flagged node (`mem_newlyDirty`,
with the path written out in `Graph.marking_is_reachability`), so a set that
was closed under dependents, but for dependencies of the marked node itself,
is closed afterwards (`Links.markDirty_closed`). Where nothing was flagged
these are the node and its transitive dependents
(`Links.markDirty_of_clean`), whatever the node itself depends on
(`Links.insert_transitiveDependents_congr`).
-/
import Spreadsheet.Links
import Spreadsheet.Proofs.Search

namespace Spreadsheet

open Relation

/-- A path is one of other steps too if these have all of its steps but those back to its start. -/
theorem reflTransGen_of_steps_on {α : Type} {R S : α → α → Prop} {a b : α}
    (hstep : ∀ c d, d ≠ a → R c d → S c d) (h : ReflTransGen R a b) : ReflTransGen S a b := by
  induction h with
  | refl => exact .refl
  | @tail c d _ hcd ih =>
    by_cases hd : d = a
    · exact hd ▸ .refl
    · exact ih.tail (hstep c d hd hcd)

variable {α : Type} [Ord α] [Std.TransOrd α] [Std.LawfulEqOrd α]

namespace Graph

variable {g : Graph α} {further : FurtherEdges α} {dirty : Std.ExtTreeSet α} {a b : α}

/-- **Marking reaches what depends on the node** along nodes not flagged before. -/
theorem mem_newlyDirty : b ∈ g.newlyDirty further a dirty ↔
    a ∉ dirty ∧ ReflTransGen (fun c d => g.Above further c d ∧ d ∉ dirty) a b := by
  rw [newlyDirty, flag, mem_flagFrom]
  constructor
  · intro h
    induction h with
    | seed hs hp =>
      obtain rfl := List.mem_singleton.1 hs
      exact ⟨(mem_unflagged.1 hp).2, .refl⟩
    | step _ hn hp ih =>
      exact ⟨ih.1, ih.2.tail ⟨mem_stepsUp.1 hn, (mem_unflagged.1 hp).2⟩⟩
  · rintro ⟨ha, h⟩
    induction h with
    | refl => exact .seed (by simp) (mem_unflagged.2 ⟨mem_set_insert.2 (.inl rfl), ha⟩)
    | tail _ hs ih =>
      exact .step ih (mem_stepsUp.2 hs.1)
        (mem_unflagged.2 ⟨mem_set_insert.2 (.inr hs.1.mem_allNodes), hs.2⟩)

theorem nodup_newlyDirty : (g.newlyDirty further a dirty).Nodup := nodup_flagFrom

theorem mem_transitiveDependents :
    b ∈ g.transitiveDependents further a ↔ TransGen (g.Above further) a b := by
  have hsteps : Edge (g.directDependents further) = g.Above further := by
    funext c d
    exact propext mem_directDependents
  rw [transitiveDependents, mem_set_ofList, mem_reach_of_closed, hsteps, TransGen.head'_iff]
  · exact exists_congr fun c => and_congr_left fun _ => mem_directDependents
  · exact fun c hc => (mem_directDependents.1 hc).mem_allNodes
  · exact fun _ _ c hc => (mem_directDependents.1 hc).mem_allNodes

/-! ## Marking along paths -/

/-- A path from one node up to another: each node on it is above the one before. -/
structure PathUp (g : Graph α) (further : FurtherEdges α) (a b : α) (path : List α) : Prop where
  first : path.head? = some a
  last : path.getLast? = some b
  steps : path.IsChain (g.Above further)

theorem mem_newlyDirty_iff_path : b ∈ g.newlyDirty further a dirty ↔
    ∃ path, g.PathUp further a b path ∧ ∀ c ∈ path, c ∉ dirty := by
  rw [mem_newlyDirty, ← exists_path_iff (P := fun c => c ∉ dirty)]
  constructor
  · rintro ⟨path, hfirst, hlast, hsteps, hclean⟩
    exact ⟨path, ⟨hfirst, hlast, hsteps⟩, hclean⟩
  · rintro ⟨path, ⟨hfirst, hlast, hsteps⟩, hclean⟩
    exact ⟨path, hfirst, hlast, hsteps, hclean⟩

theorem mem_newlyDirty_of_clean : b ∈ g.newlyDirty further a ∅ ↔
    b = a ∨ b ∈ g.transitiveDependents further a := by
  rw [mem_newlyDirty, mem_transitiveDependents]
  simp [reflTransGen_iff_eq_or_transGen]

/-- **Marking a node flags what is reached from it**, for every graph with whatever further edges and
whatever has been flagged before. The newly flagged nodes are listed once each; they are the nodes
at the end of a path up from the marked node on which no node was flagged, from the first to the
last; and no other flag is set and none is lost. The transitive dependents of a node, in ascending
order, are what one or more steps up lead to, so where nothing was flagged a node is flagged
together with exactly its transitive dependents. -/
theorem marking_is_reachability (g : Graph α) (further : FurtherEdges α) (a : α)
    (dirty : Std.ExtTreeSet α) :
    let newly := g.newlyDirty further a dirty
    let above := g.transitiveDependents further a
    newly.Nodup ∧
      (∀ b, b ∈ newly ↔ ∃ path, g.PathUp further a b path ∧ ∀ c ∈ path, c ∉ dirty) ∧
      (∀ b, b ∈ g.markDirty further a dirty ↔ b ∈ dirty ∨ b ∈ newly) ∧
      Lists above.toList (TransGen (g.Above further) a) ∧
      (g.newlyDirty further a ∅).Perm (above.insert a).toList := by
  intro newly above
  refine ⟨nodup_newlyDirty, fun b => mem_newlyDirty_iff_path, fun b => mem_markDirty,
    lists_toList fun b => mem_transitiveDependents, ?_⟩
  refine (List.perm_ext_iff_of_nodup nodup_newlyDirty nodup_toList).2 fun b => ?_
  rw [Std.ExtTreeSet.mem_toList, mem_set_insert, mem_newlyDirty_of_clean]

/-- A circle that is closed by a further edge, and a flagged node in front of another: the search
goes round the circle once and stops before the flagged node, which is among the transitive
dependents together with what lies behind it. -/
theorem marking_is_reachability_circle :
    let g := (((Graph.empty : Graph Nat).setEdges 2 [1]).setEdges 3 [2]).setEdges 4 [2]
      |>.setEdges 5 [4]
    let further : FurtherEdges Nat := {
      dependents := fun n => if n = 3 then [1] else []
      support := .ofList [1]
      mem_support := fun a b h => by split at h <;> simp_all }
    let dirty := Std.ExtTreeSet.ofList [4]
    (g.newlyDirty further 1 dirty = [1, 2, 3] ∧
        (g.transitiveDependents further 1).toList = [1, 2, 3, 4, 5]) ∧
      (∃ path, g.PathUp further 1 3 path ∧ ∀ c ∈ path, c ∉ dirty) ∧
      (¬ ∃ path, g.PathUp further 1 5 path ∧ ∀ c ∈ path, c ∉ dirty) ∧
      TransGen (g.Above further) 1 1 ∧ TransGen (g.Above further) 1 5 := by
  intro g further dirty
  refine (fun facts => ⟨facts, ?_⟩) (by cbv)
  obtain ⟨hnewly, habove⟩ := facts
  obtain ⟨-, hpath, -, hlists, -⟩ := marking_is_reachability g further 1 dirty
  refine ⟨(hpath 3).1 ?_, fun h => ?_, (hlists.mem_iff 1).1 ?_, (hlists.mem_iff 5).1 ?_⟩
  · simp [hnewly]
  · simpa [hnewly] using (hpath 5).2 h
  · simp [habove]
  · simp [habove]

end Graph

/-! ## Marking along links -/

namespace Links

variable {l m : Links α} {further further' : FurtherEdges α} {dirty : Std.ExtTreeSet α} {a b : α}

theorem mem_newlyDirty : b ∈ l.newlyDirty further a dirty ↔
    a ∉ dirty ∧ ReflTransGen (fun c d => l.Above further c d ∧ d ∉ dirty) a b := by
  induction l using Quotient.ind with
  | _ g => exact mem_set_ofList.trans Graph.mem_newlyDirty

theorem mem_markDirty :
    b ∈ l.markDirty further a dirty ↔ b ∈ l.newlyDirty further a dirty ∨ b ∈ dirty := by
  induction l using Quotient.ind with
  | _ g => exact Graph.mem_markDirty.trans (or_comm.trans (or_congr_left mem_set_ofList.symm))

theorem mem_transitiveDependents :
    b ∈ l.transitiveDependents further a ↔ TransGen (l.Above further) a b := by
  induction l using Quotient.ind with
  | _ g => exact Graph.mem_transitiveDependents

theorem mem_markDirty_self : a ∈ l.markDirty further a dirty := by
  rw [mem_markDirty, mem_newlyDirty]
  by_cases ha : a ∈ dirty
  · exact .inr ha
  · exact .inl ⟨ha, .refl⟩

/-- **Where nothing is flagged, marking a node flags it and its transitive dependents.** -/
theorem markDirty_of_clean (l : Links α) (further : FurtherEdges α) (a : α) :
    l.markDirty further a ∅ = (l.transitiveDependents further a).insert a := by
  refine Std.ExtTreeSet.ext_mem fun b => ?_
  rw [mem_markDirty, mem_newlyDirty, mem_set_insert, mem_transitiveDependents]
  simp [reflTransGen_iff_eq_or_transGen]

/-- **A node and its transitive dependents stay the same whatever the node itself depends on.** -/
theorem insert_transitiveDependents_congr
    (hsame : ∀ b c, c ≠ a → (l.Above further b c ↔ m.Above further' b c)) :
    (l.transitiveDependents further a).insert a = (m.transitiveDependents further' a).insert a := by
  refine Std.ExtTreeSet.ext_mem fun b => ?_
  simp only [mem_set_insert, mem_transitiveDependents, ← reflTransGen_iff_eq_or_transGen]
  exact ⟨reflTransGen_of_steps_on fun b c hc => (hsame b c hc).1,
    reflTransGen_of_steps_on fun b c hc => (hsame b c hc).2⟩

/-- A set of nodes that everything depending on one of them belongs to. -/
def ClosedUp (l : Links α) (further : FurtherEdges α) (dirty : Std.ExtTreeSet α) : Prop :=
  ∀ a ∈ dirty, ∀ b, l.Above further a b → b ∈ dirty

/-- **Marking closes the flagged nodes under dependents** if at most the marked node was missing. -/
theorem markDirty_closed
    (h : ∀ b ∈ dirty, ∀ c, l.Above further b c → c ≠ a → c ∈ dirty) :
    l.ClosedUp further (l.markDirty further a dirty) := by
  intro b hb c hc
  by_cases hca : c = a
  · exact hca ▸ mem_markDirty_self
  rw [mem_markDirty] at hb ⊢
  by_cases hcd : c ∈ dirty
  · exact .inr hcd
  rcases hb with hb | hb
  · obtain ⟨ha, hp⟩ := mem_newlyDirty.1 hb
    exact .inl (mem_newlyDirty.2 ⟨ha, hp.tail ⟨hc, hcd⟩⟩)
  · exact .inr (h b hb c hc hca)

end Links

end Spreadsheet
