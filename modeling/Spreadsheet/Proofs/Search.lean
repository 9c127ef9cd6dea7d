/-
What a search along edges finds: when its pool holds everything the edges
lead to, the nodes reached from a seed (`mem_reach_of_closed`). The paths
from a set that is not left, or to it, are those of any relation that has
the same steps there (`transGen_from`, `transGen_to`). Where no path closes,
nodes have ranks that fall along every edge (`exists_rank`), so what can be
proved from node to node holds of all (`acyclic_induction`).
-/
import Mathlib
import Spreadsheet.Reach
import Spreadsheet.Sets

namespace Spreadsheet

open Relation

/-! ## Paths that keep to a set -/

section Paths

variable {α : Type} {R S : α → α → Prop} {P : α → Prop} {a b : α}

/-- A path from a set that its steps do not leave is one of other steps that are the same there. -/
theorem transGen_from (hstep : ∀ a b, P a → R a b → S a b ∧ P b) (ha : P a) (h : TransGen R a b) :
    TransGen S a b ∧ P b := by
  induction h with
  | single h =>
    obtain ⟨h, hb⟩ := hstep _ _ ha h
    exact ⟨.single h, hb⟩
  | tail _ h ih =>
    obtain ⟨h, hb⟩ := hstep _ _ ih.2 h
    exact ⟨ih.1.tail h, hb⟩

/-- The same of a path to a set that its steps, followed back, do not leave. -/
theorem transGen_to (hstep : ∀ a b, P b → R a b → S a b ∧ P a) (hb : P b) (h : TransGen R a b) :
    TransGen S a b ∧ P a := by
  have h := transGen_from (fun b a => hstep a b) hb (transGen_swap.2 h)
  exact ⟨transGen_swap.1 h.1, h.2⟩

theorem transGen_stays (hstay : ∀ a b, P a → R a b → P b) (ha : P a) (h : TransGen R a b) : P b :=
  (transGen_from (fun a b ha h => ⟨h, hstay a b ha h⟩) ha h).2

theorem transGen_congr_on (hsame : ∀ a b, P a → (R a b ↔ S a b))
    (hstay : ∀ a b, P a → R a b → P b) (ha : P a) : TransGen R a b ↔ TransGen S a b := by
  constructor <;> intro h
  · exact (transGen_from (fun a b ha h => ⟨(hsame a b ha).1 h, hstay a b ha h⟩) ha h).1
  · refine (transGen_from (fun a b ha h => ?_) ha h).1
    have h := (hsame a b ha).2 h
    exact ⟨h, hstay a b ha h⟩

/-- A path that keeps to a set, written out as the list of its nodes. -/
theorem exists_path_iff : (∃ path : List α, path.head? = some a ∧ path.getLast? = some b ∧
    path.IsChain R ∧ ∀ c ∈ path, P c) ↔ P a ∧ ReflTransGen (fun c d => R c d ∧ P d) a b := by
  constructor
  · rintro ⟨path, hfirst, hlast, hsteps, hpath⟩
    induction path generalizing a with
    | nil => simp at hfirst
    | cons c path ih =>
      obtain rfl : c = a := by simpa using hfirst
      refine ⟨hpath c List.mem_cons_self, ?_⟩
      cases path with
      | nil =>
        obtain rfl : c = b := by simpa using hlast
        exact .refl
      | cons d path =>
        obtain ⟨hcd, hsteps⟩ := List.isChain_cons_cons.1 hsteps
        obtain ⟨hd, hdb⟩ := ih rfl (by simpa using hlast) hsteps
          fun e he => hpath e (List.mem_cons_of_mem c he)
        exact .head ⟨hcd, hd⟩ hdb
  · rintro ⟨ha, h⟩
    induction h using ReflTransGen.head_induction_on with
    | refl => exact ⟨[b], rfl, rfl, .singleton b, by simpa using ha⟩
    | @head c d hcd _ ih =>
      obtain ⟨path, hfirst, hlast, hsteps, hpath⟩ := ih hcd.2
      obtain ⟨path, rfl⟩ := List.head?_eq_some_iff.1 hfirst
      refine ⟨c :: d :: path, rfl, by simpa using hlast,
        List.isChain_cons_cons.2 ⟨hcd.1, hsteps⟩, ?_⟩
      simpa using ⟨ha, hpath d (by simp), fun e he => hpath e (by simp [he])⟩

end Paths

variable {α : Type} [Ord α] [Std.TransOrd α]

variable [Std.LawfulEqOrd α]

/-! ## Listing and counting -/

/-- A list of exactly the nodes with a property, each of them once and in ascending order. -/
structure Lists (l : List α) (P : α → Prop) : Prop where
  ascending : l.Pairwise fun a b => compare a b = .lt
  mem_iff : ∀ a, a ∈ l ↔ P a

theorem lists_toList {s : Std.ExtTreeSet α} {P : α → Prop} (h : ∀ a, a ∈ s ↔ P a) :
    Lists s.toList P where
  ascending := Std.ExtTreeSet.ordered_toList
  mem_iff a := Std.ExtTreeSet.mem_toList.trans (h a)

theorem nodup_toList {s : Std.ExtTreeSet α} : s.toList.Nodup :=
  Std.ExtTreeSet.distinct_toList.imp fun h he => h (Std.LawfulEqCmp.compare_eq_iff_eq.2 he)

omit [Ord α] [Std.TransOrd α] [Std.LawfulEqOrd α] in
theorem encard_eq_length {l : List α} {S : Set α} (hnodup : l.Nodup) (hmem : ∀ a, a ∈ l ↔ a ∈ S) :
    S.encard = l.length := by
  classical
  have hS : S = l.toFinset := by
    ext a
    simp [hmem]
  rw [hS, Set.encard_coe_eq_coe_finsetCard, List.toFinset_card_of_nodup hnodup]

/-! ## The search -/

/-- An edge of a list of edges for each node, as a relation. -/
def Edge (next : α → List α) (a b : α) : Prop := b ∈ next a

/-- A search in a pool that edges do not leave finds all that the seeds reach. -/
theorem mem_reach_of_closed {next : α → List α} {pool : Std.ExtTreeSet α} {seeds : List α} {b : α}
    (hs : ∀ a ∈ seeds, a ∈ pool) (hn : ∀ a ∈ pool, ∀ b ∈ next a, b ∈ pool) :
    b ∈ reach next pool seeds ↔ ∃ a ∈ seeds, ReflTransGen (Edge next) a b := by
  rw [mem_reach]
  constructor
  · intro h
    induction h with
    | seed ha _ => exact ⟨_, ha, .refl⟩
    | step _ hb _ ih =>
      obtain ⟨a, ha, hp⟩ := ih
      exact ⟨a, ha, hp.tail hb⟩
  · rintro ⟨a, ha, hp⟩
    induction hp with
    | refl => exact .seed ha (hs a ha)
    | tail _ hb ih => exact .step ih hb (hn _ ih.mem_pool _ hb)

/-! ## Paths that do not close -/

/-- Nodes have ranks that fall along every step, if the nodes with steps are among finitely many and
no path leads from a node back to it. The rank is at most the number of those nodes and zero only
outside them. -/
theorem exists_rank {β : Type} {R : β → β → Prop} (nodes : List β)
    (hnodes : ∀ a b, R a b → a ∈ nodes) (hcycle : ∀ a, ¬ TransGen R a a) :
    ∃ rank : β → Nat, (∀ a, rank a ≤ nodes.length) ∧ (∀ a ∈ nodes, 0 < rank a) ∧
      ∀ a b, R a b → rank b < rank a := by
  classical
  -- the rank of a node is the number of nodes that it leads to, itself included
  refine ⟨fun a => (nodes.toFinset.filter fun c => ReflTransGen R a c).card, fun a => ?_,
    fun a ha => ?_, fun a b hab => Finset.card_lt_card ?_⟩
  · exact (Finset.card_filter_le _ _).trans (List.toFinset_card_le _)
  · exact Finset.card_pos.2 ⟨a, Finset.mem_filter.2 ⟨List.mem_toFinset.2 ha, .refl⟩⟩
  · refine (Finset.ssubset_iff_of_subset fun c hc => ?_).2 ⟨a, ?_, fun ha => ?_⟩
    · obtain ⟨hc, hbc⟩ := Finset.mem_filter.1 hc
      exact Finset.mem_filter.2 ⟨hc, .head hab hbc⟩
    · exact Finset.mem_filter.2 ⟨List.mem_toFinset.2 (hnodes a b hab), .refl⟩
    · exact hcycle a (.head' hab (Finset.mem_filter.1 ha).2)

/-- What holds of a node once it holds of all that the node leads to holds of every node. -/
theorem acyclic_induction {β : Type} {R : β → β → Prop} {P : β → Prop} (nodes : List β)
    (hnodes : ∀ a b, R a b → a ∈ nodes) (hcycle : ∀ a, ¬ TransGen R a a)
    (step : ∀ a, (∀ b, R a b → P b) → P a) (a : β) : P a := by
  obtain ⟨rank, -, -, hlt⟩ := exists_rank nodes hnodes hcycle
  induction h : rank a using Nat.strong_induction_on generalizing a with
  | _ n ih =>
    subst h
    exact step a fun b hab => ih (rank b) (hlt a b hab) b rfl

end Spreadsheet
