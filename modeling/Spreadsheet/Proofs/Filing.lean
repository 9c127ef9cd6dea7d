/-
What has been filed in a search for components, given the nodes that are done with. These are told
apart by the cycles they are on or lead to (`Filed`). Components are filed one after another: all
that the nodes of one lead to is done with before, or in the component itself, and these lead to
each other (`Filed.component`).
-/
import Spreadsheet.Plan
import Spreadsheet.Proofs.Search

namespace Spreadsheet

open Relation

variable {α : Type}

/-! ## Leading to a cycle -/

/-- Whether a node leads to a cycle, which it does if it is on one. -/
def LeadsToCycle (R : α → α → Prop) (a : α) : Prop :=
  ∃ c, ReflTransGen R a c ∧ TransGen R c c

theorem LeadsToCycle.of_cycle {R : α → α → Prop} {a : α} (h : TransGen R a a) :
    LeadsToCycle R a := ⟨a, .refl, h⟩

theorem LeadsToCycle.head {R : α → α → Prop} {a b : α} (h : R a b) (hb : LeadsToCycle R b) :
    LeadsToCycle R a := by
  obtain ⟨c, hbc, hc⟩ := hb
  exact ⟨c, .head h hbc, hc⟩

/-- A node leads to a cycle only through something it depends on. -/
theorem LeadsToCycle.exists_next {R : α → α → Prop} {a : α} (h : LeadsToCycle R a) :
    ∃ b, R a b ∧ LeadsToCycle R b := by
  obtain ⟨c, hac, hc⟩ := h
  rcases hac.cases_head with rfl | ⟨b, hab, hbc⟩
  · obtain ⟨b, hab, hba⟩ := TransGen.head'_iff.1 hc
    exact ⟨b, hab, a, hba, hc⟩
  · exact ⟨b, hab, c, hbc, hc⟩

/-- Every node of a list depends only on what stands behind it. -/
def DependenciesBehind (next : α → List α) : List α → Prop
  | [] => True
  | a :: rest => (∀ b ∈ next a, b ∈ rest) ∧ DependenciesBehind next rest

theorem DependenciesBehind.mem_of_append {next : α → List α} {l pre post : List α} {a b : α}
    (h : DependenciesBehind next l) (hl : l = pre ++ a :: post) (hb : b ∈ next a) : b ∈ post := by
  induction pre generalizing l with
  | nil => exact (hl ▸ h).1 b hb
  | cons c pre ih => exact ih (hl ▸ h).2 rfl

variable [Ord α] [Std.TransOrd α]

theorem mem_targetsAmong [Std.LawfulEqOrd α] {dependencies : α → Std.ExtTreeSet α}
    {targets : Std.ExtTreeSet α} {a b : α} :
    b ∈ targetsAmong dependencies targets a ↔ b ∈ dependencies a ∧ b ∈ targets := by
  simp only [targetsAmong, List.mem_filter, Std.ExtTreeSet.mem_toList]
  exact Iff.rfl

/-! ## What has been filed -/

/-- The nodes that are done with have been filed: what leads to no cycle in order, newest first, and
the rest by whether it is on a cycle itself. -/
structure Filed (next : α → List α) (p : Filing α) (done : α → Prop) : Prop where
  /-- What is done with leads only to what is done with. -/
  closed : ∀ a, done a → ∀ b ∈ next a, done b
  tainted : ∀ a, a ∈ p.tainted ↔ done a ∧ LeadsToCycle (Edge next) a
  order : ∀ a, a ∈ p.order ↔ done a ∧ ¬ LeadsToCycle (Edge next) a
  members : ∀ a, a ∈ p.cycleMembers ↔ done a ∧ TransGen (Edge next) a a
  dependents : ∀ a, a ∈ p.cycleDependents ↔
    done a ∧ ¬ TransGen (Edge next) a a ∧ LeadsToCycle (Edge next) a
  nodup : p.order.Nodup ∧ p.cycleMembers.Nodup ∧ p.cycleDependents.Nodup
  ready : DependenciesBehind next p.order

namespace Filed

variable {next : α → List α} {p : Filing α} {done : α → Prop} {a : α}

theorem start : Filed next .start fun _ => False where
  closed _ h := h.elim
  tainted := by simp [Filing.start]
  order := by simp [Filing.start]
  members := by simp [Filing.start]
  dependents := by simp [Filing.start]
  nodup := ⟨.nil, .nil, .nil⟩
  ready := trivial

theorem done_of_path (h : Filed next p done) {b : α} (ha : done a)
    (hab : ReflTransGen (Edge next) a b) : done b := by
  induction hab with
  | refl => exact ha
  | tail _ hb ih => exact h.closed _ ih _ hb

/-- A node all of whose dependencies are done with is on no cycle. -/
theorem not_cycle (h : Filed next p done) (ha : ¬ done a) (hnext : ∀ b ∈ next a, done b) :
    ¬ TransGen (Edge next) a a := fun hcycle => by
  obtain ⟨b, hab, hba⟩ := TransGen.head'_iff.1 hcycle
  exact ha (h.done_of_path (hnext b hab) hba)

theorem leadsToCycle_iff (h : Filed next p done) (hnext : ∀ b ∈ next a, done b) :
    LeadsToCycle (Edge next) a ↔ ∃ b ∈ next a, b ∈ p.tainted := by
  constructor
  · intro hl
    obtain ⟨b, hab, hb⟩ := hl.exists_next
    exact ⟨b, hab, (h.tainted b).2 ⟨hnext b hab, hb⟩⟩
  · rintro ⟨b, hab, hb⟩
    exact .head hab ((h.tainted b).1 hb).2

theorem closed_insert (h : Filed next p done) (hnext : ∀ b ∈ next a, done b) :
    ∀ b, b = a ∨ done b → ∀ c ∈ next b, c = a ∨ done c := by
  rintro b (rfl | hb) c hc
  · exact .inr (hnext c hc)
  · exact .inr (h.closed b hb c hc)

/-- **Filing a node that leads to no cycle**: it comes after all that it depends on. -/
theorem next_in_order (h : Filed next p done) (ha : ¬ done a) (hnext : ∀ b ∈ next a, done b)
    (hleads : ¬ LeadsToCycle (Edge next) a) :
    Filed next { p with order := a :: p.order } fun b => b = a ∨ done b where
  closed := h.closed_insert hnext
  tainted b := by
    by_cases hb : b = a
    · simp [hb, h.tainted, ha, hleads]
    · simp [hb, h.tainted]
  order b := by
    by_cases hb : b = a
    · simp [hb, hleads]
    · simp [hb, h.order]
  members b := by
    by_cases hb : b = a
    · simp [hb, h.members, ha, h.not_cycle ha hnext]
    · simp [hb, h.members]
  dependents b := by
    by_cases hb : b = a
    · simp [hb, h.dependents, ha, hleads]
    · simp [hb, h.dependents]
  nodup := ⟨List.nodup_cons.2 ⟨fun hb => ha ((h.order a).1 hb).1, h.nodup.1⟩, h.nodup.2⟩
  ready := ⟨fun b hb => (h.order b).2 ⟨hnext b hb, fun hlb => hleads (.head hb hlb)⟩, h.ready⟩

variable [Std.LawfulEqOrd α] {dependencies : α → Std.ExtTreeSet α} {targets : Std.ExtTreeSet α}

theorem parts (h : Filed next p (· ∈ targets)) :
    (p.order ++ p.cycleMembers ++ p.cycleDependents).Perm targets.toList := by
  obtain ⟨horder, hmembers, hdependents⟩ := h.nodup
  have hfront : ∀ a ∈ p.order, ∀ b ∈ p.cycleMembers, a ≠ b := by
    rintro a ha _ hb rfl
    exact ((h.order a).1 ha).2 (.of_cycle ((h.members a).1 hb).2)
  have hback : ∀ a ∈ p.order ++ p.cycleMembers, ∀ b ∈ p.cycleDependents, a ≠ b := by
    rintro a ha _ hb rfl
    obtain ⟨-, hself, hleads⟩ := (h.dependents a).1 hb
    rcases List.mem_append.1 ha with ha | ha
    · exact ((h.order a).1 ha).2 hleads
    · exact hself ((h.members a).1 ha).2
  refine (List.perm_ext_iff_of_nodup ?_ nodup_toList).2 fun a => ?_
  · exact List.nodup_append.2 ⟨List.nodup_append.2 ⟨horder, hmembers, hfront⟩, hdependents, hback⟩
  · simp only [List.mem_append, h.order, h.members, h.dependents, Std.ExtTreeSet.mem_toList]
    by_cases hself : TransGen (Edge next) a a
    · simp [hself, LeadsToCycle.of_cycle hself]
    · by_cases hleads : LeadsToCycle (Edge next) a
      · simp [hself, hleads]
      · simp [hself, hleads]

/-- **Filing a node below a cycle.** -/
theorem dependent (h : Filed next p done) (ha : ¬ done a) (hnext : ∀ b ∈ next a, done b)
    (hleads : LeadsToCycle (Edge next) a) :
    Filed next { p with
        tainted := p.tainted.insert a
        cycleDependents := a :: p.cycleDependents }
      fun b => b = a ∨ done b where
  closed := h.closed_insert hnext
  tainted b := by
    rw [mem_set_insert, h.tainted]
    by_cases hb : b = a
    · simp [hb, hleads]
    · simp [hb]
  order b := by
    by_cases hb : b = a
    · simp [hb, h.order, ha, hleads]
    · simp [hb, h.order]
  members b := by
    by_cases hb : b = a
    · simp [hb, h.members, ha, h.not_cycle ha hnext]
    · simp [hb, h.members]
  dependents b := by
    by_cases hb : b = a
    · simp [hb, hleads, h.not_cycle ha hnext]
    · simp [hb, h.dependents]
  nodup := ⟨h.nodup.1, h.nodup.2.1,
    List.nodup_cons.2 ⟨fun hb => ha ((h.dependents a).1 hb).1, h.nodup.2.2⟩⟩
  ready := h.ready

/-- **Filing a node on no cycle**, of which all that it depends on is done with. -/
theorem file (h : Filed (targetsAmong dependencies targets) p done) (ha : ¬ done a)
    (hnext : ∀ b ∈ targetsAmong dependencies targets a, done b) :
    Filed (targetsAmong dependencies targets) (p.file dependencies targets a)
      fun b => b = a ∨ done b := by
  have htaint : (targetsAmong dependencies targets a).any p.tainted.contains = true ↔
      LeadsToCycle (Edge (targetsAmong dependencies targets)) a :=
    List.any_eq_true.trans (h.leadsToCycle_iff hnext).symm
  rw [Filing.file]
  split
  · exact h.dependent ha hnext (htaint.1 ‹_›)
  · rename_i hclean
    exact h.next_in_order ha hnext fun hl => Bool.false_ne_true (hclean.symm.trans (htaint.2 hl))

/-! ### Components -/

/-- **Filing a cycle**: nodes each of which leads back to itself, and to nothing else but what is
done with. -/
theorem cycle (h : Filed next p done) {component : List α} (hnew : ∀ a ∈ component, ¬ done a)
    (hnodup : component.Nodup) (hnext : ∀ a ∈ component, ∀ b ∈ next a, done b ∨ b ∈ component)
    (hcycle : ∀ a ∈ component, TransGen (Edge next) a a) :
    Filed next { p with
        tainted := p.tainted.insertMany component
        cycleMembers := component ++ p.cycleMembers }
      fun b => b ∈ component ∨ done b where
  closed := by
    rintro b (hb | hb) c hc
    · exact (hnext b hb c hc).symm
    · exact .inr (h.closed b hb c hc)
  tainted b := by
    by_cases hb : b ∈ component
    · simp [mem_set_insertMany, hb, LeadsToCycle.of_cycle (hcycle b hb)]
    · simp [mem_set_insertMany, hb, h.tainted]
  order b := by
    by_cases hb : b ∈ component
    · simp [hb, h.order, hnew b hb, LeadsToCycle.of_cycle (hcycle b hb)]
    · simp [hb, h.order]
  members b := by
    by_cases hb : b ∈ component
    · simp [hb, hcycle b hb]
    · simp [hb, h.members]
  dependents b := by
    by_cases hb : b ∈ component
    · simp [hb, h.dependents, hnew b hb, hcycle b hb]
    · simp [hb, h.dependents]
  nodup := by
    refine ⟨h.nodup.1, List.nodup_append.2 ⟨hnodup, h.nodup.2.1, ?_⟩, h.nodup.2.2⟩
    rintro a ha _ hb rfl
    exact hnew a ha ((h.members a).1 hb).1
  ready := h.ready

/-- **Filing a component**: nodes that lead to each other, and to nothing else but what is done
with. -/
theorem component (h : Filed (targetsAmong dependencies targets) p done) {component : List α}
    (htargets : ∀ a ∈ component, a ∈ targets) (hnew : ∀ a ∈ component, ¬ done a)
    (hnonempty : component ≠ []) (hnodup : component.Nodup)
    (hnext : ∀ a ∈ component, ∀ b ∈ targetsAmong dependencies targets a, done b ∨ b ∈ component)
    (hconnected : ∀ a ∈ component, ∀ b ∈ component,
      ReflTransGen (Edge (targetsAmong dependencies targets)) a b) :
    Filed (targetsAmong dependencies targets) (p.classify dependencies targets component)
      fun b => b ∈ component ∨ done b := by
  have hself : ∀ a ∈ component, ((dependencies a).contains a = true ↔
      a ∈ targetsAmong dependencies targets a) := fun a ha => by
    rw [mem_targetsAmong, Std.ExtTreeSet.contains_iff_mem, and_iff_left (htargets a ha)]
  obtain ⟨a, rest, rfl⟩ := List.exists_cons_of_ne_nil hnonempty
  rw [Filing.classify]
  split
  · rename_i hcyclic
    refine h.cycle hnew hnodup hnext fun c hc => ?_
    rcases (Bool.or_eq_true _ _).mp hcyclic with hlong | hloop
    · -- the node leads to another one of the component, and back
      obtain ⟨d, hd, hdc⟩ : ∃ d ∈ a :: rest, c ≠ d := by
        cases rest with
        | nil => simp at hlong
        | cons b rest =>
          by_cases hca : c = a
          · exact ⟨b, by simp, hca ▸ fun hab => (List.nodup_cons.1 hnodup).1 (by simp [hab])⟩
          · exact ⟨a, by simp, hca⟩
      exact ((reflTransGen_iff_eq_or_transGen.1 (hconnected c hc d hd)).resolve_left
        (Ne.symm hdc)).trans_left (hconnected d hd c hc)
    · obtain ⟨d, hd, hloop⟩ := List.any_eq_true.1 hloop
      exact ((TransGen.single ((hself d hd).1 hloop)).trans_right (hconnected c hc d hd)).trans_left
        (hconnected d hd c hc)
  · rename_i hacyclic
    rw [Filing.isCyclic, Bool.or_eq_false_iff, decide_eq_false_iff_not] at hacyclic
    obtain rfl : rest = [] := by
      cases rest with
      | nil => rfl
      | cons b rest => simp at hacyclic
    have ha : a ∉ targetsAmong dependencies targets a := fun ha =>
      Bool.false_ne_true
        (hacyclic.2.symm.trans (List.any_eq_true.2 ⟨a, by simp, (hself a (by simp)).2 ha⟩))
    have hdone : ∀ b ∈ targetsAmong dependencies targets a, done b := fun b hb =>
      (hnext a (by simp) b hb).resolve_right fun hba => ha (List.mem_singleton.1 hba ▸ hb)
    have hfiled := h.file (hnew a (by simp)) hdone
    simpa using hfiled

end Filed

end Spreadsheet
