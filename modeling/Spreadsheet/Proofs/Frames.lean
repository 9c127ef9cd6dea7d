/-
A whole search for strongly connected components. The frames of the search are its path together
with the edges that are still to be looked at (`Search.Sound`). Every turn of the loop keeps the
search in order, hence the loop does (`Sound.expand`); when it ends nothing is left on the stack, and
what was visited has been filed (`Sound.filed`). A search from all targets files all of them
(`Search.filed_targets`).
-/
import Spreadsheet.Proofs.Components

namespace Spreadsheet

open Relation

variable {α : Type} [Ord α] [Std.TransOrd α] [Std.LawfulEqOrd α]

namespace Search

variable {dependencies : α → Std.ExtTreeSet α} {targets : Std.ExtTreeSet α}
  {s : Search α} {frames : List (Frame targets)} {f : Frame targets} {a b : α}

/-- An edge that a frame has still to look at. -/
def Pending (frames : List (Frame targets)) (a b : α) : Prop :=
  ∃ f ∈ frames, f.node = a ∧ b ∈ f.rest

/-- The search is in order with its frames. -/
structure Sound (dependencies : α → Std.ExtTreeSet α) (s : Search α)
    (frames : List (Frame targets)) : Prop where
  ok : OK (targetsAmong dependencies targets) targets s (frames.map Frame.node) (Pending frames)
  rest_mem : ∀ f ∈ frames, ∀ b ∈ f.rest, b ∈ targetsAmong dependencies targets f.node

namespace Sound

theorem visit (h : Sound dependencies s frames) (ha : a ∈ targets) (hnew : a ∉ s.marks)
    (hfound : ∀ f ∈ frames.head?, a ∈ targetsAmong dependencies targets f.node) :
    Sound dependencies (s.visit a) (.first dependencies targets a :: frames) where
  ok := by
    have hpath : ∀ c ∈ frames.map Frame.node,
        ReflTransGen (Edge (targetsAmong dependencies targets)) c a := fun c hc => by
      cases frames with
      | nil => exact absurd hc List.not_mem_nil
      | cons f frames =>
        exact (h.ok.leads_head (h.ok.path_mem c hc)).tail (hfound f rfl)
    refine (h.ok.visit ha hnew hpath).settle ?_ ?_
    · rintro b c ⟨f, hf, rfl, hc⟩
      rcases List.mem_cons.1 hf with rfl | hf
      · exact .inl ⟨rfl, hc⟩
      · exact .inr ⟨f, hf, rfl, hc⟩
    · rintro b c (⟨rfl, hc⟩ | ⟨f, hf, hb, hc⟩)
      · exact .inl ⟨_, List.mem_cons_self, rfl, hc⟩
      · exact .inl ⟨f, List.mem_cons_of_mem _ hf, hb, hc⟩
  rest_mem f hf b hb := by
    rcases List.mem_cons.1 hf with rfl | hf
    · exact hb
    · exact h.rest_mem f hf b hb

theorem lower (h : Sound dependencies s (f :: frames)) (hb : b ∈ f.rest) (hstack : b ∈ s.stack) :
    Sound dependencies (s.lower f.node (s.index b)) (f :: frames) where
  ok := h.ok.lower List.mem_cons_self hstack (.single (h.rest_mem f List.mem_cons_self b hb))
  rest_mem := h.rest_mem

omit [Std.LawfulEqOrd α] in
/-- **A frame is done with an edge** that leads to a visited node and is bounded. -/
theorem skip (above : List (Frame targets)) {rest : List α}
    (h : Sound dependencies s (above ++ f :: frames)) (hrest : f.rest = b :: rest)
    (hmarked : b ∈ s.marks) (hlow : b ∈ s.stack → s.lowlink f.node ≤ s.index b) :
    Sound dependencies s (above ++ f.skip :: frames) where
  ok := by
    have hskip : f.skip.rest = rest := congrArg List.tail hrest
    have hpath : (above ++ f.skip :: frames).map Frame.node =
        (above ++ f :: frames).map Frame.node := by simp [Frame.skip]
    rw [hpath]
    refine h.ok.settle ?_ ?_
    · rintro a c ⟨g, hg, rfl, hc⟩
      rcases List.mem_append.1 hg with hg | hg
      · exact ⟨g, List.mem_append_left _ hg, rfl, hc⟩
      rcases List.mem_cons.1 hg with rfl | hg
      · exact ⟨f, by simp, rfl, by rw [hrest]; exact List.mem_cons_of_mem b (hskip ▸ hc)⟩
      · exact ⟨g, by simp [hg], rfl, hc⟩
    · rintro a c ⟨g, hg, rfl, hc⟩
      rcases List.mem_append.1 hg with hg | hg
      · exact .inl ⟨g, List.mem_append_left _ hg, rfl, hc⟩
      rcases List.mem_cons.1 hg with rfl | hg
      · rw [hrest] at hc
        rcases List.mem_cons.1 hc with rfl | hc
        · exact .inr ⟨hmarked, fun hstack => OK.bounded_of_lowlink (by simp) (hlow hstack)⟩
        · exact .inl ⟨g.skip, by simp, rfl, by rwa [hskip]⟩
      · exact .inl ⟨g, by simp [hg], rfl, hc⟩
  rest_mem g hg c hc := by
    rcases List.mem_append.1 hg with hg | hg
    · exact h.rest_mem g (List.mem_append_left _ hg) c hc
    rcases List.mem_cons.1 hg with rfl | hg
    · exact h.rest_mem f (by simp) c (List.mem_of_mem_tail hc)
    · exact h.rest_mem g (by simp [hg]) c hc

/-- A frame is dropped: the component of its node is complete, or the node stays on the stack. -/
theorem drop (h : Sound dependencies s (f :: frames)) (hrest : f.rest = [])
    (hhead : ∀ g ∈ frames.head?, s.lowlink g.node ≤ s.lowlink f.node) :
    Sound dependencies
      (if s.index f.node = s.lowlink f.node then s.complete dependencies targets f.node else s)
      frames where
  ok := by
    have hne : ∀ g ∈ frames, g.node ≠ f.node := fun g hg he => by
      have hlt := (List.pairwise_cons.1 h.ok.path_descending).1 g.node (List.mem_map_of_mem hg)
      rw [he] at hlt
      exact Nat.lt_irrefl _ hlt
    have hdone : ∀ b, ¬ Pending frames f.node b := fun b ⟨g, hg, he, _⟩ => hne g hg he
    have hok : OK (targetsAmong dependencies targets) targets s (f.node :: frames.map Frame.node)
        (Pending frames) := by
      refine h.ok.settle ?_ ?_
      · rintro a b ⟨g, hg, ha, hb⟩
        exact ⟨g, List.mem_cons_of_mem f hg, ha, hb⟩
      · rintro a b ⟨g, hg, ha, hb⟩
        rcases List.mem_cons.1 hg with rfl | hg
        · rw [hrest] at hb
          exact absurd hb List.not_mem_nil
        · exact .inl ⟨g, hg, ha, hb⟩
    split
    · rename_i heq
      exact hok.complete hdone heq.symm
    · rename_i hne
      refine hok.leave hdone (Ne.symm hne) ?_
      cases frames with
      | nil => exact fun _ hd => by cases hd
      | cons g frames => rintro _ ⟨⟩; exact hhead g rfl
  rest_mem g hg := h.rest_mem g (List.mem_cons_of_mem f hg)

/-- **Leaving** the node of a frame that has looked at all of its edges. -/
theorem leave (h : Sound dependencies s (f :: frames)) (hrest : f.rest = []) :
    Sound dependencies
      (s.leave dependencies targets f.node (frames.head?.map Frame.node)) frames := by
  have hf : f.node ∈ s.marks := h.ok.marked _ (h.ok.path_mem _ List.mem_cons_self)
  obtain ⟨mark, hmark⟩ : ∃ mark, s.marks[f.node]? = some mark :=
    ⟨_, Std.ExtTreeMap.getElem?_eq_some_getElem hf⟩
  rw [Search.leave, hmark]
  dsimp only
  rw [← index_of_mark hmark, ← lowlink_of_mark hmark]
  cases frames with
  | nil => exact h.drop hrest fun _ hg => by cases hg
  | cons p frames =>
    obtain ⟨a, ha, hlow, hle, hfa⟩ := h.ok.low f.node List.mem_cons_self
    have hp : p.node ∈ s.stack := h.ok.path_mem p.node (by simp)
    have hlowered : Sound dependencies (s.lower p.node (s.index a)) (f :: p :: frames) :=
      ⟨h.ok.lower (by simp) ha ((h.ok.leads_head hp).trans hfa), h.rest_mem⟩
    have hne : f.node ≠ p.node := fun he => by
      have hlt := (List.pairwise_cons.1 h.ok.path_descending).1 p.node (by simp)
      rw [he] at hlt
      exact Nat.lt_irrefl _ hlt
    have hdrop := hlowered.drop hrest fun g hg => by
      obtain rfl : p = g := by simpa using hg
      rw [lowlink_lower_self (h.ok.marked p.node hp), lowlink_lower_other hne, ← hlow]
      exact Nat.min_le_right _ _
    rw [index_lower, lowlink_lower_other hne] at hdrop
    rw [← hlow]
    rwa [← hlow] at hdrop

/-- **Expanding** all frames leaves the search in order. -/
theorem expand (h : Sound dependencies s frames) :
    Sound dependencies (s.expand dependencies targets frames) ([] : List (Frame targets)) := by
  fun_induction Search.expand dependencies targets s frames with
  | case1 s => exact h
  | case2 s f frames hrest ih => exact ih (h.leave hrest)
  | case3 s f frames b rest hrest hmark ih =>
    have hb : b ∈ f.rest := by simp [hrest]
    have hnew : b ∉ s.marks := fun hb => by
      rw [Std.ExtTreeMap.getElem?_eq_some_getElem hb] at hmark
      cases hmark
    have hvisited := h.visit (f.mem_targets b hb) hnew
      fun g hg => by
        obtain rfl : f = g := by simpa using hg
        exact h.rest_mem f List.mem_cons_self b hb
    refine ih (hvisited.skip [_] hrest (mem_marks_visit.2 (.inl rfl)) fun _ => ?_)
    obtain ⟨a, ha, hlow, -⟩ := h.ok.low f.node List.mem_cons_self
    have hne : f.node ≠ b := fun he =>
      hnew (he ▸ h.ok.marked f.node (h.ok.path_mem f.node List.mem_cons_self))
    rw [lowlink_visit_other hne, index_visit_self, ← hlow]
    exact Nat.le_of_lt (h.ok.index_lt a (h.ok.marked a ha))
  | case4 s f frames b rest hrest mark hmark honstack ih =>
    have hstack : b ∈ s.stack := (h.ok.isOnStack_iff b).1 ((isOnStack_of_mark hmark).trans honstack)
    have hf : f.node ∈ s.marks := h.ok.marked _ (h.ok.path_mem _ List.mem_cons_self)
    rw [← index_of_mark hmark] at ih ⊢
    have hlowered := h.lower (by simp [hrest]) hstack
    refine ih (hlowered.skip [] hrest
      (mem_marks_lower.2 (h.ok.marked b hstack)) fun _ => ?_)
    rw [lowlink_lower_self hf, index_lower]
    exact Nat.min_le_right _ _
  | case5 s f frames b rest hrest mark hmark honstack ih =>
    have hmarked : b ∈ s.marks := by
      rw [Std.ExtTreeMap.mem_iff_isSome_getElem?, hmark]
      rfl
    refine ih (h.skip [] hrest hmarked fun hstack => absurd ?_ honstack)
    rw [← isOnStack_of_mark hmark]
    exact (h.ok.isOnStack_iff b).2 hstack

end Sound

/-! ## All targets -/

theorem mem_marks_expand (h : a ∈ s.marks) : a ∈ (s.expand dependencies targets frames).marks := by
  fun_induction Search.expand dependencies targets s frames with
  | case1 s => exact h
  | case2 s f frames hrest ih => exact ih (mem_marks_leave.2 h)
  | case3 s f frames b rest hrest hmark ih => exact ih (mem_marks_visit.2 (.inr h))
  | case4 s f frames b rest hrest mark hmark honstack ih => exact ih (mem_marks_lower.2 h)
  | case5 s f frames b rest hrest mark hmark honstack ih => exact ih h

theorem mem_marks_searchFrom {root : α} (h : a = root ∨ a ∈ s.marks) :
    a ∈ (s.searchFrom dependencies targets root).marks := by
  rw [searchFrom]
  split
  · rename_i hroot
    exact h.elim (fun he => he ▸ Std.ExtTreeMap.contains_iff_mem.1 hroot) id
  · exact mem_marks_expand (mem_marks_visit.2 h)

namespace Sound

theorem searchFrom {root : α} (hroot : root ∈ targets)
    (h : Sound dependencies s ([] : List (Frame targets))) :
    Sound dependencies (s.searchFrom dependencies targets root) ([] : List (Frame targets)) := by
  rw [Search.searchFrom]
  split
  · exact h
  · rename_i hnew
    exact (h.visit hroot hnew fun _ hf => by cases hf).expand

/-- **A search from some targets, one after another**, visits each of them. -/
theorem searchAll {roots : List α} (hroots : ∀ a ∈ roots, a ∈ targets)
    (h : Sound dependencies s ([] : List (Frame targets))) :
    Sound dependencies (roots.foldl (Search.searchFrom dependencies targets) s)
        ([] : List (Frame targets)) ∧
      ∀ a, a ∈ roots ∨ a ∈ s.marks →
        a ∈ (roots.foldl (Search.searchFrom dependencies targets) s).marks := by
  induction roots generalizing s with
  | nil => exact ⟨h, fun a ha => ha.resolve_left List.not_mem_nil⟩
  | cons root roots ih =>
    obtain ⟨hroot, hroots⟩ := List.forall_mem_cons.1 hroots
    obtain ⟨hsound, hvisited⟩ := ih hroots (h.searchFrom hroot)
    refine ⟨hsound, fun a ha => hvisited a ?_⟩
    rw [List.mem_cons] at ha
    rcases ha with (ha | ha) | ha
    · exact .inr (mem_marks_searchFrom (.inl ha))
    · exact .inl ha
    · exact .inr (mem_marks_searchFrom (.inr ha))

omit [Std.LawfulEqOrd α] in
/-- When no node is being expanded, everything that was visited is done with. -/
theorem filed (h : Sound dependencies s ([] : List (Frame targets))) :
    Filed (targetsAmong dependencies targets) s.filing (· ∈ s.marks) := by
  have hstack : s.stack = [] := List.eq_nil_iff_forall_not_mem.2 fun a ha => by
    obtain ⟨c, hc, -⟩ := h.ok.returns a ha
    exact absurd hc List.not_mem_nil
  simpa [hstack] using h.ok.filed

end Sound

/-- **The search files all targets** by the cycles they are on or lead to. -/
theorem filed_targets (dependencies : α → Std.ExtTreeSet α) (targets : Std.ExtTreeSet α) :
    Filed (targetsAmong dependencies targets)
      (targets.toList.foldl (searchFrom dependencies targets) .start).filing (· ∈ targets) := by
  have hstart : Sound dependencies .start ([] : List (Frame targets)) := {
    ok := OK.start.settle (fun _ _ ⟨_, hf, _⟩ => absurd hf List.not_mem_nil) fun _ _ h => h.elim
    rest_mem := fun _ hf => absurd hf List.not_mem_nil }
  obtain ⟨hsound, hvisited⟩ :=
    hstart.searchAll fun a ha => Std.ExtTreeSet.mem_toList.1 ha
  have hmarks : ∀ a, a ∈ (targets.toList.foldl (searchFrom dependencies targets) .start).marks ↔
      a ∈ targets := fun a =>
    ⟨hsound.ok.mem_targets a, fun ha => hvisited a (.inl (Std.ExtTreeSet.mem_toList.2 ha))⟩
  have hfiled := hsound.filed
  simp only [hmarks] at hfiled
  exact hfiled

end Search

end Spreadsheet
