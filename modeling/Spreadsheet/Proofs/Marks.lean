/-
The marks of a search for components: what each of its steps makes of the index, of the lowlink and
of the place on the stack of a node. Indices do not change once a node has been visited, lowlinks
only fall (`Search.lowlink_lower_le`), and nodes leave the stack with their component.
-/
import Spreadsheet.Plan

namespace Spreadsheet

variable {α : Type} [Ord α] [Std.TransOrd α]

namespace Search

/-- When a node was visited. -/
def index (s : Search α) (a : α) : Nat :=
  (s.marks[a]?.map Mark.index).getD 0

/-- The index of the earliest node that a node is known to lead to. -/
def lowlink (s : Search α) (a : α) : Nat :=
  (s.marks[a]?.map Mark.lowlink).getD 0

/-- Whether a node is marked as one on the stack. -/
def isOnStack (s : Search α) (a : α) : Bool :=
  (s.marks[a]?.map Mark.onStack).getD false

variable {s : Search α} {a b : α} {i : Nat} {mark : Mark}

theorem index_of_mark (h : s.marks[a]? = some mark) : s.index a = mark.index := by
  rw [index, h]
  rfl

theorem lowlink_of_mark (h : s.marks[a]? = some mark) : s.lowlink a = mark.lowlink := by
  rw [lowlink, h]
  rfl

theorem isOnStack_of_mark (h : s.marks[a]? = some mark) : s.isOnStack a = mark.onStack := by
  rw [isOnStack, h]
  rfl

/-- What a modification leaves as it is can be read off as before. -/
theorem map_modify {β : Type} {f : Mark → β} {g : Mark → Mark} (hf : ∀ mark, f (g mark) = f mark)
    (marks : Std.ExtTreeMap α Mark) : (marks.modify a g)[b]?.map f = marks[b]?.map f := by
  rw [Std.ExtTreeMap.getElem?_modify]
  split
  · rename_i hab
    rw [Option.map_map, Std.ExtTreeMap.getElem?_congr hab]
    exact congrArg (Option.map · _) (funext hf)
  · rfl

/-! ## Visiting -/

theorem getElem?_visit_self : (s.visit a).marks[a]? = some ⟨s.counter, s.counter, true⟩ :=
  Std.ExtTreeMap.getElem?_insert_self

theorem index_visit_self : (s.visit a).index a = s.counter := index_of_mark getElem?_visit_self

theorem lowlink_visit_self : (s.visit a).lowlink a = s.counter :=
  lowlink_of_mark getElem?_visit_self

theorem isOnStack_visit_self : (s.visit a).isOnStack a = true :=
  isOnStack_of_mark getElem?_visit_self

section Other

variable [Std.LawfulEqOrd α] (h : b ≠ a)
include h

theorem getElem?_visit_other : (s.visit a).marks[b]? = s.marks[b]? := by
  have hne : compare a b ≠ .eq := fun he => h (Std.LawfulEqCmp.eq_of_compare he).symm
  rw [visit, Std.ExtTreeMap.getElem?_insert, if_neg hne]

theorem index_visit_other : (s.visit a).index b = s.index b := by
  rw [index, getElem?_visit_other h, index]

theorem lowlink_visit_other : (s.visit a).lowlink b = s.lowlink b := by
  rw [lowlink, getElem?_visit_other h, lowlink]

theorem isOnStack_visit_other : (s.visit a).isOnStack b = s.isOnStack b := by
  rw [isOnStack, getElem?_visit_other h, isOnStack]

theorem lowlink_lower_other : (s.lower a i).lowlink b = s.lowlink b := by
  have hne : compare a b ≠ .eq := fun he => h (Std.LawfulEqCmp.eq_of_compare he).symm
  rw [lowlink, lower, Std.ExtTreeMap.getElem?_modify, if_neg hne, lowlink]

end Other

/-! ## Lowering -/

theorem index_lower : (s.lower a i).index b = s.index b :=
  congrArg (Option.getD · 0) (map_modify (by intro; rfl) s.marks)

theorem isOnStack_lower : (s.lower a i).isOnStack b = s.isOnStack b :=
  congrArg (Option.getD · false) (map_modify (by intro; rfl) s.marks)

theorem lowlink_lower_self (h : a ∈ s.marks) :
    (s.lower a i).lowlink a = min (s.lowlink a) i := by
  rw [lowlink, lower, Std.ExtTreeMap.getElem?_modify_self, lowlink,
    Std.ExtTreeMap.getElem?_eq_some_getElem h]
  rfl

theorem lowlink_lower_le [Std.LawfulEqOrd α] (h : b ∈ s.marks) :
    (s.lower a i).lowlink b ≤ s.lowlink b := by
  by_cases hba : b = a
  · subst hba
    rw [lowlink_lower_self h]
    exact Nat.min_le_left _ _
  · exact Nat.le_of_eq (lowlink_lower_other hba)

/-! ## Taking a component off the stack -/

theorem map_takeOff {β : Type} {f : Mark → β}
    (hf : ∀ mark : Mark, f { mark with onStack := false } = f mark) {marks : Std.ExtTreeMap α Mark}
    {l : List α} : (takeOff marks l)[a]?.map f = marks[a]?.map f := by
  induction l generalizing marks with
  | nil => rfl
  | cons b l ih => exact ih.trans (map_modify hf marks)

section Complete

variable {dependencies : α → Std.ExtTreeSet α} {targets : Std.ExtTreeSet α}

theorem index_complete : (s.complete dependencies targets a).index b = s.index b := by
  rw [index, complete, map_takeOff fun _ => rfl, index]

theorem lowlink_complete : (s.complete dependencies targets a).lowlink b = s.lowlink b := by
  rw [lowlink, complete, map_takeOff fun _ => rfl, lowlink]

variable [Std.LawfulEqOrd α]

theorem onStack_takeOff {marks : Std.ExtTreeMap α Mark} {l : List α} :
    ((takeOff marks l)[a]?.map Mark.onStack).getD false = true ↔
      (marks[a]?.map Mark.onStack).getD false = true ∧ a ∉ l := by
  induction l generalizing marks with
  | nil => simp [takeOff]
  | cons b l ih =>
    refine ih.trans ?_
    rw [List.mem_cons, not_or, ← and_assoc]
    refine and_congr_left fun _ => ?_
    by_cases hab : a = b
    · subst hab
      rw [Std.ExtTreeMap.getElem?_modify_self]
      cases marks[a]? <;> simp
    · have hne : compare b a ≠ .eq := fun he => hab (Std.LawfulEqCmp.eq_of_compare he).symm
      rw [Std.ExtTreeMap.getElem?_modify, if_neg hne, and_iff_left hab]

theorem isOnStack_complete : (s.complete dependencies targets a).isOnStack b = true ↔
    s.isOnStack b = true ∧ b ∉ (popUntil a s.stack).1 := onStack_takeOff

end Complete

omit [Std.TransOrd α] in
/-- A node on a stack is the last of the upper part that is taken off down to it. -/
theorem popUntil_split [Std.LawfulEqOrd α] {stack : List α} (h : a ∈ stack) :
    ∃ above below, stack = above ++ a :: below ∧ popUntil a stack = (above ++ [a], below) := by
  induction stack with
  | nil => exact absurd h List.not_mem_nil
  | cons b rest ih =>
    by_cases hba : b = a
    · subst hba
      exact ⟨[], rest, rfl, by simp [popUntil]⟩
    · obtain ⟨above, below, rfl, hpop⟩ := ih ((List.mem_cons.1 h).resolve_left (Ne.symm hba))
      refine ⟨b :: above, below, rfl, ?_⟩
      rw [popUntil, if_neg (by rwa [beq_iff_eq, Std.LawfulEqCmp.compare_eq_iff_eq]), hpop]
      rfl

end Search

end Spreadsheet
