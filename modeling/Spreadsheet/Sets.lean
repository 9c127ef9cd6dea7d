/-
Membership in finite sets of a lawful order, where what compares equal is equal: the members of a
set that was inserted into, erased from, listed or filtered.
-/
import Std.Data.ExtTreeSet

namespace Spreadsheet

variable {α : Type} [Ord α] [Std.TransOrd α] [Std.LawfulEqOrd α]

theorem mem_set_insert {s : Std.ExtTreeSet α} {a b : α} : b ∈ s.insert a ↔ b = a ∨ b ∈ s := by
  rw [Std.ExtTreeSet.mem_insert, Std.LawfulEqCmp.compare_eq_iff_eq, eq_comm]

theorem mem_set_erase {s : Std.ExtTreeSet α} {a b : α} : b ∈ s.erase a ↔ b ≠ a ∧ b ∈ s := by
  rw [Std.ExtTreeSet.mem_erase, ne_eq, Std.LawfulEqCmp.compare_eq_iff_eq, ne_comm, ne_eq]

theorem mem_set_insertMany {l : List α} : ∀ {s : Std.ExtTreeSet α} {b : α},
    b ∈ s.insertMany l ↔ b ∈ l ∨ b ∈ s := by
  induction l with
  | nil => intro s b; simp
  | cons a rest ih =>
    intro s b
    rw [Std.ExtTreeSet.insertMany_cons, ih, mem_set_insert, List.mem_cons]
    constructor
    · rintro (h | rfl | h)
      · exact .inl (.inr h)
      · exact .inl (.inl rfl)
      · exact .inr h
    · rintro ((rfl | h) | h)
      · exact .inr (.inl rfl)
      · exact .inl h
      · exact .inr (.inr h)

theorem mem_set_ofList {l : List α} {b : α} : b ∈ Std.ExtTreeSet.ofList l ↔ b ∈ l := by
  rw [Std.ExtTreeSet.ofList_eq_insertMany_empty, mem_set_insertMany]
  simp

theorem mem_set_filter {s : Std.ExtTreeSet α} {p : α → Bool} {b : α} :
    b ∈ s.filter p ↔ b ∈ s ∧ p b = true := by
  simp only [Std.ExtTreeSet.mem_filter, Std.ExtTreeSet.get_eq, exists_prop]

end Spreadsheet
