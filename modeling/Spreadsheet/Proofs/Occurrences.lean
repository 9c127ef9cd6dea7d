/-
First and last occurrences in lists. A list of `FirstOccurrences` of another
holds what that list holds, each element once and in the order in which they
occur first. Lists that grow by what is new at their end are such lists
(`FirstOccurrences.appendNew`), whether they are searched for what they hold
already (`firstOccurrences_eraseDups`) or a set of it is kept beside them
(`firstOccurrences_distinctBeyond`). What an expression refers to is listed so
from its leaves (`Expr.firstIn_uses`). An element is `LastWith` its key if no
later one has the same key; where steps are taken one after another, each for
its own key, those elements alone tell what comes of them (`view_foldl_iff`).
-/
import Mathlib
import Spreadsheet.Dependencies
import Spreadsheet.Formula.Expr
import Spreadsheet.Sets

namespace Spreadsheet

/-! ## First occurrences -/

section First

variable {α : Type} [DecidableEq α] {l occurrences : List α}

/-- The elements of a list of occurrences, ordered by where they occur first. -/
structure FirstOccurrences (l occurrences : List α) : Prop where
  mem_iff : ∀ a, a ∈ l ↔ a ∈ occurrences
  ordered : l.Pairwise fun a b => occurrences.idxOf a < occurrences.idxOf b

theorem FirstOccurrences.nodup (h : FirstOccurrences l occurrences) : l.Nodup := by
  refine h.ordered.imp ?_
  rintro a _ hlt rfl
  exact Nat.lt_irrefl _ hlt

theorem FirstOccurrences.nil : FirstOccurrences ([] : List α) [] :=
  ⟨fun _ => Iff.rfl, .nil⟩

/-- **One more occurrence** is listed at the end unless it has been listed before. -/
theorem FirstOccurrences.appendNew (h : FirstOccurrences l occurrences) (a : α) :
    FirstOccurrences (appendNew l a) (occurrences ++ [a]) := by
  have hearlier : ∀ b ∈ l, (occurrences ++ [a]).idxOf b = occurrences.idxOf b := fun b hb =>
    List.idxOf_append_of_mem ((h.mem_iff b).1 hb)
  have hordered : l.Pairwise fun b c =>
      (occurrences ++ [a]).idxOf b < (occurrences ++ [a]).idxOf c :=
    h.ordered.imp_of_mem fun {b c} hb hc hlt => by rwa [hearlier b hb, hearlier c hc]
  unfold Spreadsheet.appendNew
  split
  · rename_i ha
    refine ⟨fun b => ?_, hordered⟩
    rw [List.mem_append, List.mem_singleton, ← h.mem_iff]
    exact ⟨.inl, fun hb => hb.elim id fun he => he ▸ ha⟩
  · rename_i ha
    refine ⟨fun b => by simp only [List.mem_append, h.mem_iff], ?_⟩
    refine List.pairwise_append.2 ⟨hordered, List.pairwise_singleton _ a, fun b hb c hc => ?_⟩
    obtain rfl := List.mem_singleton.1 hc
    have hc : c ∉ occurrences := fun hc => ha ((h.mem_iff c).2 hc)
    rw [hearlier b hb, List.idxOf_append_of_notMem hc]
    exact Nat.lt_add_right _ (List.idxOf_lt_length_of_mem ((h.mem_iff b).1 hb))

theorem firstOccurrences_eraseDups (l : List α) : FirstOccurrences l.eraseDups l := by
  induction l using List.reverseRecOn with
  | nil => exact .nil
  | append_singleton l a ih =>
    have hstep : (l ++ [a]).eraseDups = Spreadsheet.appendNew l.eraseDups a := by
      rw [List.eraseDups_append, Spreadsheet.appendNew]
      by_cases ha : a ∈ l <;> simp [List.removeAll, List.eraseDups_cons, ha]
    exact hstep ▸ ih.appendNew a

variable [Ord α] [Std.TransOrd α] [Std.LawfulEqOrd α]

/-- What has been listed goes on with what is not in a set of it. -/
theorem FirstOccurrences.append_distinctBeyond {done : List α} {seen : Std.ExtTreeSet α}
    (h : FirstOccurrences done occurrences) (hseen : ∀ a, a ∈ seen ↔ a ∈ done) :
    FirstOccurrences (done ++ distinctBeyond seen l) (occurrences ++ l) := by
  induction l generalizing done occurrences seen with
  | nil => simpa [distinctBeyond] using h
  | cons a rest ih =>
    have hstep := h.appendNew a
    have hsplit : occurrences ++ a :: rest = occurrences ++ [a] ++ rest := by simp
    rw [hsplit, distinctBeyond]
    split
    · rename_i ha
      have ha : a ∈ done := (hseen a).1 ha
      rw [Spreadsheet.appendNew, if_pos ha] at hstep
      exact ih hstep hseen
    · rename_i ha
      have ha : a ∉ done := fun hd => ha ((hseen a).2 hd)
      rw [Spreadsheet.appendNew, if_neg ha] at hstep
      have hgrown : ∀ b, b ∈ seen.insert a ↔ b ∈ done ++ [a] := fun b => by
        rw [mem_set_insert, hseen, List.mem_append, List.mem_singleton, or_comm]
      simpa using ih hstep hgrown

theorem firstOccurrences_distinctBeyond (l : List α) :
    FirstOccurrences (distinctBeyond ∅ l) l :=
  FirstOccurrences.nil.append_distinctBeyond (by simp)

theorem mem_distinctBeyond {a : α} : a ∈ distinctBeyond ∅ l ↔ a ∈ l :=
  (firstOccurrences_distinctBeyond l).mem_iff a

end First

/-! ## The leaves of expressions -/

/-- The references and the names of some leaves, each list in the order of first occurrences. -/
structure Uses.FirstIn (found : Uses) (leaves : List Expr) : Prop where
  references : FirstOccurrences found.references (leaves.filterMap Expr.reference?)
  names : FirstOccurrences found.names (leaves.filterMap Expr.name?)

theorem Uses.FirstIn.nil : Uses.FirstIn {} [] :=
  ⟨.nil, .nil⟩

/-- One more leaf, which is a reference, a name or neither. -/
theorem Uses.FirstIn.concat {found : Uses} {leaves : List Expr} {e : Expr}
    (hr : FirstOccurrences found.references
      (leaves.filterMap Expr.reference? ++ e.reference?.toList))
    (hn : FirstOccurrences found.names (leaves.filterMap Expr.name? ++ e.name?.toList)) :
    found.FirstIn (leaves ++ [e]) := by
  constructor
  · rw [List.filterMap_append]
    cases he : e.reference? <;> simp_all
  · rw [List.filterMap_append]
    cases he : e.name? <;> simp_all

mutual

/-- **The uses of an expression join those found before it as its leaves join their leaves.** -/
theorem Expr.firstIn_addUses : ∀ (e : Expr) {found : Uses} {leaves : List Expr},
    found.FirstIn leaves → (e.addUses found).FirstIn (leaves ++ e.leaves)
  | .number _, _, _, h | .text _, _, _, h =>
    .concat (by simpa [Expr.addUses, Expr.reference?] using h.references)
      (by simpa [Expr.addUses, Expr.name?] using h.names)
  | .reference target, _, _, h =>
    .concat (h.references.appendNew target) (by simpa [Expr.addUses, Expr.name?] using h.names)
  | .name n, _, _, h =>
    .concat (by simpa [Expr.addUses, Expr.reference?] using h.references) (h.names.appendNew n)
  | .call _ arguments, _, _, h => firstIn_addUsesOfAll arguments h
  | .binary _ left right, _, _, h => by
    simpa only [Expr.leaves, Expr.addUses, List.append_assoc] using
      right.firstIn_addUses (left.firstIn_addUses h)
  | .unary _ operand, _, _, h => operand.firstIn_addUses h

theorem firstIn_addUsesOfAll : ∀ (es : List Expr) {found : Uses} {leaves : List Expr},
    found.FirstIn leaves → (addUsesOfAll found es).FirstIn (leaves ++ leavesOfAll es)
  | [], _, _, h => by simpa only [leavesOfAll, addUsesOfAll, List.append_nil] using h
  | e :: rest, _, _, h => by
    simpa only [leavesOfAll, addUsesOfAll, List.append_assoc] using
      firstIn_addUsesOfAll rest (e.firstIn_addUses h)

end

theorem Expr.firstIn_uses (e : Expr) : e.uses.FirstIn e.leaves :=
  e.firstIn_addUses .nil

theorem Expr.reference?_eq_some {e : Expr} {target : Reference} :
    e.reference? = some target ↔ e = .reference target := by
  cases e <;> simp [Expr.reference?]

theorem Expr.name?_eq_some {e : Expr} {n : String} : e.name? = some n ↔ e = .name n := by
  cases e <;> simp [Expr.name?]

/-! ## Last occurrences -/

section Last

variable {α κ : Type} {key : α → κ} {l : List α} {a b : α}

/-- An element of a list after which no other has its key. -/
def LastWith (key : α → κ) (l : List α) (a : α) : Prop :=
  ∃ earlier later, l = earlier ++ a :: later ∧ ∀ b ∈ later, key b ≠ key a

theorem not_lastWith_nil : ¬ LastWith key [] a := by
  rintro ⟨earlier, later, h, -⟩
  simp at h

/-- One more element is the last with its key, and for the other keys nothing changes. -/
theorem lastWith_concat :
    LastWith key (l ++ [b]) a ↔ a = b ∨ key b ≠ key a ∧ LastWith key l a := by
  constructor
  · rintro ⟨earlier, later, h, hlater⟩
    rcases List.eq_nil_or_concat' later with rfl | ⟨later, last, rfl⟩
    · obtain ⟨-, rfl⟩ := List.append_singleton_inj.1 h
      exact .inl rfl
    · rw [← List.cons_append, ← List.append_assoc] at h
      obtain ⟨rfl, rfl⟩ := List.append_singleton_inj.1 h
      exact .inr ⟨hlater b (by simp), earlier, later, rfl, fun c hc => hlater c (by simp [hc])⟩
  · rintro (rfl | ⟨hne, earlier, later, rfl, hlater⟩)
    · exact ⟨l, [], rfl, by simp⟩
    · refine ⟨earlier, later ++ [b], by simp, fun c hc => ?_⟩
      rcases List.mem_append.1 hc with hc | hc
      · exact hlater c hc
      · exact List.mem_singleton.1 hc ▸ hne

/-- **What is seen at a key after some steps.** Each step sets what is seen at its own key, whatever
steps came before it, and leaves what is seen at other keys. So the last step with a key has set what
is seen there, and without such a step it is what was seen at first. -/
theorem view_foldl_iff {σ β : Type} [DecidableEq κ] {step : σ → α → σ} (view : σ → κ → β)
    {value : σ → α → β}
    (hstep : ∀ s a k, view (step s a) k = if key a = k then value s a else view s k)
    (hvalue : ∀ s a b, value (step s a) b = value s b) (P : β → Prop) {s : σ} {k : κ} :
    P (view (l.foldl step s) k) ↔ (∃ a, LastWith key l a ∧ key a = k ∧ P (value s a)) ∨
      (∀ a ∈ l, key a ≠ k) ∧ P (view s k) := by
  have hrun : ∀ (l : List α) (a : α), value (l.foldl step s) a = value s a := fun l a => by
    induction l using List.reverseRecOn with
    | nil => rfl
    | append_singleton l b ih => rw [List.foldl_concat, hvalue, ih]
  induction l using List.reverseRecOn with
  | nil => simp [not_lastWith_nil]
  | append_singleton l b ih =>
    rw [List.foldl_concat, hstep, hrun]
    split
    · rename_i hb
      subst hb
      constructor
      · exact fun hP => .inl ⟨b, lastWith_concat.2 (.inl rfl), rfl, hP⟩
      · rintro (⟨a, ha, hkey, hP⟩ | ⟨hno, -⟩)
        · obtain rfl | ⟨hne, -⟩ := lastWith_concat.1 ha
          · exact hP
          · exact absurd hkey.symm hne
        · exact absurd rfl (hno b (by simp))
    · rename_i hb
      refine ih.trans (or_congr (exists_congr fun a => ?_) (and_congr_left' ?_))
      · rw [lastWith_concat]
        constructor
        · rintro ⟨ha, rfl, hP⟩
          exact ⟨.inr ⟨hb, ha⟩, rfl, hP⟩
        · rintro ⟨rfl | ⟨-, ha⟩, hkey, hP⟩
          · exact absurd hkey hb
          · exact ⟨ha, hkey, hP⟩
      · rw [List.forall_mem_append, List.forall_mem_singleton, ne_eq, and_iff_left hb]

end Last

end Spreadsheet
