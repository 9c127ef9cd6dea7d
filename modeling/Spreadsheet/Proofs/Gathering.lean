/-
What the arguments of a call come to together. Each argument gives a part,
the parts are combined in the order of the arguments, and the first fault
among them ends it (`gather`); numbers and texts are gathered so
(`Context.collect_eq_gather`, `Context.concatenateTexts_eq_gather`), and
what holds of gathering holds of both. Two lists of arguments give what each
of them gives, one after the other (`gather_append`), so a part of a list
can be exchanged for whatever gives the same (`gather_exchange`).
-/
import Spreadsheet.Proofs.Reading

namespace Spreadsheet

/-! ## Gathering -/

section Gather

variable {α β ε M : Type}

/-- What the elements of a list give, combined in order; the first fault among them ends it. -/
def gather (combine : M → M → M) (nothing : M) (give : α → Except ε M) (l : List α) : Except ε M :=
  (l.mapM give).map (List.foldr combine nothing)

variable {combine : M → M → M} {nothing : M} {give give' : α → Except ε M} {l : List α}

theorem gather_cons (a : α) (l : List α) : gather combine nothing give (a :: l) =
    (give a).bind fun m => (gather combine nothing give l).map (combine m) := by
  rw [gather, List.mapM_cons, gather]
  cases give a with
  | error e => rfl
  | ok m => cases l.mapM give <;> rfl

theorem gather_congr (h : ∀ a ∈ l, give a = give' a) :
    gather combine nothing give l = gather combine nothing give' l := by
  rw [gather, mapM_congr h, gather]

theorem gather_ok {m : M} (h : gather combine nothing give l = .ok m) :
    ∀ a ∈ l, ∃ n, give a = .ok n := by
  obtain ⟨ms, hms, -⟩ := map_eq_ok.1 h
  exact mapM_ok hms

theorem gather_error {e : ε} (h : gather combine nothing give l = .error e) :
    ∃ a ∈ l, give a = .error e := by
  unfold gather at h
  cases hms : l.mapM give with
  | error e' =>
    rw [hms] at h
    cases h
    exact mapM_error hms
  | ok ms => rw [hms] at h; cases h

theorem gather_map (f : β → α) (l : List β) :
    gather combine nothing give (l.map f) = gather combine nothing (fun b => give (f b)) l := by
  induction l with
  | nil => rfl
  | cons b l ih => rw [List.map_cons, gather_cons, ih, gather_cons]

/-- Elements can be read first, all of them, and what they give be combined afterwards. -/
theorem map_mapM_foldr (read : α → Except ε β) (measure : β → M) (l : List α) :
    (l.mapM read).map (List.foldr (fun b => combine (measure b)) nothing) =
      gather combine nothing (fun a => (read a).map measure) l := by
  induction l with
  | nil => rfl
  | cons a l ih =>
    rw [List.mapM_cons, gather_cons, ← ih]
    cases read a with
    | error e => rfl
    | ok b => cases l.mapM read <;> rfl

theorem gather_singleton [Std.LawfulRightIdentity combine nothing] (a : α) :
    gather combine nothing give [a] = give a := by
  rw [gather_cons]
  cases give a with
  | error e => rfl
  | ok m => exact congrArg Except.ok (Std.LawfulRightIdentity.right_id m)

variable [Std.Associative combine] [Std.LawfulLeftIdentity combine nothing]

theorem gather_append (l l' : List α) : gather combine nothing give (l ++ l') =
    (gather combine nothing give l).bind fun m =>
      (gather combine nothing give l').map (combine m) := by
  induction l with
  | nil =>
    rw [List.nil_append]
    cases h : gather combine nothing give l' with
    | error e => rfl
    | ok m => exact congrArg Except.ok (Std.LawfulLeftIdentity.left_id m).symm
  | cons a l ih =>
    rw [List.cons_append, gather_cons, ih, gather_cons]
    cases give a with
    | error e => rfl
    | ok m =>
      cases gather combine nothing give l with
      | error e => rfl
      | ok m₁ =>
        cases gather combine nothing give l' with
        | error e => rfl
        | ok m₂ => exact congrArg Except.ok (Std.Associative.assoc m m₁ m₂).symm

/-- A part of a list can be exchanged for another that gives the same. -/
theorem gather_exchange {l l' : List α}
    (h : gather combine nothing give l = gather combine nothing give l') (before after : List α) :
    gather combine nothing give (before ++ l ++ after) =
      gather combine nothing give (before ++ l' ++ after) := by
  simp only [gather_append, h]

end Gather

/-! ## Numbers and texts -/

instance Numbers.associative_append : Std.Associative Numbers.append where
  assoc a b c := by simp only [Numbers.append, List.append_assoc, UInt64.add_assoc]

instance Numbers.lawfulIdentity_append : Std.LawfulIdentity Numbers.append {} where
  left_id a := by simp [Numbers.append]
  right_id a := by simp [Numbers.append]

instance lawfulIdentity_appendText : Std.LawfulIdentity (fun s t : String => s ++ t) "" where
  left_id _ := String.empty_append
  right_id _ := String.append_empty

namespace Context

theorem collect_eq_gather (ctx : Context) (arguments : List Argument) :
    ctx.collect arguments = gather Numbers.append {} ctx.argumentNumbers arguments := by
  induction arguments with
  | nil => rfl
  | cons a rest ih =>
    rw [collect, ih, gather_cons]
    cases ctx.argumentNumbers a with
    | error fault => rfl
    | ok n => cases gather Numbers.append {} ctx.argumentNumbers rest <;> rfl

theorem concatenateTexts_eq_gather (ctx : Context) (arguments : List Argument) :
    ctx.concatenateTexts arguments = gather (· ++ ·) "" ctx.argumentText arguments := by
  induction arguments with
  | nil => rfl
  | cons a rest ih =>
    rw [concatenateTexts, ih, gather_cons]
    cases ctx.argumentText a with
    | error fault => rfl
    | ok s => cases gather (· ++ ·) "" ctx.argumentText rest <;> rfl

end Context

end Spreadsheet
