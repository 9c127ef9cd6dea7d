/-
Names stand for their definitions. An expression in which others have been
put in place of names reads as it did with its names reading as those others
do (`Expr.operand_substitute`). Replacing names by what they are bound to
comes to an end (`NameTable.expandName_of_depth_le`) with only names left
that have no expression (`NameTable.expression_of_mem_expand`), and it
changes no value (`NameTable.evaluate_expand`).
-/
import Spreadsheet.NameTable.Expand
import Spreadsheet.Proofs.Locality

namespace Spreadsheet

/-! ## Substitution -/

section Substitution

variable {ctx : Context} {named : String → Except Fault Operand} {body body' : String → Expr}

mutual

/-- **What is put in place of a name is read in its place.** -/
theorem Expr.operand_substitute : ∀ e : Expr, (e.substitute body).operand ctx named =
    e.operand ctx fun n => (body n).operand ctx named
  | .number _ | .text _ | .reference _ | .name _ => rfl
  | .call f arguments => by
    rw [Expr.substitute, Expr.operand, operandsOf_substituteAll arguments, Expr.operand]
  | .binary op left right => by
    rw [Expr.substitute, Expr.operand_binary, left.operand_substitute, right.operand_substitute,
      Expr.operand_binary]
  | .unary op operand => by
    rw [Expr.substitute, Expr.operand_unary, operand.operand_substitute, Expr.operand_unary]

theorem operandsOf_substituteAll : ∀ es : List Expr, operandsOf ctx named (substituteAll body es) =
    operandsOf ctx (fun n => (body n).operand ctx named) es
  | [] => rfl
  | e :: rest => by
    rw [substituteAll, operandsOf, e.operand_substitute, operandsOf_substituteAll rest, operandsOf]

end

mutual

theorem Expr.mem_leaves_substitute {m : String} : ∀ e : Expr,
    .name m ∈ (e.substitute body).leaves ↔ ∃ n, .name n ∈ e.leaves ∧ .name m ∈ (body n).leaves
  | .number _ | .text _ | .reference _ | .name _ => by simp [Expr.substitute, Expr.leaves]
  | .call _ arguments => mem_leavesOfAll_substituteAll arguments
  | .binary _ left right => by
    simp only [Expr.substitute, Expr.leaves, List.mem_append, left.mem_leaves_substitute,
      right.mem_leaves_substitute, or_and_right, exists_or]
  | .unary _ operand => operand.mem_leaves_substitute

theorem mem_leavesOfAll_substituteAll {m : String} : ∀ es : List Expr,
    .name m ∈ leavesOfAll (substituteAll body es) ↔
      ∃ n, .name n ∈ leavesOfAll es ∧ .name m ∈ (body n).leaves
  | [] => by simp [substituteAll, leavesOfAll]
  | e :: rest => by
    simp only [substituteAll, leavesOfAll, List.mem_append, e.mem_leaves_substitute,
      mem_leavesOfAll_substituteAll rest, or_and_right, exists_or]

end

mutual

theorem Expr.substitute_congr : ∀ e : Expr, (∀ n, .name n ∈ e.leaves → body n = body' n) →
    e.substitute body = e.substitute body'
  | .number _, _ | .text _, _ | .reference _, _ => rfl
  | .name n, h => h n (by simp [Expr.leaves])
  | .call f arguments, h => congrArg (Expr.call f) (substituteAll_congr arguments h)
  | .binary op left right, h => congrArg₂ (Expr.binary op)
      (left.substitute_congr fun n hn => h n (List.mem_append_left _ hn))
      (right.substitute_congr fun n hn => h n (List.mem_append_right _ hn))
  | .unary op operand, h => congrArg (Expr.unary op) (operand.substitute_congr h)

theorem substituteAll_congr : ∀ es : List Expr, (∀ n, .name n ∈ leavesOfAll es → body n = body' n) →
    substituteAll body es = substituteAll body' es
  | [], _ => rfl
  | e :: rest, h => congrArg₂ List.cons
      (e.substitute_congr fun n hn => h n (List.mem_append_left _ hn))
      (substituteAll_congr rest fun n hn => h n (List.mem_append_right _ hn))

end

end Substitution

/-! ## Replacing names -/

namespace NameTable

variable {t : NameTable} {n : String}

/-- **Rounds beyond the depth of a name replace nothing more.** -/
theorem expandName_of_depth_le {depth : String → Nat}
    (hdepth : ∀ n body, t.expression n = .ok body →
      0 < depth n ∧ ∀ m, .name m ∈ body.leaves → depth m < depth n) :
    ∀ (d : Nat) (n : String), depth n ≤ d → ∀ d', d ≤ d' → t.expandName d' n = t.expandName d n := by
  intro d
  induction d with
  | zero =>
    intro n hn d' _
    cases hdef : t.expression n with
    | error fault => cases d' <;> simp only [expandName, hdef]
    | ok body => exact absurd (hdepth n body hdef).1 (by omega)
  | succ d ih =>
    intro n hn d' hd'
    obtain ⟨k, rfl⟩ : ∃ k, d' = k + 1 := ⟨d' - 1, by omega⟩
    rw [expandName, expandName]
    cases hdef : t.expression n with
    | error fault => rfl
    | ok body =>
      refine body.substitute_congr fun m hm => ?_
      have hm := (hdepth n body hdef).2 m hm
      exact ih m (by omega) k (by omega)

theorem expand_name_ok {body : Expr} (h : t.expression n = .ok body) :
    t.expand (.name n) = t.expand body := by
  obtain ⟨depth, hle, hdepth⟩ := t.exists_depth
  have hstable := expandName_of_depth_le hdepth t.size n (hle n) (t.size + 1) (Nat.le_succ _)
  calc t.expandName t.size n = t.expandName (t.size + 1) n := hstable.symm
    _ = body.substitute (t.expandName t.size) := by rw [expandName, h]

theorem expand_name_error {fault : Fault} (h : t.expression n = .error fault) :
    t.expand (.name n) = .name n := by
  change t.expandName t.size n = _
  cases t.size with
  | zero => rfl
  | succ rounds => rw [expandName, h]

/-- **The names that are left have no expression.** -/
theorem expression_of_mem_expand {e : Expr} (h : .name n ∈ (t.expand e).leaves) :
    ∃ fault, t.expression n = .error fault := by
  obtain ⟨m, -, hm⟩ := e.mem_leaves_substitute.1 h
  -- from a name down to the names that its expression mentions
  induction m using mention_induction (t := t) with
  | step m ih =>
    have hm : .name n ∈ (t.expand (.name m)).leaves := hm
    cases hdef : t.expression m with
    | error fault =>
      rw [expand_name_error hdef] at hm
      obtain rfl : n = m := by simpa [Expr.leaves] using hm
      exact ⟨fault, hdef⟩
    | ok body =>
      rw [expand_name_ok hdef] at hm
      obtain ⟨k, hk, hnk⟩ := body.mem_leaves_substitute.1 hm
      exact ih body hdef k hk hnk

end NameTable

/-! ## Values -/

namespace Context

variable {ctx : Context} {names : NameTable}

/-- **What stands for a name reads as the name does**, after any number of rounds. -/
theorem Over.operand_expandName (h : ctx.Over names) : ∀ (rounds : Nat) (n : String),
    (names.expandName rounds n).operand ctx (ctx.named ctx.nesting) = ctx.named ctx.nesting n := by
  intro rounds
  induction rounds with
  | zero => exact fun _ => rfl
  | succ rounds ih =>
    intro n
    rw [NameTable.expandName]
    cases hdef : names.expression n with
    | error fault => rfl
    | ok body =>
      rw [h.named_eq, h.definition, hdef]
      exact body.operand_substitute.trans (congrArg (body.operand ctx) (funext ih))

end Context

namespace NameTable

/-- **Names are transparent.** Put in place of every name, again and again, the expression it is
bound to, until only names are left that have none: circular ones and those not defined. The
expression comes to the same value or fault as before, whatever the cells hold and however ranges are
read. So where a name comes down to a reference, the reference can stand for the name anywhere, among
the arguments of a function too. -/
theorem evaluate_expand (names : NameTable) (lookup : CellAddress → Except Fault Value)
    (readRange : Range → Except Fault RangeReading) (policy : TextPolicy) (e : Expr) :
    let ctx : Context := ⟨lookup, readRange, policy, names.expression, names.size⟩
    ((∀ n body, names.expression n = .ok body → names.expand (.name n) = names.expand body) ∧
      (∀ n fault, names.expression n = .error fault → names.expand (.name n) = .name n) ∧
      ∀ n, .name n ∈ (names.expand e).leaves → ∃ fault, names.expression n = .error fault) ∧
    ctx.evaluate (names.expand e) = ctx.evaluate e ∧
    ∀ n target, names.expand (.name n) = .reference target →
      ctx.evaluate (e.substitute fun m => if m = n then .reference target else .name m) =
        ctx.evaluate e := by
  intro ctx
  have hover : ctx.Over names := ⟨rfl, rfl⟩
  have substituted : ∀ body : String → Expr,
      (∀ n, (body n).operand ctx (ctx.named ctx.nesting) = ctx.named ctx.nesting n) →
        ctx.evaluate (e.substitute body) = ctx.evaluate e := fun body hbody =>
    congrArg ctx.read (e.operand_substitute.trans (congrArg (e.operand ctx) (funext hbody)))
  refine ⟨⟨fun _ _ => expand_name_ok, fun _ _ => expand_name_error,
    fun _ => expression_of_mem_expand⟩, substituted _ (hover.operand_expandName names.size),
    fun n target htarget => substituted _ fun m => ?_⟩
  by_cases hm : m = n
  · rw [if_pos hm, hm, ← hover.operand_expandName names.size n]
    exact congrArg (Expr.operand ctx (ctx.named ctx.nesting)) htarget.symm
  · rw [if_neg hm]
    rfl

/-- A name bound to a range by way of another name, and a name bound to itself. -/
example :
    let range := Range.ofCorners 0 0 0 1 0
    let names := ((NameTable.empty.set "x" ⟨"y", .name "y"⟩).set "y"
      ⟨"A1:A2", .reference (.range range)⟩).set "z" ⟨"z", .name "z"⟩
    names.expand (.binary .add (.call .sum [.name "x"]) (.name "z")) =
      .binary .add (.call .sum [.reference (.range range)]) (.name "z") := by
  cbv

end NameTable

end Spreadsheet
