/-
What the policy for texts can change. Of the results of a workbook only
faults can: where evaluation comes to a value, it comes to the same value
when aggregates pass over texts (`Context.keepsValue_evaluate`), and along
dependencies this carries over from what formulas read to the formulas
(`Workbook.result?_relaxed`).
-/
import Spreadsheet.Proofs.Agreement

namespace Spreadsheet

/-! ## Values that are kept -/

/-- The second computation comes to the value of the first, if the first has one. -/
def KeepsValue {α : Type} (x y : Except Fault α) : Prop := ∀ a, x = .ok a → y = .ok a

section KeepsValue

variable {α β : Type} {x y : Except Fault α}

theorem KeepsValue.refl (x : Except Fault α) : KeepsValue x x := fun _ h => h

theorem KeepsValue.bind {f g : α → Except Fault β} (h : KeepsValue x y)
    (hfg : ∀ a, KeepsValue (f a) (g a)) : KeepsValue (x.bind f) (y.bind g) := by
  intro b hb
  obtain ⟨a, ha, hb⟩ := bind_eq_ok.1 hb
  rw [h a ha]
  exact hfg a b hb

theorem KeepsValue.map (k : α → β) (h : KeepsValue x y) : KeepsValue (x.map k) (y.map k) := by
  intro b hb
  obtain ⟨a, ha, rfl⟩ := map_eq_ok.1 hb
  rw [h a ha]
  rfl

end KeepsValue

theorem keepsValue_ofReading (policy : TextPolicy) (reading : RangeReading) :
    KeepsValue (Numbers.ofReading policy reading) (Numbers.ofReading .skip reading) := by
  refine .map _ fun n hn => ?_
  unfold Numbers.ofValues at hn ⊢
  split at hn
  · cases hn
  · exact hn

/-! ## Calls -/

namespace Context

/-- A context whose aggregates pass over texts. -/
def relaxed (ctx : Context) : Context := { ctx with policy := .skip }

variable {ctx : Context} {a b : Argument}

theorem keepsValue_read (h : KeepsValue a b) : KeepsValue (ctx.read a) (ctx.relaxed.read b) :=
  h.bind fun o => by rcases o with v | (c | r) <;> exact .refl _

theorem keepsValue_argumentNumbers (h : KeepsValue a b) :
    KeepsValue (ctx.argumentNumbers a) (ctx.relaxed.argumentNumbers b) :=
  h.bind fun o => by
    cases o with
    | value v => exact .refl _
    | reference t =>
      exact (KeepsValue.refl (ctx.readRange t.asRange)).bind (keepsValue_ofReading ctx.policy)

theorem keepsValue_argumentText (h : KeepsValue a b) :
    KeepsValue (ctx.argumentText a) (ctx.relaxed.argumentText b) :=
  h.bind fun o => by cases o <;> exact .refl _

variable {arguments arguments' : List Argument}

theorem keepsValue_collect (h : List.Forall₂ KeepsValue arguments arguments') :
    KeepsValue (ctx.collect arguments) (ctx.relaxed.collect arguments') := by
  induction h with
  | nil => exact .refl _
  | cons ha _ ih => exact (keepsValue_argumentNumbers ha).bind fun _ => ih.bind fun _ => .refl _

theorem keepsValue_concatenateTexts (h : List.Forall₂ KeepsValue arguments arguments') :
    KeepsValue (ctx.concatenateTexts arguments) (ctx.relaxed.concatenateTexts arguments') := by
  induction h with
  | nil => exact .refl _
  | cons ha _ ih => exact (keepsValue_argumentText ha).bind fun _ => ih.bind fun _ => .refl _

theorem keepsValue_apply (f : Function) (h : List.Forall₂ KeepsValue arguments arguments') :
    KeepsValue (ctx.apply f arguments) (ctx.relaxed.apply f arguments') := by
  unfold apply
  rw [h.length_eq]
  split
  · exact .refl _
  have hcollect : KeepsValue (ctx.collect arguments) (ctx.relaxed.collect arguments') :=
    keepsValue_collect h
  cases f with
  | sum | max | min => exact hcollect.map _
  | average => exact hcollect.bind fun _ => .refl _
  | concatenate => exact (keepsValue_concatenateTexts h).map _
  | len =>
    refine .map _ ?_
    rw [measureText_eq, measureText_eq]
    refine .map _ (keepsValue_read ?_)
    cases h with
    | nil => exact .refl _
    | cons ha _ => exact ha

end Context

/-! ## Expressions -/

section Expressions

variable {ctx : Context} {named named' : String → Except Fault Operand}

mutual

theorem Expr.keepsValue_operand (hn : ∀ n, KeepsValue (named n) (named' n)) : ∀ e : Expr,
    KeepsValue (e.operand ctx named) (e.operand ctx.relaxed named')
  | .number _ | .text _ | .reference _ => .refl _
  | .name n => hn n
  | .call f arguments => (Context.keepsValue_apply f (keepsValue_operandsOf hn arguments)).map _
  | .binary op left right => by
    rw [Expr.operand_binary, Expr.operand_binary]
    exact ((Context.keepsValue_read (left.keepsValue_operand hn)).bind fun _ =>
      (Context.keepsValue_read (right.keepsValue_operand hn)).bind fun _ => .refl _).map _
  | .unary op operand => by
    rw [Expr.operand_unary, Expr.operand_unary]
    exact ((Context.keepsValue_read (operand.keepsValue_operand hn)).bind fun _ => .refl _).map _

theorem keepsValue_operandsOf (hn : ∀ n, KeepsValue (named n) (named' n)) : ∀ es : List Expr,
    List.Forall₂ KeepsValue (operandsOf ctx named es) (operandsOf ctx.relaxed named' es)
  | [] => .nil
  | e :: rest => .cons (e.keepsValue_operand hn) (keepsValue_operandsOf hn rest)

end

end Expressions

namespace Context

theorem keepsValue_named (ctx : Context) : ∀ (d : Nat) (n : String),
    KeepsValue (ctx.named d n) (ctx.relaxed.named d n)
  | 0, _ => .refl _
  | d + 1, n => (KeepsValue.refl (ctx.definition n)).bind fun body =>
      body.keepsValue_operand (ctx.keepsValue_named d)

/-- **An expression that has a value has the same value when texts are passed over.** -/
theorem keepsValue_evaluate (ctx : Context) (e : Expr) :
    KeepsValue (ctx.evaluate e) (ctx.relaxed.evaluate e) :=
  keepsValue_read (e.keepsValue_operand (ctx.keepsValue_named ctx.nesting))

theorem result_relaxed (ctx : Context) {e : Expr} (h : (ctx.result e).isError = false) :
    ctx.relaxed.result e = ctx.result e := by
  unfold result at h ⊢
  cases he : ctx.evaluate e with
  | error fault =>
    rw [he] at h
    cases h
  | ok v => rw [ctx.keepsValue_evaluate e v he]

end Context

/-! ## Workbooks -/

namespace Workbook

/-- A workbook calculated anew with texts passed over. -/
def relaxed (w : Workbook) : Workbook := (w.setPolicy .skip).calculate.1

variable {w : Workbook}

theorem Reachable.relaxed (h : w.Reachable) : w.relaxed.Reachable :=
  (h.perform (.setPolicy .skip)).perform .calculate

theorem sameBut_relaxed (h : w.Reachable) : w.relaxed.SameBut { w with policy := .skip } := by
  have hread : ReadOK { w with policy := .skip } :=
    SameFormulas.readOK (w := w) ⟨rfl, rfl, fun _ => rfl⟩ h.readOK
  exact ((w.setPolicy .skip).sameInputs_calculate.trans (w.sameInputs_setPolicy .skip)).sameBut
    h.relaxed.readOK hread

theorem SoundOK.exists_result (h : w.SoundOK) {c : CellAddress} {f : Formula} (hc : c ∉ w.dirty)
    (hf : w.store.formula? c = some f) : ∃ r, w.store.result? c = some r :=
  Option.ne_none_iff_exists'.1 fun hn => hc ((h.dirty.stale c f hf).2 hn)

/-- A clean formula without a fault is on no cycle and depends on none, has what it comes to, and
reads no formula that has a fault. -/
theorem SoundOK.of_not_error (h : w.SoundOK) {c : CellAddress} {f : Formula} {r : CellResult}
    (hc : c ∉ w.dirty) (hf : w.store.formula? c = some f) (hr : w.store.result? c = some r)
    (hok : r.isError = false) :
    ¬ w.OnCycle c ∧ ¬ w.DependsOnCycle c ∧ w.outcome f = r ∧
      ∀ d r', w.DependsOn c d → w.store.result? d = some r' → r'.isError = false := by
  have noFault : ¬ ∃ fault, w.store.result? c = some (.error fault) := by
    rintro ⟨fault, hfault⟩
    rw [hfault] at hr
    cases hr
    cases hok
  have hcycle : ¬ w.OnCycle c := fun hn => noFault ⟨_, (h.fresh c f hf hc).cycle hn⟩
  have hbelow : ¬ w.DependsOnCycle c := fun ⟨_, hcd, hd⟩ => noFault (h.error_of_cycle hc hcd hd)
  refine ⟨hcycle, hbelow, ?_, fun d r' hcd hr' => ?_⟩
  · have hright := ((h.fresh c f hf hc).beside hcycle).resolve_right fun hn => hbelow hn.1
    exact Option.some.inj (hright.symm.trans hr)
  · cases r' with
    | error fault => exact absurd (h.error_of_path hc (.single hcd) hr') noFault
    | number _ | text _ => rfl

/-- **A result that is no fault outlasts the relaxation of the policy.** -/
theorem result?_relaxed (h : w.Reachable) (hclean : w.dirty = ∅) (c : CellAddress) :
    ∀ r, w.store.result? c = some r → r.isError = false → w.relaxed.store.result? c = some r := by
  have hsame := sameBut_relaxed h
  have hclean : ∀ c, c ∉ w.dirty := fun c => hclean ▸ Std.ExtTreeSet.not_mem_empty
  -- what has no fault lies beside cycles, and reads nothing that has one
  refine induction_beside (w := w) (P := fun c => ∀ r, w.store.result? c = some r →
    r.isError = false → w.relaxed.store.result? c = some r) (fun c ih r hr hok => ?_) c
  obtain ⟨f, hf⟩ := Store.formula?_of_result? hr
  obtain ⟨hcycle, hbelow, hout, hreads⟩ := h.soundOK.of_not_error (hclean c) hf hr hok
  have hstores : w.relaxed.outcome f = (w.store.context w.names .skip).result f.tree := by
    rw [outcome, hsame.names, hsame.policy]
    refine Store.result_congr (.refl _ _) fun d hd => hsame.get?_eq fun g hg => ?_
    have hcd : w.DependsOn c d := ⟨f, hf, hd⟩
    obtain ⟨rd, hrd⟩ := h.soundOK.exists_result (hclean d) hg
    rw [hrd, ih hcycle d hcd rd hrd (hreads d rd hcd hrd)]
  have hpolicy : (w.store.context w.names .skip).result f.tree = w.outcome f :=
    (w.store.context w.names w.policy).result_relaxed
      ((congrArg CellResult.isError hout).trans hok)
  have hright := h.relaxed.soundOK.fresh c f ((hsame.formula?_eq c).trans hf)
    (by simp [Workbook.relaxed, Workbook.calculate])
  rcases hright.beside fun hn => hcycle (hsame.onCycle_iff.1 hn) with hr | ⟨hn, -⟩
  · rw [hr, hstores, hpolicy, hout]
  · exact absurd (hsame.dependsOnCycle_iff.1 hn) hbelow

/-- **Relaxing the policy changes no value.** Take a workbook that has been calculated, however it
came about, let its aggregates pass over texts and calculate again. Each formula that had a number or
a text has the same one, and no cell is any different but for formulas that had a fault: these have
some result again. -/
theorem relaxing_keeps_values (policy : TextPolicy) (operations : List Operation) :
    let w := (Workbook.empty policy).run operations
    let u := w.run [.setPolicy .skip, .calculate]
    w.dirty = ∅ →
      (∀ c r, w.store.result? c = some r → r.isError = false → u.store.result? c = some r) ∧
      ∀ c, u.store.get? c = w.store.get? c ∨ ∃ f fault r,
        w.store.get? c = some (.formula f (some (.error fault))) ∧
          u.store.get? c = some (.formula f (some r)) := by
  intro w u hclean
  have h : w.Reachable := ⟨policy, operations, rfl⟩
  have hsame := sameBut_relaxed h
  have hkept := result?_relaxed h hclean
  refine ⟨hkept, fun c => ?_⟩
  by_cases hfault : ∃ fault, w.store.result? c = some (.error fault)
  · obtain ⟨fault, hr⟩ := hfault
    obtain ⟨f, hf⟩ := Store.formula?_of_result? hr
    have hfu := (hsame.formula?_eq c).trans hf
    obtain ⟨r, hru⟩ := h.relaxed.soundOK.exists_result
      (by simp [Workbook.relaxed, Workbook.calculate]) hfu
    exact .inr ⟨f, fault, r, by rw [Store.get?_of_formula? hf, hr],
      (Store.get?_of_formula? hfu).trans (by rw [hru])⟩
  · refine .inl (hsame.get?_eq fun f hf => ?_)
    obtain ⟨r, hr⟩ := h.soundOK.exists_result (hclean ▸ Std.ExtTreeSet.not_mem_empty) hf
    refine (hkept c r hr ?_).trans hr.symm
    cases r with
    | error fault => exact absurd ⟨fault, hr⟩ hfault
    | number _ | text _ => rfl

/-- A sum over a text is a fault, and so is what reads it. What is made of the text, with no
aggregate, and what is made of that have values, which stay. -/
theorem relaxing_keeps_values_text :
    let w := (Workbook.empty .error).run [.appendSheet "S", .setCell ⟨0, 0, 0⟩ (.text "a"),
      .setCell ⟨0, 0, 1⟩ (.formula "=SUM(A1)"), .setCell ⟨0, 0, 2⟩ (.formula "=-B1"),
      .setCell ⟨0, 0, 3⟩ (.formula "=CONCATENATE(A1,A2)"), .setCell ⟨0, 0, 4⟩ (.formula "=x"),
      .defineName "x" "D1", .calculate]
    let u := w.run [.setPolicy .skip, .calculate]
    (w.dirty = ∅ ∧ w.store.result? ⟨0, 0, 2⟩ = some (.error .typeMismatch) ∧
        w.store.result? ⟨0, 0, 4⟩ = some (.text "a")) ∧
      u.store.result? ⟨0, 0, 4⟩ = some (.text "a") := by
  refine (fun facts => ⟨⟨rfl, facts⟩, ?_⟩) (by cbv)
  exact (relaxing_keeps_values .error _ rfl).1 _ _ facts.2 rfl

end Workbook

end Spreadsheet
