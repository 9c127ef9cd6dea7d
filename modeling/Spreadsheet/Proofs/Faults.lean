/-
Which faults formulas come to. Evaluation looks at everything: an expression
has a value only if all it refers to can be read, its names' definitions
included (`Expr.operand_ok`, `Context.named_ok`). And the fault of cycles is
not one that evaluation can come to (`Store.result_ne_circularReference`).
-/
import Spreadsheet.Proofs.Locality

namespace Spreadsheet

open Relation

/-! ## What has been read -/

namespace Context

/-- Whether a reference can be read, as a cell or as a range. -/
def CanRead (ctx : Context) (t : Reference) : Prop :=
  (∃ c v, t = .cell c ∧ ctx.lookup c = .ok v) ∨ ∃ reading, ctx.readRange t.asRange = .ok reading

/-- Whether a reference can be read, or is still to be read because an operand is the reference. -/
def Answers (ctx : Context) (o : Operand) (t : Reference) : Prop :=
  ctx.CanRead t ∨ o = .reference t

/-- An argument that has been read: what it answers for can be read. -/
def HasRead (ctx : Context) (a : Argument) : Prop :=
  ∃ o, a = .ok o ∧ ∀ t, ctx.Answers o t → ctx.CanRead t

variable {ctx : Context}

theorem Answers.of_value {v : Value} {t : Reference} : ctx.Answers (.value v) t ↔ ctx.CanRead t := by
  simp [Answers]

theorem HasRead.of_value (v : Value) : ctx.HasRead (.ok (.value v)) :=
  ⟨_, rfl, fun _ h => Answers.of_value.1 h⟩

theorem HasRead.of_reference {t : Reference} (h : ctx.CanRead t) :
    ctx.HasRead (.ok (.reference t)) := by
  refine ⟨_, rfl, fun t' ht' => ht'.elim id fun he => ?_⟩
  cases he
  exact h

theorem hasRead_of_read {a : Argument} {v : Value} (h : ctx.read a = .ok v) : ctx.HasRead a := by
  obtain ⟨o, rfl, ho⟩ := bind_eq_ok.1 h
  rcases o with v | (c | r)
  · exact .of_value v
  · exact .of_reference (.inl ⟨c, v, rfl, ho⟩)
  · cases ho

theorem hasRead_of_numbers {a : Argument} {n : Numbers} (h : ctx.argumentNumbers a = .ok n) :
    ctx.HasRead a := by
  obtain ⟨o, rfl, ho⟩ := bind_eq_ok.1 h
  cases o with
  | value v => exact .of_value v
  | reference t =>
    obtain ⟨reading, hr, -⟩ := bind_eq_ok.1 ho
    exact .of_reference (.inr ⟨reading, hr⟩)

theorem hasRead_of_text {a : Argument} {s : String} (h : ctx.argumentText a = .ok s) :
    ctx.HasRead a := by
  obtain ⟨o, rfl, ho⟩ := bind_eq_ok.1 h
  cases o with
  | value v => exact .of_value v
  | reference t =>
    obtain ⟨reading, hr, -⟩ := bind_eq_ok.1 ho
    exact .of_reference (.inr ⟨reading, hr⟩)

theorem hasRead_of_collect {arguments : List Argument} {n : Numbers}
    (h : ctx.collect arguments = .ok n) : ∀ a ∈ arguments, ctx.HasRead a := by
  intro a ha
  rw [collect_eq_gather] at h
  obtain ⟨numbers, hnumbers⟩ := gather_ok h a ha
  exact hasRead_of_numbers hnumbers

theorem hasRead_of_concatenate {arguments : List Argument} {s : String}
    (h : ctx.concatenateTexts arguments = .ok s) : ∀ a ∈ arguments, ctx.HasRead a := by
  intro a ha
  rw [concatenateTexts_eq_gather] at h
  obtain ⟨text, htext⟩ := gather_ok h a ha
  exact hasRead_of_text htext

theorem hasRead_of_apply {f : Function} {arguments : List Argument} {v : Value}
    (h : ctx.apply f arguments = .ok v) : ∀ a ∈ arguments, ctx.HasRead a := by
  unfold apply at h
  split at h
  · cases h
  · rename_i harity
    cases f with
    | sum | max | min =>
      obtain ⟨n, hn, -⟩ := map_eq_ok.1 h
      exact hasRead_of_collect hn
    | average =>
      obtain ⟨n, hn, -⟩ := bind_eq_ok.1 h
      exact hasRead_of_collect hn
    | concatenate =>
      obtain ⟨s, hs, -⟩ := map_eq_ok.1 h
      exact hasRead_of_concatenate hs
    | len =>
      obtain ⟨x, hx, -⟩ := map_eq_ok.1 h
      rw [measureText_eq] at hx
      obtain ⟨w, hw, -⟩ := map_eq_ok.1 hx
      match arguments, harity with
      | [a], _ =>
        intro b hb
        rw [List.mem_singleton.1 hb]
        exact hasRead_of_read hw
      | [], harity => simp [Function.arity, Arity.accepts] at harity
      | _ :: _ :: _, harity => simp [Function.arity, Arity.accepts] at harity

end Context

section Expressions

variable {ctx : Context} {named : String → Except Fault Operand}

/-- What has been read of the leaves of an expression when it reads as an operand: each reference,
and whatever its names answer for, is read or is answered for by the operand. -/
def LeavesRead (ctx : Context) (named : String → Except Fault Operand) (o : Operand)
    (leaves : List Expr) : Prop :=
  (∀ t, .reference t ∈ leaves → ctx.Answers o t) ∧
    ∀ n, .name n ∈ leaves → ∃ o', named n = .ok o' ∧ ∀ t, ctx.Answers o' t → ctx.Answers o t

theorem LeavesRead.append {o : Operand} {l l' : List Expr} (h : LeavesRead ctx named o l)
    (h' : LeavesRead ctx named o l') : LeavesRead ctx named o (l ++ l') :=
  ⟨fun t ht => (List.mem_append.1 ht).elim (h.1 t) (h'.1 t),
    fun n hn => (List.mem_append.1 hn).elim (h.2 n) (h'.2 n)⟩

/-- Once an operand has been read, what it answered for has, and no operand has to any more. -/
theorem LeavesRead.of_hasRead {a : Argument} {leaves : List Expr}
    (hread : ctx.HasRead a) (h : ∀ o, a = .ok o → LeavesRead ctx named o leaves) (v : Value) :
    LeavesRead ctx named (.value v) leaves := by
  obtain ⟨o, ho, hall⟩ := hread
  obtain ⟨hr, hn⟩ := h o ho
  refine ⟨fun t ht => .inl (hall t (hr t ht)), fun n hm => ?_⟩
  obtain ⟨o', ho', hans⟩ := hn n hm
  exact ⟨o', ho', fun t ht => .inl (hall t (hans t ht))⟩

mutual

/-- **An expression that reads as an operand has looked at all its leaves.** -/
theorem Expr.operand_ok : ∀ (e : Expr) {o : Operand}, e.operand ctx named = .ok o →
    LeavesRead ctx named o e.leaves
  | .number x, _, _ => ⟨by simp [Expr.leaves], by simp [Expr.leaves]⟩
  | .text s, _, _ => ⟨by simp [Expr.leaves], by simp [Expr.leaves]⟩
  | .reference t, o, h => by
    cases h
    exact ⟨fun t' ht' => by simp_all [Expr.leaves, Context.Answers], by simp [Expr.leaves]⟩
  | .name n, o, h => by
    refine ⟨by simp [Expr.leaves], fun m hm => ?_⟩
    obtain rfl : m = n := by simpa [Expr.leaves] using hm
    exact ⟨o, h, fun _ ht => ht⟩
  | .call f arguments, o, h => by
    obtain ⟨v, hv, rfl⟩ := map_eq_ok.1 h
    exact operandsOf_ok arguments (Context.hasRead_of_apply hv) v
  | .binary op left right, o, h => by
    rw [Expr.operand_binary] at h
    obtain ⟨v, hv, rfl⟩ := map_eq_ok.1 h
    obtain ⟨a, ha, hv⟩ := bind_eq_ok.1 hv
    obtain ⟨b, hb, -⟩ := bind_eq_ok.1 hv
    exact (LeavesRead.of_hasRead (Context.hasRead_of_read ha) (fun _ ho => left.operand_ok ho) v).append
      (.of_hasRead (Context.hasRead_of_read hb) (fun _ ho => right.operand_ok ho) v)
  | .unary op operand, o, h => by
    rw [Expr.operand_unary] at h
    obtain ⟨v, hv, rfl⟩ := map_eq_ok.1 h
    obtain ⟨a, ha, -⟩ := bind_eq_ok.1 hv
    exact .of_hasRead (Context.hasRead_of_read ha) (fun _ ho => operand.operand_ok ho) v

theorem operandsOf_ok : ∀ (es : List Expr),
    (∀ a ∈ operandsOf ctx named es, ctx.HasRead a) → ∀ v : Value,
      LeavesRead ctx named (.value v) (leavesOfAll es)
  | [], _, _ => ⟨by simp [leavesOfAll], by simp [leavesOfAll]⟩
  | e :: rest, h, v => by
    have he := h (e.operand ctx named) List.mem_cons_self
    exact (LeavesRead.of_hasRead he (fun _ ho => e.operand_ok ho) v).append
      (operandsOf_ok rest (fun a ha => h a (List.mem_cons_of_mem _ ha)) v)

end

end Expressions

namespace Context

theorem named_ok {ctx : Context} {R : String → String → Prop}
    (hR : ∀ m n body, R m n → ctx.definition m = .ok body → .name n ∈ body.leaves)
    {m n : String} (hp : ReflTransGen R m n) : ∀ (d : Nat) {o : Operand}, ctx.named d m = .ok o →
      ∃ body, ctx.definition n = .ok body ∧ ∀ t, .reference t ∈ body.leaves → ctx.Answers o t := by
  -- reading a name opens its definition, and there is none to open when there is no room left
  have opened : ∀ {d : Nat} {k : String} {o : Operand}, ctx.named d k = .ok o →
      ∃ d' body, ctx.definition k = .ok body ∧ body.operand ctx (ctx.named d') = .ok o := by
    intro d k o h
    cases d with
    | zero =>
      obtain ⟨_, -, h⟩ := bind_eq_ok.1 h
      cases h
    | succ d =>
      obtain ⟨body, hbody, h⟩ := bind_eq_ok.1 h
      exact ⟨d, body, hbody, h⟩
  induction hp using ReflTransGen.head_induction_on with
  | refl =>
    intro d o h
    obtain ⟨d', body, hbody, h⟩ := opened h
    exact ⟨body, hbody, (body.operand_ok h).1⟩
  | head hstep _ ih =>
    intro d o h
    obtain ⟨d', body, hbody, h⟩ := opened h
    obtain ⟨o', ho', hans⟩ := (body.operand_ok h).2 _ (hR _ _ body hstep hbody)
    obtain ⟨body', hbody', hall⟩ := ih d' ho'
    exact ⟨body', hbody', fun t ht => hans t (hall t ht)⟩

end Context

/-! ## Faults that evaluation cannot come to -/

/-- Whether a computation does not come to the fault of cycles. -/
def NotCircular {α : Type} (x : Except Fault α) : Prop := x ≠ .error .circularReference

section NotCircular

variable {α β : Type}

theorem NotCircular.ok (a : α) : NotCircular (.ok a) := by simp [NotCircular]

theorem NotCircular.bind {x : Except Fault α} {f : α → Except Fault β} (hx : NotCircular x)
    (hf : ∀ a, NotCircular (f a)) : NotCircular (x.bind f) := by
  cases x with
  | error fault =>
    intro h
    cases h
    exact hx rfl
  | ok a => exact hf a

theorem NotCircular.map {x : Except Fault α} (f : α → β) (hx : NotCircular x) :
    NotCircular (x.map f) := by
  cases x with
  | error fault =>
    intro h
    cases h
    exact hx rfl
  | ok a => exact .ok (f a)

end NotCircular

theorem notCircular_asNumber (v : Value) : NotCircular v.asNumber := by
  cases v <;> simp [Value.asNumber, NotCircular]

theorem notCircular_arithmetic (op : BinaryOp) (a b : Float) : NotCircular (arithmetic op a b) := by
  cases op with
  | div =>
    simp only [arithmetic]
    split <;> simp [NotCircular]
  | pow =>
    simp only [arithmetic, power]
    split
    · simp [NotCircular]
    · split <;> simp [NotCircular]
  | add | sub | mul | eq | ne | lt | le | gt | ge => simp [arithmetic, NotCircular]

theorem notCircular_applyBinary (op : BinaryOp) (a b : Value) : NotCircular (applyBinary op a b) := by
  unfold applyBinary
  split
  · exact .ok _
  · exact (notCircular_asNumber a).bind fun x => (notCircular_asNumber b).bind fun y =>
      (notCircular_arithmetic op x y).bind fun _ => .ok _

theorem notCircular_applyUnary (op : UnaryOp) (a : Value) : NotCircular (applyUnary op a) :=
  (notCircular_asNumber a).bind fun _ => .ok _

theorem notCircular_averageOf (n : Numbers) : NotCircular (averageOf n) := by
  unfold averageOf
  simp only
  split <;> simp [NotCircular]

theorem notCircular_ofReading (policy : TextPolicy) (reading : RangeReading) :
    NotCircular (Numbers.ofReading policy reading) := by
  refine .map _ ?_
  unfold Numbers.ofValues
  split <;> simp [NotCircular]

namespace Context

/-- A context in which nothing that is looked up comes to the fault of cycles. -/
structure Uncircular (ctx : Context) : Prop where
  lookup : ∀ c, NotCircular (ctx.lookup c)
  readRange : ∀ r, NotCircular (ctx.readRange r)
  definition : ∀ n, NotCircular (ctx.definition n)

variable {ctx : Context}

theorem Uncircular.read (h : ctx.Uncircular) {a : Argument} (ha : NotCircular a) :
    NotCircular (ctx.read a) := by
  refine ha.bind fun o => ?_
  rcases o with v | (c | r)
  · exact .ok v
  · exact h.lookup c
  · simp [valueOf, NotCircular]

theorem Uncircular.argumentNumbers (h : ctx.Uncircular) {a : Argument} (ha : NotCircular a) :
    NotCircular (ctx.argumentNumbers a) := by
  refine ha.bind fun o => ?_
  cases o with
  | value v => exact (notCircular_asNumber v).bind fun _ => .ok _
  | reference t => exact (h.readRange t.asRange).bind fun _ => notCircular_ofReading _ _

theorem Uncircular.argumentText (h : ctx.Uncircular) {a : Argument} (ha : NotCircular a) :
    NotCircular (ctx.argumentText a) := by
  refine ha.bind fun o => ?_
  cases o with
  | value v => exact .ok _
  | reference t => exact (h.readRange t.asRange).bind fun _ => .ok _

theorem Uncircular.collect (h : ctx.Uncircular) {arguments : List Argument}
    (ha : ∀ a ∈ arguments, NotCircular a) : NotCircular (ctx.collect arguments) := by
  intro hfault
  rw [collect_eq_gather] at hfault
  obtain ⟨a, hmem, hfault⟩ := gather_error hfault
  exact h.argumentNumbers (ha a hmem) hfault

theorem Uncircular.concatenateTexts (h : ctx.Uncircular) {arguments : List Argument}
    (ha : ∀ a ∈ arguments, NotCircular a) : NotCircular (ctx.concatenateTexts arguments) := by
  intro hfault
  rw [concatenateTexts_eq_gather] at hfault
  obtain ⟨a, hmem, hfault⟩ := gather_error hfault
  exact h.argumentText (ha a hmem) hfault

theorem Uncircular.apply (h : ctx.Uncircular) (f : Function) {arguments : List Argument}
    (ha : ∀ a ∈ arguments, NotCircular a) : NotCircular (ctx.apply f arguments) := by
  unfold Context.apply
  split
  · simp [NotCircular]
  · cases f with
    | sum | max | min => exact (h.collect ha).map _
    | average => exact (h.collect ha).bind fun n => (notCircular_averageOf n).map _
    | concatenate => exact (h.concatenateTexts ha).map _
    | len =>
      refine .map _ ?_
      rw [measureText_eq]
      refine (h.read ?_).map _
      cases arguments with
      | nil => simp [NotCircular]
      | cons a rest => exact ha a List.mem_cons_self

end Context

section Expressions

variable {ctx : Context} {named : String → Except Fault Operand}

mutual

theorem Expr.operand_notCircular (h : ctx.Uncircular) (hn : ∀ n, NotCircular (named n)) :
    ∀ e : Expr, NotCircular (e.operand ctx named)
  | .number _ => .ok _
  | .text _ => .ok _
  | .reference _ => .ok _
  | .name n => hn n
  | .call f arguments => (h.apply f (operandsOf_notCircular h hn arguments)).map _
  | .binary op left right => by
    rw [Expr.operand_binary]
    exact ((h.read (left.operand_notCircular h hn)).bind fun _ =>
      (h.read (right.operand_notCircular h hn)).bind fun _ => notCircular_applyBinary op _ _).map _
  | .unary op operand => by
    rw [Expr.operand_unary]
    exact ((h.read (operand.operand_notCircular h hn)).bind fun _ =>
      notCircular_applyUnary op _).map _

theorem operandsOf_notCircular (h : ctx.Uncircular) (hn : ∀ n, NotCircular (named n)) :
    ∀ (es : List Expr), ∀ a ∈ operandsOf ctx named es, NotCircular a
  | [], _, ha => by simp [operandsOf] at ha
  | e :: rest, a, ha => by
    rcases List.mem_cons.1 ha with rfl | ha
    · exact e.operand_notCircular h hn
    · exact operandsOf_notCircular h hn rest a ha

end

end Expressions

theorem Context.named_notCircular {ctx : Context} (h : ctx.Uncircular) :
    ∀ (d : Nat) (n : String), NotCircular (ctx.named d n)
  | 0, n => (h.definition n).bind fun _ => by simp [NotCircular]
  | d + 1, n => (h.definition n).bind fun body =>
      body.operand_notCircular h (named_notCircular h d)

/-! ## Formulas over a store -/

namespace Store

/-- **A formula has a value only if every cell it reads has one.** -/
theorem value_of_evaluate {s : Store} {names : NameTable} {policy : TextPolicy} {f : Formula}
    {v : Value} (h : (s.context names policy).evaluate f.tree = .ok v) {c : CellAddress}
    (hc : names.Reads f c) : ∃ u, s.value c = .ok u := by
  obtain ⟨o, ho, hall⟩ := Context.hasRead_of_read h
  obtain ⟨hrefs, hnames⟩ := f.tree.operand_ok ho
  have hcell : ∀ t : Reference, (s.context names policy).CanRead t →
      t.asRange.contains c = true → ∃ u, s.value c = .ok u := by
    rintro t (⟨d, u, rfl, hu⟩ | ⟨reading, hr⟩) hct
    · obtain rfl : c = d := Range.contains_single.1 hct
      exact ⟨u, hu⟩
    · exact value_of_readOccupied hr hct
  obtain ⟨t, ht, hct⟩ := hc
  refine hcell t (hall t ?_) hct
  rcases List.mem_append.1 ht with ht | ht
  · exact hrefs t (Formula.mem_references.1 ht)
  · obtain ⟨n, hn, g, hg, hgt⟩ := NameTable.mem_references.1 ht
    obtain ⟨m, hm, hp⟩ := NameTable.mem_closure.1 hn
    obtain ⟨o', ho', hans⟩ := hnames m (Formula.mem_names.1 hm)
    have huses : ∀ m n body, names.Uses m n → names.expression m = .ok body →
        .name n ∈ body.leaves := fun m n body hmn hbody => by
      obtain ⟨g, hg, rfl, -⟩ := NameTable.expression_ok hbody
      obtain ⟨g', hg', hn⟩ := NameTable.uses_iff.1 hmn
      rw [hg] at hg'
      cases hg'
      exact Formula.mem_names.1 hn
    obtain ⟨body, hbody, hbodyrefs⟩ := Context.named_ok huses hp _ ho'
    obtain ⟨g', hg', rfl, -⟩ := NameTable.expression_ok hbody
    rw [hg] at hg'
    cases hg'
    exact hans t (hbodyrefs t (Formula.mem_references.1 hgt))

/-- The fault of cycles is not one that evaluation comes to. -/
theorem result_ne_circularReference (s : Store) (names : NameTable) (policy : TextPolicy)
    (e : Expr) : (s.context names policy).result e ≠ .error .circularReference := by
  have hctx : (s.context names policy).Uncircular :=
    ⟨s.value_ne_circularReference, s.readOccupied_ne_circularReference,
      fun _ => NameTable.expression_ne_circularReference⟩
  have hevaluate : NotCircular ((s.context names policy).evaluate e) :=
    hctx.read (e.operand_notCircular hctx (Context.named_notCircular hctx _))
  unfold Context.result
  split
  · rename_i v _
    cases v <;> simp [Value.toResult]
  · rename_i fault hfault
    rintro h
    injection h with h
    exact hevaluate (h ▸ hfault)

end Store

end Spreadsheet
