/-
What evaluation reads. An expression comes to the same in two contexts that
read its references alike and in which its names read the same
(`Expr.operand_congr`). How deep names may nest does not matter once there
is room for every definition (`Context.Over.named_of_size_le`), so a formula
has the same value in two contexts that read alike its references and those
of the names it reaches (`Context.Over.evaluate_congr`), and comes to the
same over two stores that agree on the cells it reads (`Store.result_congr`).
-/
import Spreadsheet.Workbook.Dependence
import Spreadsheet.Proofs.Gathering
import Spreadsheet.Proofs.Names
import Spreadsheet.Proofs.Occurrences

namespace Spreadsheet

open Relation

/-! ## Leaves -/

theorem Formula.mem_references {f : Formula} {t : Reference} :
    t ∈ f.references ↔ .reference t ∈ f.tree.leaves := by
  refine (f.tree.firstIn_uses.references.mem_iff t).trans ?_
  simp only [List.mem_filterMap, Expr.reference?_eq_some, exists_eq_right]

theorem Formula.mem_names {f : Formula} {n : String} : n ∈ f.names ↔ .name n ∈ f.tree.leaves := by
  refine (f.tree.firstIn_uses.names.mem_iff n).trans ?_
  simp only [List.mem_filterMap, Expr.name?_eq_some, exists_eq_right]

/-! ## Expressions over what their parts read as -/

/-- The value that an argument reads as. -/
def Context.read (ctx : Context) (a : Argument) : Except Fault Value := a.bind ctx.valueOf

section Equations

variable (ctx : Context) (named : String → Except Fault Operand)

theorem Expr.operand_binary (op : BinaryOp) (left right : Expr) :
    (Expr.binary op left right).operand ctx named =
      ((ctx.read (left.operand ctx named)).bind fun a =>
        (ctx.read (right.operand ctx named)).bind fun b => applyBinary op a b).map .value := by
  change _ = Operand.value <$> ((left.operand ctx named >>= ctx.valueOf) >>= fun a =>
    (right.operand ctx named >>= ctx.valueOf) >>= fun b => applyBinary op a b)
  simp only [Expr.operand, map_eq_pure_bind, bind_assoc]

theorem Expr.operand_unary (op : UnaryOp) (operand : Expr) :
    (Expr.unary op operand).operand ctx named =
      ((ctx.read (operand.operand ctx named)).bind (applyUnary op)).map .value := by
  change _ = Operand.value <$> ((operand.operand ctx named >>= ctx.valueOf) >>= applyUnary op)
  simp only [Expr.operand, map_eq_pure_bind, bind_assoc]

theorem operandsOf_eq_map (es : List Expr) :
    operandsOf ctx named es = es.map fun e => e.operand ctx named := by
  induction es with
  | nil => rfl
  | cons e es ih => rw [operandsOf, ih, List.map_cons]

theorem Context.evaluate_call (f : Function) (arguments : List Expr) :
    ctx.evaluate (.call f arguments) =
      ctx.apply f (operandsOf ctx (ctx.named ctx.nesting) arguments) := by
  change ((ctx.apply f (operandsOf ctx (ctx.named ctx.nesting) arguments)).map
    Operand.value).bind ctx.valueOf = _
  cases ctx.apply f (operandsOf ctx (ctx.named ctx.nesting) arguments) <;> rfl

end Equations

/-! ## Contexts that read alike -/

namespace Context

/-- Two contexts read a reference alike. -/
def ReadsAlike (ctx ctx' : Context) (t : Reference) : Prop :=
  (∀ c, t = .cell c → ctx.lookup c = ctx'.lookup c) ∧
    ctx.readRange t.asRange = ctx'.readRange t.asRange

theorem ReadsAlike.refl (ctx : Context) (t : Reference) : ctx.ReadsAlike ctx t :=
  ⟨fun _ _ => rfl, rfl⟩

/-- If an argument is a reference, two contexts read it alike. -/
def PointsAlike (ctx ctx' : Context) (a : Argument) : Prop :=
  ∀ t, a = .ok (.reference t) → ctx.ReadsAlike ctx' t

variable {ctx ctx' : Context}

theorem PointsAlike.of_value (v : Value) : ctx.PointsAlike ctx' (.ok (.value v)) := by
  intro t h
  cases h

theorem PointsAlike.of_error (fault : Fault) : ctx.PointsAlike ctx' (.error fault) := by
  intro t h
  cases h

theorem PointsAlike.of_map (x : Except Fault Value) : ctx.PointsAlike ctx' (x.map .value) := by
  cases x with
  | error fault => exact .of_error fault
  | ok v => exact .of_value v

theorem read_congr {a : Argument} (h : ctx.PointsAlike ctx' a) : ctx.read a = ctx'.read a := by
  rcases a with fault | (v | (c | r))
  · rfl
  · rfl
  · exact (h _ rfl).1 c rfl
  · rfl

theorem argumentNumbers_congr (hp : ctx.policy = ctx'.policy) {a : Argument}
    (h : ctx.PointsAlike ctx' a) : ctx.argumentNumbers a = ctx'.argumentNumbers a := by
  rcases a with fault | (v | t)
  · rfl
  · rfl
  · change (ctx.readRange t.asRange).bind _ = (ctx'.readRange t.asRange).bind _
    rw [(h t rfl).2, hp]

theorem collect_congr (hp : ctx.policy = ctx'.policy) {arguments : List Argument}
    (h : ∀ a ∈ arguments, ctx.PointsAlike ctx' a) :
    ctx.collect arguments = ctx'.collect arguments := by
  rw [collect_eq_gather, gather_congr fun a ha => argumentNumbers_congr hp (h a ha),
    collect_eq_gather]

theorem argumentText_congr {a : Argument} (h : ctx.PointsAlike ctx' a) :
    ctx.argumentText a = ctx'.argumentText a := by
  rcases a with fault | (v | t)
  · rfl
  · rfl
  · change (ctx.readRange t.asRange).bind _ = (ctx'.readRange t.asRange).bind _
    rw [(h t rfl).2]

theorem concatenateTexts_congr {arguments : List Argument}
    (h : ∀ a ∈ arguments, ctx.PointsAlike ctx' a) :
    ctx.concatenateTexts arguments = ctx'.concatenateTexts arguments := by
  rw [concatenateTexts_eq_gather, gather_congr fun a ha => argumentText_congr (h a ha),
    concatenateTexts_eq_gather]

theorem measureText_eq (ctx : Context) (a : Argument) :
    ctx.measureText a = (ctx.read a).map fun v => v.asText.length.toFloat := by
  cases a <;> rfl

theorem measureText_congr {a : Argument} (h : ctx.PointsAlike ctx' a) :
    ctx.measureText a = ctx'.measureText a := by
  rw [measureText_eq, measureText_eq, read_congr h]

theorem apply_congr (hp : ctx.policy = ctx'.policy) (f : Function) {arguments : List Argument}
    (h : ∀ a ∈ arguments, ctx.PointsAlike ctx' a) :
    ctx.apply f arguments = ctx'.apply f arguments := by
  have hhead : ctx.PointsAlike ctx' (arguments.headD (.error .invalidArity)) := by
    cases arguments with
    | nil => exact .of_error _
    | cons a rest => exact h a List.mem_cons_self
  unfold apply
  rw [collect_congr hp h, concatenateTexts_congr h, measureText_congr hhead]

end Context

/-! ## Expressions -/

section Expressions

variable {ctx ctx' : Context} {named named' : String → Except Fault Operand}

mutual

/-- **An expression reads the same** where its references are read alike and its names read the
same, and what it reads as is again read alike. -/
theorem Expr.operand_congr (hp : ctx.policy = ctx'.policy) : ∀ (e : Expr),
    (∀ t, .reference t ∈ e.leaves → ctx.ReadsAlike ctx' t) →
    (∀ n, .name n ∈ e.leaves → named n = named' n ∧ ctx.PointsAlike ctx' (named n)) →
    e.operand ctx named = e.operand ctx' named' ∧ ctx.PointsAlike ctx' (e.operand ctx named)
  | .number x, _, _ => ⟨rfl, .of_value _⟩
  | .text s, _, _ => ⟨rfl, .of_value _⟩
  | .reference t, hr, _ => by
    refine ⟨rfl, fun t' h => ?_⟩
    cases h
    exact hr t (by simp [Expr.leaves])
  | .name n, _, hn => hn n (by simp [Expr.leaves])
  | .call f arguments, hr, hn => by
    obtain ⟨heq, hpoint⟩ := operandsOf_congr hp arguments hr hn
    rw [Expr.operand, Expr.operand, ← heq, ← Context.apply_congr hp f hpoint]
    exact ⟨rfl, .of_map _⟩
  | .binary op left right, hr, hn => by
    obtain ⟨hleft, hpleft⟩ := left.operand_congr hp
      (fun t ht => hr t (List.mem_append_left _ ht)) fun n hm => hn n (List.mem_append_left _ hm)
    obtain ⟨hright, hpright⟩ := right.operand_congr hp
      (fun t ht => hr t (List.mem_append_right _ ht)) fun n hm => hn n (List.mem_append_right _ hm)
    rw [Expr.operand_binary, Expr.operand_binary, ← hleft, ← hright, Context.read_congr hpleft,
      Context.read_congr hpright]
    exact ⟨rfl, .of_map _⟩
  | .unary op operand, hr, hn => by
    obtain ⟨heq, hpoint⟩ := operand.operand_congr hp hr hn
    rw [Expr.operand_unary, Expr.operand_unary, ← heq, Context.read_congr hpoint]
    exact ⟨rfl, .of_map _⟩

theorem operandsOf_congr (hp : ctx.policy = ctx'.policy) : ∀ (es : List Expr),
    (∀ t, .reference t ∈ leavesOfAll es → ctx.ReadsAlike ctx' t) →
    (∀ n, .name n ∈ leavesOfAll es → named n = named' n ∧ ctx.PointsAlike ctx' (named n)) →
    operandsOf ctx named es = operandsOf ctx' named' es ∧
      ∀ a ∈ operandsOf ctx named es, ctx.PointsAlike ctx' a
  | [], _, _ => by simp [operandsOf]
  | e :: rest, hr, hn => by
    obtain ⟨he, hpe⟩ := e.operand_congr hp
      (fun t ht => hr t (List.mem_append_left _ ht)) fun n hm => hn n (List.mem_append_left _ hm)
    obtain ⟨hrest, hprest⟩ := operandsOf_congr hp rest
      (fun t ht => hr t (List.mem_append_right _ ht)) fun n hm => hn n (List.mem_append_right _ hm)
    refine ⟨by rw [operandsOf, operandsOf, he, hrest], fun a ha => ?_⟩
    rcases List.mem_cons.1 ha with rfl | ha
    · exact hpe
    · exact hprest a ha

end

end Expressions

/-! ## Names -/

/-- **Names with expressions have depths**, at most the number of definitions, and the expression of
a name mentions only names less deep. -/
theorem NameTable.exists_depth (t : NameTable) : ∃ depth : String → Nat, (∀ n, depth n ≤ t.size) ∧
    ∀ n body, t.expression n = .ok body →
      0 < depth n ∧ ∀ m, .name m ∈ body.leaves → depth m < depth n := by
  let mentions := fun m n => ∃ body, t.expression m = .ok body ∧ .name n ∈ body.leaves
  have huses : ∀ {m n}, mentions m n → t.Uses m n ∧ ¬ TransGen t.Uses m m := by
    rintro m n ⟨body, hbody, hn⟩
    obtain ⟨f, hf, rfl, hcycle⟩ := expression_ok hbody
    exact ⟨uses_iff.2 ⟨f, hf, Formula.mem_names.2 hn⟩, hcycle⟩
  have hdefined : ∀ {n body}, t.expression n = .ok body → n ∈ t.definitions.keys := fun hbody => by
    obtain ⟨f, hf, -⟩ := expression_ok hbody
    exact Std.ExtTreeMap.mem_keys.2 (Std.ExtTreeMap.mem_iff_isSome_getElem?.2 (by rw [hf]; rfl))
  have hacyclic : ∀ n, ¬ TransGen mentions n n := fun n hn => by
    obtain ⟨k, hk, -⟩ := TransGen.head'_iff.1 hn
    exact (huses hk).2 (hn.lift id fun _ _ h => (huses h).1)
  obtain ⟨depth, hle, hpos, hlt⟩ := exists_rank (R := mentions) t.definitions.keys
    (fun m n ⟨_, hbody, _⟩ => hdefined hbody) hacyclic
  refine ⟨depth, fun n => (hle n).trans_eq Std.ExtTreeMap.length_keys, fun n body hbody => ?_⟩
  exact ⟨hpos n (hdefined hbody), fun m hm => hlt n m ⟨body, hbody, hm⟩⟩

/-- What holds of a name once it holds of all that its expression mentions holds of every name. -/
theorem NameTable.mention_induction {t : NameTable} {P : String → Prop}
    (step : ∀ n, (∀ body, t.expression n = .ok body → ∀ m, .name m ∈ body.leaves → P m) → P n)
    (n : String) : P n := by
  obtain ⟨depth, -, hdepth⟩ := t.exists_depth
  induction h : depth n using Nat.strong_induction_on generalizing n with
  | _ d ih =>
    subst h
    exact step n fun body hbody m hm => ih (depth m) ((hdepth n body hbody).2 m hm) m rfl

namespace Context

/-- The expression of a name mentions another. -/
def Mentions (ctx : Context) (m n : String) : Prop :=
  ∃ body, ctx.definition m = .ok body ∧ .name n ∈ body.leaves

/-- **Room beyond the depth of a name changes nothing.** -/
theorem named_of_depth_le {ctx : Context} {depth : String → Nat}
    (hdepth : ∀ n body, ctx.definition n = .ok body →
      0 < depth n ∧ ∀ m, .name m ∈ body.leaves → depth m < depth n) :
    ∀ (d : Nat) (n : String), depth n ≤ d → ∀ d', d ≤ d' → ctx.named d' n = ctx.named d n := by
  intro d
  induction d with
  | zero =>
    intro n hn d' _
    cases hdef : ctx.definition n with
    | error fault => cases d' <;> simp only [named, hdef, Except.bind]
    | ok body => exact absurd (hdepth n body hdef).1 (by omega)
  | succ d ih =>
    intro n hn d' hd'
    obtain ⟨k, rfl⟩ : ∃ k, d' = k + 1 := ⟨d' - 1, by omega⟩
    rw [named, named]
    cases hdef : ctx.definition n with
    | error fault => rfl
    | ok body =>
      refine (Expr.operand_congr rfl body (fun t _ => .refl ctx t) fun m hm => ?_).1
      have hm := (hdepth n body hdef).2 m hm
      exact ⟨ih m (by omega) k (by omega), fun t _ => .refl ctx t⟩

/-- Two contexts are alike on some names: they stand for the same expressions, whose references are
read alike, and which mention names of this kind only. -/
structure AlikeOn (ctx ctx' : Context) (reached : String → Prop) : Prop where
  policy : ctx.policy = ctx'.policy
  definition : ∀ n, reached n → ctx.definition n = ctx'.definition n
  references : ∀ n body, reached n → ctx.definition n = .ok body →
    ∀ t, .reference t ∈ body.leaves → ctx.ReadsAlike ctx' t
  mentions : ∀ m n, reached m → ctx.Mentions m n → reached n

theorem AlikeOn.named_eq {ctx ctx' : Context} {reached : String → Prop}
    (h : ctx.AlikeOn ctx' reached) : ∀ (d : Nat) (n : String), reached n →
      ctx.named d n = ctx'.named d n ∧ ctx.PointsAlike ctx' (ctx.named d n) := by
  intro d
  induction d with
  | zero =>
    intro n hn
    rw [named, named, ← h.definition n hn]
    refine ⟨rfl, ?_⟩
    cases ctx.definition n <;> exact .of_error _
  | succ d ih =>
    intro n hn
    rw [named, named, ← h.definition n hn]
    cases hdef : ctx.definition n with
    | error fault => exact ⟨rfl, .of_error fault⟩
    | ok body =>
      exact Expr.operand_congr h.policy body (h.references n body hn hdef) fun m hm =>
        ih m (h.mentions n m hn ⟨body, hdef, hm⟩)

end Context

/-! ## Formulas over a table -/

namespace Context

/-- A context in which names stand for what a table says and have room for each of its definitions. -/
structure Over (ctx : Context) (names : NameTable) : Prop where
  definition : ctx.definition = names.expression
  nesting : ctx.nesting = names.size

theorem plain_over (lookup : CellAddress → Except Fault Value) (policy : TextPolicy)
    (names : NameTable) : (plain lookup policy names.expression names.size).Over names := ⟨rfl, rfl⟩

variable {ctx ctx' : Context} {names names' : NameTable}

theorem Over.mentions_uses (h : ctx.Over names) {m n : String} (hmn : ctx.Mentions m n) :
    names.Uses m n := by
  obtain ⟨body, hbody, hn⟩ := hmn
  rw [h.definition] at hbody
  obtain ⟨f, hf, rfl, -⟩ := NameTable.expression_ok hbody
  exact NameTable.uses_iff.2 ⟨f, hf, Formula.mem_names.2 hn⟩

/-- Names have room to nest once there is room for every definition. -/
theorem Over.named_of_size_le (h : ctx.Over names) (n : String) {d : Nat} (hd : names.size ≤ d) :
    ctx.named d n = ctx.named ctx.nesting n := by
  obtain ⟨depth, hle, hdepth⟩ := names.exists_depth
  rw [h.nesting]
  exact named_of_depth_le (h.definition ▸ hdepth) names.size n (hle n) d hd

theorem Over.named_eq (h : ctx.Over names) (n : String) :
    ctx.named ctx.nesting n = (ctx.definition n).bind ctx.operand := by
  rw [← h.named_of_size_le n (Nat.le_succ _), named, ← h.nesting]
  rfl

/-- **A formula has the same value in two contexts** that read its references alike and those of the
names it reaches, over tables that agree on these names. -/
theorem Over.evaluate_congr (h : ctx.Over names) (h' : ctx'.Over names')
    (hp : ctx.policy = ctx'.policy) {f : Formula} (hnames : names.AgreeOn names' f.names)
    (hreads : ∀ t ∈ f.references ++ names.references f.names, ctx.ReadsAlike ctx' t) :
    ctx.evaluate f.tree = ctx'.evaluate f.tree := by
  have halike : ctx.AlikeOn ctx' (· ∈ names.closure f.names) := by
    refine ⟨hp, fun n hn => ?_, fun n body hn hbody t ht => ?_, fun m n hm hmn => ?_⟩
    · rw [h.definition, h'.definition]
      exact hnames.expression_eq hn
    · rw [h.definition] at hbody
      obtain ⟨g, hg, rfl, -⟩ := NameTable.expression_ok hbody
      refine hreads t (List.mem_append_right _ (NameTable.mem_references.2 ⟨n, hn, g, hg, ?_⟩))
      exact Formula.mem_references.2 ht
    · exact NameTable.mem_closure_step hm (h.mentions_uses hmn)
  have hnamed : ∀ n ∈ names.closure f.names, ctx.named ctx.nesting n = ctx'.named ctx'.nesting n ∧
      ctx.PointsAlike ctx' (ctx.named ctx.nesting n) := fun n hn => by
    have heq := halike.named_eq (max names.size names'.size) n hn
    rwa [h.named_of_size_le n (Nat.le_max_left _ _),
      h'.named_of_size_le n (Nat.le_max_right _ _)] at heq
  obtain ⟨hoperand, hpoint⟩ := Expr.operand_congr hp f.tree
    (fun t ht => hreads t (List.mem_append_left _ (Formula.mem_references.2 ht)))
    fun n hn => hnamed n (NameTable.mem_closure_self (Formula.mem_names.2 hn))
  exact (read_congr hpoint).trans (congrArg ctx'.read hoperand)

theorem Over.result_congr (h : ctx.Over names) (h' : ctx'.Over names')
    (hp : ctx.policy = ctx'.policy) {f : Formula} (hnames : names.AgreeOn names' f.names)
    (hreads : ∀ t ∈ f.references ++ names.references f.names, ctx.ReadsAlike ctx' t) :
    ctx.result f.tree = ctx'.result f.tree := by
  rw [result, h.evaluate_congr h' hp hnames hreads, result]

end Context

/-! ## Formulas over a store -/

namespace Store

theorem context_over (s : Store) (names : NameTable) (policy : TextPolicy) :
    (s.context names policy).Over names := ⟨rfl, rfl⟩

theorem readsAlike {s t : Store} {names names' : NameTable} {policy : TextPolicy} {r : Reference}
    (h : ∀ c, r.asRange.contains c = true → s.value c = t.value c) :
    (s.context names policy).ReadsAlike (t.context names' policy) r := by
  refine ⟨fun c hc => h c ?_, readOccupied_congr h⟩
  subst hc
  exact Range.contains_single.2 rfl

/-- **A formula comes to the same over two stores** that agree on the cells it reads, with tables
that agree on the names it reaches. -/
theorem result_congr {s t : Store} {names names' : NameTable} {policy : TextPolicy} {f : Formula}
    (hnames : names.AgreeOn names' f.names) (h : ∀ c, names.Reads f c → s.get? c = t.get? c) :
    (s.context names policy).result f.tree = (t.context names' policy).result f.tree :=
  (s.context_over names policy).result_congr (t.context_over names' policy) rfl hnames
    fun r hr => readsAlike fun c hc => value_congr (h c ⟨r, hr, hc⟩)

end Store

end Spreadsheet
