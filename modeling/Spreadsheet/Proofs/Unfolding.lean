/-
Names unfold to an end. Along names each of which mentions the next in its
expression no name occurs twice (`NameTable.Nested.nodup`), because a name
that could be met again is circular and has no expression. So an argument
that is a name comes down to something else after finitely many names
(`Context.Over.exists_resolves`), and an expression reads as something by rules
that put no bound on how deep names may nest (`Context.ReadsWithin`). The
bound that evaluation counts down is never reached.
-/
import Spreadsheet.Proofs.Locality

namespace Spreadsheet

/-! ## Names one inside the other -/

namespace NameTable

variable {t : NameTable}

/-- Names that have expressions, each mentioned in the expression of the one before it. -/
def Nested (t : NameTable) (chain : List String) : Prop :=
  (∀ n ∈ chain, ∃ body, t.expression n = .ok body) ∧
    chain.IsChain fun m n => ∃ body, t.expression m = .ok body ∧ .name n ∈ body.leaves

/-- **No name is inside itself.** -/
theorem Nested.nodup {chain : List String} (h : t.Nested chain) : chain.Nodup := by
  obtain ⟨depth, -, hdepth⟩ := t.exists_depth
  have hfalls : (chain.map depth).IsChain (· > ·) :=
    (List.isChain_map depth).2 (h.2.imp fun m n ⟨body, hbody, hn⟩ => (hdepth m body hbody).2 n hn)
  exact List.Nodup.of_map depth (hfalls.pairwise.imp fun hlt => ne_of_gt hlt)

theorem Nested.length_le {chain : List String} (h : t.Nested chain) : chain.length ≤ t.size := by
  refine (h.nodup.subperm fun n hn => ?_).length_le.trans_eq Std.ExtTreeMap.length_keys
  obtain ⟨body, hbody⟩ := h.1 n hn
  obtain ⟨f, hf, -⟩ := expression_ok hbody
  exact Std.ExtTreeMap.mem_keys.2 (Std.ExtTreeMap.mem_iff_isSome_getElem?.2 (by rw [hf]; rfl))

end NameTable

/-! ## Following names -/

namespace Context

variable {ctx : Context} {names : NameTable}

theorem Resolves.unique {e : Expr} {r r' : Except Fault Expr} (h : ctx.Resolves e r)
    (h' : ctx.Resolves e r') : r = r' := by
  induction h with
  | here he =>
    cases h' with
    | here => rfl
    | fault | follow => cases he
  | fault hdef =>
    cases h' with
    | here he => cases he
    | fault hdef' =>
      cases hdef.symm.trans hdef'
      rfl
    | follow hdef' => cases hdef.symm.trans hdef'
  | follow hdef _ ih =>
    cases h' with
    | here he => cases he
    | fault hdef' => cases hdef.symm.trans hdef'
    | follow hdef' hbody =>
      cases hdef.symm.trans hdef'
      exact ih hbody

/-- **Following names ends**, for each of them is mentioned in the expression of the one before. -/
theorem Over.exists_resolves (h : ctx.Over names) (e : Expr) : ∃ r, ctx.Resolves e r := by
  have hname : ∀ n, ∃ r, ctx.Resolves (.name n) r := fun n => by
    induction n using NameTable.mention_induction (t := names) with
    | step n ih =>
      rw [← h.definition] at ih
      cases hdef : ctx.definition n with
      | error fault => exact ⟨_, .fault hdef⟩
      | ok body =>
        cases body with
        | name m =>
          obtain ⟨r, hr⟩ := ih _ hdef m (by simp [Expr.leaves])
          exact ⟨r, .follow hdef hr⟩
        | number | text | reference | call | binary | unary => exact ⟨_, .follow hdef (.here rfl)⟩
  cases e with
  | name n => exact hname n
  | number | text | reference | call | binary | unary => exact ⟨_, .here rfl⟩

theorem Resolves.name?_eq_none {e e' : Expr} {r : Except Fault Expr} (h : ctx.Resolves e r)
    (hr : r = .ok e') : e'.name? = none := by
  induction h with
  | here he =>
    cases hr
    exact he
  | fault => cases hr
  | follow _ _ ih => exact ih hr

theorem operand_eq_evaluate {e : Expr} (hname : e.name? = none) (href : e.reference? = none) :
    ctx.operand e = (ctx.evaluate e).map .value := by
  have hvalue : ∃ x : Except Fault Value, ctx.operand e = x.map .value := by
    cases e with
    | name | reference => contradiction
    | number x => exact ⟨.ok (.number x), rfl⟩
    | text s => exact ⟨.ok (.text s), rfl⟩
    | call f arguments => exact ⟨_, rfl⟩
    | binary op left right => exact ⟨_, Expr.operand_binary ..⟩
    | unary op operand => exact ⟨_, Expr.operand_unary ..⟩
  obtain ⟨x, hx⟩ := hvalue
  rw [evaluate, hx]
  cases x <;> rfl

/-- **An argument is the reference that it comes down to**, or else the value of what it comes down
to: so reading an expression is evaluating it where a value is needed, and following names first
where a reference will do. -/
theorem Over.operand_eq (h : ctx.Over names) {e e' : Expr} (hr : ctx.Resolves e (.ok e')) :
    ctx.operand e = match e'.reference? with
      | some t => .ok (.reference t)
      | none => (ctx.evaluate e').map .value := by
  rw [operand_of_resolves h.named_eq hr]
  split
  · rename_i t ht
    rw [Expr.reference?_eq_some.1 ht]
    rfl
  · exact operand_eq_evaluate (hr.name?_eq_none rfl) ‹_›

end Context

/-! ## Reading by rules -/

namespace Context

mutual

/-- What an expression reads as when names nest to a given depth and no deeper. A name reads as its
expression does one level further down. -/
inductive ReadsWithin (ctx : Context) : Nat → Expr → Argument → Prop
  | number {k : Nat} (x : Float) : ReadsWithin ctx k (.number x) (.ok (.value (.number x)))
  | text {k : Nat} (s : String) : ReadsWithin ctx k (.text s) (.ok (.value (.text s)))
  | reference {k : Nat} (t : Reference) : ReadsWithin ctx k (.reference t) (.ok (.reference t))
  | fault {k : Nat} {n : String} {fault : Fault} : ctx.definition n = .error fault →
      ReadsWithin ctx k (.name n) (.error fault)
  | name {k : Nat} {n : String} {body : Expr} {a : Argument} : ctx.definition n = .ok body →
      ReadsWithin ctx k body a → ReadsWithin ctx (k + 1) (.name n) a
  | call {k : Nat} {f : Function} {es : List Expr} {as : List Argument} :
      ReadWithin ctx k es as → ReadsWithin ctx k (.call f es) ((ctx.apply f as).map .value)
  | binary {k : Nat} {op : BinaryOp} {left right : Expr} {a b : Argument} :
      ReadsWithin ctx k left a → ReadsWithin ctx k right b →
        ReadsWithin ctx k (.binary op left right)
          (((ctx.read a).bind fun x => (ctx.read b).bind fun y => applyBinary op x y).map .value)
  | unary {k : Nat} {op : UnaryOp} {e : Expr} {a : Argument} : ReadsWithin ctx k e a →
      ReadsWithin ctx k (.unary op e) (((ctx.read a).bind (applyUnary op)).map .value)

/-- What the expressions of a list read as when names nest to a given depth and no deeper. -/
inductive ReadWithin (ctx : Context) : Nat → List Expr → List Argument → Prop
  | nil {k : Nat} : ReadWithin ctx k [] []
  | cons {k : Nat} {e : Expr} {es : List Expr} {a : Argument} {as : List Argument} :
      ReadsWithin ctx k e a → ReadWithin ctx k es as → ReadWithin ctx k (e :: es) (a :: as)

end

section Rules

variable {ctx : Context}

mutual

/-- What the rules find within a depth is what counting down from there, or from above, finds. -/
theorem ReadsWithin.eq {k d : Nat} {e : Expr} {a : Argument} (hk : k ≤ d) :
    ctx.ReadsWithin k e a → e.operand ctx (ctx.named d) = a
  | .number _ | .text _ | .reference _ => rfl
  | .fault hdef => by
    rw [Expr.operand]
    cases d <;> simp only [named, hdef, Except.bind]
  | .name hdef hbody => by
    obtain ⟨d, rfl⟩ : ∃ i, d = i + 1 := ⟨d - 1, by omega⟩
    rw [Expr.operand, named, hdef]
    exact hbody.eq (Nat.le_of_succ_le_succ hk)
  | .call hes => by rw [Expr.operand, hes.eq hk]
  | .binary ha hb => by rw [Expr.operand_binary, ha.eq hk, hb.eq hk]
  | .unary ha => by rw [Expr.operand_unary, ha.eq hk]

theorem ReadWithin.eq {k d : Nat} {es : List Expr} {as : List Argument} (hk : k ≤ d) :
    ctx.ReadWithin k es as → operandsOf ctx (ctx.named d) es = as
  | .nil => rfl
  | .cons ha has => by rw [operandsOf, ha.eq hk, has.eq hk]

end

variable {k : Nat}

mutual

theorem readsWithin_of_names : ∀ e : Expr,
    (∀ n, .name n ∈ e.leaves → ctx.ReadsWithin k (.name n) (ctx.named k n)) →
      ctx.ReadsWithin k e (e.operand ctx (ctx.named k))
  | .number x, _ => .number x
  | .text s, _ => .text s
  | .reference t, _ => .reference t
  | .name n, h => h n (by simp [Expr.leaves])
  | .call f arguments, h => by
    rw [Expr.operand]
    exact .call (readWithin_of_names arguments h)
  | .binary op left right, h => by
    rw [Expr.operand_binary]
    exact .binary (readsWithin_of_names left fun n hn => h n (List.mem_append_left _ hn))
      (readsWithin_of_names right fun n hn => h n (List.mem_append_right _ hn))
  | .unary op operand, h => by
    rw [Expr.operand_unary]
    exact .unary (readsWithin_of_names operand h)

theorem readWithin_of_names : ∀ es : List Expr,
    (∀ n, .name n ∈ leavesOfAll es → ctx.ReadsWithin k (.name n) (ctx.named k n)) →
      ctx.ReadWithin k es (operandsOf ctx (ctx.named k) es)
  | [], _ => .nil
  | e :: rest, h => .cons (readsWithin_of_names e fun n hn => h n (List.mem_append_left _ hn))
      (readWithin_of_names rest fun n hn => h n (List.mem_append_right _ hn))

end

end Rules

theorem readsWithin_name {ctx : Context} {depth : String → Nat}
    (hdepth : ∀ n body, ctx.definition n = .ok body →
      0 < depth n ∧ ∀ m, .name m ∈ body.leaves → depth m < depth n) :
    ∀ (k : Nat) (n : String), depth n ≤ k → ctx.ReadsWithin k (.name n) (ctx.named k n) := by
  intro k
  induction k with
  | zero =>
    intro n hn
    cases hdef : ctx.definition n with
    | error fault =>
      rw [named, hdef]
      exact .fault hdef
    | ok body => exact absurd (hdepth n body hdef).1 (by omega)
  | succ k ih =>
    intro n hn
    cases hdef : ctx.definition n with
    | error fault =>
      rw [named, hdef]
      exact .fault hdef
    | ok body =>
      rw [named, hdef]
      refine .name hdef (readsWithin_of_names body fun m hm => ih m ?_)
      have hm := (hdepth n body hdef).2 m hm
      omega

variable {ctx : Context} {names : NameTable}

/-- **Every expression reads as something by the rules**, with names nested no deeper than there are
definitions, and it is what evaluation reads. -/
theorem Over.readsWithin (h : ctx.Over names) (e : Expr) :
    ctx.ReadsWithin names.size e (ctx.operand e) := by
  obtain ⟨depth, hle, hdepth⟩ := names.exists_depth
  rw [operand, h.nesting]
  exact readsWithin_of_names e fun n _ =>
    readsWithin_name (h.definition ▸ hdepth) names.size n (hle n)

/-- **The rules find nothing else**, whatever depth they are given. -/
theorem Over.eq_of_readsWithin (h : ctx.Over names) {k : Nat} {e : Expr} {a : Argument}
    (ha : ctx.ReadsWithin k e a) : a = ctx.operand e := by
  have hnamed : ctx.named (max k names.size) = ctx.named ctx.nesting :=
    funext fun n => h.named_of_size_le n (Nat.le_max_right _ _)
  rw [operand, ← hnamed, ha.eq (Nat.le_max_left _ _)]

end Context

namespace NameTable

/-- **Evaluation through names ends**, whatever names have been bound and bound anew. Along names
that have expressions, each mentioned in the expression of the one before it, no name occurs twice,
and so there are no more of them than definitions. Following an argument from name to name comes
down to one thing. And by rules that let names nest as deep as they will, every expression reads as
one thing, which is what evaluation reads, and they find it with names nested no deeper than there
are definitions: whatever the cells hold and however ranges are read. -/
theorem evaluation_ends (names : NameTable) (lookup : CellAddress → Except Fault Value)
    (readRange : Range → Except Fault RangeReading) (policy : TextPolicy) :
    let ctx : Context := ⟨lookup, readRange, policy, names.expression, names.size⟩
    (∀ chain, names.Nested chain → chain.Nodup ∧ chain.length ≤ names.size) ∧
    (∀ e, ∃ r, ctx.Resolves e r ∧ (∀ r', ctx.Resolves e r' → r' = r) ∧
      ctx.operand e = r.bind ctx.operand) ∧
    ∀ e, ctx.ReadsWithin names.size e (ctx.operand e) ∧
      ∀ k a, ctx.ReadsWithin k e a → a = ctx.operand e := by
  intro ctx
  have hover : ctx.Over names := ⟨rfl, rfl⟩
  refine ⟨fun chain h => ⟨h.nodup, h.length_le⟩, fun e => ?_,
    fun e => ⟨hover.readsWithin e, fun k a => hover.eq_of_readsWithin⟩⟩
  obtain ⟨r, hr⟩ := hover.exists_resolves e
  exact ⟨r, hr, fun r' hr' => hr'.unique hr, Context.operand_of_resolves hover.named_eq hr⟩

/-- Two names in a circle that the last definition breaks, and a name that is not defined. -/
theorem evaluation_ends_broken_circle :
    let names := ((NameTable.empty.set "x" ⟨"y", .name "y"⟩).set "y" ⟨"x", .name "x"⟩).set "y"
      ⟨"-z", .unary .neg (.name "z")⟩
    let ctx := Context.plain (fun _ => .ok .empty) .skip names.expression names.size
    (names.Nested ["x", "y"] ∧ ctx.ReadsWithin 2 (.name "x") (.error .nameNotFound)) ∧
      ["x", "y"].Nodup ∧ ["x", "y"].length ≤ names.size ∧
      ctx.operand (.name "x") = .error .nameNotFound := by
  intro names ctx
  obtain ⟨hx, hy, hz⟩ : names.expression "x" = .ok (.name "y") ∧
      names.expression "y" = .ok (.unary .neg (.name "z")) ∧
        names.expression "z" = .error .nameNotFound := by
    cbv
  have hnested : names.Nested ["x", "y"] := by
    clear_value names
    simp [Nested, hx, hy, Expr.leaves]
  have hreads : ctx.ReadsWithin 2 (.name "x") (.error .nameNotFound) :=
    .name hx (.name hy (.unary (.fault hz)))
  obtain ⟨hchain, -, hone⟩ := evaluation_ends names (fun _ => .ok .empty)
    (readEveryCell fun _ => .ok .empty) .skip
  obtain ⟨hnodup, hlength⟩ := hchain _ hnested
  exact ⟨⟨hnested, hreads⟩, hnodup, hlength, ((hone (.name "x")).2 2 _ hreads).symm⟩

end NameTable

end Spreadsheet
