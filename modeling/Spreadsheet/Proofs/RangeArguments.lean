/-
Ranges among the arguments of a call. Where texts are passed over, the
numbers of a range are those of its cells one after another
(`Context.argumentNumbers_reference`), and so is its text, whatever the
policy (`Context.argumentText_reference`): empty cells add nothing but a
zero to be counted, and the first fault in the range is the first fault of
its cells. So a range gives what its cells give as arguments of their own
(`gather_cellArguments`), and a call that reads its arguments as ranges
comes to the same with the cells in place of the range
(`Context.range_argument_eq_cell_arguments`).
-/
import Spreadsheet.Proofs.Extent

namespace Spreadsheet

/-! ## What the values of a range add -/

namespace Numbers

/-- What one value adds to the numbers of an aggregate that passes over texts. -/
def ofValue (v : Value) : Numbers :=
  ⟨v.number?.toList, if v.isEmpty then 1 else 0⟩

theorem foldr_ofValue (vs : List Value) : vs.foldr (fun v => append (ofValue v)) {} =
    ⟨vs.filterMap Value.number?, UInt64.ofNat (vs.countP Value.isEmpty)⟩ := by
  induction vs with
  | nil => rfl
  | cons v vs ih =>
    rw [List.foldr_cons, ih, List.filterMap_cons, List.countP_cons]
    cases v <;>
      simp [append, ofValue, Value.number?, Value.isEmpty, UInt64.ofNat_add, UInt64.add_comm]

theorem ofReading_ofValues (vs : List Value) : ofReading .skip (.ofValues vs) =
    .ok (vs.foldr (fun v => append (ofValue v)) {}) := by
  have hvalues : (vs.filter fun v => !v.isEmpty).filterMap Value.number? =
      vs.filterMap Value.number? := by
    rw [List.filterMap_filter]
    refine List.filterMap_congr fun v _ => ?_
    cases v <;> rfl
  have hempty : (vs.filter fun v => !v.isEmpty).countP Value.isEmpty = 0 := by
    simp [List.countP_filter]
  simp [ofReading, ofValues, RangeReading.ofValues, hvalues, hempty, foldr_ofValue, Except.map]

end Numbers

theorem join_ofValues (vs : List Value) :
    String.join ((RangeReading.ofValues vs).values.map Value.asText) =
      vs.foldr (fun v => (v.asText ++ ·)) "" := by
  induction vs with
  | nil => rfl
  | cons v vs ih =>
    rw [List.foldr_cons, ← ih]
    cases v <;> simp [RangeReading.ofValues, Value.isEmpty, Value.asText, String.join_cons]

/-! ## References as arguments -/

namespace Context

/-- A context reads ranges by looking up their cells, or so that it makes no difference. -/
def ReadsCellByCell (ctx : Context) : Prop :=
  ∀ r, ctx.readRange r = readEveryCell ctx.lookup r

variable {ctx : Context}

theorem argumentNumbers_reference (hcells : ctx.ReadsCellByCell) (hskip : ctx.policy = .skip)
    (t : Reference) : ctx.argumentNumbers (.ok (.reference t)) =
      gather Numbers.append {} (fun c => (ctx.lookup c).map Numbers.ofValue) t.asRange.cells := by
  rw [← map_mapM_foldr]
  change (ctx.readRange t.asRange).bind (Numbers.ofReading ctx.policy) = _
  rw [hcells, hskip, readEveryCell]
  cases t.asRange.cells.mapM ctx.lookup with
  | error fault => rfl
  | ok vs => exact Numbers.ofReading_ofValues vs

theorem argumentText_reference (hcells : ctx.ReadsCellByCell) (t : Reference) :
    ctx.argumentText (.ok (.reference t)) =
      gather (· ++ ·) "" (fun c => (ctx.lookup c).map Value.asText) t.asRange.cells := by
  rw [← map_mapM_foldr]
  change (ctx.readRange t.asRange).bind (fun reading =>
    .ok (String.join (reading.values.map Value.asText))) = _
  rw [hcells, readEveryCell]
  cases t.asRange.cells.mapM ctx.lookup with
  | error fault => rfl
  | ok vs => exact congrArg Except.ok (join_ofValues vs)

end Context

/-! ## Cells in place of a range -/

/-- The cells of a range as arguments of their own, row by row. -/
def Range.cellArguments (r : Range) : List Argument :=
  r.cells.map fun c => .ok (.reference (.cell c))

theorem Range.cellArguments_ne_nil (r : Range) : r.cellArguments ≠ [] := by
  rw [cellArguments, ne_eq, List.map_eq_nil_iff]
  exact List.ne_nil_of_length_pos r.length_cells_pos

/-- **A range gives what its cells give one after another**, if each reference gives what is read of
its cells. -/
theorem gather_cellArguments {M : Type} {combine : M → M → M} {nothing : M}
    [Std.LawfulRightIdentity combine nothing] {give : Argument → Except Fault M}
    {read : CellAddress → Except Fault M}
    (h : ∀ t, give (.ok (.reference t)) = gather combine nothing read t.asRange.cells) (r : Range) :
    gather combine nothing give [.ok (.reference (.range r))] =
      gather combine nothing give r.cellArguments := by
  have hcell : ∀ c, give (.ok (.reference (.cell c))) = read c := fun c => by
    rw [h, Reference.asRange, Range.cells_single, gather_singleton]
  rw [gather_singleton, h, Range.cellArguments, gather_map]
  simp only [hcell]
  rfl

namespace Context

/-- Calls of all functions but the one for lengths come to the same if their arguments come to the
same together. -/
theorem apply_eq_of_gathered (ctx : Context) {f : Function} (hf : f ≠ .len) {as bs : List Argument}
    (has : as ≠ []) (hbs : bs ≠ []) (hnumbers : ctx.collect as = ctx.collect bs)
    (htexts : ctx.concatenateTexts as = ctx.concatenateTexts bs) :
    ctx.apply f as = ctx.apply f bs := by
  have accepts : ∀ {l : List Argument}, l ≠ [] → f.arity.accepts l.length = true := fun {l} hl => by
    have hpos : 1 ≤ l.length := List.length_pos_iff.2 hl
    cases f with
    | len => exact absurd rfl hf
    | sum | average | max | min | concatenate => exact decide_eq_true hpos
  unfold apply
  rw [accepts has, accepts hbs, hnumbers, htexts]
  cases f with
  | len => exact absurd rfl hf
  | sum | average | max | min | concatenate => rfl

/-- **A range can be exchanged for its cells** among the arguments of a function. -/
theorem apply_exchange {ctx : Context} (hcells : ctx.ReadsCellByCell) (hskip : ctx.policy = .skip)
    {f : Function} (hf : f ≠ .len) (before after : List Argument) (r : Range) :
    ctx.apply f (before ++ .ok (.reference (.range r)) :: after) =
      ctx.apply f (before ++ r.cellArguments ++ after) := by
  rw [List.append_cons]
  refine ctx.apply_eq_of_gathered hf (by simp) (by simp [r.cellArguments_ne_nil]) ?_ ?_
  · rw [collect_eq_gather, collect_eq_gather]
    exact gather_exchange (gather_cellArguments (argumentNumbers_reference hcells hskip) r)
      before after
  · rw [concatenateTexts_eq_gather, concatenateTexts_eq_gather]
    exact gather_exchange (gather_cellArguments (argumentText_reference hcells) r) before after

/-! ## Ranges given through names -/

/-- An expression points at a reference if it is the reference, or a name whose expression points at
it, with at most a given number of names on the way. -/
inductive PointsAt (ctx : Context) (t : Reference) : Nat → Expr → Prop
  | directly {k : Nat} : PointsAt ctx t k (.reference t)
  | through {k : Nat} {n : String} {body : Expr} : ctx.definition n = .ok body →
      PointsAt ctx t k body → PointsAt ctx t (k + 1) (.name n)

variable {ctx : Context} {t : Reference} {k : Nat} {e : Expr}

theorem PointsAt.operand_eq (h : ctx.PointsAt t k e) : ∀ {d : Nat}, k ≤ d →
    e.operand ctx (ctx.named d) = .ok (.reference t) := by
  induction h with
  | directly => exact fun _ => rfl
  | through hdef _ ih =>
    intro d hk
    obtain ⟨d, rfl⟩ : ∃ i, d = i + 1 := ⟨d - 1, by omega⟩
    rw [Expr.operand, named, hdef]
    exact ih (Nat.le_of_succ_le_succ hk)

/-- What points at a reference reads as it if there is room for the names on the way, as there always
is over a table of names. -/
theorem PointsAt.reads (h : ctx.PointsAt t k e)
    (hroom : k ≤ ctx.nesting ∨ ∃ names, ctx.Over names) : ctx.operand e = .ok (.reference t) := by
  rcases hroom with hk | ⟨names, hover⟩
  · exact h.operand_eq hk
  · have hnamed : ctx.named (max k names.size) = ctx.named ctx.nesting :=
      funext fun n => hover.named_of_size_le n (Nat.le_max_right _ _)
    rw [operand, ← hnamed]
    exact h.operand_eq (Nat.le_max_left _ _)

/-- **An aggregate of a range is the aggregate of its cells.** Ranges are read cell by cell in every
context that looks up all cells of a range, and in that of every store it makes no difference that
only occupied cells are looked up. In any such context that passes over texts, a function that takes
ranges comes to the same number, text or fault if a range among its arguments, which can be given
there through names that have room to nest, is replaced by its cells, row by row and each an argument
of its own: whatever the cells hold and whatever the other arguments are. -/
theorem range_argument_eq_cell_arguments :
    ((∀ lookup policy definition nesting,
        (plain lookup policy definition nesting).ReadsCellByCell) ∧
      ∀ (s : Store) names policy, (s.context names policy).ReadsCellByCell) ∧
    ∀ ctx : Context, ctx.ReadsCellByCell → ctx.policy = .skip →
      ∀ f ∈ [Function.sum, .average, .max, .min, .concatenate],
        ∀ (before after : List Expr) (e : Expr) (r : Range) (k : Nat),
          ctx.PointsAt (.range r) k e → (k ≤ ctx.nesting ∨ ∃ names, ctx.Over names) →
            ctx.evaluate (.call f (before ++ e :: after)) = ctx.evaluate
              (.call f (before ++ (r.cells.map fun c => .reference (.cell c)) ++ after)) := by
  refine ⟨⟨fun _ _ _ _ _ => rfl, fun s _ _ => s.readOccupied_eq_readEveryCell⟩, ?_⟩
  intro ctx hcells hskip f hf before after e r k hpoints hroom
  have hlen : f ≠ .len := by
    rintro rfl
    simp at hf
  have hrange : e.operand ctx (ctx.named ctx.nesting) = .ok (.reference (.range r)) :=
    hpoints.reads hroom
  simp only [evaluate_call, operandsOf_eq_map, List.map_append, List.map_cons, hrange, List.map_map]
  exact apply_exchange hcells hskip hlen _ _ r

/-- A range that a name leads to by way of another, with a number, a text, a truth value and an empty
cell in it; and a range with a fault in it, before another argument with a different one. -/
theorem range_argument_eq_cell_arguments_named :
    let s := (((((Store.empty.addSheet "S").set ⟨0, 0, 0⟩ (.number 2)).set ⟨0, 0, 1⟩
      (.text "x")).set ⟨0, 1, 0⟩ (.boolean true)).set ⟨0, 2, 0⟩
        (.formula ⟨"=1/0", .number 0⟩ (some (.error .divisionByZero)))).set ⟨0, 2, 1⟩
          (.formula ⟨"=B3", .number 0⟩ (some (.error .circularReference)))
    let area := Range.ofCorners 0 1 1 0 0
    let column := Range.ofCorners 0 1 1 2 1
    let names := (NameTable.empty.set "y" ⟨"B2:A1", .reference (.range area)⟩).set "x"
      ⟨"y", .name "y"⟩
    let ctx := s.context names .skip
    let cell (row col : UInt32) : Expr := .reference (.cell ⟨0, row, col⟩)
    (ctx.PointsAt (.range area) 2 (.name "x") ∧
      ctx.evaluate (.call .concatenate [cell 1 1, cell 2 1, cell 2 0]) = .error .refUnavailable) ∧
    ctx.evaluate (.call .average [.number 4, .name "x", cell 5 5]) = ctx.evaluate
      (.call .average [.number 4, cell 0 0, cell 0 1, cell 1 0, cell 1 1, cell 5 5]) ∧
    ctx.evaluate (.call .concatenate [.reference (.range column), cell 2 0]) =
      .error .refUnavailable := by
  intro s area column names ctx cell
  obtain ⟨hx, hy, hfault⟩ : ctx.definition "x" = .ok (.name "y") ∧
      ctx.definition "y" = .ok (.reference (.range area)) ∧
      ctx.evaluate (.call .concatenate [cell 1 1, cell 2 1, cell 2 0]) = .error .refUnavailable := by
    cbv
  have hpoints : ctx.PointsAt (.range area) 2 (.name "x") :=
    .through hx (.through hy .directly)
  have hroom : ∃ names, ctx.Over names := ⟨names, s.context_over names .skip⟩
  obtain ⟨⟨-, hstore⟩, hequal⟩ := range_argument_eq_cell_arguments
  have hequal := hequal ctx (hstore s names .skip) rfl
  refine ⟨⟨hpoints, hfault⟩, ?_, ?_⟩
  · exact hequal .average (by simp) [.number 4] [cell 5 5] _ area 2 hpoints (.inr hroom)
  · exact (hequal .concatenate (by simp) [] [cell 2 0] _ column 0 .directly (.inr hroom)).trans hfault

end Context

end Spreadsheet
