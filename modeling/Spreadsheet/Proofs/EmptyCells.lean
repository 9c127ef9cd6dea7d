/-
How many empty cells an aggregate counts. Over any store the count that the
arguments of an aggregate come to is the number of empty cells in them, as a
word of 64 bits (`Store.zeros_of_collect`). So the count is exact as long as
that number is below 2 ^ 64, and an average fails if there are no numbers and
the number of empty cells is a multiple of 2 ^ 64 (`Store.zeros_exact_iff`).
Where arithmetic is checked, the count stops the program as soon as the
number is not below 2 ^ 64 (`Store.collectOverflows_iff`).
-/
import Spreadsheet.Proofs.Magnitude
import Spreadsheet.Proofs.Sparse
import Spreadsheet.Workbook.Checked

namespace Spreadsheet

/-- What is read one after another has a property as often as what it is read from. -/
theorem countP_of_mapM {α β ε : Type} {f : α → Except ε β} {p : α → Bool} {q : β → Bool}
    (hpq : ∀ a b, f a = .ok b → q b = p a) : ∀ {l : List α} {bs : List β},
    l.mapM f = .ok bs → bs.countP q = l.countP p
  | [], _, h => by
    cases h
    rfl
  | a :: l, _, h => by
    rw [List.mapM_cons] at h
    obtain ⟨b, hb, h⟩ := bind_eq_ok.1 h
    obtain ⟨rest, hrest, h⟩ := bind_eq_ok.1 h
    cases h
    rw [List.countP_cons, List.countP_cons, countP_of_mapM hpq hrest, hpq a b hb]

theorem Numbers.zeros_of_ofValues {policy : TextPolicy} {values : List Value} {n : Numbers}
    (h : Numbers.ofValues policy values = .ok n) :
    n.zeros = UInt64.ofNat (values.countP Value.isEmpty) := by
  unfold Numbers.ofValues at h
  split at h
  · cases h
  · cases h
    rfl

namespace Store

/-! ## Empty cells -/

/-- The number of empty cells of a rectangle. -/
def emptyCells (s : Store) (r : Range) : Nat :=
  r.cells.countP fun c => (s.get? c).isNone

theorem emptyCells_le (s : Store) (r : Range) : s.emptyCells r ≤ r.cells.length :=
  List.countP_le_length

/-- The number of empty cells of an argument: of the rectangle it covers, if it is a reference. -/
def emptyCellsOf (s : Store) : Argument → Nat
  | .ok (.reference target) => s.emptyCells target.asRange
  | .ok (.value _) | .error _ => 0

/-- The number of empty cells of all arguments together. -/
def emptyCellsOfAll (s : Store) (arguments : List Argument) : Nat :=
  (arguments.map s.emptyCellsOf).sum

variable {s : Store}

theorem isEmpty_of_value {c : CellAddress} {v : Value} (h : s.value c = .ok v) :
    v.isEmpty = (s.get? c).isNone := by
  unfold value at h
  split at h
  · rename_i content hget
    rw [hget, Option.isNone_some]
    cases content with
    | formula f result =>
      rcases result with _ | (_ | _ | fault)
      · cases h
      · cases h
        rfl
      · cases h
        rfl
      · cases fault <;> cases h
    | number _ | text _ | boolean _ =>
      cases h
      rfl
  · rename_i hget
    cases h
    rw [hget]
    rfl

/-! ## Counts -/

/-- The count of a reading is the number of empty cells, and none of its values is empty. -/
theorem empty_of_readOccupied {r : Range} {reading : RangeReading}
    (h : s.readOccupied r = .ok reading) :
    reading.empty = UInt64.ofNat (s.emptyCells r) ∧ reading.values.countP Value.isEmpty = 0 := by
  rw [readOccupied_eq_readEveryCell] at h
  obtain ⟨vs, hread, rfl⟩ := map_eq_ok.1 h
  refine ⟨congrArg UInt64.ofNat (countP_of_mapM (fun _ _ => isEmpty_of_value) hread), ?_⟩
  simp [RangeReading.ofValues, List.countP_filter]

variable {names : NameTable} {policy : TextPolicy}

theorem zeros_of_argumentNumbers {a : Argument} {n : Numbers}
    (h : (s.context names policy).argumentNumbers a = .ok n) :
    n.zeros = UInt64.ofNat (s.emptyCellsOf a) := by
  obtain ⟨o, rfl, ho⟩ := bind_eq_ok.1 h
  cases o with
  | value v =>
    obtain ⟨x, -, hx⟩ := bind_eq_ok.1 ho
    cases hx
    rfl
  | reference target =>
    obtain ⟨reading, hreading, hnumbers⟩ := bind_eq_ok.1 ho
    obtain ⟨hempty, hvalues⟩ := empty_of_readOccupied hreading
    obtain ⟨found, hfound, rfl⟩ := map_eq_ok.1 hnumbers
    have hzeros := Numbers.zeros_of_ofValues hfound
    rw [hvalues] at hzeros
    simp [hzeros, hempty, emptyCellsOf]

/-- **An aggregate counts the empty cells of its arguments**, as a word. -/
theorem zeros_of_collect : ∀ {arguments : List Argument} {n : Numbers},
    (s.context names policy).collect arguments = .ok n →
      n.zeros = UInt64.ofNat (s.emptyCellsOfAll arguments)
  | [], _, h => by
    cases h
    rfl
  | a :: rest, _, h => by
    obtain ⟨numbers, ha, h⟩ := bind_eq_ok.1 h
    obtain ⟨others, hrest, h⟩ := bind_eq_ok.1 h
    cases h
    have hsum : s.emptyCellsOfAll (a :: rest) = s.emptyCellsOf a + s.emptyCellsOfAll rest :=
      List.sum_cons
    rw [hsum, UInt64.ofNat_add, ← zeros_of_argumentNumbers ha, ← zeros_of_collect hrest]
    rfl

/-! ## Overflow -/

theorem readingOverflows_iff (zeros : UInt64) {a : Argument} {n : Numbers}
    (ha : (s.context names policy).argumentNumbers a = .ok n)
    (hword : ∀ target, a = .ok (.reference target) → target.asRange.cells.length < 2 ^ 64) :
    (s.context names policy).readingOverflows zeros a = true ↔
      2 ^ 64 ≤ zeros.toNat + s.emptyCellsOf a := by
  obtain ⟨o, rfl, ho⟩ := bind_eq_ok.1 ha
  cases o with
  | value v => exact iff_of_false Bool.false_ne_true (Nat.not_le_of_lt zeros.toNat_lt)
  | reference target =>
    obtain ⟨reading, hreading, -⟩ := bind_eq_ok.1 ho
    have hlength := hword target rfl
    have hsmall : target.asRange.countOverflows = false :=
      Bool.eq_false_iff.2 fun h => Nat.not_le_of_lt hlength (Range.countOverflows_iff.1 h)
    have hempty : reading.empty.toNat = s.emptyCells target.asRange := by
      rw [(empty_of_readOccupied hreading).1, UInt64.toNat_ofNat', Nat.mod_eq_of_lt]
      exact Nat.lt_of_le_of_lt (s.emptyCells_le _) hlength
    have hread : (s.context names policy).readRange target.asRange = .ok reading := hreading
    simp only [Context.readingOverflows, hread, hsmall, Bool.false_or, decide_eq_true_eq, hempty]
    rfl

/-- **Counting the empty cells of arguments overflows exactly if there are too many of them**, some
having been counted before and each rectangle being counted right. -/
theorem collectOverflows_iff : ∀ {arguments : List Argument} (zeros : UInt64) {n : Numbers},
    (s.context names policy).collect arguments = .ok n →
    (∀ target, .ok (.reference target) ∈ arguments → target.asRange.cells.length < 2 ^ 64) →
      ((s.context names policy).collectOverflows zeros (arguments.map some) = true ↔
        2 ^ 64 ≤ zeros.toNat + s.emptyCellsOfAll arguments)
  | [], zeros, _, _, _ => iff_of_false Bool.false_ne_true (Nat.not_le_of_lt zeros.toNat_lt)
  | a :: rest, zeros, _, h, hword => by
    obtain ⟨numbers, ha, h⟩ := bind_eq_ok.1 h
    obtain ⟨others, hrest, -⟩ := bind_eq_ok.1 h
    have hsum : s.emptyCellsOfAll (a :: rest) = s.emptyCellsOf a + s.emptyCellsOfAll rest :=
      List.sum_cons
    have hfirst := readingOverflows_iff zeros ha fun target he => hword target (by simp [he])
    have hothers := collectOverflows_iff (zeros + numbers.zeros) hrest fun target ht =>
      hword target (List.mem_cons_of_mem a ht)
    rw [List.map_cons, Context.collectOverflows, Bool.or_eq_true, hfirst, ha, hothers, hsum]
    by_cases hover : 2 ^ 64 ≤ zeros.toNat + s.emptyCellsOf a
    · exact iff_of_true (.inl hover) (by omega)
    · -- what has been counted so far is exact
      have hexact : (zeros + numbers.zeros).toNat = zeros.toNat + s.emptyCellsOf a := by
        rw [zeros_of_argumentNumbers ha, UInt64.toNat_add, UInt64.toNat_ofNat',
          Nat.add_mod_mod, Nat.mod_eq_of_lt (by omega)]
      rw [or_iff_right hover, hexact, Nat.add_assoc]

end Store

/-! ## Averages -/

/-- **An average fails only for want of numbers and of counted cells**, and divides by both. -/
theorem averageOf_eq (n : Numbers) : averageOf n =
    if n.values = [] ∧ n.zeros = 0 then .error .divisionByZero
    else .ok (sumOf n.values / (n.values.length.toFloat + n.zeros.toFloat)) := by
  have hcount := counts_eq_zero_iff n.values.length n.zeros
  rw [List.length_eq_zero_iff] at hcount
  simp only [averageOf, hcount]

namespace Context

theorem evaluate_average {ctx : Context} {arguments : List Expr} (hne : arguments ≠ [])
    {n : Numbers} (h : ctx.collect (operandsOf ctx (ctx.named ctx.nesting) arguments) = .ok n) :
    ctx.evaluate (.call .average arguments) = (averageOf n).map .number := by
  obtain ⟨e, rest, rfl⟩ := List.exists_cons_of_ne_nil hne
  rw [evaluate_call, apply, if_neg (by simp [operandsOf, Function.arity, Arity.accepts]), h]
  rfl

end Context

namespace Store

/-- **How far the count of empty cells can be trusted.** Take the arguments of an aggregate, however
many and however large, over any store, with any names and any policy, and the number of empty cells
in the rectangles that they refer to. If numbers are found at all, the count that comes with them is
exact exactly as long as that number is below 2 ^ 64. The average then is the sum divided by the
numbers and the empty cells together, and a division by zero only if there are neither; beyond, it is
also a division by zero where the empty cells are a multiple of 2 ^ 64. Where arithmetic is checked,
the count overflows exactly then, if no rectangle has too many cells by itself. -/
theorem zeros_exact_iff (s : Store) (names : NameTable) (policy : TextPolicy)
    (arguments : List Expr) (n : Numbers) :
    let ctx := s.context names policy
    let operands := operandsOf ctx (ctx.named ctx.nesting) arguments
    let empties := s.emptyCellsOfAll operands
    let average := ctx.evaluate (.call .average arguments)
    arguments ≠ [] → ctx.collect operands = .ok n →
      (n.zeros.toNat = empties ↔ empties < 2 ^ 64) ∧
      (average = .error .divisionByZero ↔ n.values = [] ∧ 2 ^ 64 ∣ empties) ∧
      (empties < 2 ^ 64 → n.values.length + empties ≠ 0 → average = .ok (.number
        (sumOf n.values / (n.values.length.toFloat + (UInt64.ofNat empties).toFloat)))) ∧
      ((∀ target, .ok (.reference target) ∈ operands → target.asRange.cells.length < 2 ^ 64) →
        (ctx.collectOverflows 0 (operands.map some) = true ↔ 2 ^ 64 ≤ empties)) := by
  intro ctx operands empties average hne h
  have hzeros : n.zeros = UInt64.ofNat empties := zeros_of_collect h
  have haverage : average = (averageOf n).map .number := Context.evaluate_average hne h
  have htoNat : n.zeros.toNat = empties % 2 ^ 64 := by rw [hzeros, UInt64.toNat_ofNat']
  have hzero : n.zeros = 0 ↔ 2 ^ 64 ∣ empties := by
    rw [← UInt64.toNat_inj, htoNat]
    exact Nat.dvd_iff_mod_eq_zero.symm
  refine ⟨?_, ?_, fun hlt hsome => ?_, fun hword => ?_⟩
  · rw [htoNat]
    exact Nat.mod_eq_iff_lt (by decide)
  · simp only [haverage, averageOf_eq, hzero]
    split
    · exact iff_of_true rfl ‹_›
    · exact iff_of_false nofun ‹_›
  · rw [haverage, averageOf_eq, if_neg, ← hzeros]
    · rfl
    · rintro ⟨hvalues, hnone⟩
      have := Nat.eq_zero_of_dvd_of_lt (hzero.1 hnone) hlt
      simp [hvalues, this] at hsome
  · rw [collectOverflows_iff 0 h hword]
    simp [empties]

theorem emptyCellsOfAll_pair (s : Store) (r q : Range) :
    s.emptyCellsOfAll [.ok (.reference (.range r)), .ok (.reference (.range q))] =
      s.emptyCells r + s.emptyCells q := by
  simp [emptyCellsOfAll, emptyCellsOf, Reference.asRange]

/-- Two rectangles of many rows, one cell of which holds a text: the count is computed from the
number of cells, and it is the number of empty ones. -/
theorem zeros_exact_iff_text :
    let s := (Store.empty.addSheet "S").set ⟨0, 5, 1⟩ (.text "a")
    let r := Range.ofCorners 0 0 0 999999 4294967295
    let operands : List Argument := [.ok (.reference (.range r)), .ok (.reference (.range r))]
    (s.context .empty .skip).collect operands = .ok ⟨[], 8589934591999998⟩ ∧
      s.emptyCellsOfAll operands = 8589934591999998 := by
  intro s r operands
  have hcollect : (s.context .empty .skip).collect operands = .ok ⟨[], 8589934591999998⟩ := by
    simp only [s, r, operands]
    cbv
  have hlt : s.emptyCellsOfAll operands < 2 ^ 64 := by
    have hle := s.emptyCells_le r
    have hlength : r.cells.length = 1000000 * 4294967296 := by
      rw [Range.length_cells]
      decide
    simp only [operands, emptyCellsOfAll_pair]
    omega
  refine ⟨hcollect, ?_⟩
  exact ((zeros_exact_iff s .empty .skip [.reference (.range r), .reference (.range r)] _
    (List.cons_ne_nil _ _) hcollect).1.2 hlt).symm

/-- **The count of empty cells overflows.** Two rectangles of half a sheet each, the sheet being
empty: each is counted exactly and there are 2 ^ 64 empty cells in all. Where counts wrap round, the
count is zero and the average is a division by zero; where arithmetic is checked, the calculation
stops. -/
theorem zeros_wrap_round :
    let s := Store.empty.addSheet "S"
    let ctx := s.context .empty .skip
    let r := Range.ofCorners 0 0 0 2147483647 4294967295
    let operands : List Argument := [.ok (.reference (.range r)), .ok (.reference (.range r))]
    let f : Formula := ⟨"=AVERAGE(A1:MWLQKWV2147483648,A1:MWLQKWV2147483648)",
      .call .average [.reference (.range r), .reference (.range r)]⟩
    Formula.parse f.source 0 (fun _ => none) = .ok f ∧ r.cellCount.toNat = r.cells.length ∧
      s.emptyCellsOfAll operands = 2 ^ 64 ∧ ctx.collect operands = .ok ⟨[], 0⟩ ∧
      ctx.evaluate f.tree = .error .divisionByZero ∧ ctx.overflows f.tree = true ∧
      (Workbook.empty .skip).runChecked [.appendSheet "S",
        .setCell ⟨0, 4294967295, 0⟩ (.formula f.source), .calculate] = none := by
  intro s ctx r operands f
  have hlength : r.cells.length = 2 ^ 63 := by
    rw [Range.length_cells]
    decide
  have hempty : s.emptyCells r = 2 ^ 63 := by
    rw [← hlength]
    exact List.countP_eq_length.2 fun c _ => by simp [s, get?, addSheet, empty]
  have hcollect : ctx.collect operands = .ok ⟨[], 0⟩ := by
    simp only [ctx, s, r, operands]
    cbv
  refine ⟨by cbv, hlength ▸ by decide, ?_, hcollect, ?_, by cbv, ?_⟩
  · rw [emptyCellsOfAll_pair, hempty, ← Nat.two_mul, ← Nat.pow_succ']
  · rw [Context.evaluate_average (List.cons_ne_nil _ _) hcollect, averageOf_eq]
    rfl
  · cbv

end Store

end Spreadsheet
