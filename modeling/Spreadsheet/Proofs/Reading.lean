/-
What formulas read of a store. The occupied cells of a range are the
occupied cells inside it (`occupiedIn_eq`): addresses are in ascending
order, so the cells before the first corner and after the last stand at
the ends. They are what is left of the cells of the range, row by row, when
the empty ones are passed over (`occupiedIn_eq_filter`), so reading a range
is looking up each of its cells (`readOccupied_eq`): it depends on their
values alone and fails where one of them has a fault.
-/
import Mathlib
import Spreadsheet.Store

namespace Spreadsheet

/-! ## Lists in ascending order -/

section Sorted

variable {α : Type} {p : α → Bool}

theorem dropWhile_eq_filter {l : List α} (h : l.Pairwise fun a b => p b = true → p a = true) :
    l.dropWhile p = l.filter fun a => !p a := by
  induction l with
  | nil => rfl
  | cons a l ih =>
    have hl := List.pairwise_cons.1 h
    cases ha : p a with
    | true => simp [ha, ih hl.2]
    | false =>
      have hrest : ∀ b ∈ l, (!p b) = true := fun b hb => by
        rw [Bool.not_eq_true', ← Bool.not_eq_true]
        exact fun hpb => by simp [hl.1 b hb hpb] at ha
      simp [ha, List.filter_eq_self.2 hrest]

theorem takeWhile_eq_filter {l : List α} (h : l.Pairwise fun a b => p b = true → p a = true) :
    l.takeWhile p = l.filter p := by
  induction l with
  | nil => rfl
  | cons a l ih =>
    have hl := List.pairwise_cons.1 h
    cases ha : p a with
    | true => simp [ha, ih hl.2]
    | false =>
      have hrest : ∀ b ∈ l, ¬ p b = true := fun b hb hpb => by simp [hl.1 b hb hpb] at ha
      simp [ha, List.filter_eq_nil_iff.2 hrest]

/-- The part of a list in ascending order that lies between two elements, both of them included. -/
theorem window_eq_filter [Ord α] [Std.TransOrd α] {l : List α}
    (h : l.Pairwise fun a b => compare a b = .lt) (first last : α) :
    (l.dropWhile fun a => compare a first == .lt).takeWhile (fun a => compare a last != .gt) =
      l.filter fun a => compare a first != .lt && compare a last != .gt := by
  rw [dropWhile_eq_filter, takeWhile_eq_filter, List.filter_filter]
  · exact List.filter_congr fun a _ => Bool.and_comm _ _
  · refine (h.filter _).imp fun {a b} hab hb => ?_
    rw [bne_iff_ne] at hb ⊢
    exact fun ha => hb (Std.TransCmp.gt_trans (Std.OrientedCmp.gt_of_lt hab) ha)
  · refine h.imp fun {a b} hab hb => ?_
    rw [beq_iff_eq] at hb ⊢
    exact Std.TransCmp.lt_trans hab hb

/-- Lists in ascending order are told apart by what they hold. -/
theorem eq_of_ordered [Ord α] [Std.TransOrd α] {l l' : List α}
    (h : l.Pairwise fun a b => compare a b = .lt) (h' : l'.Pairwise fun a b => compare a b = .lt)
    (hmem : ∀ a, a ∈ l ↔ a ∈ l') : l = l' := by
  have nodup : ∀ {l : List α}, (l.Pairwise fun a b => compare a b = .lt) → l.Nodup := fun h =>
    h.imp fun hab he => by simp [he] at hab
  refine List.Perm.eq_of_pairwise (fun a b _ _ hab hba => ?_) h h' ?_
  · exact absurd hba (by simp [Std.OrientedCmp.gt_of_lt hab])
  · exact (List.perm_ext_iff_of_nodup (nodup h) (nodup h')).2 hmem

end Sorted

/-! ## Reading one after another -/

section Readings

variable {α β ε : Type} {f g : α → Except ε β}

theorem bind_eq_ok {x : Except ε α} {b : β} :
    x >>= f = .ok b ↔ ∃ a, x = .ok a ∧ f a = .ok b := by
  cases x with
  | error e => simp [bind, Except.bind]
  | ok a => simp [bind, Except.bind]

theorem map_eq_ok {x : Except ε α} {k : α → β} {b : β} :
    x.map k = .ok b ↔ ∃ a, x = .ok a ∧ k a = b := by
  cases x with
  | error e => simp [Except.map]
  | ok a => simp [Except.map]

theorem map_map {γ : Type} (x : Except ε α) (k : α → β) (k' : β → γ) :
    (x.map k).map k' = x.map fun a => k' (k a) := by
  cases x <;> rfl

theorem map_bind {γ δ : Type} {x : Except ε α} {k : α → γ} {k' : β → δ} {next : γ → Except ε δ}
    (h : ∀ a, next (k a) = (f a).map k') : x.map k >>= next = (x >>= f).map k' := by
  cases x with
  | error e => rfl
  | ok a => exact h a

theorem mapM_ok {l : List α} {vs : List β} (h : l.mapM f = .ok vs) :
    ∀ a ∈ l, ∃ v, f a = .ok v := by
  induction l generalizing vs with
  | nil => simp
  | cons b l ih =>
    rw [List.mapM_cons] at h
    cases hb : f b with
    | error e => rw [hb] at h; cases h
    | ok v =>
      cases hl : l.mapM f with
      | error e => rw [hb, hl] at h; cases h
      | ok rest =>
        intro a ha
        rcases List.mem_cons.1 ha with rfl | ha
        · exact ⟨v, hb⟩
        · exact ih hl a ha

theorem length_of_mapM {l : List α} {vs : List β} (h : l.mapM f = .ok vs) :
    vs.length = l.length := by
  induction l generalizing vs with
  | nil => cases h; rfl
  | cons b l ih =>
    rw [List.mapM_cons] at h
    obtain ⟨v, -, h⟩ := bind_eq_ok.1 h
    obtain ⟨rest, hl, h⟩ := bind_eq_ok.1 h
    cases h
    rw [List.length_cons, List.length_cons, ih hl]

theorem mapM_error {l : List α} {e : ε} (h : l.mapM f = .error e) : ∃ a ∈ l, f a = .error e := by
  induction l with
  | nil => cases h
  | cons b l ih =>
    rw [List.mapM_cons] at h
    cases hb : f b with
    | error e' =>
      rw [hb] at h
      cases h
      exact ⟨b, List.mem_cons_self, hb⟩
    | ok v =>
      cases hl : l.mapM f with
      | error e' =>
        rw [hb, hl] at h
        cases h
        obtain ⟨a, ha, he⟩ := ih hl
        exact ⟨a, List.mem_cons_of_mem _ ha, he⟩
      | ok rest => rw [hb, hl] at h; cases h

theorem mapM_congr {l : List α} (h : ∀ a ∈ l, f a = g a) : l.mapM f = l.mapM g := by
  induction l with
  | nil => rfl
  | cons b l ih =>
    rw [List.mapM_cons, List.mapM_cons, h b List.mem_cons_self,
      ih fun a ha => h a (List.mem_cons_of_mem _ ha)]

/-- Where what is read is sifted afterwards, what would be sifted out need not be read. -/
theorem mapM_filter {l : List α} {p : α → Bool} {q : β → Bool}
    (h : ∀ a ∈ l, p a = false → ∃ b, f a = .ok b ∧ q b = false) :
    ((l.filter p).mapM f).map (List.filter q) = (l.mapM f).map (List.filter q) := by
  induction l with
  | nil => rfl
  | cons a l ih =>
    have ih := ih fun b hb => h b (List.mem_cons_of_mem _ hb)
    -- what comes of the rest after a first answer
    have first : ∀ {b : β} {l' : List α}, f a = .ok b → ((a :: l').mapM f).map (List.filter q) =
        ((l'.mapM f).map (List.filter q)).map fun bs => if q b = true then b :: bs else bs := by
      intro b l' hb
      rw [List.mapM_cons, hb]
      cases l'.mapM f with
      | error e => rfl
      | ok bs => cases hq : q b <;> simp [bind, Except.bind, pure, Except.pure, Except.map, hq]
    cases hp : p a with
    | true =>
      rw [List.filter_cons_of_pos hp]
      cases hb : f a with
      | error e => rw [List.mapM_cons, List.mapM_cons, hb]; rfl
      | ok b => rw [first hb, first hb, ih]
    | false =>
      obtain ⟨b, hb, hq⟩ := h a List.mem_cons_self hp
      rw [List.filter_cons_of_neg (by simp [hp]), ih, first hb]
      cases l.mapM f <;> simp [Except.map, hq]

end Readings

/-! ## Occupied cells -/

theorem CellAddress.compare_eq_lt {a b : CellAddress} : compare a b = .lt ↔
    a.sheet < b.sheet ∨ a.sheet = b.sheet ∧ (a.row < b.row ∨ a.row = b.row ∧ a.col < b.col) := by
  simp only [compare_def, Ordering.then_eq_lt, Std.compare_eq_lt, Std.LawfulEqCmp.compare_eq_iff_eq]

theorem Range.contains_iff_between {r : Range} {c : CellAddress} : r.contains c = true ↔
    compare c ⟨r.sheet, r.firstRow, r.firstCol⟩ ≠ .lt ∧
      compare c ⟨r.sheet, r.lastRow, r.lastCol⟩ ≠ .gt ∧ r.firstCol ≤ c.col ∧ c.col ≤ r.lastCol := by
  rw [contains_iff, ne_eq, ne_eq, Std.OrientedCmp.gt_iff_lt, CellAddress.compare_eq_lt,
    CellAddress.compare_eq_lt]
  simp only [UInt32.lt_iff_toNat_lt, UInt32.le_iff_toNat_le, ← UInt32.toNat_inj]
  omega

theorem Range.contains_single {c d : CellAddress} : (single d).contains c = true ↔ c = d := by
  cases c
  cases d
  simp only [contains_iff, single, CellAddress.mk.injEq, UInt32.le_iff_toNat_le, ← UInt32.toNat_inj]
  omega

theorem wordsBetween_ordered (first last : UInt32) :
    (wordsBetween first last).Pairwise (· < ·) := by
  rw [wordsBetween, List.pairwise_map]
  refine (List.pairwise_lt_range' 1).imp_of_mem fun {a b} _ hb hab => ?_
  have hlt : b < UInt32.size := by
    have := last.toNat_lt
    rw [List.mem_range'_1] at hb
    simp only [UInt32.size]
    omega
  rwa [UInt32.lt_iff_toNat_lt, UInt32.toNat_ofNat_of_lt' (by omega), UInt32.toNat_ofNat_of_lt' hlt]

theorem Range.cells_ordered (r : Range) : r.cells.Pairwise fun a b => compare a b = .lt := by
  rw [cells, List.pairwise_flatMap]
  refine ⟨fun row _ => ?_, (wordsBetween_ordered _ _).imp fun {row row'} hlt a ha b hb => ?_⟩
  · rw [List.pairwise_map]
    refine (wordsBetween_ordered _ _).imp fun {col col'} hlt => ?_
    exact CellAddress.compare_eq_lt.2 (.inr ⟨rfl, .inr ⟨rfl, hlt⟩⟩)
  · obtain ⟨_, -, rfl⟩ := List.mem_map.1 ha
    obtain ⟨_, -, rfl⟩ := List.mem_map.1 hb
    exact CellAddress.compare_eq_lt.2 (.inr ⟨rfl, .inl hlt⟩)

theorem Range.cells_single (c : CellAddress) : (single c).cells = [c] := by
  refine eq_of_ordered (single c).cells_ordered (List.pairwise_singleton _ c) fun d => ?_
  rw [mem_cells, contains_single, List.mem_singleton]

namespace Store

/-- **The occupied cells of a range** are the occupied cells inside it, in ascending order. -/
theorem occupiedIn_eq (s : Store) (r : Range) : s.occupiedIn r = s.cells.keys.filter r.contains := by
  simp only [occupiedIn]
  rw [window_eq_filter Std.ExtTreeMap.ordered_keys, List.filter_filter]
  refine List.filter_congr fun c _ => ?_
  rw [Bool.eq_iff_iff, Range.contains_iff_between]
  simp only [Bool.and_eq_true, decide_eq_true_eq, bne_iff_ne]
  exact ⟨fun h => ⟨h.2.1, h.2.2, h.1⟩, fun h => ⟨h.2.2, h.1, h.2.1⟩⟩

theorem mem_occupiedIn {s : Store} {r : Range} {c : CellAddress} :
    c ∈ s.occupiedIn r ↔ r.contains c = true ∧ s.get? c ≠ none := by
  rw [occupiedIn_eq, List.mem_filter, Std.ExtTreeMap.mem_keys,
    Std.ExtTreeMap.mem_iff_isSome_getElem?, get?, and_comm]
  exact and_congr_right fun _ => Option.isSome_iff_ne_none

theorem occupiedIn_eq_filter (s : Store) (r : Range) :
    s.occupiedIn r = r.cells.filter fun c => (s.get? c).isSome := by
  refine eq_of_ordered ?_ (r.cells_ordered.filter _) fun c => ?_
  · rw [occupiedIn_eq]
    exact Std.ExtTreeMap.ordered_keys.filter _
  · rw [mem_occupiedIn, List.mem_filter, Range.mem_cells, Option.isSome_iff_ne_none]

/-! ## Values -/

theorem value_congr {s t : Store} {c : CellAddress} (h : s.get? c = t.get? c) :
    s.value c = t.value c := by
  rw [value, h, value]

theorem value_of_error {s : Store} {c : CellAddress} {fault : Fault}
    (h : s.result? c = some (.error fault)) : ∃ fault', s.value c = .error fault' := by
  unfold result? at h
  split at h
  · rename_i hget
    rw [value, hget, h]
    cases fault <;> exact ⟨_, rfl⟩
  · cases h

theorem value_ne_circularReference (s : Store) (c : CellAddress) :
    s.value c ≠ .error .circularReference := by
  unfold value
  split
  · rename_i content _
    cases content with
    | formula f result =>
      rcases result with - | (- | - | fault)
      · simp [CellContent.value, CellContent.resultValue]
      · simp [CellContent.value, CellContent.resultValue]
      · simp [CellContent.value, CellContent.resultValue]
      · cases fault <;> simp [CellContent.value, CellContent.resultValue]
    | number _ | text _ | boolean _ => simp [CellContent.value]
  · simp

/-- **Reading a range is looking up each of its cells.** The empty ones, which reading passes over,
would give nothing. -/
theorem readOccupied_eq (s : Store) (r : Range) : s.readOccupied r =
    (r.cells.mapM s.value).map fun read =>
      let values := read.filter fun v => !v.isEmpty
      ⟨values, r.cellCount - UInt64.ofNat values.length⟩ := by
  have sift := mapM_filter (l := r.cells) (f := s.value) (p := fun c => (s.get? c).isSome)
    (q := fun v => !v.isEmpty) fun c _ hc => by
      rw [Option.isSome_eq_false_iff, Option.isNone_iff_eq_none] at hc
      exact ⟨.empty, by rw [value, hc], rfl⟩
  have counted := congrArg (Except.map fun values =>
    RangeReading.mk values (r.cellCount - UInt64.ofNat values.length)) sift
  rw [map_map, map_map] at counted
  rw [readOccupied, occupiedIn_eq_filter]
  exact counted

/-- **What is read of a range depends on the values of its cells alone.** -/
theorem readOccupied_congr {s t : Store} {r : Range}
    (h : ∀ c, r.contains c = true → s.value c = t.value c) :
    s.readOccupied r = t.readOccupied r := by
  rw [readOccupied_eq, mapM_congr fun c hc => h c (Range.mem_cells.1 hc), readOccupied_eq]

theorem value_of_readOccupied {s : Store} {r : Range} {reading : RangeReading}
    (h : s.readOccupied r = .ok reading) {c : CellAddress} (hc : r.contains c = true) :
    ∃ v, s.value c = .ok v := by
  rw [readOccupied_eq] at h
  obtain ⟨vs, hread, -⟩ := map_eq_ok.1 h
  exact mapM_ok hread c (Range.mem_cells.2 hc)

theorem readOccupied_ne_circularReference (s : Store) (r : Range) :
    s.readOccupied r ≠ .error .circularReference := by
  intro h
  rw [readOccupied_eq] at h
  cases hread : r.cells.mapM s.value with
  | error fault =>
    rw [hread] at h
    cases h
    obtain ⟨c, -, hc⟩ := mapM_error hread
    exact s.value_ne_circularReference c hc
  | ok vs => rw [hread] at h; cases h

end Store

end Spreadsheet
