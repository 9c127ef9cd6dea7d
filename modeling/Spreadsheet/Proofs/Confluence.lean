/-
Edits in any order. A successful edit puts one content into one cell or
binds one name, and makes dirty what depends on what it touches
(`Workbook.Effect`). After some edits the contents and names are those of
the last edits, and dirty is what depends, along the ties that there were
before, on something that was touched (`Workbook.After`): whatever an edit
ties anew is touched itself. So edits that touch the same cells and names
and end alike lead to the same workbook (`edits_confluent`).
-/
import Spreadsheet.Proofs.Agreement

namespace Spreadsheet

open Relation

/-! ## What is edited -/

namespace Operation

theorem lastOn_nil (t : EditTarget) : lastOn t [] = none := rfl

theorem lastOn_concat (t : EditTarget) (edits : List Operation) (o : Operation) :
    lastOn t (edits ++ [o]) = if o.target? = some t then some o else lastOn t edits := by
  rw [lastOn, List.reverse_append, List.reverse_singleton, List.singleton_append, List.find?_cons]
  by_cases h : o.target? = some t
  · rw [if_pos h, beq_iff_eq.2 h]
  · rw [if_neg h, beq_eq_false_iff_ne.2 h, lastOn]

theorem lastOn_cons (t : EditTarget) (o : Operation) (edits : List Operation) :
    lastOn t (o :: edits) = (lastOn t edits).or (if o.target? = some t then some o else none) := by
  rw [lastOn, List.reverse_cons, List.find?_append, ← lastOn, List.find?_singleton]
  simp only [beq_iff_eq]

/-- Whether some operations change a target. -/
def Touches (operations : List Operation) (t : EditTarget) : Prop :=
  ∃ o ∈ operations, o.target? = some t

theorem touches_concat {edits : List Operation} {o : Operation} {t : EditTarget} :
    Touches (edits ++ [o]) t ↔ Touches edits t ∨ o.target? = some t := by
  simp only [Touches, List.mem_append, List.mem_singleton]
  constructor
  · rintro ⟨p, hp | rfl, ht⟩
    · exact .inl ⟨p, hp, ht⟩
    · exact .inr ht
  · rintro (⟨p, hp, ht⟩ | ht)
    · exact ⟨p, .inl hp, ht⟩
    · exact ⟨o, .inr rfl, ht⟩

theorem lastOn_eq_none_iff {edits : List Operation} {t : EditTarget} :
    lastOn t edits = none ↔ ¬ Touches edits t := by
  simp [lastOn, List.find?_eq_none, Touches]

/-- What an operation binds the name to that it changes. -/
def definition (w : Workbook) : Operation → Option Formula
  | defineName _ source => (w.readFormula 0 source).toOption
  | appendSheet _ | setCell _ _ | eraseCell _ | setPolicy _ | calculate => none

theorem content_congr {w u : Workbook} (h : u.store.sheets = w.store.sheets) (o : Operation) :
    o.content u = o.content w := by
  unfold content
  rw [Workbook.readFormula_congr h]

theorem definition_congr {w u : Workbook} (h : u.store.sheets = w.store.sheets) (o : Operation) :
    o.definition u = o.definition w := by
  unfold definition
  rw [Workbook.readFormula_congr h]

/-- Whether an edit succeeds depends on the sheets alone. -/
theorem perform_snd_congr {w u : Workbook} (h : u.store.sheets = w.store.sheets) {o : Operation}
    (ho : o.isEdit = true) : (o.perform u).2 = (o.perform w).2 := by
  have hread := Workbook.readFormula_congr h
  have hcheck : u.checkSheet = w.checkSheet := by
    funext sheet
    rw [Workbook.checkSheet, Store.hasSheet, h, Workbook.checkSheet, Store.hasSheet]
  cases o with
  | appendSheet _ | setPolicy _ | calculate => cases ho
  | setCell cell input =>
    simp only [perform, Workbook.setCell, hcheck]
    split
    · rfl
    · cases input with
      | number _ | text _ | boolean _ => rfl
      | formula source =>
        simp only [Workbook.setFormula, hread]
        split <;> rfl
  | eraseCell cell =>
    simp only [perform, Workbook.eraseCell, hcheck]
    split <;> rfl
  | defineName name source =>
    simp only [perform, Workbook.defineName, hcheck, hread]
    split
    · split
      · rfl
      · split <;> rfl
    · rfl

end Operation

/-! ## Names that change -/

/-- Two tables that differ in some names only lead to one of these names from the same uses: the way
to the first of them is the same in both. -/
theorem NameTable.meets_closure_iff {s t : NameTable} {N : String → Prop}
    (h : ∀ n, ¬ N n → s.definitions[n]? = t.definitions[n]?) (used : List String) :
    (∃ n ∈ s.closure used, N n) ↔ ∃ n ∈ t.closure used, N n := by
  constructor
  · rintro ⟨n, hn, hN⟩
    by_contra hno
    have hagree : t.AgreeOn s used := fun m hm => (h m fun hm' => hno ⟨m, hm, hm'⟩).symm
    exact hno ⟨n, hagree.mem_closure_iff.2 hn, hN⟩
  · rintro ⟨n, hn, hN⟩
    by_contra hno
    have hagree : s.AgreeOn t used := fun m hm => h m fun hm' => hno ⟨m, hm, hm'⟩
    exact hno ⟨n, hagree.mem_closure_iff.2 hn, hN⟩

/-- The content of a cell without its result. -/
def Store.cleared? (s : Store) (c : CellAddress) : Option CellContent :=
  (s.get? c).map (CellContent.withResult none)

namespace Workbook

theorem cleared?_markDirty (w : Workbook) (x c : CellAddress) :
    (w.markDirty x).store.cleared? c = w.store.cleared? c := by
  rw [Store.cleared?, get?_markDirty, Store.cleared?]
  split
  · rw [Option.map_map]
    congr 1
    funext content
    exact CellContent.withResult_withResult content none none
  · rfl

theorem DirtyOK.get?_eq_cleared? {w : Workbook} (h : w.DirtyOK) {c : CellAddress}
    (hc : c ∈ w.dirty) : w.store.get? c = w.store.cleared? c := by
  rw [Store.cleared?]
  cases hget : w.store.get? c with
  | none => rfl
  | some content =>
    cases content with
    | number _ | text _ | boolean _ => rfl
    | formula f r =>
      have hr := (h.stale c f (Store.formula?_eq_some.2 ⟨r, hget⟩)).1 hc
      rw [Store.result?_of_get? hget] at hr
      rw [hr]
      rfl

/-! ## Touched cells -/

/-- Whether a cell is among some targets, or holds a formula that reaches a name among them. -/
def Touched (w : Workbook) (T : EditTarget → Prop) (c : CellAddress) : Prop :=
  T (.cell c) ∨ ∃ f, w.store.formula? c = some f ∧ ∃ n ∈ w.names.closure f.names, T (.name n)

/-- The cells that are dirty when some targets have been edited: those that were dirty, those that
are touched, and all that is tied to one of them. -/
inductive Affected (w : Workbook) (T : EditTarget → Prop) : CellAddress → Prop
  | dirty {c} : c ∈ w.dirty → Affected w T c
  | touched {c} : w.Touched T c → Affected w T c
  | tied {c d} : w.Tied c d → Affected w T d → Affected w T c

theorem Touched.mono {w : Workbook} {S T : EditTarget → Prop} (hST : ∀ t, S t → T t)
    {c : CellAddress} (h : w.Touched S c) : w.Touched T c := by
  rcases h with h | ⟨f, hf, n, hn, h⟩
  · exact .inl (hST _ h)
  · exact .inr ⟨f, hf, n, hn, hST _ h⟩

theorem Affected.mono {w : Workbook} {S T : EditTarget → Prop} (hST : ∀ t, S t → T t)
    {c : CellAddress} (h : w.Affected S c) : w.Affected T c := by
  induction h with
  | dirty h => exact .dirty h
  | touched h => exact .touched (h.mono hST)
  | tied h _ ih => exact .tied h ih

/-- What marks a cell dirty stays within a set of cells that holds what was dirty, the cell itself
and all that is tied to a member; replacing that cell ties no other cell anew. -/
structure Bounds (P : CellAddress → Prop) (w : Workbook) : Prop where
  dirty : ∀ c ∈ w.dirty, P c
  tied : ∀ c d, w.Tied c d → P d → P c

theorem Bounds.edited {P : CellAddress → Prop} {w u : Workbook} {x : CellAddress}
    {content : Option CellContent} {d : Dependencies} {usesNames : Bool} (h : Bounds P w)
    (he : w.Edited u x content d usesNames) (hx : P x) : Bounds P (u.markDirty x) := by
  have htied : ∀ c d, u.Tied c d → P d → P c := fun c d hcd hd => by
    by_cases hc : c = x
    · exact hc ▸ hx
    · exact h.tied c d ((he.tied_other hc).1 hcd) hd
  refine ⟨fun c hc => ?_, htied⟩
  rcases mem_dirty_markDirty.1 hc with hnew | hold
  · obtain ⟨-, hp⟩ := Links.mem_newlyDirty.1 hnew
    clear hc hnew
    induction hp with
    | refl => exact hx
    | tail _ hs ih => exact htied _ _ (above_iff_tied.1 hs.1) ih
  · exact h.dirty c (he.dirty ▸ hold)

theorem Bounds.rewire {P : CellAddress → Prop} {w : Workbook} {x : CellAddress} (h : Bounds P w)
    (hx : w.store.formula? x ≠ none → P x) : Bounds P (w.rewire x) := by
  cases hf : w.store.formula? x with
  | none => simpa only [Workbook.rewire, hf] using h
  | some f =>
    obtain ⟨u, hu, he⟩ := rewire_edited hf
    exact hu ▸ h.edited he (hx (by simp [hf]))

theorem Bounds.rewireAll {P : CellAddress → Prop} : ∀ (cells : List CellAddress) {w : Workbook},
    Bounds P w → (∀ x ∈ cells, w.store.formula? x ≠ none → P x) →
      Bounds P (cells.foldl Workbook.rewire w)
  | [], _, h, _ => h
  | x :: cells, w, h, hcells => by
    refine rewireAll cells (h.rewire (hcells x (by simp))) fun y hy hf => ?_
    rw [(rewire_rewired w x).formula?] at hf
    exact hcells y (by simp [hy]) hf

/-! ## One edit -/

/-- What a successful edit does. -/
structure Effect (u v : Workbook) (o : Operation) : Prop where
  sheets : v.store.sheets = u.store.sheets
  policy : v.policy = u.policy
  definitions : ∀ n, v.names.definitions[n]? =
    if o.target? = some (.name n) then o.definition u else u.names.definitions[n]?
  cleared : ∀ c, v.store.cleared? c =
    if o.target? = some (.cell c) then o.content u else u.store.cleared? c
  clean : ∀ c, c ∉ v.dirty → c ∉ u.dirty ∧ v.store.get? c = u.store.get? c
  marks : ∀ c, v.Touched (fun t => o.target? = some t) c → c ∈ v.dirty
  bounds : ∀ P, Bounds P u → (∀ c, v.Touched (fun t => o.target? = some t) c → P c) → Bounds P v

theorem Edited.effect {u v : Workbook} {x : CellAddress} {content : Option CellContent}
    {d : Dependencies} {usesNames : Bool} (he : u.Edited v x content d usesNames) {o : Operation}
    (ht : o.target? = some (.cell x)) (ho : o.content u = content)
    (hclear : content.map (CellContent.withResult none) = content) :
    u.Effect (v.markDirty x) o where
  sheets := (sheets_markDirty v x).trans he.sheets
  policy := he.policy
  definitions n := by
    rw [ht, if_neg (by simp), names_markDirty, he.names]
  cleared c := by
    rw [cleared?_markDirty, Store.cleared?]
    by_cases hc : c = x
    · subst hc
      rw [if_pos ht, he.get?_self, hclear, ho]
    · have hne : o.target? ≠ some (.cell c) := by
        rw [ht]
        simpa using fun h => hc h.symm
      rw [if_neg hne, he.get?_other c hc, Store.cleared?]
  clean c hc := by
    obtain ⟨hclean, hget⟩ := markDirty_clean hc
    have hcx : c ≠ x := by
      rintro rfl
      exact hc (self_mem_dirty_markDirty v c)
    exact ⟨he.dirty ▸ hclean, hget.trans (he.get?_other c hcx)⟩
  marks c hc := by
    rcases hc with hc | ⟨f, -, n, -, hn⟩
    · obtain rfl : x = c := by simpa [ht] using hc
      exact self_mem_dirty_markDirty v x
    · simp [ht] at hn
  bounds P h hP := h.edited he (hP x (.inl ht))

theorem cell_effect {u : Workbook} {o : Operation} {x : CellAddress}
    (ht : o.target? = some (.cell x)) (h : (o.perform u).2 = .ok ()) :
    u.Effect (o.perform u).1 o := by
  obtain ⟨v, d, usesNames, hv, hp, he⟩ := perform_cell ht h
  exact hv ▸ he.effect ht rfl hp.withResult_none

theorem cleared?_rewire (w : Workbook) (x c : CellAddress) :
    (w.rewire x).store.cleared? c = w.store.cleared? c := by
  cases hf : w.store.formula? x with
  | none => rw [rewire, hf]
  | some f =>
    obtain ⟨u, hu, he⟩ := rewire_edited hf
    rw [hu, cleared?_markDirty, Store.cleared?, Store.cleared?]
    by_cases hc : c = x
    · rw [hc, he.get?_self]
    · rw [he.get?_other c hc]

/-- A cell is wired anew if its formula reaches the name that has been bound. -/
theorem mem_reaching_iff {w : Workbook} (h : w.WiredOK) {name : String} {f g : Formula}
    {c : CellAddress} (hg : w.store.formula? c = some g) :
    c ∈ (w.bound name f).reaching name ↔ name ∈ (w.names.set name f).closure g.names := by
  have hgb : (w.bound name f).store.formula? c = some g := hg
  have hreach : (w.bound name f).reachesName name c = true ↔
      name ∈ (w.names.set name f).closure g.names := by
    rw [reachesName, hgb]
    exact Std.ExtTreeSet.mem_iff_contains.symm
  rw [reaching, List.mem_filter, hreach, Std.ExtTreeSet.mem_toList]
  refine and_iff_right_of_imp fun hn => (h.nameUsers c).2 ⟨g, hg, fun hnil => ?_⟩
  rw [hnil, NameTable.mem_closure] at hn
  simp at hn

theorem bindName_effect {u : Workbook} (hu : u.WiredOK) {name source : String} {f : Formula}
    (hf : u.readFormula 0 source = .ok f) : u.Effect (u.bindName name f) (.defineName name source) := by
  have hr := u.bindName_rewired name f
  have hnames : (u.bindName name f).names = u.names.set name f := hr.names
  have htouched : ∀ c, (u.bindName name f).Touched
      (fun t => (Operation.defineName name source).target? = some t) c ↔
        c ∈ (u.bound name f).reaching name ∧ u.store.formula? c ≠ none := fun c => by
    have hformula : (u.bindName name f).store.formula? c = u.store.formula? c := hr.formula? c
    rw [Touched, hformula, hnames]
    cases hg : u.store.formula? c with
    | none => simp [Operation.target?]
    | some g => simp [Operation.target?, mem_reaching_iff hu hg]
  refine ⟨hr.sheets, hr.policy, fun n => ?_, fun c => ?_, fun c hc => ?_, fun c hc => ?_,
    fun P hP hall => ?_⟩
  · rw [hnames, NameTable.set, Std.ExtTreeMap.getElem?_insert]
    by_cases hn : name = n
    · subst hn
      simp [Operation.target?, Operation.definition, hf, Except.toOption]
    · simp [Operation.target?, hn]
  · rw [if_neg (by simp [Operation.target?])]
    exact foldl_keeps (P := fun v => v.store.cleared? c = u.store.cleared? c)
      (fun v x hv => (cleared?_rewire v x c).trans hv) _ rfl
  · obtain ⟨hclean, hget, -⟩ := hr.clean c hc
    exact ⟨hclean, hget⟩
  · obtain ⟨hmem, hformula⟩ := (htouched c).1 hc
    by_contra hclean
    exact hformula ((hr.clean c hclean).2.2 hmem)
  · refine Bounds.rewireAll _ ⟨hP.dirty, hP.tied⟩ fun x hx hformula => ?_
    exact hall x ((htouched x).2 ⟨hx, hformula⟩)

/-- **What a successful edit does.** -/
theorem perform_effect {u : Workbook} (hu : u.WiredOK) {o : Operation} (ho : o.isEdit = true)
    (h : (o.perform u).2 = .ok ()) : u.Effect (o.perform u).1 o := by
  cases o with
  | appendSheet _ | setPolicy _ | calculate => cases ho
  | setCell _ _ | eraseCell _ => exact cell_effect rfl h
  | defineName name source =>
    obtain ⟨f, -, -, hf, hperform⟩ := defineName_ok h
    exact hperform ▸ bindName_effect hu hf

/-! ## Edits one after another -/

/-- A workbook in which the last of some edits have replaced the contents and definitions of
another. -/
structure Overwritten (w u : Workbook) (edits : List Operation) : Prop where
  sheets : u.store.sheets = w.store.sheets
  policy : u.policy = w.policy
  definitions : ∀ n, u.names.definitions[n]? = match Operation.lastOn (.name n) edits with
    | some o => o.definition w
    | none => w.names.definitions[n]?
  cleared : ∀ c, u.store.cleared? c = match Operation.lastOn (.cell c) edits with
    | some o => o.content w
    | none => w.store.cleared? c

theorem Overwritten.refl (w : Workbook) : w.Overwritten w [] :=
  ⟨rfl, rfl, fun _ => rfl, fun _ => rfl⟩

theorem Overwritten.concat {w u v : Workbook} {edits : List Operation} {o : Operation}
    (h : w.Overwritten u edits) (he : u.Effect v o) : w.Overwritten v (edits ++ [o]) := by
  refine ⟨he.sheets.trans h.sheets, he.policy.trans h.policy, fun n => ?_, fun c => ?_⟩
  · rw [he.definitions, Operation.lastOn_concat, Operation.definition_congr h.sheets]
    by_cases ht : o.target? = some (.name n)
    · rw [if_pos ht, if_pos ht]
    · rw [if_neg ht, if_neg ht, h.definitions]
  · rw [he.cleared, Operation.lastOn_concat, Operation.content_congr h.sheets]
    by_cases ht : o.target? = some (.cell c)
    · rw [if_pos ht, if_pos ht]
    · rw [if_neg ht, if_neg ht, h.cleared]

section Overwritten

variable {w u : Workbook} {edits : List Operation}

theorem Overwritten.definition_eq (h : w.Overwritten u edits) {n : String}
    (hn : ¬ Operation.Touches edits (.name n)) :
    u.names.definitions[n]? = w.names.definitions[n]? := by
  rw [h.definitions, Operation.lastOn_eq_none_iff.2 hn]

theorem Overwritten.formula?_eq (h : w.Overwritten u edits) {c : CellAddress}
    (hc : ¬ Operation.Touches edits (.cell c)) : u.store.formula? c = w.store.formula? c := by
  have hcleared := h.cleared c
  rw [Operation.lastOn_eq_none_iff.2 hc] at hcleared
  exact formula?_of_withResult hcleared

theorem Overwritten.touched_iff (h : w.Overwritten u edits) (c : CellAddress) :
    u.Touched (Operation.Touches edits) c ↔ w.Touched (Operation.Touches edits) c := by
  by_cases hc : Operation.Touches edits (.cell c)
  · exact iff_of_true (.inl hc) (.inl hc)
  · rw [Touched, Touched, or_iff_right hc, or_iff_right hc, h.formula?_eq hc]
    refine exists_congr fun f => and_congr_right fun _ => ?_
    exact NameTable.meets_closure_iff (N := fun n => Operation.Touches edits (.name n))
      (fun n hn => h.definition_eq hn) f.names

theorem Overwritten.tied_iff (h : w.Overwritten u edits) (hw : w.WiredOK) (hu : u.WiredOK)
    {c d : CellAddress} (hc : ¬ w.Touched (Operation.Touches edits) c) :
    u.Tied c d ↔ w.Tied c d := by
  have hcell : ¬ Operation.Touches edits (.cell c) := fun ht => hc (.inl ht)
  rw [hu.tied_iff, hw.tied_iff, DependsOn, h.formula?_eq hcell, DependsOn]
  refine exists_congr fun f => and_congr_right fun hf => ?_
  have hagree : w.names.AgreeOn u.names f.names := fun n hn =>
    (h.definition_eq fun ht => hc (.inr ⟨f, hf, n, hn, ht⟩)).symm
  exact hagree.reads_iff.symm

end Overwritten

/-- A workbook after some successful edits of another. -/
structure After (w u : Workbook) (edits : List Operation) : Prop
    extends w.Overwritten u edits where
  clean : ∀ c, c ∉ u.dirty → u.store.get? c = w.store.get? c
  dirty : ∀ c, c ∈ u.dirty ↔ w.Affected (Operation.Touches edits) c

theorem After.refl {w : Workbook} (h : w.DirtyOK) : w.After w [] where
  toOverwritten := .refl w
  clean _ _ := rfl
  dirty c := by
    refine ⟨.dirty, fun hc => ?_⟩
    induction hc with
    | dirty h => exact h
    | touched ht => simp [Touched, Operation.Touches] at ht
    | tied hcd _ ih => exact h.closed _ ih _ hcd

section Concat

variable {w u v : Workbook} {edits : List Operation} {o : Operation}

/-- All that has been touched is dirty: by the last edit, or else it was touched before. -/
theorem After.dirty_of_touched (h : w.After u edits) (he : u.Effect v o) {c : CellAddress}
    (hc : v.Touched (Operation.Touches (edits ++ [o])) c) : c ∈ v.dirty := by
  by_contra hclean
  have hno : ¬ v.Touched (fun t => o.target? = some t) c := fun ht => hclean (he.marks c ht)
  obtain ⟨hu, hget⟩ := he.clean c hclean
  refine hu ((h.dirty c).2 (.touched ((h.touched_iff c).1 ?_)))
  rcases hc with hc | ⟨f, hf, n, hn, ht⟩
  · exact .inl ((Operation.touches_concat.1 hc).resolve_right fun ht => hno (.inl ht))
  · -- the last edit changes no name that the formula reaches, so it is reached as before
    have hagree : v.names.AgreeOn u.names f.names := fun m hm => by
      rw [he.definitions, if_neg fun ht => hno (.inr ⟨f, hf, m, hm, ht⟩)]
    refine .inr ⟨f, (Store.formula?_congr hget).symm.trans hf, n, hagree.mem_closure_iff.1 hn, ?_⟩
    exact (Operation.touches_concat.1 ht).resolve_right fun ht => hno (.inr ⟨f, hf, n, hn, ht⟩)

theorem After.concat (hw : w.WiredOK) (hu : u.WiredOK) (hv : v.WiredOK) (hd : v.DirtyOK)
    (h : w.After u edits) (he : u.Effect v o) : w.After v (edits ++ [o]) := by
  have hover := h.toOverwritten.concat he
  have hmore : ∀ t, Operation.Touches edits t → Operation.Touches (edits ++ [o]) t := fun _ ht =>
    Operation.touches_concat.2 (.inl ht)
  refine ⟨hover, fun c hc => ?_, fun c => ⟨fun hc => ?_, fun hc => ?_⟩⟩
  · obtain ⟨hclean, hget⟩ := he.clean c hc
    exact hget.trans (h.clean c hclean)
  · refine (he.bounds _ ⟨fun c hc => ((h.dirty c).1 hc).mono hmore, fun c d hcd hd => ?_⟩
      fun c hc => ?_).dirty c hc
    · by_cases ht : w.Touched (Operation.Touches edits) c
      · exact .touched (ht.mono hmore)
      · exact .tied ((h.tied_iff hw hu ht).1 hcd) hd
    · exact .touched ((hover.touched_iff c).1 (hc.mono fun t ht =>
        Operation.touches_concat.2 (.inr ht)))
  · induction hc with
    | @dirty c hc =>
      by_contra hclean
      exact (he.clean c hclean).1 ((h.dirty c).2 (.dirty hc))
    | @touched c ht => exact h.dirty_of_touched he ((hover.touched_iff c).2 ht)
    | @tied c d hcd _ ih =>
      by_cases ht : w.Touched (Operation.Touches (edits ++ [o])) c
      · exact h.dirty_of_touched he ((hover.touched_iff c).2 ht)
      · exact hd.closed d ih c ((hover.tied_iff hw hv ht).2 hcd)

end Concat

theorem succeeds_concat {o : Operation} : ∀ {edits : List Operation} {w : Workbook},
    w.Succeeds (edits ++ [o]) ↔ w.Succeeds edits ∧ (o.perform (w.run edits)).2 = .ok ()
  | [], w => by simp [Succeeds, run_nil]
  | p :: edits, w => by
    rw [List.cons_append, Succeeds, succeeds_concat, Succeeds, and_assoc, run_cons]

theorem Reachable.run {w : Workbook} (h : w.Reachable) (operations : List Operation) :
    (w.run operations).Reachable := by
  obtain ⟨policy, before, rfl⟩ := h
  exact ⟨policy, before ++ operations, (run_append _ _ _).symm⟩

/-- **After any successful edits**, by induction on the edits from the last one back. -/
theorem Reachable.after {w : Workbook} (hw : w.Reachable) (edits : List Operation)
    (hedits : ∀ o ∈ edits, o.isEdit = true) (hok : w.Succeeds edits) :
    w.After (w.run edits) edits := by
  induction edits using List.reverseRecOn with
  | nil => exact .refl hw.dirtyOK
  | append_singleton edits o ih =>
    obtain ⟨hbefore, hlast⟩ := succeeds_concat.1 hok
    have hu : (w.run edits).Reachable := hw.run edits
    have hrun : w.run (edits ++ [o]) = (o.perform (w.run edits)).1 := by
      rw [run_append, run_cons, run_nil]
    have hv : (o.perform (w.run edits)).1.Reachable := hu.perform o
    have ih := ih (fun p hp => hedits p (List.mem_append_left _ hp)) hbefore
    rw [hrun]
    exact ih.concat hw.wiredOK hu.wiredOK hv.wiredOK hv.dirtyOK
      (perform_effect hu.wiredOK (hedits o (by simp)) hlast)

/-! ## The same edits in the end -/

/-- Workbooks are told apart by sheets, contents, definitions, what is dirty and the policy, if they
are wired to them. -/
theorem WiredOK.ext {u v : Workbook} (hu : u.WiredOK) (hv : v.WiredOK)
    (hsheets : u.store.sheets = v.store.sheets) (hget : ∀ c, u.store.get? c = v.store.get? c)
    (hnames : ∀ n : String, u.names.definitions[n]? = v.names.definitions[n]?)
    (hdirty : ∀ c, c ∈ u.dirty ↔ c ∈ v.dirty) (hpolicy : u.policy = v.policy) : u = v := by
  have hstore : u.store = v.store := Store.ext_get? hsheets hget
  have hnames : u.names = v.names :=
    NameTable.ext_definitions (Std.ExtTreeMap.ext_getElem? hnames)
  have hat : ∀ c, u.dependenciesAt c = v.dependenciesAt c := fun c =>
    dependenciesAt_congr (by rw [hstore]) hnames
  have hgraph : u.graph = v.graph := Links.ext_dependencies fun c => by
    rw [hu.dependencies, hv.dependencies, hat]
  have hwatch : u.watch = v.watch := RangeWatch.ext_ranges fun c => by
    rw [hu.ranges, hv.ranges, hat]
  have husers : u.nameUsers = v.nameUsers := Std.ExtTreeSet.ext_mem fun c => by
    rw [hu.nameUsers, hv.nameUsers, hstore]
  have hdirty : u.dirty = v.dirty := Std.ExtTreeSet.ext_mem hdirty
  cases u
  cases v
  simp_all

theorem After.eq {w u v : Workbook} {first second : List Operation} (hu : u.Reachable)
    (hv : v.Reachable) (hfirst : w.After u first) (hsecond : w.After v second)
    (hlast : ∀ t, Operation.lastOn t first = Operation.lastOn t second) : u = v := by
  have htouches : Operation.Touches first = Operation.Touches second := by
    funext t
    have hnone : ¬ Operation.Touches first t ↔ ¬ Operation.Touches second t := by
      rw [← Operation.lastOn_eq_none_iff, ← Operation.lastOn_eq_none_iff, hlast]
    exact propext (not_iff_not.1 hnone)
  have hdirty : ∀ c, c ∈ u.dirty ↔ c ∈ v.dirty := fun c => by
    rw [hfirst.dirty, hsecond.dirty, htouches]
  refine hu.wiredOK.ext hv.wiredOK (hfirst.sheets.trans hsecond.sheets.symm) (fun c => ?_)
    (fun n => ?_) hdirty (hfirst.policy.trans hsecond.policy.symm)
  · by_cases hc : c ∈ u.dirty
    · rw [hu.dirtyOK.get?_eq_cleared? hc, hv.dirtyOK.get?_eq_cleared? ((hdirty c).1 hc),
        hfirst.cleared, hsecond.cleared, hlast]
    · rw [hfirst.clean c hc, hsecond.clean c fun hcv => hc ((hdirty c).2 hcv)]
  · rw [hfirst.definitions, hsecond.definitions, hlast]

/-- Edits succeed one after another if each of them succeeds, for edits leave the sheets alone. -/
theorem Reachable.succeeds_iff {w : Workbook} (hw : w.Reachable) {edits : List Operation}
    (hedits : ∀ o ∈ edits, o.isEdit = true) :
    w.Succeeds edits ↔ ∀ o ∈ edits, (o.perform w).2 = .ok () := by
  induction edits generalizing w with
  | nil => simp [Succeeds]
  | cons o edits ih =>
    have hrest : ∀ p ∈ edits, p.isEdit = true := fun p hp => hedits p (by simp [hp])
    rw [Succeeds, List.forall_mem_cons]
    refine and_congr_right fun hok => ?_
    have hsheets := (perform_effect hw.wiredOK (hedits o (by simp)) hok).sheets
    rw [ih (hw.perform o) hrest]
    exact forall₂_congr fun p hp => by rw [Operation.perform_snd_congr hsheets (hrest p hp)]

theorem Reachable.run_eq {w : Workbook} (hw : w.Reachable) {first second : List Operation}
    (hfirst : ∀ o ∈ first, o.isEdit = true) (hsecond : ∀ o ∈ second, o.isEdit = true)
    (hfirstOk : w.Succeeds first) (hsecondOk : w.Succeeds second)
    (hlast : ∀ t, Operation.lastOn t first = Operation.lastOn t second) :
    w.run first = w.run second :=
  After.eq (hw.run first) (hw.run second) (hw.after first hfirst hfirstOk)
    (hw.after second hsecond hsecondOk) hlast

/-- **Edits are confluent.** From any workbook that can come about, take two lists of successful
edits that touch the same cells and names and have the same last edit for each of them. Both lead to
the same workbook: the same contents and names, the same edges and watched rectangles of every cell,
the same users of names, the same dirty cells and the same results. So edits of different cells or
names can be made in either order, a name before or after its use among them, and an edit counts for
nothing if the same cell or name is edited again. -/
theorem edits_confluent (policy : TextPolicy) (operations : List Operation) :
    let w := (Workbook.empty policy).run operations
    (∀ first second : List Operation, (∀ o ∈ first, o.isEdit = true) →
      (∀ o ∈ second, o.isEdit = true) → w.Succeeds first → w.Succeeds second →
      (∀ t, Operation.lastOn t first = Operation.lastOn t second) → w.run first = w.run second) ∧
    (∀ a b : Operation, a.isEdit = true → b.isEdit = true → a.target? ≠ b.target? →
      w.Succeeds [a] → w.Succeeds [b] →
      w.Succeeds [a, b] ∧ w.Succeeds [b, a] ∧ w.run [a, b] = w.run [b, a]) ∧
    ∀ (a : Operation) (rest : List Operation), (∀ o ∈ a :: rest, o.isEdit = true) →
      w.Succeeds (a :: rest) → (∃ b ∈ rest, b.target? = a.target?) →
      w.Succeeds rest ∧ w.run (a :: rest) = w.run rest := by
  intro w
  have hw : w.Reachable := ⟨policy, operations, rfl⟩
  refine ⟨fun first second => hw.run_eq, fun a b ha hb hne haok hbok => ?_,
    fun a rest hedits hok hlater => ?_⟩
  · have hab : ∀ o ∈ [a, b], o.isEdit = true := by simp [ha, hb]
    have hba : ∀ o ∈ [b, a], o.isEdit = true := by simp [ha, hb]
    have habok : w.Succeeds [a, b] := (hw.succeeds_iff hab).2 (by simp [haok.1, hbok.1])
    have hbaok : w.Succeeds [b, a] := (hw.succeeds_iff hba).2 (by simp [haok.1, hbok.1])
    refine ⟨habok, hbaok, hw.run_eq hab hba habok hbaok fun t => ?_⟩
    simp only [Operation.lastOn_cons, Operation.lastOn_nil, Option.none_or]
    by_cases hat : a.target? = some t
    · rw [if_pos hat, if_neg fun hbt => hne (hat.trans hbt.symm)]
      rfl
    · rw [if_neg hat, Option.or_none, Option.none_or]
  · have hrest : ∀ o ∈ rest, o.isEdit = true := fun o ho => hedits o (by simp [ho])
    have hrestok : w.Succeeds rest := (hw.succeeds_iff hrest).2 fun o ho =>
      (hw.succeeds_iff hedits).1 hok o (by simp [ho])
    refine ⟨hrestok, hw.run_eq hedits hrest hok hrestok fun t => ?_⟩
    rw [Operation.lastOn_cons]
    by_cases hat : a.target? = some t
    · obtain ⟨b, hb, hbt⟩ := hlater
      have hlast : Operation.lastOn t rest ≠ none := fun hnone =>
        Operation.lastOn_eq_none_iff.1 hnone ⟨b, hb, hbt.trans hat⟩
      obtain ⟨o, ho⟩ := Option.ne_none_iff_exists'.1 hlast
      rw [ho]
      rfl
    · rw [if_neg hat, Option.or_none]

/-- A name bound before its use and after it, and a formula written over: the edits of the two
orders, once with one edit more, lead to the same workbook. -/
theorem edits_confluent_name :
    let w := (Workbook.empty .skip).run [.appendSheet "S", .setCell ⟨0, 0, 1⟩ (.formula "=A1"),
      .calculate]
    let use : Operation := .setCell ⟨0, 0, 0⟩ (.formula "=rate+B2")
    let bind : Operation := .defineName "rate" "S!C1"
    let overwritten : Operation := .setCell ⟨0, 0, 0⟩ (.formula "=B1")
    (w.Succeeds [use] ∧ w.Succeeds [bind] ∧ w.Succeeds [overwritten, bind, use] ∧
        w.Succeeds [use, bind]) ∧
      w.run [use, bind] = w.run [bind, use] ∧
      w.run [overwritten, bind, use] = w.run [bind, use] ∧
      w.run [overwritten, bind, use] = w.run [use, bind] := by
  intro w use bind overwritten
  have hw : w.Reachable := ⟨.skip, _, rfl⟩
  have huse : (use.perform w).2 = .ok () := by cbv
  have hbind : (bind.perform w).2 = .ok () := by cbv
  have hover : (overwritten.perform w).2 = .ok () := by cbv
  have hone : w.Succeeds [use] := ⟨huse, trivial⟩
  have hname : w.Succeeds [bind] := ⟨hbind, trivial⟩
  have hall : w.Succeeds [overwritten, bind, use] :=
    (hw.succeeds_iff (by simp [use, bind, overwritten, Operation.isEdit])).2
      (by simp [huse, hbind, hover])
  have hpair : w.Succeeds [use, bind] :=
    (hw.succeeds_iff (by simp [use, bind, Operation.isEdit])).2 (by simp [huse, hbind])
  obtain ⟨hconfluent, hcommute, hlater⟩ := edits_confluent .skip
    [.appendSheet "S", .setCell ⟨0, 0, 1⟩ (.formula "=A1"), .calculate]
  refine ⟨⟨hone, hname, hall, hpair⟩, ?_, ?_, ?_⟩
  · exact (hcommute use bind rfl rfl (by simp [use, bind, Operation.target?]) hone hname).2.2
  · refine (hlater overwritten [bind, use] ?_ hall ⟨use, by simp, rfl⟩).2
    simp [use, bind, overwritten, Operation.isEdit]
  · refine hconfluent [overwritten, bind, use] [use, bind] ?_ ?_ hall hpair fun t => ?_
    · simp [use, bind, overwritten, Operation.isEdit]
    · simp [use, bind, Operation.isEdit]
    · simp only [Operation.lastOn_cons, Operation.lastOn_nil, Option.none_or, use, bind,
        overwritten, Operation.target?]
      grind

end Workbook

end Spreadsheet
