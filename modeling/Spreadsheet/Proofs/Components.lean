/-
The steps of a search for strongly connected components. The nodes that are being expanded are the
path of the search, which lies on the component stack. Every node on the stack is led to by the path
and leads back to it, and an edge that has been looked at leads no further down the stack than the
lowlinks tell (`Search.OK`). So when a node is left whose lowlink is its own index, the stack down to
it is a component (`OK.component`). Each step keeps this: visiting a node (`OK.visit`), lowering a
lowlink (`OK.lower`), and leaving a node whose component is complete (`OK.complete`) or is not
(`OK.leave`).
-/
import Spreadsheet.Proofs.Filing
import Spreadsheet.Proofs.Marks

namespace Spreadsheet

open Relation

variable {α : Type} [Ord α] [Std.TransOrd α]

namespace Search

/-- Of the nodes on a path, whichever is taken at or below a node on the stack, one between them is
known to lead at least as far down as to another node. -/
def Bounded (s : Search α) (path : List α) (a b : α) : Prop :=
  ∀ c ∈ path, s.index c ≤ s.index a →
    ∃ d ∈ path, s.index c ≤ s.index d ∧ s.index d ≤ s.index a ∧ s.lowlink d ≤ s.index b

namespace Bounded

variable {s t : Search α} {path : List α} {a b c : α}

/-- Lowlinks may fall. -/
theorem mono (h : s.Bounded path a b) (hindex : ∀ d ∈ path, t.index d = s.index d)
    (ha : t.index a = s.index a) (hb : t.index b = s.index b)
    (hlow : ∀ d ∈ path, t.lowlink d ≤ s.lowlink d) : t.Bounded path a b := fun c hc hca => by
  rw [hindex c hc, ha] at hca
  obtain ⟨d, hd, hcd, hda, hdb⟩ := h c hc hca
  rw [hindex c hc, ha, hb]
  exact ⟨d, hd, by rwa [hindex d hd], by rwa [hindex d hd], (hlow d hd).trans hdb⟩

theorem cons (h : s.Bounded path a b) (hc : s.index a < s.index c) :
    s.Bounded (c :: path) a b := fun d hd hda => by
  rcases List.mem_cons.1 hd with rfl | hd
  · exact absurd hda (Nat.not_le_of_lt hc)
  · obtain ⟨e, he, hbetween⟩ := h d hd hda
    exact ⟨e, List.mem_cons_of_mem c he, hbetween⟩

theorem tail (h : s.Bounded (c :: path) a b) (hc : s.index a < s.index c) :
    s.Bounded path a b := fun d hd hda => by
  obtain ⟨e, he, hde, hea, heb⟩ := h d (List.mem_cons_of_mem c hd) hda
  have hec : e ≠ c := by
    rintro rfl
    exact absurd hea (Nat.not_le_of_lt hc)
  exact ⟨e, (List.mem_cons.1 he).resolve_left hec, hde, hea, heb⟩

/-- The uppermost node can be left out if the next one leads as far down. -/
theorem handed_over (h : s.Bounded (c :: path) a b)
    (hdescending : (c :: path).Pairwise fun a b => s.index b < s.index a)
    (hhead : ∀ d ∈ path.head?, s.lowlink d ≤ s.lowlink c) : s.Bounded path a b := fun d hd hda => by
  obtain ⟨e, he, hde, hea, hlow⟩ := h d (List.mem_cons_of_mem c hd) hda
  rcases List.mem_cons.1 he with rfl | he
  · obtain ⟨p, path, rfl⟩ := List.exists_cons_of_ne_nil (List.ne_nil_of_mem hd)
    obtain ⟨hbelow, hpath⟩ := List.pairwise_cons.1 hdescending
    have hpe : s.index p < s.index e := hbelow p List.mem_cons_self
    have hdp : s.index d ≤ s.index p := by
      rcases List.mem_cons.1 hd with rfl | hd
      · exact Nat.le_refl _
      · exact Nat.le_of_lt ((List.pairwise_cons.1 hpath).1 d hd)
    exact ⟨p, List.mem_cons_self, hdp, by omega, (hhead p rfl).trans hlow⟩
  · exact ⟨e, he, hde, hea, hlow⟩

end Bounded

/-- What the search keeps up, where some edges of the nodes on its path are still to be looked
at. -/
structure OK (next : α → List α) (targets : Std.ExtTreeSet α) (s : Search α) (path : List α)
    (pending : α → α → Prop) : Prop where
  mem_targets : ∀ a ∈ s.marks, a ∈ targets
  index_lt : ∀ a ∈ s.marks, s.index a < s.counter
  isOnStack_iff : ∀ a, s.isOnStack a = true ↔ a ∈ s.stack
  marked : ∀ a ∈ s.stack, a ∈ s.marks
  descending : s.stack.Pairwise fun a b => s.index b < s.index a
  path_mem : ∀ a ∈ path, a ∈ s.stack
  path_descending : path.Pairwise fun a b => s.index b < s.index a
  /-- A node on the path leads to all that is above it on the stack. -/
  leads : ∀ c ∈ path, ∀ a ∈ s.stack, s.index c ≤ s.index a → ReflTransGen (Edge next) c a
  /-- A node on the stack leads to a node on the path below it, if it is not on the path itself. -/
  returns : ∀ a ∈ s.stack, ∃ c ∈ path, s.index c ≤ s.index a ∧ ReflTransGen (Edge next) a c
  /-- A lowlink is the index of a node that the node leads to. -/
  low : ∀ c ∈ path, ∃ a ∈ s.stack, s.index a = s.lowlink c ∧ s.index a ≤ s.index c ∧
    ReflTransGen (Edge next) c a
  pending_mem : ∀ a b, pending a b → a ∈ path
  /-- An edge has been looked at or is still to be looked at. -/
  looked : ∀ a ∈ s.stack, ∀ b ∈ next a,
    pending a b ∨ b ∈ s.marks ∧ (b ∈ s.stack → s.Bounded path a b)
  filed : Filed next s.filing fun a => a ∈ s.marks ∧ a ∉ s.stack

namespace OK

variable {next : α → List α} {targets : Std.ExtTreeSet α} {s : Search α} {path : List α}
  {pending pending' : α → α → Prop} {a b c : α}

theorem start : OK next targets .start [] fun _ _ => False where
  mem_targets _ h := absurd h Std.ExtTreeMap.not_mem_empty
  index_lt _ h := absurd h Std.ExtTreeMap.not_mem_empty
  isOnStack_iff a := by simp [isOnStack, Search.start]
  marked _ h := absurd h List.not_mem_nil
  descending := .nil
  path_mem _ h := absurd h List.not_mem_nil
  path_descending := .nil
  leads _ h := absurd h List.not_mem_nil
  returns _ h := absurd h List.not_mem_nil
  low _ h := absurd h List.not_mem_nil
  pending_mem _ _ h := h.elim
  looked _ h := absurd h List.not_mem_nil
  filed := by simpa [Search.start] using Filed.start

/-- The uppermost node on the path was visited last of those on it. -/
theorem index_le_head (h : OK next targets s (c :: path) pending) (ha : a ∈ c :: path) :
    s.index a ≤ s.index c := by
  rcases List.mem_cons.1 ha with rfl | ha
  · exact Nat.le_refl _
  · exact Nat.le_of_lt ((List.pairwise_cons.1 h.path_descending).1 a ha)

/-- What is on the stack leads to the uppermost node on the path. -/
theorem leads_head (h : OK next targets s (c :: path) pending) (ha : a ∈ s.stack) :
    ReflTransGen (Edge next) a c := by
  obtain ⟨d, hd, -, had⟩ := h.returns a ha
  exact had.trans (h.leads d hd c (h.path_mem c List.mem_cons_self) (h.index_le_head hd))

/-- An edge from a node on the path is bounded by the lowlink of that node. -/
theorem bounded_of_lowlink (hc : c ∈ path) (hlow : s.lowlink c ≤ s.index b) :
    s.Bounded path c b := fun _ _ hd => ⟨c, hc, hd, Nat.le_refl _, hlow⟩

/-! ### Looking at an edge -/

/-- Edges need no longer be looked at that lead to visited nodes and are bounded. -/
theorem settle (h : OK next targets s path pending) (hsub : ∀ a b, pending' a b → pending a b)
    (hlooked : ∀ a b, pending a b →
      pending' a b ∨ b ∈ s.marks ∧ (b ∈ s.stack → s.Bounded path a b)) :
    OK next targets s path pending' :=
  { h with
    pending_mem := fun a b hab => h.pending_mem a b (hsub a b hab)
    looked := fun a ha b hb => (h.looked a ha b hb).elim (hlooked a b) .inr }

/-- **Lowering** the lowlink of a node on the path to the index of a node that it leads to. -/
theorem lower [Std.LawfulEqOrd α] (h : OK next targets s path pending) (hc : c ∈ path)
    (ha : a ∈ s.stack) (hca : ReflTransGen (Edge next) c a) :
    OK next targets (s.lower c (s.index a)) path pending where
  mem_targets b hb := h.mem_targets b (mem_marks_lower.1 hb)
  index_lt b hb := by
    rw [index_lower]
    exact h.index_lt b (mem_marks_lower.1 hb)
  isOnStack_iff b := by
    rw [isOnStack_lower]
    exact h.isOnStack_iff b
  marked b hb := mem_marks_lower.2 (h.marked b hb)
  descending := by
    simp only [index_lower]
    exact h.descending
  path_mem := h.path_mem
  path_descending := by
    simp only [index_lower]
    exact h.path_descending
  leads := by
    simp only [index_lower]
    exact h.leads
  returns := by
    simp only [index_lower]
    exact h.returns
  low d hd := by
    simp only [index_lower]
    obtain ⟨b, hb, hlow, hle, hdb⟩ := h.low d hd
    by_cases hdc : d = c
    · subst hdc
      rw [lowlink_lower_self (h.marked d (h.path_mem d hd))]
      -- the lower one of the two nodes that are led to
      by_cases hab : s.index a ≤ s.lowlink d
      · exact ⟨a, ha, (Nat.min_eq_right hab).symm, by omega, hca⟩
      · exact ⟨b, hb, hlow.trans (Nat.min_eq_left (by omega)).symm, hle, hdb⟩
    · exact ⟨b, hb, hlow.trans (lowlink_lower_other hdc).symm, hle, hdb⟩
  pending_mem := h.pending_mem
  looked b hb d hd := by
    rcases h.looked b hb d hd with hpending | ⟨hmarked, hbounded⟩
    · exact .inl hpending
    · exact .inr ⟨mem_marks_lower.2 hmarked, fun hstack =>
        (hbounded hstack).mono (fun _ _ => index_lower) index_lower index_lower fun e he =>
          lowlink_lower_le (h.marked e (h.path_mem e he))⟩
  filed := by
    simp only [mem_marks_lower]
    exact h.filed

/-! ### Visiting a node -/

/-- **Visiting** a target that the path leads to. Its edges are still to be looked at. -/
theorem visit [Std.LawfulEqOrd α] (h : OK next targets s path pending) (ha : a ∈ targets)
    (hnew : a ∉ s.marks) (hpath : ∀ c ∈ path, ReflTransGen (Edge next) c a) :
    OK next targets (s.visit a) (a :: path)
      fun b c => b = a ∧ c ∈ next a ∨ pending b c := by
  have hne : ∀ b ∈ s.stack, b ≠ a := fun b hb he => hnew (he ▸ h.marked b hb)
  have hold : ∀ b ∈ s.stack, (s.visit a).index b = s.index b := fun b hb =>
    index_visit_other (hne b hb)
  have hpathOld : ∀ c ∈ path, (s.visit a).index c = s.index c := fun c hc =>
    hold c (h.path_mem c hc)
  have habove : ∀ b ∈ s.stack, (s.visit a).index b < (s.visit a).index a := fun b hb => by
    rw [hold b hb, index_visit_self]
    exact h.index_lt b (h.marked b hb)
  exact {
    mem_targets := fun b hb => by
      rcases mem_marks_visit.1 hb with rfl | hb
      · exact ha
      · exact h.mem_targets b hb
    index_lt := fun b hb => by
      rcases mem_marks_visit.1 hb with rfl | hmarked
      · rw [index_visit_self]
        exact Nat.lt_succ_self _
      · have hba : b ≠ a := by
          rintro rfl
          exact hnew hmarked
        rw [index_visit_other hba]
        exact Nat.lt_succ_of_lt (h.index_lt b hmarked)
    isOnStack_iff := fun b => by
      by_cases hb : b = a
      · rw [hb, isOnStack_visit_self]
        exact iff_of_true rfl List.mem_cons_self
      · rw [isOnStack_visit_other hb, h.isOnStack_iff, Search.visit, List.mem_cons,
          or_iff_right hb]
    marked := fun b hb => mem_marks_visit.2 ((List.mem_cons.1 hb).imp_right (h.marked b))
    descending := by
      refine List.pairwise_cons.2 ⟨habove, h.descending.imp_of_mem fun {b c} hb hc hlt => ?_⟩
      rwa [hold b hb, hold c hc]
    path_mem := fun c hc => List.mem_cons.2 ((List.mem_cons.1 hc).imp_right (h.path_mem c))
    path_descending := by
      refine List.pairwise_cons.2 ⟨fun c hc => habove c (h.path_mem c hc),
        h.path_descending.imp_of_mem fun {b c} hb hc hlt => ?_⟩
      rwa [hpathOld b hb, hpathOld c hc]
    leads := fun c hc b hb hle => by
      rcases List.mem_cons.1 hb with rfl | hbelow
      · exact (List.mem_cons.1 hc).elim (fun he => he ▸ .refl) (hpath c)
      · rcases List.mem_cons.1 hc with rfl | hc
        · exact absurd hle (Nat.not_le_of_lt (habove b hbelow))
        · rw [hpathOld c hc, hold b hbelow] at hle
          exact h.leads c hc b hbelow hle
    returns := fun b hb => by
      rcases List.mem_cons.1 hb with rfl | hb
      · exact ⟨b, List.mem_cons_self, Nat.le_refl _, .refl⟩
      · obtain ⟨c, hc, hle, hbc⟩ := h.returns b hb
        exact ⟨c, List.mem_cons_of_mem a hc, by rwa [hpathOld c hc, hold b hb], hbc⟩
    low := fun c hc => by
      rcases List.mem_cons.1 hc with rfl | hc
      · exact ⟨c, List.mem_cons_self, by rw [index_visit_self, lowlink_visit_self],
          Nat.le_refl _, .refl⟩
      · obtain ⟨b, hb, hlow, hle, hcb⟩ := h.low c hc
        refine ⟨b, List.mem_cons_of_mem a hb, ?_, ?_, hcb⟩
        · rw [hold b hb, lowlink_visit_other (hne c (h.path_mem c hc)), hlow]
        · rwa [hold b hb, hpathOld c hc]
    pending_mem := fun b c hbc => List.mem_cons.2 (hbc.imp And.left (h.pending_mem b c))
    looked := fun b hb c hc => by
      rcases List.mem_cons.1 hb with rfl | hbelow
      · exact .inl (.inl ⟨rfl, hc⟩)
      rcases h.looked b hbelow c hc with hpending | ⟨hmarked, hbounded⟩
      · exact .inl (.inr hpending)
      refine .inr ⟨mem_marks_visit.2 (.inr hmarked), fun hstack => ?_⟩
      have hcne : c ≠ a := fun he => hnew (he ▸ hmarked)
      have hbefore := hbounded ((List.mem_cons.1 hstack).resolve_left hcne)
      exact (hbefore.mono hpathOld (hold b hbelow) (index_visit_other hcne) fun e he =>
        (lowlink_visit_other (hne e (h.path_mem e he))).le).cons (habove b hbelow)
    filed := by
      have hsame : ∀ b, b ∈ (s.visit a).marks ∧ b ∉ (s.visit a).stack ↔
          b ∈ s.marks ∧ b ∉ s.stack := fun b => by
        rw [mem_marks_visit, Search.visit, List.mem_cons, not_or]
        by_cases hb : b = a
        · simp [hb, hnew]
        · simp [hb]
      simp only [hsame]
      exact h.filed }

/-! ### Leaving a node -/

theorem pending_mem_tail (h : OK next targets s (c :: path) pending) (hdone : ∀ b, ¬ pending c b)
    (a b : α) (hab : pending a b) : a ∈ path :=
  (List.mem_cons.1 (h.pending_mem a b hab)).resolve_left fun he => hdone b (he ▸ hab)

/-- **Leaving a node that leads further down** the stack than to itself: it stays there, and the
node that is uppermost on the path then has taken its lowlink over. -/
theorem leave (h : OK next targets s (c :: path) pending) (hdone : ∀ b, ¬ pending c b)
    (hlow : s.lowlink c ≠ s.index c) (hhead : ∀ d ∈ path.head?, s.lowlink d ≤ s.lowlink c) :
    OK next targets s path pending where
  mem_targets := h.mem_targets
  index_lt := h.index_lt
  isOnStack_iff := h.isOnStack_iff
  marked := h.marked
  descending := h.descending
  path_mem d hd := h.path_mem d (List.mem_cons_of_mem c hd)
  path_descending := (List.pairwise_cons.1 h.path_descending).2
  leads d hd := h.leads d (List.mem_cons_of_mem c hd)
  returns a ha := by
    obtain ⟨d, hd, hle, had⟩ := h.returns a ha
    rcases List.mem_cons.1 hd with rfl | hd
    · -- the node leads to one visited earlier, and that one leads to the path
      obtain ⟨u, hu, hlowu, hleu, hdu⟩ := h.low d List.mem_cons_self
      obtain ⟨e, he, heu, hue⟩ := h.returns u hu
      have hne : e ≠ d := fun heq => by
        subst heq
        omega
      exact ⟨e, (List.mem_cons.1 he).resolve_left hne, by omega, (had.trans hdu).trans hue⟩
    · exact ⟨d, hd, hle, had⟩
  low d hd := h.low d (List.mem_cons_of_mem c hd)
  pending_mem := h.pending_mem_tail hdone
  looked a ha b hb := by
    rcases h.looked a ha b hb with hpending | ⟨hmarked, hbounded⟩
    · exact .inl hpending
    · exact .inr ⟨hmarked, fun hstack => (hbounded hstack).handed_over h.path_descending hhead⟩
  filed := h.filed

/-! ### Completing a component -/

/-- What is on the stack down to a node was visited no earlier than the node. -/
theorem popUntil_index (h : OK next targets s path pending) [Std.LawfulEqOrd α]
    (hc : c ∈ s.stack) :
    (popUntil c s.stack).1.Nodup ∧
    (∀ a, a ∈ (popUntil c s.stack).1 ↔ a ∈ s.stack ∧ s.index c ≤ s.index a) ∧
    (∀ a, a ∈ (popUntil c s.stack).2 ↔ a ∈ s.stack ∧ s.index a < s.index c) ∧
    (popUntil c s.stack).2.Sublist s.stack := by
  obtain ⟨above, below, hstack, hpop⟩ := popUntil_split hc
  have hdescending := h.descending
  rw [hstack, List.pairwise_append, List.pairwise_cons] at hdescending
  obtain ⟨habove, ⟨hbelow, -⟩, hsplit⟩ := hdescending
  have hup : ∀ a ∈ above, s.index c < s.index a := fun a ha => hsplit a ha c List.mem_cons_self
  have hnodup : (above ++ [c]).Nodup := by
    have hall : s.stack.Nodup := h.descending.imp fun hlt he => by
      rw [he] at hlt
      exact Nat.lt_irrefl _ hlt
    rw [hstack, List.append_cons] at hall
    exact (List.nodup_append.1 hall).1
  rw [hpop, hstack]
  refine ⟨hnodup, fun a => ?_, fun a => ?_, ?_⟩
  · simp only [List.mem_append, List.mem_cons, List.not_mem_nil, or_false]
    constructor
    · rintro (ha | rfl)
      · exact ⟨.inl ha, Nat.le_of_lt (hup a ha)⟩
      · exact ⟨.inr (.inl rfl), Nat.le_refl _⟩
    · rintro ⟨ha | rfl | ha, hle⟩
      · exact .inl ha
      · exact .inr rfl
      · exact absurd (hbelow a ha) (Nat.not_lt_of_le hle)
  · simp only [List.mem_append, List.mem_cons]
    constructor
    · exact fun ha => ⟨.inr (.inr ha), hbelow a ha⟩
    · rintro ⟨ha | rfl | ha, hlt⟩
      · exact absurd hlt (Nat.not_lt_of_le (Nat.le_of_lt (hup a ha)))
      · exact absurd hlt (Nat.lt_irrefl _)
      · exact ha
  · exact (List.sublist_cons_self c below).trans (List.sublist_append_right above _)

section Complete

variable [Std.LawfulEqOrd α] {dependencies : α → Std.ExtTreeSet α}

/-- **What is on the stack down to a node whose lowlink is its own index is a component**: its nodes
lead to each other, and to nothing else but what is done with. -/
theorem component (h : OK next targets s (c :: path) pending) (hdone : ∀ b, ¬ pending c b)
    (hlow : s.lowlink c = s.index c) :
    let component := (popUntil c s.stack).1
    (∀ a ∈ component, ∀ b ∈ component, ReflTransGen (Edge next) a b) ∧
      ∀ a ∈ component, ∀ b ∈ next a, (b ∈ s.marks ∧ b ∉ s.stack) ∨ b ∈ component := by
  intro component
  have hc : c ∈ s.stack := h.path_mem c List.mem_cons_self
  obtain ⟨-, hmem, -, -⟩ := h.popUntil_index hc
  refine ⟨fun a ha b hb => ?_, fun a ha b hb => ?_⟩
  · obtain ⟨ha, -⟩ := (hmem a).1 ha
    obtain ⟨hb, hle⟩ := (hmem b).1 hb
    exact (h.leads_head ha).trans (h.leads c List.mem_cons_self b hb hle)
  · obtain ⟨ha, hca⟩ := (hmem a).1 ha
    have below : ∀ d ∈ path, s.index d < s.index c := (List.pairwise_cons.1 h.path_descending).1
    have hlooked : ¬ pending a b := fun hab => by
      rcases List.mem_cons.1 (h.pending_mem a b hab) with rfl | ha
      · exact hdone b hab
      · exact absurd hca (Nat.not_le_of_lt (below a ha))
    obtain ⟨hmarked, hbounded⟩ := (h.looked a ha b hb).resolve_left hlooked
    by_cases hstack : b ∈ s.stack
    · -- of the nodes on the path only the uppermost is not below itself
      obtain ⟨d, hd, hcd, -, hlowd⟩ := hbounded hstack c List.mem_cons_self hca
      rcases List.mem_cons.1 hd with rfl | hd
      · exact .inr ((hmem b).2 ⟨hstack, hlow ▸ hlowd⟩)
      · exact absurd hcd (Nat.not_le_of_lt (below d hd))
    · exact .inl ⟨hmarked, hstack⟩

theorem filed_complete
    (h : OK (targetsAmong dependencies targets) targets s (c :: path) pending)
    (hdone : ∀ b, ¬ pending c b) (hlow : s.lowlink c = s.index c) :
    Filed (targetsAmong dependencies targets) (s.complete dependencies targets c).filing fun a =>
      a ∈ (s.complete dependencies targets c).marks ∧
        a ∉ (s.complete dependencies targets c).stack := by
  have hc : c ∈ s.stack := h.path_mem c List.mem_cons_self
  obtain ⟨hnodup, hmem, hbelow, -⟩ := h.popUntil_index hc
  obtain ⟨hconnected, hnext⟩ := h.component hdone hlow
  have hnonempty : (popUntil c s.stack).1 ≠ [] :=
    List.ne_nil_of_mem ((hmem c).2 ⟨hc, Nat.le_refl _⟩)
  have hfiled := h.filed.component
    (fun a ha => h.mem_targets a (h.marked a ((hmem a).1 ha).1))
    (fun a ha hn => hn.2 ((hmem a).1 ha).1) hnonempty hnodup hnext hconnected
  have hsame : ∀ a, a ∈ (popUntil c s.stack).1 ∨ a ∈ s.marks ∧ a ∉ s.stack ↔
      a ∈ (s.complete dependencies targets c).marks ∧
        a ∉ (s.complete dependencies targets c).stack := fun a => by
    rw [hmem, mem_marks_complete]
    refine Iff.trans ?_ (and_congr_right fun _ => not_congr (hbelow a)).symm
    by_cases ha : a ∈ s.stack
    · simp [ha, h.marked a ha]
    · simp [ha]
  simp only [hsame] at hfiled
  exact hfiled

/-- **Leaving a node whose lowlink is its own index**: its component is taken off the stack and
filed. -/
theorem complete (h : OK (targetsAmong dependencies targets) targets s (c :: path) pending)
    (hdone : ∀ b, ¬ pending c b) (hlow : s.lowlink c = s.index c) :
    OK (targetsAmong dependencies targets) targets (s.complete dependencies targets c) path
      pending := by
  have hc : c ∈ s.stack := h.path_mem c List.mem_cons_self
  obtain ⟨-, hmem, hbelow, hsublist⟩ := h.popUntil_index hc
  have hpath : ∀ d ∈ path, s.index d < s.index c := (List.pairwise_cons.1 h.path_descending).1
  have hstack : ∀ a ∈ (s.complete dependencies targets c).stack,
      a ∈ s.stack ∧ s.index a < s.index c := fun a => (hbelow a).1
  have hstay : ∀ a, a ∈ s.stack → s.index a < s.index c →
      a ∈ (s.complete dependencies targets c).stack := fun a ha hlt => (hbelow a).2 ⟨ha, hlt⟩
  constructor
  case mem_targets => exact fun a ha => h.mem_targets a (mem_marks_complete.1 ha)
  case index_lt =>
    intro a ha
    rw [index_complete]
    exact h.index_lt a (mem_marks_complete.1 ha)
  case isOnStack_iff =>
    intro a
    rw [isOnStack_complete, h.isOnStack_iff, hmem]
    refine Iff.trans ?_ (hbelow a).symm
    exact and_congr_right fun ha => by simp [ha]
  case marked => exact fun a ha => mem_marks_complete.2 (h.marked a (hstack a ha).1)
  case descending =>
    simp only [index_complete]
    exact h.descending.sublist hsublist
  case path_mem =>
    exact fun d hd => hstay d (h.path_mem d (List.mem_cons_of_mem c hd)) (hpath d hd)
  case path_descending =>
    simp only [index_complete]
    exact (List.pairwise_cons.1 h.path_descending).2
  case leads =>
    simp only [index_complete]
    exact fun d hd a ha hle => h.leads d (List.mem_cons_of_mem c hd) a (hstack a ha).1 hle
  case returns =>
    simp only [index_complete]
    intro a ha
    obtain ⟨ha, hlt⟩ := hstack a ha
    obtain ⟨d, hd, hle, had⟩ := h.returns a ha
    have hdc : d ≠ c := fun he => by
      rw [he] at hle
      omega
    exact ⟨d, (List.mem_cons.1 hd).resolve_left hdc, hle, had⟩
  case low =>
    simp only [index_complete, lowlink_complete]
    intro d hd
    obtain ⟨a, ha, hlowa, hle, hda⟩ := h.low d (List.mem_cons_of_mem c hd)
    have hdc := hpath d hd
    exact ⟨a, hstay a ha (by omega), hlowa, hle, hda⟩
  case pending_mem => exact h.pending_mem_tail hdone
  case looked =>
    intro a ha b hb
    obtain ⟨ha, hlt⟩ := hstack a ha
    rcases h.looked a ha b hb with hpending | ⟨hmarked, hbounded⟩
    · exact .inl hpending
    exact .inr ⟨mem_marks_complete.2 hmarked, fun hb =>
      ((hbounded (hstack b hb).1).tail hlt).mono (fun _ _ => index_complete) index_complete
        index_complete fun _ _ => lowlink_complete.le⟩
  case filed => exact h.filed_complete hdone hlow

end Complete

end OK

end Search

end Spreadsheet
