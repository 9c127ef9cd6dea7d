/-
The nodes of a graph with the edges at each. An edge is kept at both of its ends: among what the
one node depends on, and among what depends on the other, in lists with the newest edge first. Nodes
are made for the edges at them, and pruned when no edge is left. `setEdges` replaces what one node
depends on (`mem_outgoing_setEdges`); it keeps no edge at one end only, no edge twice
(`Sound.setEdges`) and no node without edges (`Trim.setEdges`).
-/
import Std.Data.ExtTreeMap
import Spreadsheet.Sets

namespace Spreadsheet

/-- The edges at a node, the newest first: the nodes that it depends on, and those that depend on
it. -/
structure NodeEdges (α : Type) where
  outgoing : List α
  incoming : List α

/-- The nodes of a graph, each with the edges at it. -/
structure EdgeTable (α : Type) [Ord α] [Std.TransOrd α] where
  nodes : Std.ExtTreeMap α (NodeEdges α)

namespace EdgeTable

variable {α : Type} [Ord α] [Std.TransOrd α]

/-- The table without nodes. -/
def empty : EdgeTable α := ⟨∅⟩

/-- The edges at a node; there are none at a node that is not in the table. -/
def edgesAt (t : EdgeTable α) (a : α) : NodeEdges α :=
  t.nodes.getD a ⟨[], []⟩

/-- What a node depends on. -/
def outgoing (t : EdgeTable α) (a : α) : List α :=
  (t.edgesAt a).outgoing

/-- What depends on a node. -/
def incoming (t : EdgeTable α) (a : α) : List α :=
  (t.edgesAt a).incoming

/-- Changes the edges at a node, which is made if it is not there. -/
def change (t : EdgeTable α) (a : α) (f : NodeEdges α → NodeEdges α) : EdgeTable α :=
  ⟨t.nodes.insert a (f (t.edgesAt a))⟩

/-- Changes the list of an edge at both of its ends. -/
def edit (t : EdgeTable α) (op : α → List α → List α) (a b : α) : EdgeTable α :=
  (t.change a fun edges => { edges with outgoing := op b edges.outgoing }).change b
    fun edges => { edges with incoming := op a edges.incoming }

/-- Makes an edge from one node to another, beside whatever edges there are. -/
def addEdge (t : EdgeTable α) (a b : α) : EdgeTable α :=
  t.edit .cons a b

/-- A list without the first entry that is a given node. -/
def dropFirst (a : α) (l : List α) : List α :=
  l.eraseP fun b => compare b a == .eq

/-- Takes an edge from one node to another away. -/
def removeEdge (t : EdgeTable α) (a b : α) : EdgeTable α :=
  t.edit dropFirst a b

/-- Removes a node if there are no edges at it. -/
def prune (t : EdgeTable α) (a : α) : EdgeTable α :=
  if (t.outgoing a).isEmpty && (t.incoming a).isEmpty then ⟨t.nodes.erase a⟩ else t

/-- Makes edges from one node to each of the listed ones that have not been seen yet. -/
def addEdges (t : EdgeTable α) (a : α) (seen : Std.ExtTreeSet α) : List α → EdgeTable α
  | [] => t
  | b :: rest =>
    if seen.contains b then t.addEdges a seen rest
    else (t.addEdge a b).addEdges a (seen.insert b) rest

def removeEdges (t : EdgeTable α) (a : α) (targets : List α) : EdgeTable α :=
  targets.foldl (removeEdge · a ·) t

def pruneAll (t : EdgeTable α) (l : List α) : EdgeTable α :=
  l.foldl prune t

/-- Lets a node depend on exactly the listed nodes. What it has depended on may be left without
edges; that is pruned when the new edges are there, and the node itself at last. -/
def setEdges (t : EdgeTable α) (a : α) (targets : List α) : EdgeTable α :=
  let stale := t.outgoing a
  ((t.removeEdges a stale).addEdges a ∅ targets).pruneAll (stale ++ [a])

variable [Std.LawfulEqOrd α] {t : EdgeTable α} {a b c d : α}

omit [Std.LawfulEqOrd α] in
theorem edgesAt_eq_empty (h : a ∉ t.nodes) : t.edgesAt a = ⟨[], []⟩ :=
  Std.ExtTreeMap.getD_eq_fallback h

omit [Std.TransOrd α] in
theorem mem_dropFirst {l : List α} (h : l.Nodup) : b ∈ dropFirst a l ↔ b ∈ l ∧ b ≠ a := by
  induction l with
  | nil => simp [dropFirst]
  | cons c l ih =>
    obtain ⟨hc, hl⟩ := List.nodup_cons.1 h
    by_cases hca : c = a
    · subst hca
      rw [dropFirst, List.eraseP_cons_of_pos (by simp), List.mem_cons]
      have hne : b ∈ l → b ≠ c := fun hb he => hc (he ▸ hb)
      exact ⟨fun hb => ⟨.inr hb, hne hb⟩, fun hb => hb.1.resolve_left hb.2⟩
    · have hkept : dropFirst a (c :: l) = c :: dropFirst a l :=
        List.eraseP_cons_of_neg (by rwa [beq_iff_eq, Std.LawfulEqCmp.compare_eq_iff_eq])
      rw [hkept, List.mem_cons, List.mem_cons, ih hl, or_and_right]
      exact or_congr_left ⟨fun he => ⟨he, he ▸ hca⟩, And.left⟩

omit [Std.TransOrd α] [Std.LawfulEqOrd α] in
theorem nodup_dropFirst {l : List α} (h : l.Nodup) : (dropFirst a l).Nodup :=
  h.sublist List.eraseP_sublist

/-! ## One edge -/

omit [Std.LawfulEqOrd α] in
theorem edgesAt_change_self {f : NodeEdges α → NodeEdges α} :
    (t.change a f).edgesAt a = f (t.edgesAt a) := by
  simp [edgesAt, change]

theorem edgesAt_change_other {f : NodeEdges α → NodeEdges α} (h : c ≠ a) :
    (t.change a f).edgesAt c = t.edgesAt c := by
  have hc : compare a c ≠ .eq := fun he => h (Std.LawfulEqCmp.eq_of_compare he).symm
  simp [edgesAt, change, Std.ExtTreeMap.getD_insert, hc]

theorem mem_nodes_change {f : NodeEdges α → NodeEdges α} :
    c ∈ (t.change a f).nodes ↔ c = a ∨ c ∈ t.nodes := by
  rw [change, Std.ExtTreeMap.mem_insert, Std.LawfulEqCmp.compare_eq_iff_eq, eq_comm]

section Edit

variable {op : α → List α → List α}

theorem outgoing_edit_self : (t.edit op a b).outgoing a = op b (t.outgoing a) := by
  by_cases h : a = b
  · simp only [edit, outgoing, h, edgesAt_change_self]
  · simp only [edit, outgoing, edgesAt_change_other h, edgesAt_change_self]

theorem outgoing_edit_other (h : c ≠ a) : (t.edit op a b).outgoing c = t.outgoing c := by
  by_cases hb : c = b
  · subst hb
    simp only [edit, outgoing, edgesAt_change_self, edgesAt_change_other h]
  · simp only [edit, outgoing, edgesAt_change_other hb, edgesAt_change_other h]

theorem incoming_edit_self : (t.edit op a b).incoming b = op a (t.incoming b) := by
  by_cases h : b = a
  · subst h
    simp only [edit, incoming, edgesAt_change_self]
  · simp only [edit, incoming, edgesAt_change_self, edgesAt_change_other h]

theorem incoming_edit_other (h : c ≠ b) : (t.edit op a b).incoming c = t.incoming c := by
  by_cases ha : c = a
  · subst ha
    simp only [edit, incoming, edgesAt_change_other h, edgesAt_change_self]
  · simp only [edit, incoming, edgesAt_change_other h, edgesAt_change_other ha]

theorem mem_nodes_edit : c ∈ (t.edit op a b).nodes ↔ c = a ∨ c = b ∨ c ∈ t.nodes := by
  rw [edit, mem_nodes_change, mem_nodes_change, or_left_comm]

end Edit

theorem mem_outgoing_addEdge :
    d ∈ (t.addEdge a b).outgoing c ↔ c = a ∧ d = b ∨ d ∈ t.outgoing c := by
  by_cases hc : c = a
  · subst hc
    rw [addEdge, outgoing_edit_self, List.mem_cons]
    simp
  · rw [addEdge, outgoing_edit_other hc]
    simp [hc]

theorem mem_incoming_addEdge :
    c ∈ (t.addEdge a b).incoming d ↔ c = a ∧ d = b ∨ c ∈ t.incoming d := by
  by_cases hd : d = b
  · subst hd
    rw [addEdge, incoming_edit_self, List.mem_cons]
    simp
  · rw [addEdge, incoming_edit_other hd]
    simp [hd]

/-! ## Both ends of an edge, once each -/

/-- Every edge is kept at both of its ends. -/
def Paired (t : EdgeTable α) : Prop :=
  ∀ a b, b ∈ t.outgoing a ↔ a ∈ t.incoming b

/-- No edge is kept twice. -/
def Simple (t : EdgeTable α) : Prop :=
  ∀ a, (t.outgoing a).Nodup ∧ (t.incoming a).Nodup

theorem mem_outgoing_removeEdge (h : t.Simple) :
    d ∈ (t.removeEdge a b).outgoing c ↔ d ∈ t.outgoing c ∧ ¬ (c = a ∧ d = b) := by
  by_cases hc : c = a
  · subst hc
    rw [removeEdge, outgoing_edit_self, mem_dropFirst (h c).1]
    simp
  · rw [removeEdge, outgoing_edit_other hc]
    simp [hc]

theorem mem_incoming_removeEdge (h : t.Simple) :
    c ∈ (t.removeEdge a b).incoming d ↔ c ∈ t.incoming d ∧ ¬ (c = a ∧ d = b) := by
  by_cases hd : d = b
  · subst hd
    rw [removeEdge, incoming_edit_self, mem_dropFirst (h d).2]
    simp
  · rw [removeEdge, incoming_edit_other hd]
    simp [hd]

theorem Paired.addEdge (h : t.Paired) : (t.addEdge a b).Paired := fun c d => by
  rw [mem_outgoing_addEdge, mem_incoming_addEdge, h c d]

theorem Paired.removeEdge (h : t.Paired) (hs : t.Simple) : (t.removeEdge a b).Paired :=
  fun c d => by rw [mem_outgoing_removeEdge hs, mem_incoming_removeEdge hs, h c d]

theorem Simple.addEdge (h : t.Simple) (hp : t.Paired) (hb : b ∉ t.outgoing a) :
    (t.addEdge a b).Simple := by
  refine fun c => ⟨?_, ?_⟩
  · by_cases hc : c = a
    · subst hc
      rw [EdgeTable.addEdge, outgoing_edit_self]
      exact List.nodup_cons.2 ⟨hb, (h c).1⟩
    · rw [EdgeTable.addEdge, outgoing_edit_other hc]
      exact (h c).1
  · by_cases hc : c = b
    · subst hc
      rw [EdgeTable.addEdge, incoming_edit_self]
      exact List.nodup_cons.2 ⟨fun ha => hb ((hp a c).2 ha), (h c).2⟩
    · rw [EdgeTable.addEdge, incoming_edit_other hc]
      exact (h c).2

theorem Simple.removeEdge (h : t.Simple) : (t.removeEdge a b).Simple := by
  refine fun c => ⟨?_, ?_⟩
  · by_cases hc : c = a
    · subst hc
      rw [EdgeTable.removeEdge, outgoing_edit_self]
      exact nodup_dropFirst (h c).1
    · rw [EdgeTable.removeEdge, outgoing_edit_other hc]
      exact (h c).1
  · by_cases hc : c = b
    · subst hc
      rw [EdgeTable.removeEdge, incoming_edit_self]
      exact nodup_dropFirst (h c).2
    · rw [EdgeTable.removeEdge, incoming_edit_other hc]
      exact (h c).2

/-! ## Pruning -/

/-- There are edges at a node. -/
def Touched (t : EdgeTable α) (a : α) : Prop :=
  ∃ b, b ∈ t.outgoing a ∨ b ∈ t.incoming a

omit [Std.LawfulEqOrd α] in
theorem Touched.mono {u : EdgeTable α} (hout : ∀ b, b ∈ t.outgoing a → b ∈ u.outgoing a)
    (hin : ∀ b, b ∈ t.incoming a → b ∈ u.incoming a) (h : t.Touched a) : u.Touched a :=
  h.imp fun b => Or.imp (hout b) (hin b)

omit [Std.LawfulEqOrd α] in
theorem Touched.mem_nodes (h : t.Touched a) : a ∈ t.nodes := by
  obtain ⟨b, hb⟩ := h
  refine Classical.byContradiction fun hn => ?_
  simp [outgoing, incoming, edgesAt_eq_empty hn] at hb

omit [Std.LawfulEqOrd α] in
theorem prune_cases (t : EdgeTable α) (a : α) :
    t.prune a = t ∧ t.Touched a ∨
      t.prune a = ⟨t.nodes.erase a⟩ ∧ t.outgoing a = [] ∧ t.incoming a = [] := by
  rw [prune]
  split
  · rename_i h
    rw [Bool.and_eq_true, List.isEmpty_iff, List.isEmpty_iff] at h
    exact .inr ⟨rfl, h⟩
  · rename_i h
    refine .inl ⟨rfl, Classical.byContradiction fun hn => h ?_⟩
    simp only [Touched, not_exists, not_or] at hn
    rw [Bool.and_eq_true, List.isEmpty_iff, List.isEmpty_iff]
    exact ⟨List.eq_nil_iff_forall_not_mem.2 fun b => (hn b).1,
      List.eq_nil_iff_forall_not_mem.2 fun b => (hn b).2⟩

theorem edgesAt_prune : (t.prune a).edgesAt c = t.edgesAt c := by
  rcases prune_cases t a with ⟨h, -⟩ | ⟨h, hout, hin⟩
  · rw [h]
  · by_cases hc : c = a
    · subst hc
      have hnone : t.edgesAt c = ⟨[], []⟩ := congr (congrArg NodeEdges.mk hout) hin
      rw [h, hnone]
      simp [edgesAt]
    · have hne : compare a c ≠ .eq := fun he => hc (Std.LawfulEqCmp.eq_of_compare he).symm
      rw [h]
      simp [edgesAt, Std.ExtTreeMap.getD_erase, hne]

theorem outgoing_prune : (t.prune a).outgoing c = t.outgoing c :=
  congrArg NodeEdges.outgoing edgesAt_prune

theorem incoming_prune : (t.prune a).incoming c = t.incoming c :=
  congrArg NodeEdges.incoming edgesAt_prune

theorem mem_nodes_prune (h : c ∈ (t.prune a).nodes) : c ∈ t.nodes ∧ (c = a → t.Touched a) := by
  rcases prune_cases t a with ⟨hsame, ha⟩ | ⟨herase, -⟩
  · exact ⟨hsame ▸ h, fun _ => ha⟩
  · rw [herase, Std.ExtTreeMap.mem_erase] at h
    exact ⟨h.2, fun he => absurd (he ▸ Std.ReflCmp.compare_self) h.1⟩

theorem outgoing_pruneAll {l : List α} : (t.pruneAll l).outgoing c = t.outgoing c := by
  induction l generalizing t with
  | nil => rfl
  | cons a l ih => exact ih.trans outgoing_prune

theorem incoming_pruneAll {l : List α} : (t.pruneAll l).incoming c = t.incoming c := by
  induction l generalizing t with
  | nil => rfl
  | cons a l ih => exact ih.trans incoming_prune

/-! ## Edges from one node -/

/-- Both ends of every edge are kept, once each. -/
structure Sound (t : EdgeTable α) : Prop where
  paired : t.Paired
  simple : t.Simple

theorem Sound.removeEdges {targets : List α} (h : t.Sound) : (t.removeEdges a targets).Sound := by
  induction targets generalizing t with
  | nil => exact h
  | cons b targets ih => exact ih ⟨h.paired.removeEdge h.simple, h.simple.removeEdge⟩

theorem mem_outgoing_removeEdges {targets : List α} (h : t.Sound) :
    d ∈ (t.removeEdges a targets).outgoing c ↔ d ∈ t.outgoing c ∧ ¬ (c = a ∧ d ∈ targets) := by
  induction targets generalizing t with
  | nil => simp [removeEdges]
  | cons b targets ih =>
    rw [removeEdges, List.foldl_cons, ← removeEdges,
      ih ⟨h.paired.removeEdge h.simple, h.simple.removeEdge⟩, mem_outgoing_removeEdge h.simple,
      List.mem_cons, and_or_left, not_or, and_assoc]

/-- The edges of a node stay apart as long as those that are there have been seen. -/
theorem Sound.addEdges {targets : List α} {seen : Std.ExtTreeSet α} (h : t.Sound)
    (hseen : ∀ c ∈ t.outgoing a, c ∈ seen) : (t.addEdges a seen targets).Sound := by
  induction targets generalizing t seen with
  | nil => exact h
  | cons b targets ih =>
    rw [EdgeTable.addEdges]
    split
    · exact ih h hseen
    · rename_i hb
      have hnew : b ∉ t.outgoing a := fun hmem => hb (hseen b hmem)
      refine ih ⟨h.paired.addEdge, h.simple.addEdge h.paired hnew⟩ fun c hc => ?_
      rw [mem_set_insert]
      exact (mem_outgoing_addEdge.1 hc).imp And.right (hseen c)

theorem mem_outgoing_addEdges {targets : List α} {seen : Std.ExtTreeSet α}
    (hseen : ∀ c ∈ seen, c ∈ t.outgoing a) :
    d ∈ (t.addEdges a seen targets).outgoing c ↔ c = a ∧ d ∈ targets ∨ d ∈ t.outgoing c := by
  induction targets generalizing t seen with
  | nil => simp [addEdges]
  | cons b targets ih =>
    rw [addEdges]
    split
    · rename_i hb
      rw [ih hseen, List.mem_cons]
      have hb : b ∈ t.outgoing a := hseen b hb
      refine ⟨Or.imp_left (And.imp_right .inr), ?_⟩
      rintro (⟨rfl, rfl | hd⟩ | hd)
      · exact .inr hb
      · exact .inl ⟨rfl, hd⟩
      · exact .inr hd
    · have hseen : ∀ c ∈ seen.insert b, c ∈ (t.addEdge a b).outgoing a := fun c hc => by
        rw [mem_outgoing_addEdge]
        exact (mem_set_insert.1 hc).imp (⟨rfl, ·⟩) (hseen c)
      rw [ih hseen, mem_outgoing_addEdge, List.mem_cons, and_or_left, or_assoc, or_left_comm]

theorem Sound.pruneAll {l : List α} (h : t.Sound) : (t.pruneAll l).Sound where
  paired a b := by rw [outgoing_pruneAll, incoming_pruneAll, h.paired a b]
  simple a := by rw [outgoing_pruneAll, incoming_pruneAll]; exact h.simple a

theorem outgoing_removeEdges_self (h : t.Sound) :
    (t.removeEdges a (t.outgoing a)).outgoing a = [] :=
  List.eq_nil_iff_forall_not_mem.2 fun b hb => by
    rw [mem_outgoing_removeEdges h] at hb
    exact hb.2 ⟨rfl, hb.1⟩

/-- **Replacing the edges of one node** keeps every edge at both of its ends, once each. -/
theorem Sound.setEdges {targets : List α} (h : t.Sound) : (t.setEdges a targets).Sound := by
  refine (h.removeEdges.addEdges fun c hc => ?_).pruneAll
  rw [outgoing_removeEdges_self h] at hc
  exact absurd hc List.not_mem_nil

/-- **The node depends on what is listed**, and other nodes on what they have depended on. -/
theorem mem_outgoing_setEdges {targets : List α} (h : t.Sound) :
    d ∈ (t.setEdges a targets).outgoing c ↔
      c = a ∧ d ∈ targets ∨ c ≠ a ∧ d ∈ t.outgoing c := by
  have hnone : ∀ c ∈ (∅ : Std.ExtTreeSet α), c ∈ (t.removeEdges a (t.outgoing a)).outgoing a :=
    fun c hc => absurd hc Std.ExtTreeSet.not_mem_empty
  rw [setEdges, outgoing_pruneAll, mem_outgoing_addEdges hnone, mem_outgoing_removeEdges h]
  by_cases hc : c = a
  · subst hc
    simp
  · simp [hc]

/-! ## Nodes without edges -/

/-- There are edges at every node. -/
def Trim (t : EdgeTable α) : Prop :=
  ∀ a ∈ t.nodes, t.Touched a

/-- There are edges at every node, but for some listed ones. -/
def TouchedBut (t : EdgeTable α) (l : List α) : Prop :=
  ∀ a ∈ t.nodes, a ∈ l ∨ t.Touched a

theorem TouchedBut.removeEdge {l : List α} (h : t.TouchedBut l) (hs : t.Simple) (ha : a ∈ l)
    (hb : b ∈ l) : (t.removeEdge a b).TouchedBut l := by
  intro c hc
  by_cases hl : c ∈ l
  · exact .inl hl
  have hca : c ≠ a := fun he => hl (he ▸ ha)
  have hcb : c ≠ b := fun he => hl (he ▸ hb)
  have hc : c ∈ t.nodes := ((mem_nodes_edit.1 hc).resolve_left hca).resolve_left hcb
  refine .inr (((h c hc).resolve_left hl).mono (fun d hd => ?_) fun d hd => ?_)
  · exact (mem_outgoing_removeEdge hs).2 ⟨hd, fun he => hca he.1⟩
  · exact (mem_incoming_removeEdge hs).2 ⟨hd, fun he => hcb he.2⟩

theorem TouchedBut.addEdge {l : List α} (h : t.TouchedBut l) : (t.addEdge a b).TouchedBut l := by
  intro c hc
  rcases mem_nodes_edit.1 hc with rfl | rfl | hc
  · exact .inr ⟨b, .inl (mem_outgoing_addEdge.2 (.inl ⟨rfl, rfl⟩))⟩
  · exact .inr ⟨a, .inr (mem_incoming_addEdge.2 (.inl ⟨rfl, rfl⟩))⟩
  · refine (h c hc).imp_right fun hc => hc.mono (fun d hd => ?_) fun d hd => ?_
    · exact mem_outgoing_addEdge.2 (.inr hd)
    · exact mem_incoming_addEdge.2 (.inr hd)

/-- A node that may be without edges is one no more when it has been pruned. -/
theorem TouchedBut.prune {l : List α} (h : t.TouchedBut (a :: l)) : (t.prune a).TouchedBut l := by
  have hsame : ∀ c, t.Touched c → (t.prune a).Touched c := fun c hc =>
    hc.mono (fun _ hd => by rwa [outgoing_prune]) fun _ hd => by rwa [incoming_prune]
  intro c hc
  obtain ⟨hc, ha⟩ := mem_nodes_prune hc
  rcases h c hc with hl | ht
  · rcases List.mem_cons.1 hl with rfl | hl
    · exact .inr (hsame c (ha rfl))
    · exact .inl hl
  · exact .inr (hsame c ht)

theorem TouchedBut.addEdges {l targets : List α} {seen : Std.ExtTreeSet α} (h : t.TouchedBut l) :
    (t.addEdges a seen targets).TouchedBut l := by
  induction targets generalizing t seen with
  | nil => exact h
  | cons b targets ih =>
    rw [EdgeTable.addEdges]
    split
    · exact ih h
    · exact ih h.addEdge

theorem TouchedBut.removeEdges {l targets : List α} (h : t.TouchedBut l) (hs : t.Simple)
    (ha : a ∈ l) (hl : ∀ b ∈ targets, b ∈ l) : (t.removeEdges a targets).TouchedBut l := by
  induction targets generalizing t with
  | nil => exact h
  | cons b targets ih =>
    obtain ⟨hb, hl⟩ := List.forall_mem_cons.1 hl
    exact ih (h.removeEdge hs ha hb) hs.removeEdge hl

theorem TouchedBut.pruneAll {l : List α} (h : t.TouchedBut l) : (t.pruneAll l).Trim := by
  induction l generalizing t with
  | nil => exact fun c hc => (h c hc).resolve_left List.not_mem_nil
  | cons a l ih => exact ih h.prune

/-- **No node is left without edges** when the edges of one node have been replaced. -/
theorem Trim.setEdges {targets : List α} (h : t.Trim) (hs : t.Simple) :
    (t.setEdges a targets).Trim := by
  -- only the node itself and what it has depended on can lose their last edge
  have hstart : t.TouchedBut (t.outgoing a ++ [a]) := fun c hc => .inr (h c hc)
  have ha : a ∈ t.outgoing a ++ [a] := by simp
  have hcleared := hstart.removeEdges hs ha fun b hb => List.mem_append_left [a] hb
  exact hcleared.addEdges.pruneAll

end EdgeTable

end Spreadsheet
