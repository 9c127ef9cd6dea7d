/-
Searching along edges. `reach next pool seeds` visits the nodes of a finite pool that can be reached
from the seeds by steps of `next` through pool nodes only. A visited node leaves the pool, so each
is visited once and the search ends: the pool shrinks, or it stays and the work still to do does.
`flagFrom` flags nodes instead: the set of flagged nodes tells which have been visited, and it may
hold some from the start. Either finds exactly what a path from a seed leads to without leaving the
pool (`mem_reach`) or passing a node that was flagged before (`mem_flagFrom`).
-/
import Spreadsheet.Sets

namespace Spreadsheet

variable {α : Type} [Ord α] [Std.TransOrd α]

theorem size_erase_lt {pool : Std.ExtTreeSet α} {a : α} (h : pool.contains a = true) :
    (pool.erase a).size < pool.size := by
  rw [Std.ExtTreeSet.size_erase, if_pos h]
  have hne : pool.size ≠ 0 := by
    intro h0
    have : pool = ∅ := by
      rw [← Std.ExtTreeSet.isEmpty_iff, Std.ExtTreeSet.isEmpty_eq_size_beq_zero, h0]
      rfl
    rw [this] at h
    simp at h
  omega

/-- The nodes of a pool that can be reached from the seeds through the pool, each once. -/
def reach (next : α → List α) (pool : Std.ExtTreeSet α) (seeds : List α) : List α :=
  match seeds with
  | [] => []
  | a :: rest =>
    if _h : pool.contains a = true then a :: reach next (pool.erase a) (next a ++ rest)
    else reach next pool rest
termination_by (pool.size, seeds.length)
decreasing_by
  · exact Prod.Lex.left _ _ (size_erase_lt ‹_›)
  · exact Prod.Lex.right _ (by simp)

/-- The nodes of a pool that are not flagged. -/
def unflagged (pool flagged : Std.ExtTreeSet α) : Std.ExtTreeSet α :=
  pool.filter fun a => !flagged.contains a

variable [Std.LawfulEqOrd α]

theorem mem_unflagged {pool flagged : Std.ExtTreeSet α} {a : α} :
    a ∈ unflagged pool flagged ↔ a ∈ pool ∧ a ∉ flagged := by
  rw [unflagged, mem_set_filter, Bool.not_eq_true', ← Bool.not_eq_true,
    Std.ExtTreeSet.contains_iff_mem]

theorem unflagged_insert (pool flagged : Std.ExtTreeSet α) (a : α) :
    unflagged pool (flagged.insert a) = (unflagged pool flagged).erase a := by
  refine Std.ExtTreeSet.ext_mem fun b => ?_
  rw [mem_unflagged, mem_set_insert, mem_set_erase, mem_unflagged, not_or, and_left_comm]

theorem size_unflagged_lt {pool flagged : Std.ExtTreeSet α} {a : α} (ha : a ∈ pool)
    (hnew : a ∉ flagged) :
    (unflagged pool (flagged.insert a)).size < (unflagged pool flagged).size := by
  rw [unflagged_insert]
  exact size_erase_lt (mem_unflagged.2 ⟨ha, hnew⟩)

/-- Flags the nodes on a stack and all that steps lead to from a node that is newly flagged. A node
that is flagged already is passed over, and does not go onto the stack. Answers what is flagged
then, and what has been flagged anew. -/
def flagFrom {α : Type} [Ord α] [Std.TransOrd α] [Std.LawfulEqOrd α] (next : α → List α)
    (pool : Std.ExtTreeSet α) (hnext : ∀ a, ∀ b ∈ next a, b ∈ pool) (flagged : Std.ExtTreeSet α)
    (stack : List α) (hstack : ∀ a ∈ stack, a ∈ pool) : Std.ExtTreeSet α × List α :=
  match stack with
  | [] => (flagged, [])
  | a :: rest =>
    if h : flagged.contains a = true then
      flagFrom next pool hnext flagged rest fun b hb => hstack b (List.mem_cons_of_mem a hb)
    else
      let flagged := flagged.insert a
      let above := (next a).filter fun b => !flagged.contains b
      let found := flagFrom next pool hnext flagged (above.reverse ++ rest) fun b hb => by
        rcases List.mem_append.1 hb with hb | hb
        · exact hnext a b (List.mem_filter.1 (List.mem_reverse.1 hb)).1
        · exact hstack b (List.mem_cons_of_mem a hb)
      (found.1, a :: found.2)
termination_by ((unflagged pool flagged).size, stack.length)
decreasing_by
  · exact Prod.Lex.right _ (by simp)
  · exact Prod.Lex.left _ _ (size_unflagged_lt (hstack a List.mem_cons_self) h)

/-! ## Paths through a pool -/

/-- A node of a pool that a path through the pool leads to from a seed. -/
inductive ReachIn (next : α → List α) (pool : Std.ExtTreeSet α) (seeds : List α) : α → Prop
  | seed {a} : a ∈ seeds → a ∈ pool → ReachIn next pool seeds a
  | step {a b} : ReachIn next pool seeds a → b ∈ next a → b ∈ pool → ReachIn next pool seeds b

section ReachIn

variable {next : α → List α} {pool : Std.ExtTreeSet α} {seeds rest : List α} {a b : α}

omit [Std.LawfulEqOrd α] in
theorem not_reachIn_nil : ¬ ReachIn next pool [] b := by
  intro h
  induction h with
  | seed hs _ => exact List.not_mem_nil hs
  | step _ _ _ ih => exact ih

omit [Std.LawfulEqOrd α] in
theorem ReachIn.mem_pool (h : ReachIn next pool seeds a) : a ∈ pool := by
  cases h with
  | seed _ hp => exact hp
  | step _ _ hp => exact hp

omit [Std.LawfulEqOrd α] in
/-- Other steps, another pool and other seeds lead to the same if they are the same in the pool. -/
theorem ReachIn.mono {next' : α → List α} {pool' : Std.ExtTreeSet α} {seeds' : List α}
    (hnext : ∀ a, ∀ b ∈ next a, b ∈ next' a) (hpool : ∀ a ∈ pool, a ∈ pool')
    (hseeds : ∀ a ∈ pool, a ∈ seeds → a ∈ seeds') (h : ReachIn next pool seeds b) :
    ReachIn next' pool' seeds' b := by
  induction h with
  | seed hs hp => exact .seed (hseeds _ hp hs) (hpool _ hp)
  | step _ hn hp ih => exact .step ih (hnext _ _ hn) (hpool _ hp)

omit [Std.LawfulEqOrd α] in
theorem ReachIn.of_cons (ha : a ∉ pool) (h : ReachIn next pool (a :: rest) b) :
    ReachIn next pool rest b :=
  h.mono (fun _ _ hb => hb) (fun _ hp => hp) fun c hp hs =>
    (List.mem_cons.1 hs).resolve_left fun (he : c = a) => ha (he ▸ hp)

omit [Std.LawfulEqOrd α] in
theorem ReachIn.cons (h : ReachIn next pool rest b) : ReachIn next pool (a :: rest) b :=
  h.mono (fun _ _ hb => hb) (fun _ hp => hp) fun _ _ hs => List.mem_cons_of_mem a hs

theorem ReachIn.of_visited (ha : a ∈ pool)
    (h : ReachIn next (pool.erase a) (next a ++ rest) b) : ReachIn next pool (a :: rest) b := by
  have first : ReachIn next pool (a :: rest) a := .seed (by simp) ha
  induction h with
  | seed hs hp =>
    have hp := (mem_set_erase.1 hp).2
    rcases List.mem_append.1 hs with hs | hs
    · exact .step first hs hp
    · exact .seed (by simp [hs]) hp
  | step _ hn hp ih => exact .step ih hn (mem_set_erase.1 hp).2

/-- Taking a seed loses nothing but the seed: a path that passes it goes on from there. -/
theorem ReachIn.visited (h : ReachIn next pool (a :: rest) b) (hne : b ≠ a) :
    ReachIn next (pool.erase a) (next a ++ rest) b := by
  induction h with
  | seed hs hp =>
    have hs := (List.mem_cons.1 hs).resolve_left hne
    exact .seed (by simp [hs]) (mem_set_erase.2 ⟨hne, hp⟩)
  | @step c d hc hn hp ih =>
    have hp := mem_set_erase.2 ⟨hne, hp⟩
    by_cases hca : c = a
    · subst hca
      exact .seed (by simp [hn]) hp
    · exact .step (ih hca) hn hp

/-- A seed in the pool is found, and the rest is found from what it leads to. -/
theorem reachIn_cons_iff (ha : a ∈ pool) : ReachIn next pool (a :: rest) b ↔
    b = a ∨ ReachIn next (pool.erase a) (next a ++ rest) b := by
  constructor
  · intro h
    by_cases hba : b = a
    · exact .inl hba
    · exact .inr (h.visited hba)
  · rintro (rfl | h)
    · exact .seed (by simp) ha
    · exact h.of_visited ha

/-- **The search finds what paths through the pool lead to**, and nothing else. -/
theorem mem_reach : b ∈ reach next pool seeds ↔ ReachIn next pool seeds b := by
  fun_induction reach next pool seeds with
  | case1 pool => exact iff_of_false List.not_mem_nil not_reachIn_nil
  | case2 pool a rest ha ih => rw [List.mem_cons, ih, reachIn_cons_iff ha]
  | case3 pool a rest ha ih =>
    rw [ih]
    exact ⟨ReachIn.cons, ReachIn.of_cons ha⟩

end ReachIn

/-! ## Flagging -/

section Flag

variable {next : α → List α} {pool flagged : Std.ExtTreeSet α} {stack : List α} {b : α}
  {hnext : ∀ a, ∀ b ∈ next a, b ∈ pool} {hstack : ∀ a ∈ stack, a ∈ pool}

/-- **What is newly flagged is what paths lead to past the flagged nodes**, and nothing else. -/
theorem mem_flagFrom : b ∈ (flagFrom next pool hnext flagged stack hstack).2 ↔
    ReachIn next (unflagged pool flagged) stack b := by
  fun_induction flagFrom next pool hnext flagged stack hstack with
  | case1 flagged => exact iff_of_false List.not_mem_nil not_reachIn_nil
  | case2 flagged a rest hstack ha _ ih =>
    have hout : a ∉ unflagged pool flagged := fun h => (mem_unflagged.1 h).2 ha
    rw [ih]
    exact ⟨ReachIn.cons, ReachIn.of_cons hout⟩
  | case3 flagged a rest hstack ha flagged' above _ found ih =>
    have hin : a ∈ unflagged pool flagged := mem_unflagged.2 ⟨hstack a List.mem_cons_self, ha⟩
    have habove : ∀ c ∈ unflagged pool flagged', (c ∈ above.reverse ++ rest ↔ c ∈ next a ++ rest) := by
      intro c hc
      have hnew : flagged'.contains c = false := by
        rw [← Bool.not_eq_true]
        exact (mem_unflagged.1 hc).2
      simp [above, hnew]
    rw [List.mem_cons, ih, reachIn_cons_iff hin, ← unflagged_insert]
    refine or_congr_right ⟨fun h => ?_, fun h => ?_⟩
    · exact h.mono (fun _ _ hb => hb) (fun _ hp => hp) fun c hc hs => (habove c hc).1 hs
    · exact h.mono (fun _ _ hb => hb) (fun _ hp => hp) fun c hc hs => (habove c hc).2 hs

theorem mem_flagFrom_fst : b ∈ (flagFrom next pool hnext flagged stack hstack).1 ↔
    b ∈ flagged ∨ b ∈ (flagFrom next pool hnext flagged stack hstack).2 := by
  fun_induction flagFrom next pool hnext flagged stack hstack with
  | case1 flagged => simp
  | case2 flagged a rest hstack ha _ ih => exact ih
  | case3 flagged a rest hstack ha flagged' above _ found ih =>
    rw [ih, mem_set_insert, List.mem_cons, or_assoc, or_left_comm]

theorem nodup_flagFrom : (flagFrom next pool hnext flagged stack hstack).2.Nodup := by
  fun_induction flagFrom next pool hnext flagged stack hstack with
  | case1 flagged => exact .nil
  | case2 flagged a rest hstack ha _ ih => exact ih
  | case3 flagged a rest hstack ha flagged' above _ found ih =>
    refine List.nodup_cons.2 ⟨fun h => ?_, ih⟩
    exact (mem_unflagged.1 (mem_flagFrom.1 h).mem_pool).2 (mem_set_insert.2 (.inl rfl))

end Flag

end Spreadsheet
