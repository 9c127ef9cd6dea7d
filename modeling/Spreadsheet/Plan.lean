/-
The order to work nodes off in, given what each depends on. Nodes that do not reach a cycle are
ordered so that each comes after everything it depends on; the others are told apart into the
members of cycles and the nodes that merely lead to one.

The search for the strongly connected components is Tarjan's, with a stack of frames in place of
recursive calls. A visited node has a mark. It stays on the component stack until the component that
it belongs to is complete, and components are complete only after all that they depend on. A
component that is a cycle, or depends on one, taints its nodes.
-/
import Std.Data.ExtTreeMap
import Spreadsheet.Reach

namespace Spreadsheet

variable {α : Type} [Ord α] [Std.TransOrd α]

/-- What to do with a set of nodes: which to work off in what order, and which not to. -/
structure Plan (α : Type) where
  order : List α
  cycleMembers : List α
  cycleDependents : List α

/-- What is known of a visited node: when it was visited, when the earliest node was visited that it
is known to lead to on the component stack, and whether it is on that stack itself. -/
structure Mark where
  index : Nat
  lowlink : Nat
  onStack : Bool

/-- A node that is being expanded, and those of the targets it depends on that have not been looked
at yet. -/
structure Frame (targets : Std.ExtTreeSet α) where
  node : α
  rest : List α
  mem_targets : ∀ b ∈ rest, b ∈ targets

/-- How the nodes of complete components have been filed, in lists with the newest nodes first, and
which of them are on a cycle or depend on one. -/
structure Filing (α : Type) [Ord α] [Std.TransOrd α] where
  tainted : Std.ExtTreeSet α
  order : List α
  cycleMembers : List α
  cycleDependents : List α

/-- The state of the search: the marks of the visited nodes, the index of the next one, the
component stack with the newest node first, and what has been filed. -/
structure Search (α : Type) [Ord α] [Std.TransOrd α] where
  marks : Std.ExtTreeMap α Mark
  counter : Nat
  stack : List α
  filing : Filing α

/-- The targets among the nodes that a node depends on, in ascending order. -/
def targetsAmong (dependencies : α → Std.ExtTreeSet α) (targets : Std.ExtTreeSet α) (a : α) :
    List α :=
  (dependencies a).toList.filter targets.contains

/-- The frame of a node that has just been visited. -/
def Frame.first (dependencies : α → Std.ExtTreeSet α) (targets : Std.ExtTreeSet α) (a : α) :
    Frame targets where
  node := a
  rest := targetsAmong dependencies targets a
  mem_targets _ hb := (List.mem_filter.1 hb).2

/-- The frame when the next node has been looked at. -/
def Frame.skip {targets : Std.ExtTreeSet α} (f : Frame targets) : Frame targets where
  node := f.node
  rest := f.rest.tail
  mem_targets b hb := f.mem_targets b (List.mem_of_mem_tail hb)

/-- How many nodes frames have still to look at, the end of each frame counted too. -/
def workLeft {targets : Std.ExtTreeSet α} : List (Frame targets) → Nat
  | [] => 0
  | f :: frames => f.rest.length + 1 + workLeft frames

namespace Filing

/-- Nothing has been filed. -/
def start : Filing α := ⟨∅, [], [], []⟩

variable (dependencies : α → Std.ExtTreeSet α) (targets : Std.ExtTreeSet α)

/-- Files a node that is on no cycle: all that it depends on has been filed before. -/
def file (p : Filing α) (a : α) : Filing α :=
  match (targetsAmong dependencies targets a).any p.tainted.contains with
  | true => { p with tainted := p.tainted.insert a, cycleDependents := a :: p.cycleDependents }
  | false => { p with order := a :: p.order }

/-- Whether the nodes of a component are on cycles: if there are several of them, or if one depends
on itself. -/
def isCyclic (component : List α) : Bool :=
  1 < component.length || component.any fun a => (dependencies a).contains a

/-- Files the nodes of a component. -/
def classify (p : Filing α) (component : List α) : Filing α :=
  match isCyclic dependencies component with
  | true =>
    { p with
      tainted := p.tainted.insertMany component
      cycleMembers := component ++ p.cycleMembers }
  | false => component.foldl (file dependencies targets) p

/-- The plan that has been found. The nodes on cycles and below them are sorted. -/
def plan (p : Filing α) : Plan α where
  order := p.order.reverse
  cycleMembers := p.cycleMembers.mergeSort fun a b => (compare a b).isLE
  cycleDependents := p.cycleDependents.mergeSort fun a b => (compare a b).isLE

end Filing

namespace Search

/-- Nothing has been visited. -/
def start : Search α := ⟨∅, 0, [], .start⟩

/-- Visits a node: it is marked and put onto the component stack. -/
def visit (s : Search α) (a : α) : Search α :=
  { s with
    marks := s.marks.insert a ⟨s.counter, s.counter, true⟩
    counter := s.counter + 1
    stack := a :: s.stack }

/-- Lets a node know of a node visited earlier that it leads to. -/
def lower (s : Search α) (a : α) (index : Nat) : Search α :=
  { s with marks := s.marks.modify a fun mark => { mark with lowlink := min mark.lowlink index } }

/-- The upper part of a stack down to a node, and what is below. -/
def popUntil (a : α) : List α → List α × List α
  | [] => ([], [])
  | b :: rest =>
    if compare b a == .eq then ([b], rest)
    else (b :: (popUntil a rest).1, (popUntil a rest).2)

/-- Marks of which some nodes are no longer on the component stack. -/
def takeOff (marks : Std.ExtTreeMap α Mark) (l : List α) : Std.ExtTreeMap α Mark :=
  l.foldl (fun marks a => marks.modify a ({ · with onStack := false })) marks

section Graph

variable (dependencies : α → Std.ExtTreeSet α) (targets : Std.ExtTreeSet α)

/-- Takes the component of a node from the stack and files it. -/
def complete (s : Search α) (a : α) : Search α :=
  let component := (popUntil a s.stack).1
  { s with
    marks := takeOff s.marks component
    stack := (popUntil a s.stack).2
    filing := s.filing.classify dependencies targets component }

/-- Ends the expansion of a node: the node above it on the path leads wherever it does, and if it
leads to none that was visited earlier its component is complete. -/
def leave (s : Search α) (a : α) (above : Option α) : Search α :=
  match s.marks[a]? with
  | none => s
  | some mark =>
    let s := match above with
      | some b => s.lower b mark.lowlink
      | none => s
    if mark.index = mark.lowlink then s.complete dependencies targets a else s

/-- The targets that have not been visited. -/
def unvisited (s : Search α) : Std.ExtTreeSet α :=
  targets.filter fun a => !s.marks.contains a

/-! ### Only a visit marks a node -/

variable {dependencies targets}

theorem mem_marks_lower {s : Search α} {a b : α} {index : Nat} :
    b ∈ (s.lower a index).marks ↔ b ∈ s.marks := Std.ExtTreeMap.mem_modify

theorem mem_takeOff {marks : Std.ExtTreeMap α Mark} {l : List α} {a : α} :
    a ∈ takeOff marks l ↔ a ∈ marks := by
  induction l generalizing marks with
  | nil => rfl
  | cons b l ih => exact ih.trans Std.ExtTreeMap.mem_modify

theorem mem_marks_complete {s : Search α} {a b : α} :
    b ∈ (s.complete dependencies targets a).marks ↔ b ∈ s.marks := mem_takeOff

theorem mem_marks_leave {s : Search α} {a b : α} {above : Option α} :
    b ∈ (s.leave dependencies targets a above).marks ↔ b ∈ s.marks := by
  unfold leave
  cases s.marks[a]? with
  | none => rfl
  | some mark =>
    cases above <;> dsimp only <;> split <;> simp only [mem_marks_complete, mem_marks_lower]

variable [Std.LawfulEqOrd α]

theorem mem_unvisited {s : Search α} {a : α} :
    a ∈ s.unvisited targets ↔ a ∈ targets ∧ a ∉ s.marks := by
  rw [unvisited, mem_set_filter, Bool.not_eq_true', ← Bool.not_eq_true,
    Std.ExtTreeMap.contains_iff_mem]

theorem unvisited_congr {s t : Search α} (h : ∀ a, a ∈ s.marks ↔ a ∈ t.marks) :
    s.unvisited targets = t.unvisited targets :=
  Std.ExtTreeSet.ext_mem fun a => by rw [mem_unvisited, mem_unvisited, h]

theorem mem_marks_visit {s : Search α} {a b : α} :
    b ∈ (s.visit a).marks ↔ b = a ∨ b ∈ s.marks := by
  rw [visit, Std.ExtTreeMap.mem_insert, Std.LawfulEqCmp.compare_eq_iff_eq, eq_comm]

theorem size_unvisited_visit_lt {s : Search α} {a : α} (ha : a ∈ targets)
    (hnew : s.marks[a]? = none) :
    ((s.visit a).unvisited targets).size < (s.unvisited targets).size := by
  have herase : (s.visit a).unvisited targets = (s.unvisited targets).erase a :=
    Std.ExtTreeSet.ext_mem fun b => by
      rw [mem_unvisited, mem_marks_visit, mem_set_erase, mem_unvisited, not_or, and_left_comm]
  rw [herase]
  refine size_erase_lt (mem_unvisited.2 ⟨ha, fun h => ?_⟩)
  rw [Std.ExtTreeMap.mem_iff_isSome_getElem?, hnew] at h
  cases h

end Graph

/-! ### The search -/

/-- Expands nodes until all frames are done, the uppermost first. It looks at what the node of that
frame depends on, one after another: what has not been visited is expanded next, and what is on the
component stack was visited before the node and is led to by it. -/
def expand {α : Type} [Ord α] [Std.TransOrd α] [Std.LawfulEqOrd α]
    (dependencies : α → Std.ExtTreeSet α) (targets : Std.ExtTreeSet α) (s : Search α)
    (frames : List (Frame targets)) : Search α :=
  match frames with
  | [] => s
  | f :: frames =>
    match _hrest : f.rest with
    | [] =>
      expand dependencies targets
        (s.leave dependencies targets f.node (frames.head?.map Frame.node)) frames
    | b :: _ =>
      match _hmark : s.marks[b]? with
      | none =>
        expand dependencies targets (s.visit b) (.first dependencies targets b :: f.skip :: frames)
      | some mark =>
        if mark.onStack then
          expand dependencies targets (s.lower f.node mark.index) (f.skip :: frames)
        else expand dependencies targets s (f.skip :: frames)
termination_by ((s.unvisited targets).size, workLeft frames)
decreasing_by
  · rw [unvisited_congr fun _ => mem_marks_leave]
    exact Prod.Lex.right _ (by simp [workLeft])
  · exact Prod.Lex.left _ _ (size_unvisited_visit_lt (f.mem_targets b (by simp [_hrest])) _hmark)
  · rw [unvisited_congr fun _ => mem_marks_lower]
    exact Prod.Lex.right _ (by simp [workLeft, Frame.skip, _hrest])
  · exact Prod.Lex.right _ (by simp [workLeft, Frame.skip, _hrest])

variable [Std.LawfulEqOrd α]

/-- Expands a target and all that is found from it, unless it has been visited. -/
def searchFrom (dependencies : α → Std.ExtTreeSet α) (targets : Std.ExtTreeSet α) (s : Search α)
    (root : α) : Search α :=
  if s.marks.contains root then s
  else expand dependencies targets (s.visit root) [.first dependencies targets root]

end Search

/-- The plan for a set of targets. -/
def Plan.make [Std.LawfulEqOrd α] (dependencies : α → Std.ExtTreeSet α)
    (targets : Std.ExtTreeSet α) : Plan α :=
  (targets.toList.foldl (Search.searchFrom dependencies targets) .start).filing.plan

end Spreadsheet
