/-
The reader that takes note on its way notes what is in the tree. It reads
what the parser reads, and when it has read an expression its notes have grown
by what that expression refers to (`Reader.notesUses`): one induction over the
number of nested calls, for all its functions together. So the notes are those
that can be read off the tree afterwards, for every text
(`Formula.parseNoting_eq`), and list the references and the names that occur
there (`Formula.noted_are_the_leaves`).
-/
import Spreadsheet.Formula.Collecting
import Spreadsheet.Proofs.Occurrences
import Spreadsheet.Proofs.Reading

namespace Spreadsheet

/-! ## Readings with notes -/

section Noting

variable {α β : Type} {parsed : Except SyntaxError (α × Tokens)} {note : α → Uses}

/-- What has been parsed, as the reader returns it: with the notes that belong to it. -/
def noting (note : α → Uses) (parsed : Except SyntaxError (α × Tokens)) :
    Except SyntaxError (α × ReaderState) :=
  parsed.map fun (a, rest) => (a, ⟨rest, note a⟩)

theorem noting_bind {note' : β → Uses}
    {next : α × ReaderState → Except SyntaxError (β × ReaderState)}
    {parseNext : α × Tokens → Except SyntaxError (β × Tokens)}
    (h : ∀ a rest, next (a, ⟨rest, note a⟩) = noting note' (parseNext (a, rest))) :
    noting note parsed >>= next = noting note' (parsed >>= parseNext) :=
  map_bind fun p => h p.1 p.2

end Noting

namespace Reader

variable {scope : Scope} {tokens : Tokens} {noted : Uses}

/-! ## Steps without a call -/

@[simp] theorem run_goOn {rest : Tokens} :
    (goOn rest).run ⟨tokens, noted⟩ = pure ((), ⟨rest, noted⟩) := rfl

@[simp] theorem run_close {openPosition : Nat} : (close openPosition).run ⟨tokens, noted⟩ =
    (closeParen openPosition tokens).map fun rest => ((), ⟨rest, noted⟩) := by
  simp only [close, StateT.run_bind, StateT.run_get, pure_bind]
  cases closeParen openPosition tokens <;> rfl

@[simp] theorem run_operator? {ops : List BinaryOp} : (operator? ops).run ⟨tokens, noted⟩ =
    pure (match leadingOp? ops tokens with
      | none => (none, ⟨tokens, noted⟩)
      | some (op, rest) => (some op, ⟨rest, noted⟩)) := by
  simp only [operator?, StateT.run_bind, StateT.run_get, pure_bind]
  cases leadingOp? ops tokens <;> rfl

theorem run_reference : (reference scope).run ⟨tokens, noted⟩ =
    noting (·.addUses noted) (do
      let (target, rest) ← parseReference scope tokens
      return (.reference target, rest)) := by
  simp only [reference, StateT.run_bind, StateT.run_get, pure_bind]
  cases parseReference scope tokens <;> rfl

/-! ## Calls -/

/-- What is read with a number of nested calls is what is parsed, and what the result refers to has
been noted beside what was noted before. A chain of operators starts when its left operand has been
noted. -/
structure NotesUses (scope : Scope) (n : Nat) : Prop where
  phrase : ∀ kind tokens noted, (phrase scope n kind).run ⟨tokens, noted⟩ =
    noting (·.addUses noted) (parsePhrase scope n kind tokens)
  chain : ∀ kind left tokens noted, (chain scope n kind left).run ⟨tokens, left.addUses noted⟩ =
    noting (·.addUses noted) (parseChain scope n kind left tokens)
  power : ∀ tokens noted, (power scope n).run ⟨tokens, noted⟩ =
    noting (·.addUses noted) (parsePower scope n tokens)
  signed : ∀ tokens noted, (signed scope n).run ⟨tokens, noted⟩ =
    noting (·.addUses noted) (parseSigned scope n tokens)
  operand : ∀ tokens noted, (operand scope n).run ⟨tokens, noted⟩ =
    noting (·.addUses noted) (parseOperand scope n tokens)
  arguments : ∀ tokens noted, (arguments scope n).run ⟨tokens, noted⟩ =
    noting (addUsesOfAll noted) (parseArguments scope n tokens)
  more : ∀ tokens noted, (moreArguments scope n).run ⟨tokens, noted⟩ =
    noting (addUsesOfAll noted) (parseMoreArguments scope n tokens)

theorem NotesUses.zero : NotesUses scope 0 := by
  constructor <;> intros <;> rfl

namespace NotesUses

variable {n : Nat}

theorem succ_phrase (ih : NotesUses scope n) (kind : Phrase) :
    (Reader.phrase scope (n + 1) kind).run ⟨tokens, noted⟩ =
      noting (·.addUses noted) (parsePhrase scope (n + 1) kind tokens) := by
  cases kind with
  | operand => exact ih.operand tokens noted
  | signed => exact ih.signed tokens noted
  | power => exact ih.power tokens noted
  | comparison | sum | product =>
    simp only [Reader.phrase, parsePhrase, StateT.run_bind, ih.phrase]
    exact noting_bind fun left rest => ih.chain _ left rest noted

theorem succ_chain (ih : NotesUses scope n) (kind : Phrase) (left : Expr) :
    (Reader.chain scope (n + 1) kind left).run ⟨tokens, left.addUses noted⟩ =
      noting (·.addUses noted) (parseChain scope (n + 1) kind left tokens) := by
  simp only [Reader.chain, parseChain, StateT.run_bind, run_operator?, pure_bind]
  cases leadingOp? kind.operators tokens with
  | none => rfl
  | some p =>
    simp only [StateT.run_bind, ih.phrase]
    exact noting_bind fun right rest => ih.chain kind (.binary p.1 left right) rest noted

theorem succ_power (ih : NotesUses scope n) : (Reader.power scope (n + 1)).run ⟨tokens, noted⟩ =
    noting (·.addUses noted) (parsePower scope (n + 1) tokens) := by
  simp only [Reader.power, parsePower, StateT.run_bind, ih.phrase]
  refine noting_bind fun base rest => ?_
  rw [run_operator?, pure_bind]
  cases leadingOp? [.pow] rest with
  | none => rfl
  | some p =>
    simp only [StateT.run_bind, ih.phrase]
    exact noting_bind fun exponent rest => rfl

theorem succ_signed (ih : NotesUses scope n) : (Reader.signed scope (n + 1)).run ⟨tokens, noted⟩ =
    noting (·.addUses noted) (parseSigned scope (n + 1) tokens) := by
  simp only [Reader.signed, parseSigned, StateT.run_bind, StateT.run_get, pure_bind]
  cases leadingSign? tokens with
  | none => exact ih.phrase .operand tokens noted
  | some p =>
    simp only [StateT.run_bind, run_goOn, pure_bind, ih.phrase]
    exact noting_bind fun operand rest => rfl

theorem succ_operand (ih : NotesUses scope n) : (Reader.operand scope (n + 1)).run ⟨tokens, noted⟩ =
    noting (·.addUses noted) (parseOperand scope (n + 1) tokens) := by
  simp only [Reader.operand, StateT.run_bind, StateT.run_get, pure_bind]
  split
  · rfl
  · rfl
  · -- parentheses
    simp only [parseOperand, StateT.run_bind, run_goOn, pure_bind, ih.phrase]
    refine noting_bind fun inner rest => ?_
    rw [run_close]
    cases closeParen _ rest <;> rfl
  · -- a call
    rename_i name _ _ _
    simp only [parseOperand]
    cases Function.ofName? name with
    | none => rfl
    | some function =>
      simp only [StateT.run_bind, run_goOn, pure_bind, ih.arguments]
      refine noting_bind fun args rest => ?_
      rw [run_close]
      cases closeParen _ rest <;> rfl
  · -- a name, or a reference that starts with an identifier
    simp only [parseOperand]
    split
    · rfl
    · exact run_reference
  · exact run_reference
  · simp only [parseOperand]
    rfl

theorem succ_arguments (ih : NotesUses scope n) :
    (Reader.arguments scope (n + 1)).run ⟨tokens, noted⟩ =
      noting (addUsesOfAll noted) (parseArguments scope (n + 1) tokens) := by
  simp only [Reader.arguments, StateT.run_bind, StateT.run_get, pure_bind]
  split
  · rfl
  · simp only [parseArguments, StateT.run_bind, ih.phrase]
    refine noting_bind fun first rest => ?_
    rw [ih.more]
    exact noting_bind fun others rest => rfl

theorem succ_more (ih : NotesUses scope n) :
    (Reader.moreArguments scope (n + 1)).run ⟨tokens, noted⟩ =
      noting (addUsesOfAll noted) (parseMoreArguments scope (n + 1) tokens) := by
  simp only [Reader.moreArguments, StateT.run_bind, StateT.run_get, pure_bind]
  split
  · simp only [parseMoreArguments, StateT.run_bind, run_goOn, pure_bind, ih.phrase]
    refine noting_bind fun next rest => ?_
    rw [ih.more]
    exact noting_bind fun others rest => rfl
  · simp only [parseMoreArguments]
    rfl

end NotesUses

/-- **The reader reads what the parser reads and has noted what the result refers to.** -/
theorem notesUses (scope : Scope) : ∀ n, NotesUses scope n
  | 0 => .zero
  | n + 1 =>
    have ih := notesUses scope n
    { phrase := fun kind _ _ => ih.succ_phrase kind
      chain := fun kind left _ _ => ih.succ_chain kind left
      power := fun _ _ => ih.succ_power
      signed := fun _ _ => ih.succ_signed
      operand := fun _ _ => ih.succ_operand
      arguments := fun _ _ => ih.succ_arguments
      more := fun _ _ => ih.succ_more }

theorem whole_eq :
    whole scope tokens = (parseTokens scope tokens).map fun tree => (tree, tree.uses) := by
  unfold whole parseTokens parseExpression
  split
  · rfl
  · rw [(notesUses scope _).phrase]
    refine map_bind fun (tree, rest) => ?_
    cases rest with
    | nil => rfl
    | cons t rest =>
      obtain ⟨token, position⟩ := t
      cases token <;> rfl

end Reader

/-! ## Whole formulas -/

namespace Formula

variable {source : String} {originSheet : Nat} {sheetNamed : String → Option Nat}

/-- **What is noted on the way is what is read off the tree**, for every text, whether it can be
read or not. -/
theorem parseNoting_eq : parseNoting source originSheet sheetNamed =
    (parse source originSheet sheetNamed).map fun f => (f, ⟨f.references, f.names⟩) := by
  unfold parseNoting parse
  cases tokenize source with
  | error e => rfl
  | ok tokens =>
    change Reader.whole ⟨originSheet, sheetNamed, source.length⟩ tokens >>= _ = _
    rw [Reader.whole_eq]
    exact map_bind fun tree => rfl

/-- **The references and names of a formula are the leaves of its tree.** For every text that can be
read, the reader has noted, when it is done, the references and names that the formula is kept with;
each list holds what occurs in the tree, nothing twice, in the order of first occurrences from left
to right. -/
theorem noted_are_the_leaves {f : Formula} (h : parse source originSheet sheetNamed = .ok f) :
    parseNoting source originSheet sheetNamed = .ok (f, ⟨f.references, f.names⟩) ∧
      (f.references.Nodup ∧ f.names.Nodup) ∧
      FirstOccurrences f.references (f.tree.leaves.filterMap Expr.reference?) ∧
      FirstOccurrences f.names (f.tree.leaves.filterMap Expr.name?) := by
  have huses := f.tree.firstIn_uses
  refine ⟨?_, ⟨huses.references.nodup, huses.names.nodup⟩, huses.references, huses.names⟩
  rw [parseNoting_eq, h]
  rfl

/-- A name, a cell and a block that come back, the block inside a call and then with its corners the
other way round. -/
theorem noted_are_the_leaves_repeated :
    let cell : Expr := .reference (.cell ⟨0, 0, 0⟩)
    let block : Expr := .reference (.range (.ofCorners 0 0 0 1 1))
    let f : Formula := ⟨"=rate*A1-SUM(A1:B2,rate)-B2:A1*base*a1", .binary .sub
      (.binary .sub (.binary .mul (.name "rate") cell) (.call .sum [block, .name "rate"]))
      (.binary .mul (.binary .mul block (.name "base")) cell)⟩
    (parse f.source 0 (fun _ => none) = .ok f ∧
        f.references = [.cell ⟨0, 0, 0⟩, .range (.ofCorners 0 0 0 1 1)] ∧
        f.names = ["rate", "base"]) ∧
      parseNoting f.source 0 (fun _ => none) = .ok (f, ⟨f.references, f.names⟩) ∧
      (f.references.Nodup ∧ f.names.Nodup) ∧
      FirstOccurrences f.references (f.tree.leaves.filterMap Expr.reference?) ∧
      FirstOccurrences f.names (f.tree.leaves.filterMap Expr.name?) := by
  intro cell block f
  have hread : parse f.source 0 (fun _ => none) = .ok f := by cbv
  exact ⟨⟨hread, by cbv⟩, noted_are_the_leaves hread⟩

end Formula

end Spreadsheet
