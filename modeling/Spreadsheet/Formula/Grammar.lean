/-
The grammar of formulas, as a relation between tokens and trees. `Derives scope kind s e` says that
the tokens `s` are a phrase of a kind with the tree `e`. The relation says nothing of how a tree is
found: where tokens can be split is left open, and so is whether another tree fits them too.
-/
import Spreadsheet.Formula.Expr
import Spreadsheet.Formula.Parser

namespace Spreadsheet

/-- Tokens that name a cell: a label on the origin sheet, or a sheet, a `!` and a label. -/
inductive DerivesCell (scope : Scope) : List Token → CellAddress → Prop where
  | bare {label : String} {row col : UInt32} :
    parseLabel label = some (row, col) →
    DerivesCell scope [.identifier label] ⟨scope.originSheet, row, col⟩
  | onSheet {sheetToken : Token} {name label : String} {sheet : Nat} {row col : UInt32} :
    sheetToken = .identifier name ∨ sheetToken = .quotedName name →
    scope.sheetNamed name = some sheet → parseLabel label = some (row, col) →
    DerivesCell scope [sheetToken, .bang, .identifier label] ⟨sheet, row, col⟩

/-- Tokens that are a reference: a cell, or two cells of one sheet around a colon. -/
inductive DerivesReference (scope : Scope) : List Token → Reference → Prop where
  | cell {s : List Token} {a : CellAddress} :
    DerivesCell scope s a → DerivesReference scope s (.cell a)
  | range {s t : List Token} {a b : CellAddress} :
    DerivesCell scope s a → DerivesCell scope t b → b.sheet = a.sheet →
    DerivesReference scope (s ++ .colon :: t) (.range (.ofCorners a.sheet a.row a.col b.row b.col))

mutual

/-- Tokens that are a phrase of a kind, and its tree. -/
inductive Derives (scope : Scope) : Phrase → List Token → Expr → Prop where
  /-- A phrase is a phrase of every looser kind too. -/
  | looser {kind : Phrase} {s : List Token} {e : Expr} :
    Derives scope kind.tighter s e → Derives scope kind s e
  /-- The operators of a kind group to the left. -/
  | operator {kind : Phrase} {op : BinaryOp} {s t : List Token} {a b : Expr} :
    op ∈ kind.operators → Derives scope kind s a → Derives scope kind.tighter t b →
    Derives scope kind (s ++ .operator op :: t) (.binary op a b)
  /-- Powers group to the right. -/
  | power {s t : List Token} {a b : Expr} :
    Derives scope .signed s a → Derives scope .power t b →
    Derives scope .power (s ++ .operator .pow :: t) (.binary .pow a b)
  | sign {op : UnaryOp} {s : List Token} {e : Expr} :
    Derives scope .signed s e → Derives scope .signed (.operator op.symbol :: s) (.unary op e)
  | number (x : Float) : Derives scope .operand [.number x] (.number x)
  | text (content : String) : Derives scope .operand [.text content] (.text content)
  | parentheses {s : List Token} {e : Expr} :
    Derives scope .comparison s e →
    Derives scope .operand (.openParen :: s ++ [.closeParen]) e
  | call {name : String} {f : Function} {s : List Token} {arguments : List Expr} :
    Function.ofName? name = some f → DerivesArguments scope s arguments →
    Derives scope .operand (.identifier name :: .openParen :: s ++ [.closeParen])
      (.call f arguments)
  | name {n : String} :
    isValidName n = true → Derives scope .operand [.identifier n] (.name n)
  | reference {s : List Token} {target : Reference} :
    DerivesReference scope s target → Derives scope .operand s (.reference target)

/-- Tokens that are the arguments of a call, commas between them. -/
inductive DerivesArguments (scope : Scope) : List Token → List Expr → Prop where
  | none : DerivesArguments scope [] []
  | last {s : List Token} {e : Expr} :
    Derives scope .comparison s e → DerivesArguments scope s [e]
  | more {s t : List Token} {e next : Expr} {rest : List Expr} :
    Derives scope .comparison s e → DerivesArguments scope t (next :: rest) →
    DerivesArguments scope (s ++ .comma :: t) (e :: next :: rest)

end

end Spreadsheet
