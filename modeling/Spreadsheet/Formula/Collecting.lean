/-
The reader that takes note of what it meets. It reads as the parser does, but its functions share a
state: the tokens still to be read, and the references and the names met so far. A name or a
reference is noted where it is read, far from where the tree above it is put together; when the
reading fails the state is lost.
-/
import Spreadsheet.Formula.Basic

namespace Spreadsheet

/-- Tokens still to be read, and what has been met so far. -/
structure ReaderState where
  tokens : Tokens
  noted : Uses

/-- A step of the reader. -/
abbrev Reader (α : Type) := StateT ReaderState (Except SyntaxError) α

namespace Reader

/-- Goes on with other tokens. -/
def goOn (rest : Tokens) : Reader Unit :=
  modify fun s => { s with tokens := rest }

/-- Takes note of a name, unless it has been met before. -/
def noteName (name : String) : Reader Unit :=
  modify fun s => { s with noted.names := appendNew s.noted.names name }

/-- Takes note of a reference, unless it has been met before. -/
def noteReference (target : Reference) : Reader Unit :=
  modify fun s => { s with noted.references := appendNew s.noted.references target }

/-- Reads a reference and takes note of it. -/
def reference (scope : Scope) : Reader Expr := do
  let (target, rest) ← parseReference scope (← get).tokens
  goOn rest
  noteReference target
  return .reference target

/-- Reads the parenthesis that closes the one at a position. -/
def close (openPosition : Nat) : Reader Unit := do
  goOn (← closeParen openPosition (← get).tokens)

/-- Reads an operator if one of the given ones comes next. -/
def operator? (ops : List BinaryOp) : Reader (Option BinaryOp) := do
  match leadingOp? ops (← get).tokens with
  | none => return none
  | some (op, rest) =>
    goOn rest
    return some op

mutual

/-- Reads a phrase of a kind. -/
def phrase (scope : Scope) : Nat → Phrase → Reader Expr
  | 0, _ => throw ⟨.unexpectedEnd, scope.endPosition⟩
  | n + 1, .operand => operand scope n
  | n + 1, .signed => signed scope n
  | n + 1, .power => power scope n
  | n + 1, kind => do
    let left ← phrase scope n kind.tighter
    chain scope n kind left

/--
Reads the operators of a kind of phrase and their right operands, and groups them to the left.
-/
def chain (scope : Scope) : Nat → Phrase → Expr → Reader Expr
  | 0, _, _ => throw ⟨.unexpectedEnd, scope.endPosition⟩
  | n + 1, kind, left => do
    match ← operator? kind.operators with
    | none => return left
    | some op =>
      let right ← phrase scope n kind.tighter
      chain scope n kind (.binary op left right)

/-- Reads a signed operand and perhaps a power of it. -/
def power (scope : Scope) : Nat → Reader Expr
  | 0 => throw ⟨.unexpectedEnd, scope.endPosition⟩
  | n + 1 => do
    let base ← phrase scope n .signed
    match ← operator? [.pow] with
    | none => return base
    | some op =>
      let exponent ← phrase scope n .power
      return .binary op base exponent

/-- Reads signs and the operand after them. -/
def signed (scope : Scope) : Nat → Reader Expr
  | 0 => throw ⟨.unexpectedEnd, scope.endPosition⟩
  | n + 1 => do
    match leadingSign? (← get).tokens with
    | some (op, rest) =>
      goOn rest
      let operand ← phrase scope n .signed
      return .unary op operand
    | none => phrase scope n .operand

/-- Reads an operand without a sign. -/
def operand (scope : Scope) : Nat → Reader Expr
  | 0 => throw ⟨.unexpectedEnd, scope.endPosition⟩
  | n + 1 => do
    match (← get).tokens with
    | ⟨.number value, _⟩ :: rest =>
      goOn rest
      return .number value
    | ⟨.text content, _⟩ :: rest =>
      goOn rest
      return .text content
    | ⟨.openParen, position⟩ :: rest =>
      goOn rest
      let inner ← phrase scope n .comparison
      close position
      return inner
    | ⟨.identifier name, position⟩ :: ⟨.openParen, openPosition⟩ :: rest =>
      match Function.ofName? name with
      | none => throw ⟨.unknownFunction name, position⟩
      | some function =>
        goOn rest
        let args ← arguments scope n
        close openPosition
        return .call function args
    | ⟨.identifier name, _⟩ :: rest =>
      if isValidName name && endsName rest then
        goOn rest
        noteName name
        return .name name
      else reference scope
    | ⟨.quotedName _, _⟩ :: _ => reference scope
    | tokens => throw (unexpected scope tokens)

/-- Reads the arguments of a call, none if the call closes at once. -/
def arguments (scope : Scope) : Nat → Reader (List Expr)
  | 0 => throw ⟨.unexpectedEnd, scope.endPosition⟩
  | n + 1 => do
    match (← get).tokens with
    | ⟨.closeParen, _⟩ :: _ => return []
    | _ =>
      let first ← phrase scope n .comparison
      let others ← moreArguments scope n
      return first :: others

/-- Reads the arguments after commas. -/
def moreArguments (scope : Scope) : Nat → Reader (List Expr)
  | 0 => throw ⟨.unexpectedEnd, scope.endPosition⟩
  | n + 1 => do
    match (← get).tokens with
    | ⟨.comma, _⟩ :: rest =>
      goOn rest
      let next ← phrase scope n .comparison
      let others ← moreArguments scope n
      return next :: others
    | _ => return []

end

/-- The tree that all the tokens together form, and what has been met on the way. -/
def whole (scope : Scope) (tokens : Tokens) : Except SyntaxError (Expr × Uses) :=
  if tokens.isEmpty then .error ⟨.emptyFormula, 0⟩
  else do
    let (tree, s) ← (phrase scope (callBound tokens) .comparison).run ⟨tokens, {}⟩
    match s.tokens with
    | [] => return (tree, s.noted)
    | ⟨.closeParen, position⟩ :: _ => throw ⟨.unbalancedParen, position⟩
    | ⟨_, position⟩ :: _ => throw ⟨.trailingTokens, position⟩

end Reader

/-- Reads a formula and takes note of what it refers to on the way. -/
def Formula.parseNoting (source : String) (originSheet : Nat) (sheetNamed : String → Option Nat) :
    Except SyntaxError (Formula × Uses) := do
  let tokens ← tokenize source
  let (tree, noted) ← Reader.whole ⟨originSheet, sheetNamed, source.length⟩ tokens
  return (⟨source, tree⟩, noted)

end Spreadsheet
