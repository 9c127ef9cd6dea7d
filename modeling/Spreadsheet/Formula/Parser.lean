/-
From tokens to a tree. Phrases are read by their kinds, the loosest first. An operand is a number, a
text, an expression in parentheses, a function call, a name or a reference: an identifier before an
opening parenthesis is a function, one that is a valid name and stands before neither `!` nor `:` is
a name, and any other starts a reference.

Every function below takes a number that falls with each call. The wrapper `parseTokens` starts it
high enough for the calls that the tokens can cause: between two tokens consumed there are fewer
than ten of them.
-/
import Spreadsheet.Formula.Expr
import Spreadsheet.Formula.Phrase
import Spreadsheet.Name

namespace Spreadsheet

/-- What the reading of a formula depends on beside its tokens: the sheet that bare labels lie on,
the sheets that can be named, and the place just after the formula's last character. -/
structure Scope where
  originSheet : Nat
  sheetNamed : String → Option Nat
  endPosition : Nat

/-- Tokens still to be read. -/
abbrev Tokens := List PlacedToken

/-- An error at the first of the tokens that are left, or at the end. -/
def unexpected (scope : Scope) : Tokens → SyntaxError
  | [] => ⟨.unexpectedEnd, scope.endPosition⟩
  | t :: _ => ⟨.unexpectedToken t.token.shown, t.position⟩

/-- One end of a reference: a label, the sheet it lies on, and the sheet name if one was written. -/
structure CellPart where
  sheet : Nat
  sheetName : Option String
  label : String
  position : Nat

namespace CellPart

/-- A part as messages show it. -/
def shown (part : CellPart) : String :=
  match part.sheetName with
  | some name => quoteSheetName name ++ "!" ++ part.label
  | none => part.label

/-- The cell that a part names. -/
def address (part : CellPart) : Except SyntaxError CellAddress :=
  match parseLabel part.label with
  | some (row, col) => .ok ⟨part.sheet, row, col⟩
  | none => .error ⟨.malformedReference part.shown, part.position⟩

end CellPart

/-- Reads what follows a sheet name and its `!`. -/
def parseSheetPart (scope : Scope) (name : String) (position : Nat) (rest : Tokens) :
    Except SyntaxError (CellPart × Tokens) :=
  match scope.sheetNamed name with
  | none => .error ⟨.unknownSheet name, position⟩
  | some sheet =>
    match rest with
    | ⟨.identifier label, _⟩ :: rest => .ok (⟨sheet, some name, label, position⟩, rest)
    | _ => .error ⟨.malformedReference (quoteSheetName name ++ "!"), position⟩

/-- Reads one end of a reference. -/
def parseCellPart (scope : Scope) : Tokens → Except SyntaxError (CellPart × Tokens)
  | ⟨.identifier name, position⟩ :: ⟨.bang, _⟩ :: rest => parseSheetPart scope name position rest
  | ⟨.identifier label, position⟩ :: rest => .ok (⟨scope.originSheet, none, label, position⟩, rest)
  | ⟨.quotedName name, position⟩ :: ⟨.bang, _⟩ :: rest => parseSheetPart scope name position rest
  | ⟨.quotedName name, position⟩ :: _ =>
    .error ⟨.malformedReference (quoteSheetName name), position⟩
  | tokens => .error (unexpected scope tokens)

/-- The range between two parts, which must lie on one sheet. -/
def rangeBetween (first : CellPart) (firstCell : CellAddress) (last : CellPart) :
    Except SyntaxError Reference :=
  if last.sheet = first.sheet then
    last.address.map fun lastCell =>
      .range (.ofCorners first.sheet firstCell.row firstCell.col lastCell.row lastCell.col)
  else .error ⟨.malformedReference (first.shown ++ ":" ++ last.shown), first.position⟩

/-- Reads a reference: one part, or two parts around a colon. -/
def parseReference (scope : Scope) (tokens : Tokens) : Except SyntaxError (Reference × Tokens) := do
  let (first, rest) ← parseCellPart scope tokens
  let firstCell ← first.address
  match rest with
  | ⟨.colon, _⟩ :: rest =>
    let (last, rest) ← parseCellPart scope rest
    let reference ← rangeBetween first firstCell last
    return (reference, rest)
  | rest => return (.cell firstCell, rest)

/-- Reads the parenthesis that closes the one at a position. -/
def closeParen (openPosition : Nat) : Tokens → Except SyntaxError Tokens
  | [] => .error ⟨.unbalancedParen, openPosition⟩
  | ⟨.closeParen, _⟩ :: rest => .ok rest
  | t :: _ => .error ⟨.unexpectedToken t.token.shown, t.position⟩

/-- The operator at the start of the tokens if it is one of the given ones, and what follows. -/
def leadingOp? (ops : List BinaryOp) : Tokens → Option (BinaryOp × Tokens)
  | ⟨.operator op, _⟩ :: rest => if op ∈ ops then some (op, rest) else none
  | _ => none

/-- The sign at the start of the tokens, and what follows it. -/
def leadingSign? : Tokens → Option (UnaryOp × Tokens)
  | ⟨.operator .sub, _⟩ :: rest => some (.neg, rest)
  | ⟨.operator .add, _⟩ :: rest => some (.plus, rest)
  | _ => none

/-- Whether an identifier that ends here may be a name: no `!` or `:` follows. -/
def endsName : Tokens → Bool
  | ⟨.bang, _⟩ :: _ => false
  | ⟨.colon, _⟩ :: _ => false
  | _ => true

mutual

/-- Reads a phrase of a kind. -/
def parsePhrase (scope : Scope) : Nat → Phrase → Tokens → Except SyntaxError (Expr × Tokens)
  | 0, _, _ => .error ⟨.unexpectedEnd, scope.endPosition⟩
  | n + 1, .operand, tokens => parseOperand scope n tokens
  | n + 1, .signed, tokens => parseSigned scope n tokens
  | n + 1, .power, tokens => parsePower scope n tokens
  | n + 1, kind, tokens => do
    let (left, rest) ← parsePhrase scope n kind.tighter tokens
    parseChain scope n kind left rest

/--
Reads the operators of a kind of phrase and their right operands, and groups them to the left.
-/
def parseChain (scope : Scope) : Nat → Phrase → Expr → Tokens → Except SyntaxError (Expr × Tokens)
  | 0, _, _, _ => .error ⟨.unexpectedEnd, scope.endPosition⟩
  | n + 1, kind, left, tokens =>
    match leadingOp? kind.operators tokens with
    | none => .ok (left, tokens)
    | some (op, rest) => do
      let (right, rest) ← parsePhrase scope n kind.tighter rest
      parseChain scope n kind (.binary op left right) rest

/-- Reads a signed operand and perhaps a power of it. -/
def parsePower (scope : Scope) : Nat → Tokens → Except SyntaxError (Expr × Tokens)
  | 0, _ => .error ⟨.unexpectedEnd, scope.endPosition⟩
  | n + 1, tokens => do
    let (base, rest) ← parsePhrase scope n .signed tokens
    match leadingOp? [.pow] rest with
    | none => return (base, rest)
    | some (op, rest) =>
      let (exponent, rest) ← parsePhrase scope n .power rest
      return (.binary op base exponent, rest)

/-- Reads signs and the operand after them. -/
def parseSigned (scope : Scope) : Nat → Tokens → Except SyntaxError (Expr × Tokens)
  | 0, _ => .error ⟨.unexpectedEnd, scope.endPosition⟩
  | n + 1, tokens =>
    match leadingSign? tokens with
    | some (op, rest) => do
      let (operand, rest) ← parsePhrase scope n .signed rest
      return (.unary op operand, rest)
    | none => parsePhrase scope n .operand tokens

/-- Reads an operand without a sign. -/
def parseOperand (scope : Scope) : Nat → Tokens → Except SyntaxError (Expr × Tokens)
  | 0, _ => .error ⟨.unexpectedEnd, scope.endPosition⟩
  | n + 1, tokens =>
    match tokens with
    | ⟨.number value, _⟩ :: rest => .ok (.number value, rest)
    | ⟨.text content, _⟩ :: rest => .ok (.text content, rest)
    | ⟨.openParen, position⟩ :: rest => do
      let (inner, rest) ← parsePhrase scope n .comparison rest
      let rest ← closeParen position rest
      return (inner, rest)
    | ⟨.identifier name, position⟩ :: ⟨.openParen, openPosition⟩ :: rest =>
      match Function.ofName? name with
      | none => .error ⟨.unknownFunction name, position⟩
      | some function => do
        let (arguments, rest) ← parseArguments scope n rest
        let rest ← closeParen openPosition rest
        return (.call function arguments, rest)
    | ⟨.identifier name, position⟩ :: rest =>
      if isValidName name && endsName rest then .ok (.name name, rest)
      else do
        let (target, rest) ← parseReference scope (⟨.identifier name, position⟩ :: rest)
        return (.reference target, rest)
    | ⟨.quotedName name, position⟩ :: rest => do
      let (target, rest) ← parseReference scope (⟨.quotedName name, position⟩ :: rest)
      return (.reference target, rest)
    | tokens => .error (unexpected scope tokens)

/-- Reads the arguments of a call, none if the call closes at once. -/
def parseArguments (scope : Scope) : Nat → Tokens → Except SyntaxError (List Expr × Tokens)
  | 0, _ => .error ⟨.unexpectedEnd, scope.endPosition⟩
  | n + 1, tokens =>
    match tokens with
    | ⟨.closeParen, position⟩ :: rest => .ok ([], ⟨.closeParen, position⟩ :: rest)
    | tokens => do
      let (first, rest) ← parsePhrase scope n .comparison tokens
      let (others, rest) ← parseMoreArguments scope n rest
      return (first :: others, rest)

/-- Reads the arguments after commas. -/
def parseMoreArguments (scope : Scope) : Nat → Tokens → Except SyntaxError (List Expr × Tokens)
  | 0, _ => .error ⟨.unexpectedEnd, scope.endPosition⟩
  | n + 1, tokens =>
    match tokens with
    | ⟨.comma, _⟩ :: rest => do
      let (next, rest) ← parsePhrase scope n .comparison rest
      let (others, rest) ← parseMoreArguments scope n rest
      return (next :: others, rest)
    | tokens => .ok ([], tokens)

end

/-- A bound on the nested calls that reading the tokens takes. -/
def callBound (tokens : Tokens) : Nat :=
  10 * tokens.length + 10

/-- Reads an expression from the start of the tokens. -/
def parseExpression (scope : Scope) (tokens : Tokens) : Except SyntaxError (Expr × Tokens) :=
  parsePhrase scope (callBound tokens) .comparison tokens

/-- The tree that all the tokens together form. -/
def parseTokens (scope : Scope) (tokens : Tokens) : Except SyntaxError Expr :=
  if tokens.isEmpty then .error ⟨.emptyFormula, 0⟩
  else do
    let (tree, rest) ← parseExpression scope tokens
    match rest with
    | [] => return tree
    | ⟨.closeParen, position⟩ :: _ => throw ⟨.unbalancedParen, position⟩
    | ⟨_, position⟩ :: _ => throw ⟨.trailingTokens, position⟩

end Spreadsheet
