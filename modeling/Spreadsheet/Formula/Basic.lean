/-
Formulas as they are kept: the text they were written as and the tree it was read to. What a formula
refers to is read off its tree.
-/
import Spreadsheet.Formula.Lexer
import Spreadsheet.Formula.Parser

namespace Spreadsheet

/-- A formula that has been read. -/
structure Formula where
  source : String
  tree : Expr
deriving Inhabited

namespace Formula

/-- The references of a formula, each once, in order of first occurrence. -/
def references (f : Formula) : List Reference :=
  f.tree.uses.references

/-- The names a formula uses, each once, in order of first occurrence. -/
def names (f : Formula) : List String :=
  f.tree.uses.names

/-- Reads a formula. Bare labels lie on the origin sheet, other sheets are found by name. -/
def parse (source : String) (originSheet : Nat) (sheetNamed : String → Option Nat) :
    Except SyntaxError Formula := do
  let tokens ← tokenize source
  let tree ← parseTokens ⟨originSheet, sheetNamed, source.length⟩ tokens
  return ⟨source, tree⟩

end Formula

end Spreadsheet
