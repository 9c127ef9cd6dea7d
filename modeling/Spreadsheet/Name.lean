/-
Names of expressions and of sheets. A name starts with a letter or an underscore, continues with
letters, numbers and underscores, and must not look like a cell label, so that an identifier in a
formula has one reading. A sheet name is any text; before a reference it stands bare if it is
plain, and otherwise in single quotes with the quotes inside it doubled.
-/
import Spreadsheet.Label
import Spreadsheet.Text.CharClass

namespace Spreadsheet

/-- Whether a character may start a name. -/
def isNameStart (c : Char) : Bool :=
  isAlphabetic c || c == '_'

/-- Whether a character may continue a name. -/
def isNamePart (c : Char) : Bool :=
  isAlphanumeric c || c == '_'

/-- Whether a text can name an expression. -/
def isNameChars : List Char → Bool
  | [] => false
  | c :: rest => isNameStart c && rest.all isNamePart && !isLabelShaped (c :: rest)

/-- Whether a text can name an expression. -/
def isValidName (name : String) : Bool :=
  isNameChars name.toList

/-- A text with every occurrence of a quote doubled. -/
def doubleQuotes (quote : Char) : List Char → List Char
  | [] => []
  | c :: rest =>
    if c = quote then c :: c :: doubleQuotes quote rest else c :: doubleQuotes quote rest

/-- A text between quotes, the quotes in it doubled. -/
def enquote (quote : Char) (s : List Char) : List Char :=
  quote :: doubleQuotes quote s ++ [quote]

/-- Whether a sheet name needs no quotes: ASCII letters, digits and underscores, no digit first. -/
def isPlainSheetName : List Char → Bool
  | [] => false
  | c :: rest => (c :: rest).all (fun d => d.isAlphanum || d == '_') && !c.isDigit

/-- A sheet name as it is written before a reference. -/
def quoteSheetName (name : String) : String :=
  if isPlainSheetName name.toList then name
  else String.ofList (enquote '\'' name.toList)

end Spreadsheet
