import Spreadsheet.Formula.Grammar
import Spreadsheet.Formula.Printer
import Spreadsheet.Main
import Spreadsheet.NameTable.Expand
import Spreadsheet.Proofs.Accounting
import Spreadsheet.Proofs.Agreement
import Spreadsheet.Proofs.Confluence
import Spreadsheet.Proofs.Dependents
import Spreadsheet.Proofs.Derivation
import Spreadsheet.Proofs.Footprint
import Spreadsheet.Proofs.ParserSound
import Spreadsheet.Proofs.Recognition
import Spreadsheet.Proofs.Characters
import Spreadsheet.Proofs.EmptyCells
import Spreadsheet.Proofs.Expansion
import Spreadsheet.Proofs.Extent
import Spreadsheet.Proofs.Labels
import Spreadsheet.Proofs.Printing
import Spreadsheet.Proofs.Relaxation
import Spreadsheet.Proofs.Sparse
import Spreadsheet.Proofs.Locating
import Spreadsheet.Proofs.Unfolding
import Spreadsheet.Proofs.Edges
import Spreadsheet.Proofs.Entries
import Spreadsheet.Proofs.Loading
import Spreadsheet.Proofs.LoadedCells
import Spreadsheet.Proofs.Precedents
import Spreadsheet.Proofs.Refusal
import Spreadsheet.Proofs.Sorting
import Spreadsheet.Proofs.Collecting
import Spreadsheet.Proofs.Coverage
import Spreadsheet.Proofs.Definitions
import Spreadsheet.Proofs.Rendering
import Spreadsheet.Proofs.Identifiers
import Spreadsheet.Proofs.Displacement
import Spreadsheet.Proofs.Occupancy
import Spreadsheet.Proofs.RangeArguments
