/-
The report of a recalculation: how many cells were dirty, how many formulas were evaluated and with
what outcome, and how long it took. Times are written in milliseconds with two places.
-/
import Spreadsheet.JsonValue

namespace Spreadsheet

/-- What a recalculation did. -/
structure Report where
  dirtyCells : Nat
  evaluated : Nat
  cycleMembers : Nat
  cycleDependents : Nat
  errorResults : Nat
  /-- The time taken, in nanoseconds. -/
  elapsed : Nat
deriving DecidableEq, Inhabited

namespace Report

/-- Whether any cell lies on a cycle. -/
def hadCycles (r : Report) : Bool :=
  decide (0 < r.cycleMembers)

/-- The time taken in milliseconds: the whole seconds and the rest are added as seconds first. -/
def milliseconds (r : Report) : Float :=
  let seconds := (UInt64.ofNat (r.elapsed / 1000000000)).toFloat
  let rest := (UInt64.ofNat (r.elapsed % 1000000000)).toFloat / 1000000000
  (seconds + rest) * 1000

/-- The time taken in whole microseconds. -/
def microseconds (r : Report) : Nat :=
  r.elapsed / 1000

/-- The milliseconds with two places. -/
def timeText (r : Report) : String :=
  match Binary64.ofFloat? r.milliseconds with
  | some b => b.fixedText 2
  | none => ""

/-- The report in one line; outcomes that did not occur are left out. -/
def summary (r : Report) : String :=
  decimalText r.evaluated ++ " formula(s) evaluated in " ++ r.timeText ++ "ms" ++
    (if 0 < r.errorResults then ", " ++ decimalText r.errorResults ++ " error result(s)" else "") ++
    (if r.hadCycles then
      ", " ++ decimalText r.cycleMembers ++ " cell(s) in cycles, " ++
        decimalText r.cycleDependents ++ " downstream"
    else "")

/-- The report as a JSON value; the time is in microseconds. -/
def toJson (r : Report) : JsonValue :=
  .object [("dirty_cells", .count r.dirtyCells), ("evaluated", .count r.evaluated),
    ("cycle_members", .count r.cycleMembers), ("cycle_dependents", .count r.cycleDependents),
    ("error_results", .count r.errorResults), ("elapsed_us", .count r.microseconds)]

end Report

end Spreadsheet
